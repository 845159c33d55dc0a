/-
  A machine without the provision marker and a `setup_and_prepare` that fails.

  The data directory may hold anything but the marker, in particular a rootfs that some earlier
  attempt or an operator has left. `activate_staged_root` takes a rootfs that is there for one
  that was provisioned (`had_existing_root`), so the way back writes the marker that was never
  there. Besides, the write of the marker itself may fail with the file already created, and
  the removal of `rootfs.previous` after the start may fail with everything else done.

  `promoted` is the call up to the promotion, `stays_cold_iff` says when a call that fails
  leaves the machine cold.
-/
import FlyVault.Init.SetupFrame
import FlyVault.Init.Reprovision

namespace FlyVault.Init.Setup

open FlyVault.Lib FlyVault.Protocol
open Prog (wp wp_bind wp_pure wp_throw wp_mono)

variable {env : Env} {step : Step} {w : World}

/-- What `activate_staged_root` does before the promotion. -/
def clearWay (env : Env) : M Bool := do
  let hadRoot ← hadExistingRoot env
  stopRuntime env .stop
  removePathIfExists env .dropStale (.at .previous)
  setAside env hadRoot
  pure hadRoot

/-- `setup_and_prepare` with a payload up to the promotion; `had_existing_root`. -/
def promoted (env : Env) (data : Bytes) : M Bool := do
  let _ ← pathExists env .detect (.at .provisioned)
  stageRootfs env data
  let hadRoot ← clearWay env
  promote env hadRoot
  pure hadRoot

theorem setupAndPrepare_eq (data : Bytes) :
    setupAndPrepare env (some data) = (do
      let hadRoot ← promoted env data
      storeProvisionMarker env .mark
      startNew env hadRoot) := by
  simp [setupAndPrepare, activateStagedRoot, promoted, clearWay]

/-! ## The marker -/

/-- The marker is a file or absent. -/
def Plain (fs : Fs Slot) : Prop := fs .provisioned = none ∨ Marked fs

/-- The marker is there exactly if `b`. -/
def MarkedIf (b : Bool) (fs : Fs Slot) : Prop :=
  if b then Marked fs else fs .provisioned = none

theorem Plain.of_eq {fs fs' : Fs Slot} (h : Plain fs)
    (heq : fs' .provisioned = fs .provisioned) : Plain fs' := by
  rcases h with h | h
  · exact .inl (heq.trans h)
  · exact .inr (h.of_eq heq)

theorem MarkedIf.of_eq {b : Bool} {fs fs' : Fs Slot} (h : MarkedIf b fs)
    (heq : fs' .provisioned = fs .provisioned) : MarkedIf b fs' := by
  unfold MarkedIf at h ⊢
  split
  · next hb => rw [if_pos hb] at h; exact h.of_eq heq
  · next hb => rw [if_neg hb] at h; exact heq.trans h

theorem detectState_of_absent {fs : Fs Slot} (h : fs .provisioned = none) :
    detectState env fs = .cold := by
  simp [detectState, Fs.pathExists, h]

theorem MarkedIf.cold_iff {b : Bool} {fs : Fs Slot} (h : MarkedIf b fs) :
    detectState env fs = .cold ↔ b = false := by
  cases b with
  | true =>
      have hready : detectState env fs = .ready := Marked.ready h
      rw [hready]
      simp
  | false => exact iff_of_true (detectState_of_absent h) rfl

/-- The write of the marker; where there was none, a failed write may leave it. -/
theorem storeProvisionMarker_plain (h : Plain w.fs) :
    wp (storeProvisionMarker env step)
      (fun _ w' => Marked w'.fs ∧ Kept (· = .provisioned) w.fs w'.fs ∧ w'.failed = w.failed ∧
        env.plan w.ops = none)
      (Ends (fun w' => (∃ residue, env.plan w.ops = some (.error residue) ∧
          w'.fs = (Damage.leaveFile (.at .provisioned)).apply residue w.fs) ∧
          w'.failed = step :: w.failed) fun _ _ => Crashing env) w := by
  have hop : Fs.write (.at .provisioned) [0x31] w.fs =
      .ok ((), Function.update w.fs .provisioned (some (.file [0x31]))) := by
    rcases h with h | ⟨content, h⟩
    · simp [Fs.write, h, Fs.parentExists, Path.at, Fs.get, Fs.put]
    · simp [Fs.write, h]
  refine wp_context ?_
  unfold wp perform
  simp only [Prog.exec_prim]
  cases hplan : env.plan w.ops with
  | none =>
      rw [hop]
      exact ⟨⟨[0x31], by simp [World.next]⟩, kept_update_self _ _ _, rfl, rfl⟩
  | some fault =>
      cases fault with
      | error residue => exact ⟨⟨residue, rfl, rfl⟩, rfl⟩
      | crash left => exact ⟨_, _, hplan⟩

theorem clearProvisionMarker_plain (h : Plain w.fs) :
    wp (clearProvisionMarker env step)
      (fun _ w' => w'.fs .provisioned = none ∧ w'.failed = w.failed)
      (Ends (fun w' => w'.failed = step :: w.failed) fun _ _ => True) w := by
  unfold clearProvisionMarker removeFile
  rw [wp_bind]
  refine wp_context (wp_perform ?_ (fun _ _ => rfl) (fun _ _ => rfl) fun _ => trivial)
  intro removed fs hop
  unfold Fs.removeFile at hop
  rcases h with h | ⟨content, h⟩
  · rw [Fs.get_at, h] at hop
    cases hop
    exact ⟨h, rfl⟩
  · rw [Fs.get_at, h] at hop
    cases hop
    exact ⟨by simp [World.next], rfl⟩

/-! ## The way back -/

theorem putBack_plain (hadRoot : Bool) (h : Plain w.fs) :
    wp (putBack env hadRoot)
      (fun _ w' => w'.failed = w.failed →
        MarkedIf (hadRoot && w.fs.pathExists env.links (.at .previous)) w'.fs)
      (Ends (fun w' => w.failed.length < w'.failed.length) fun _ _ => True) w := by
  have hclear : ∀ {w₁ : World}, Plain w₁.fs → w.failed.length ≤ w₁.failed.length →
      wp (clearProvisionMarker env .remark)
        (fun _ w' => w'.fs .provisioned = none ∧ w'.failed = w₁.failed)
        (Ends (fun w' => w.failed.length < w'.failed.length) fun _ _ => True) w₁ := by
    intro w₁ hplain hle
    refine wp_mono (clearProvisionMarker_plain hplain) (fun _ _ hw => hw) fun _ _ hw =>
      hw.imp (fun hfailed => ?_) fun _ hw => hw
    rw [hfailed, List.length_cons]
    omega
  unfold putBack
  cases hadRoot with
  | false =>
      simp only [Bool.false_eq_true, if_false, Bool.false_and]
      exact wp_mono (hclear h (Nat.le_refl _)) (fun _ _ hw _ => hw.1) fun _ _ hw => hw
  | true =>
      simp only [if_true, Bool.true_and]
      refine wp_seq (pathExists_spec _) (fun _ hw => hw.elim) ?_
      rintro b w₁ ⟨hfs, ⟨rfl, hfailed⟩ | ⟨rfl, hfailed, -⟩⟩
      · cases hexists : w.fs.pathExists env.links (.at .previous) with
        | false =>
            simp only [Bool.false_eq_true, if_false]
            exact wp_mono (hclear (hfs ▸ h) (Nat.le_of_eq (congrArg List.length hfailed.symm)))
              (fun _ _ hw _ => hw.1) fun _ _ hw => hw
        | true =>
            simp only [if_true]
            have hlonger : ∀ {w' : World} {s : Step} {w₂ : World}, w₂.failed = w₁.failed →
                w'.failed = s :: w₂.failed → w.failed.length < w'.failed.length := by
              intro w' s w₂ heq hcons
              rw [hcons, heq, hfailed, List.length_cons]
              omega
            rw [wp_bind]
            refine wp_context (wp_perform (fun _ fs hop => ?_) (fun _ _ => hlonger rfl rfl)
              (fun _ _ => hlonger rfl rfl) fun _ => trivial)
            have hsame : fs .provisioned = w₁.fs .provisioned := by
              obtain ⟨n, -, hmoved, -⟩ := Fs.rename_eq_ok hop
              rw [show fs = _ from hmoved, Fs.put_of_ne _ (by simp [Path.at]),
                Fs.put_of_ne _ (by simp [Path.at])]
            refine wp_mono (storeProvisionMarker_plain ((hfs ▸ h).of_eq hsame)) ?_ fun _ _ hw =>
              hw.imp (fun hw => hlonger rfl hw.2) fun _ _ => trivial
            exact fun _ _ hw _ => hw.1
      · simp only [Bool.false_eq_true, if_false]
        refine wp_mono (hclear (hfs ▸ h) (by rw [hfailed]; simp)) (fun _ w' hw heq => ?_)
          fun _ _ hw => hw
        rw [hw.2, hfailed] at heq
        simp at heq

/-- `restore_previous_root` without a failure: the marker is there exactly if there is a
    previous rootfs to restore. -/
theorem restorePreviousRoot_plain (hadRoot : Bool) (h : Plain w.fs) :
    wp (restorePreviousRoot env hadRoot)
      (fun _ w' => w'.failed = w.failed →
        MarkedIf (hadRoot && w.fs.pathExists env.links (.at .previous)) w'.fs)
      (Ends (fun w' => w.failed.length < w'.failed.length) fun _ _ => True) w := by
  unfold restorePreviousRoot
  rw [wp_bind]
  refine wp_mono (removePathIfExists_spec .root) ?_ fun _ _ hw => hw.imp (fun hw => ?_)
    fun _ _ => trivial
  · rintro - w₁ ⟨hfs, hfailed⟩
    have hrest : ∀ k, k ≠ .root → w₁.fs k = w.fs k := fun k hk => by
      rw [hfs, Function.update_of_ne hk]
    have hprevious : w₁.fs.pathExists env.links (.at .previous) =
        w.fs.pathExists env.links (.at .previous) := by
      simp only [Fs.pathExists, Fs.get_at, hrest .previous (by simp)]
    rw [← hprevious]
    refine wp_seq ((within_putBack hadRoot).with
      (putBack_plain hadRoot (h.of_eq (hrest .provisioned (by simp)))))
      (fun _ hw => hfailed ▸ hw.1) ?_
    rintro - w₂ ⟨hmarker, hadded⟩
    refine wp_mono (removePathIfExists_spec .staging) ?_ fun _ _ hw =>
      hw.imp (fun hw => ?_) fun _ _ => trivial
    · rintro - w₃ ⟨hfs₃, hfailed₃⟩ heq
      refine (hmarker ?_).of_eq (by rw [hfs₃, Function.update_of_ne (by simp)])
      rw [← hfailed₃, heq, hfailed]
    · have hle := hadded.length_le
      rw [hw.2.1, List.length_cons]
      rw [hfailed] at hle
      omega
  · rw [hw.2.1, List.length_cons]
    omega

/-- The attempt to start the old runtime again does not touch the marker. -/
theorem recover_plain (hadRoot : Bool) (err : String) (h : Plain w.fs) :
    wp (recover env hadRoot err) (fun _ _ => False)
      (Ends (fun w' => w'.failed = w.failed →
          MarkedIf (hadRoot && w.fs.pathExists env.links (.at .previous)) w'.fs)
        fun _ _ => True) w := by
  have hstart : Preserves (Kept (· ≠ .provisioned))
      (if hadRoot then ensureRuntimeStarted env .restart else pure ()) := by
    have hframe : Adopts (Kept (· ≠ .provisioned)) (· = .root) :=
      adopts_kept (by rintro _ rfl; simp) (by simp)
    exact preserves_ite (preserves_ensureRuntimeStarted hframe rfl)
      (preserves_pure hframe.toPermits _)
  have hrestart : Within env Guarded
      (if hadRoot then ensureRuntimeStarted env .restart else pure ()) :=
    within_ite (within_ensureRuntimeStarted (by decide)) (within_pure _)
  have hthen : ∀ {w₁ : World} (restored : Except String Unit), Added Guarded w w₁ →
      (w₁.failed = w.failed →
        MarkedIf (hadRoot && w.fs.pathExists env.links (.at .previous)) w₁.fs) →
      wp (do
          let _ ← attempt (if hadRoot then ensureRuntimeStarted env .restart else pure ())
          throw (.error (activationError restored err)) : M Unit) (fun _ _ => False)
        (Ends (fun w' => w'.failed = w.failed →
            MarkedIf (hadRoot && w.fs.pathExists env.links (.at .previous)) w'.fs)
          fun _ _ => True) w₁ := by
    intro w₁ restored hadded hmarker
    have hsame : ∀ {w₂ : World},
        Kept (· ≠ .provisioned) w₁.fs w₂.fs ∧ Added Guarded w₁ w₂ → w₂.failed = w.failed →
          MarkedIf (hadRoot && w.fs.pathExists env.links (.at .previous)) w₂.fs := by
      intro w₂ hw heq
      exact (hmarker (hadded.clean hw.2 heq).1).of_eq (hw.1 _ (by simp))
    rw [wp_bind]
    exact wp_attempt (wp_mono (hrestart.with (hstart.ends w₁)) (fun _ _ hw => hsame hw)
      fun _ _ hw => hw.imp (fun hw _ => hsame hw) fun _ _ => trivial)
  unfold recover
  rw [wp_bind]
  refine wp_attempt (wp_mono ((within_restorePreviousRoot hadRoot).with
    (restorePreviousRoot_plain hadRoot h)) (fun _ _ hw => hthen _ hw.2 hw.1) fun _ _ hw =>
    hw.imp (fun hw _ => hthen _ hw.2 fun heq => ?_) fun _ _ => trivial)
  rw [heq] at hw
  exact absurd hw.1 (Nat.lt_irrefl _)

/-! ## The way there -/

/-- The steps before the promotion. -/
def Early (s : Step) : Prop := s ≠ .promote ∧ s ≠ .discard

instance : DecidablePred Early := fun _ => inferInstanceAs (Decidable (_ ∧ _))

theorem hadExistingRoot_absent (h : w.fs .provisioned = none) :
    wp (hadExistingRoot env)
      (fun b w' => w'.fs = w.fs ∧
        (w'.failed = w.failed → b = w.fs.pathExists env.links (.at .root)))
      (Ends (fun _ => False) fun _ _ => True) w := by
  have habsent : w.fs.pathExists env.links (.at .provisioned) = false := by
    simp [Fs.pathExists, h]
  unfold hadExistingRoot
  refine wp_seq (pathExists_spec _) (fun _ hw => hw) ?_
  rintro b w₁ ⟨hfs, hb⟩
  have hfalse : b = false := by
    rcases hb with ⟨hb, -⟩ | ⟨hb, -⟩
    · rw [hb, habsent]
    · exact hb
  subst hfalse
  simp only [Bool.false_eq_true, if_false]
  refine wp_mono (pathExists_spec _) ?_ fun _ _ hw => hw.imp id fun _ _ => trivial
  rintro b w₂ ⟨hfs₂, hb₂⟩
  refine ⟨hfs₂.trans hfs, fun heq => ?_⟩
  rcases hb₂ with ⟨rfl, -⟩ | ⟨-, hfailed₂, -⟩
  · rw [hfs]
  · have hlen := congrArg List.length (hfailed₂.symm.trans heq)
    rcases hb with ⟨-, hfailed⟩ | ⟨-, hfailed, -⟩
    · rw [hfailed] at hlen; simp at hlen
    · rw [hfailed] at hlen; simp at hlen; omega

/-- Stopping the runtime changes at most an entry of the active rootfs. -/
theorem stopRuntime_frame :
    wp (stopRuntime env step)
      (fun _ w' => Kept (· = .root) w.fs w'.fs ∧ w'.fs.pathExists env.links (.at .root) =
        w.fs.pathExists env.links (.at .root))
      (Ends (fun w' => Kept (· = .root) w.fs w'.fs) fun _ _ => True) w := by
  unfold stopRuntime
  rw [wp_bind, wp_getRuntime]
  split
  · exact ⟨.refl _ _, rfl⟩
  · rw [wp_bind]
    show wp _ _ _ { w with runtime := none }
    split
    · exact ⟨.refl _ _, rfl⟩
    · unfold clearFallbackMarker removeFile
      rw [wp_bind]
      refine wp_context (wp_perform ?_ (fun _ _ => .refl _ _) (fun _ _ => .refl _ _)
        fun _ => trivial)
      intro removed fs hop
      cases hroot : w.fs .root with
      | none =>
          have hnone : w.fs.get (.in .root fallbackMarker) = none := by
            simp [Fs.get, Path.in, hroot]
          simp only [Fs.removeFile, hnone] at hop
          cases hop
          exact ⟨.refl _ _, rfl⟩
      | some n =>
          cases n with
          | dir es =>
              rcases removeFile_in hroot hop with rfl | rfl
              · exact ⟨.refl _ _, rfl⟩
              · exact ⟨kept_update_self _ _ _, by simp [Fs.pathExists, World.next, hroot]⟩
          | _ =>
              have hnone : w.fs.get (.in .root fallbackMarker) = none := by
                simp [Fs.get, Path.in, hroot]
              simp only [Fs.removeFile, hnone] at hop
              cases hop
              exact ⟨.refl _ _, rfl⟩

/-- Setting aside what is at the active place: without a failure it is at `rootfs.previous`. -/
theorem setAside_absent {hadRoot : Bool} (hprevious : w.fs .previous = none) :
    wp (setAside env hadRoot)
      (fun _ w' => Kept (fun k => k = .root ∨ k = .previous) w.fs w'.fs ∧
        (w'.failed = w.failed → hadRoot = w.fs.pathExists env.links (.at .root) →
          w'.fs.pathExists env.links (.at .previous) = hadRoot))
      (Ends (fun w' => w'.fs = w.fs) fun _ _ => True) w := by
  have habsent : w.fs.pathExists env.links (.at .previous) = false := by
    simp [Fs.pathExists, hprevious]
  unfold setAside
  cases hadRoot with
  | false =>
      simp only [Bool.false_eq_true, if_false]
      exact ⟨.refl _ _, fun _ _ => habsent⟩
  | true =>
      simp only [if_true]
      refine wp_seq (pathExists_spec _) (fun _ hw => hw.elim) ?_
      rintro b w₁ ⟨hfs, ⟨rfl, hfailed⟩ | ⟨rfl, hfailed, -⟩⟩
      · split
        · next hexists =>
            cases hroot : w.fs .root with
            | none => simp [Fs.pathExists, hroot] at hexists
            | some n =>
                refine wp_context (wp_mono (wp_rename_free (hfs ▸ hroot) (hfs ▸ hprevious)) ?_
                  fun _ _ hw => hw.imp (fun hw => hw.1.trans hfs) fun _ _ => trivial)
                rintro - w₂ ⟨hfs₂, -⟩
                rw [hfs] at hfs₂
                refine ⟨fun k hk => ?_, fun _ _ => ?_⟩
                · rw [hfs₂, Function.update_of_ne (fun h => hk (.inr h)),
                    Function.update_of_ne (fun h => hk (.inl h))]
                · rw [← hexists]
                  simp [Fs.pathExists, hfs₂, hroot]
        · next hexists =>
            refine ⟨.of_eq hfs, fun _ hmust => ?_⟩
            exact absurd hmust.symm hexists
      · simp only [Bool.false_eq_true, if_false]
        refine ⟨.of_eq hfs, fun heq => ?_⟩
        rw [hfailed] at heq
        simp at heq

theorem within_hadExistingRoot : Within env Early (hadExistingRoot env) :=
  (within_pathExists (by decide) _).bind fun _ =>
    within_ite (within_pure _) (within_pathExists (by decide) _)

theorem within_clearWay : Within env Early (clearWay env) := by
  have haside : ∀ hadRoot, Within env Early (setAside env hadRoot) := fun hadRoot =>
    within_ite ((within_pathExists (by decide) _).bind fun _ =>
      within_ite (within_perform _ _ (by decide)).context (within_pure _)) (within_pure _)
  exact within_hadExistingRoot.bind fun hadRoot => (within_stopRuntime (by decide)).bind fun _ =>
    (within_removePathIfExists (by decide) _).bind fun _ =>
      (haside hadRoot).bind fun _ => within_pure _

/-- The places that the steps before the promotion change. -/
def Moved (k : Slot) : Prop := k = .root ∨ k = .previous

/-- Without a failure, `had_existing_root` is whether the rootfs exists, and then it is at
    `rootfs.previous`. -/
theorem clearWay_spec (h : w.fs .provisioned = none) :
    wp (clearWay env)
      (fun b w' => Kept Moved w.fs w'.fs ∧
        (w'.failed = w.failed → b = w.fs.pathExists env.links (.at .root) ∧
          w'.fs.pathExists env.links (.at .previous) = b))
      (Ends (fun w' => Kept Moved w.fs w'.fs) fun _ _ => True) w := by
  have hroot : ∀ k, k = Slot.root → Moved k := fun _ hk => .inl hk
  have hprevious : ∀ k, k = Slot.previous → Moved k := fun _ hk => .inr hk
  unfold clearWay
  refine wp_seq (within_hadExistingRoot.with (hadExistingRoot_absent h)) (fun _ hw => hw.1.elim) ?_
  rintro b w₁ ⟨⟨hfs₁, hb⟩, hadded₁⟩
  rw [← hfs₁]
  refine wp_seq ((within_stopRuntime (S := Early) (by decide)).with stopRuntime_frame)
    (fun _ hw => hw.1.mono hroot) ?_
  rintro - w₂ ⟨⟨hkept₂, hexists₂⟩, hadded₂⟩
  refine wp_seq (removePathIfExists_spec .previous)
    (fun _ hw => (hkept₂.mono hroot).trans (hw.1.mono hprevious)) ?_
  rintro - w₃ ⟨hfs₃, hfailed₃⟩
  have hkept₃ : Kept Moved w₁.fs w₃.fs := by
    refine (hkept₂.mono hroot).trans ?_
    rw [hfs₃]
    exact (kept_update_self _ _ _).mono hprevious
  have hexists₃ : w₃.fs.pathExists env.links (.at .root) =
      w₁.fs.pathExists env.links (.at .root) := by
    have hsame : w₃.fs .root = w₂.fs .root := by rw [hfs₃, Function.update_of_ne (by simp)]
    rw [← hexists₂]
    simp only [Fs.pathExists, Fs.get_at, hsame]
  refine wp_seq ((within_setAside b).with (setAside_absent (w := w₃)
    (by rw [hfs₃, Function.update_self])))
    (fun _ hw => hw.1 ▸ hkept₃) ?_
  rintro - w₄ ⟨⟨hkept₄, hclean₄⟩, hadded₄⟩
  refine ⟨hkept₃.trans hkept₄, fun heq => ?_⟩
  obtain ⟨heq₃, heq₄⟩ := ((hadded₁.trans hadded₂).of_failed_eq hfailed₃).clean hadded₄ heq
  obtain ⟨heq₁, -⟩ := hadded₁.clean hadded₂ (hfailed₃.symm.trans heq₃)
  have hb := hb heq₁
  rw [← hfs₁, ← hexists₃] at hb
  exact ⟨hexists₃ ▸ hb, hclean₄ heq₄ hb⟩

/-- The promotion moves the staged rootfs, or the way back is taken. -/
theorem promote_plain {es : Entries} {hadRoot : Bool} (hstaging : w.fs .staging = some (.dir es))
    (h : Plain w.fs) :
    wp (promote env hadRoot)
      (fun _ w' => w'.fs = Function.update (Function.update w.fs .staging none) .root
        (some (.dir es)) ∧ w'.failed = w.failed)
      (Ends (fun w' => .promote ∈ w'.failed ∧ w.failed.length < w'.failed.length ∧
          (w'.failed.length ≤ w.failed.length + 1 →
            MarkedIf (hadRoot && w.fs.pathExists env.links (.at .previous)) w'.fs))
        fun _ _ => True) w := by
  -- the failure is logged, and whatever the way back adds to it comes on top
  have hback : ∀ e : String, wp (do restorePreviousRoot env hadRoot; throw (.error e) : M Unit)
      (fun _ w' => w'.fs = Function.update (Function.update w.fs .staging none) .root
        (some (.dir es)) ∧ w'.failed = w.failed)
      (Ends (fun w' => .promote ∈ w'.failed ∧ w.failed.length < w'.failed.length ∧
          (w'.failed.length ≤ w.failed.length + 1 →
            MarkedIf (hadRoot && w.fs.pathExists env.links (.at .previous)) w'.fs))
        fun _ _ => True) (w.fail .promote w.fs) := by
    intro e
    have hlogged : ∀ {w' : World}, Added Guarded (w.fail .promote w.fs) w' →
        .promote ∈ w'.failed ∧ w.failed.length < w'.failed.length := by
      intro w' hadded
      refine ⟨?_, hadded.length_le⟩
      obtain ⟨new, heq, -⟩ := hadded
      rw [heq]
      exact List.mem_append_right _ (List.mem_cons_self ..)
    have hlength : (w.fail .promote w.fs).failed.length = w.failed.length + 1 := rfl
    rw [wp_bind]
    refine wp_mono ((within_restorePreviousRoot hadRoot).with
      (restorePreviousRoot_plain (w := w.fail .promote w.fs) hadRoot h)) ?_
      fun _ _ hw => hw.imp ?_ fun _ _ => trivial
    · rintro - w' ⟨hmarker, hadded⟩
      obtain ⟨hmem, hlt⟩ := hlogged hadded
      refine ⟨hmem, hlt, fun hle => hmarker ?_⟩
      by_contra hne
      have := hadded.length_lt hne
      omega
    · rintro ⟨hgrew, hadded⟩
      obtain ⟨hmem, hlt⟩ := hlogged hadded
      exact ⟨hmem, hlt, fun hle => absurd hle (by omega)⟩
  unfold promote
  rw [wp_bind]
  refine wp_attempt (wp_context (wp_perform ?_ (fun _ _ => hback) (fun _ _ => hback)
    fun _ => trivial))
  intro r fs hop
  obtain ⟨n, hn, hfs, -⟩ := Fs.rename_eq_ok hop
  rw [Fs.get_at, hstaging] at hn
  cases hn
  exact ⟨hfs, rfl⟩

/-! ## The call up to the promotion -/

/-- The staged rootfs is active and what `had_existing_root` says is so; or an operation failed
    unnoticed after everything was staged. -/
def Promoted (env : Env) (w : World) (hadRoot : Bool) (w' : World) : Prop :=
  SourcesReady w'.fs ∧ w'.failed ≠ [] ∨
    hadRoot = w.fs.pathExists env.links (.at .root) ∧
      w'.fs.pathExists env.links (.at .previous) = hadRoot ∧
      (w'.failed = [] → SourcesReady w'.fs)

theorem Promoted.of_kept {hadRoot : Bool} {w₁ w₂ : World} {T : Slot → Prop}
    (h : Promoted env w hadRoot w₁) (hkept : Kept T w₁.fs w₂.fs)
    (hpersist : ∀ m, ¬ T (.persist m)) (hprevious : ¬ T .previous)
    (hfailed : w₂.failed = w₁.failed) : Promoted env w hadRoot w₂ := by
  have hready : SourcesReady w₁.fs → SourcesReady w₂.fs := fun h m => by
    rw [hkept _ (hpersist m)]
    exact h m
  have hexists : w₂.fs.pathExists env.links (.at .previous) =
      w₁.fs.pathExists env.links (.at .previous) := by
    simp only [Fs.pathExists, Fs.get_at, hkept .previous hprevious]
  unfold Promoted
  rw [hfailed, hexists]
  exact h.imp (fun h => ⟨hready h.1, h.2⟩) fun h => ⟨h.1, h.2.1, fun hnil => hready (h.2.2 hnil)⟩

theorem Added.not_mem {S : Step → Prop} {w' : World} (h : Added S w w') (hw : w.failed = [])
    {s : Step} (hs : ¬ S s) : s ∉ w'.failed := by
  obtain ⟨new, heq, hnew⟩ := h
  intro hmem
  rw [heq, hw, List.append_nil] at hmem
  exact hs (hnew s hmem)

/-- Neither the steps before the promotion nor the way back log a failure under `discard`. -/
theorem Added.no_discard {w₁ w₂ : World} (h₁ : Added Early w w₁) (h₂ : Added Guarded w₁ w₂)
    (hw : w.failed = []) : .discard ∉ w₂.failed := by
  have hall : Added (· ≠ .discard) w w₂ :=
    (h₁.mono fun _ hs => hs.2).trans (h₂.mono fun _ hs => hs.2)
  exact hall.not_mem hw (by simp)

/-- The call up to the point where the place of the rootfs is free. -/
def cleared (env : Env) (data : Bytes) : M Bool := do
  let _ ← pathExists env .detect (.at .provisioned)
  stageRootfs env data
  clearWay env

theorem promoted_eq (data : Bytes) :
    promoted env data = (do
      let hadRoot ← cleared env data
      promote env hadRoot
      pure hadRoot) := by
  simp [promoted, cleared]

/-- With at most one failure that went unnoticed, what `Promoted` says holds already before the
    promotion. -/
theorem cleared_spec (data : Bytes) (h : w.fs .provisioned = none) :
    wp (cleared env data)
      (fun b w' => w'.fs .provisioned = none ∧
        (∃ es, w'.fs .staging = some (.dir es) ∧ (env.cfg.testMode = true → Links env es)) ∧
        Added Early w w' ∧ (w'.failed.length ≤ 1 → Promoted env w b w'))
      (Ends (fun w' => Added Early w w' ∧ w'.fs .provisioned = none) fun _ _ => True) w := by
  unfold cleared
  refine wp_seq ((within_pathExists (S := Early) (by decide) _).with (pathExists_spec _))
    (fun _ hw => hw.1.elim) ?_
  rintro - w₁ ⟨⟨hfs₁, -⟩, hadded₁⟩
  refine wp_seq ((within_stageRootfs (S := Early) (by decide) data).with (stageRootfs_spec data))
    (fun _ hw => ⟨hadded₁.trans hw.2, by rw [hw.1 _ (by simp [Beside]), hfs₁, h]⟩) ?_
  rintro - w₂ ⟨⟨es, hstaging, -, hlinks, hkept₂, hclean₂⟩, hadded₂⟩
  have hmarker₂ : w₂.fs .provisioned = none := by rw [hkept₂ _ (by simp [Beside]), hfs₁, h]
  have hexists₂ : w₂.fs.pathExists env.links (.at .root) =
      w.fs.pathExists env.links (.at .root) := by
    have hroot : w₂.fs .root = w.fs .root := by rw [hkept₂ _ (by simp [Beside]), hfs₁]
    simp only [Fs.pathExists, Fs.get_at, hroot]
  have hbefore₂ := hadded₁.trans hadded₂
  refine wp_mono (within_clearWay.with (clearWay_spec hmarker₂)) ?_ fun _ _ hw =>
    hw.imp (fun hw => ⟨hbefore₂.trans hw.2, (hw.1 _ (by simp [Moved])).trans hmarker₂⟩)
      fun _ _ => trivial
  rintro b w₃ ⟨⟨hkept₃, hclean₃⟩, hadded₃⟩
  have hready : w₂.failed = w₁.failed → SourcesReady w₃.fs := fun heq m => by
    rw [hkept₃ _ (by simp [Moved])]
    exact (hclean₂ heq).1 m
  have hle₂ := hadded₂.length_le
  refine ⟨(hkept₃ _ (by simp [Moved])).trans hmarker₂,
    ⟨es, (hkept₃ _ (by simp [Moved])).trans hstaging, hlinks⟩, hbefore₂.trans hadded₃,
    fun hle => ?_⟩
  -- a single failure was either before the way was cleared or after everything was staged
  by_cases heq₃ : w₃.failed = w₂.failed
  · obtain ⟨hb, hprevious⟩ := hclean₃ heq₃
    refine .inr ⟨hb.trans hexists₂, hprevious, fun hnil => hready ?_⟩
    rw [heq₃] at hnil
    rw [hnil] at hle₂
    rw [hnil, List.eq_nil_of_length_eq_zero (Nat.le_zero.mp hle₂)]
  · have hgrew := hadded₃.length_lt heq₃
    refine .inl ⟨hready ?_, fun hnil => ?_⟩
    · rw [List.eq_nil_of_length_eq_zero (l := w₂.failed) (by omega),
        List.eq_nil_of_length_eq_zero (l := w₁.failed) (by omega)]
    · rw [hnil] at hgrew
      cases hgrew

theorem promoted_spec (data : Bytes) (h : w.fs .provisioned = none) (hlog : w.failed = []) :
    wp (promoted env data)
      (fun b w' => w'.fs .provisioned = none ∧
        (∃ es, w'.fs .root = some (.dir es) ∧ (env.cfg.testMode = true → Links env es)) ∧
        Added Early w w' ∧ (w'.failed.length ≤ 1 → Promoted env w b w'))
      (Ends (fun w' => .discard ∉ w'.failed ∧ (w'.failed.length ≤ 1 → MarkedIf
          (decide (.promote ∈ w'.failed) && w.fs.pathExists env.links (.at .root)) w'.fs))
        fun _ _ => True) w := by
  rw [promoted_eq]
  refine wp_seq (cleared_spec data h) (fun w' hw => ?_) ?_
  · -- a failure before the promotion changes nothing about the marker
    refine ⟨hw.1.not_mem hlog (by decide), fun _ => ?_⟩
    rw [decide_eq_false (hw.1.not_mem hlog (by decide)), Bool.false_and]
    exact hw.2
  · rintro b w₁ ⟨hmarker₁, ⟨es, hstaging, hlinks⟩, hbefore, hpromoted⟩
    refine wp_seq ((within_promote b).with (promote_plain hstaging (.inl hmarker₁)))
      (fun w' hw => ?_) ?_
    · obtain ⟨⟨hmem, hgrew, hmarker⟩, hadded⟩ := hw
      refine ⟨hbefore.no_discard hadded hlog, fun hle => ?_⟩
      have hnil : w₁.failed = [] := List.eq_nil_of_length_eq_zero (by omega)
      obtain ⟨hb, hprevious, -⟩ :=
        (hpromoted (by omega)).resolve_left fun hfailed => hfailed.2 hnil
      have hmarked := hmarker (by omega)
      rw [hprevious, Bool.and_self, hb] at hmarked
      rw [decide_eq_true hmem, Bool.true_and]
      exact hmarked
    · rintro - w₂ ⟨⟨hfs₂, hfailed₂⟩, -⟩
      have hkept₂ : Kept (fun k => k = .staging ∨ k = .root) w₁.fs w₂.fs := fun k hk => by
        rw [hfs₂, Function.update_of_ne fun h => hk (.inr h),
          Function.update_of_ne fun h => hk (.inl h)]
      refine ⟨by rw [hkept₂ _ (by simp), hmarker₁],
        ⟨es, by rw [hfs₂, Function.update_self], hlinks⟩, hbefore.of_failed_eq hfailed₂,
        fun hle => ?_⟩
      rw [hfailed₂] at hle
      exact (hpromoted hle).of_kept hkept₂ (by simp) (by simp) hfailed₂

/-! ## The whole call -/

/-- The write of the marker fails and leaves the file. -/
def MarkLeft (env : Env) (data : Bytes) (w : World) : Prop :=
  ∃ hadRoot w₁ content, Prog.exec (promoted env data) w = (.ok hadRoot, w₁) ∧
    env.plan w₁.ops = some (.error (some (.file content)))

/-- The new rootfs is in place and marked, and the runtime does not start. -/
def StartFails (env : Env) (data : Bytes) (w : World) : Prop :=
  ∃ hadRoot w₁ w₂ e w₃, Prog.exec (promoted env data) w = (.ok hadRoot, w₁) ∧
    Prog.exec (storeProvisionMarker env .mark) w₁ = (.ok (), w₂) ∧
    Prog.exec (ensureRuntimeStarted env .start) w₂ = (.error (.error e), w₃)

/-- What fails is not the removal of `rootfs.previous`, nor a write of the marker that leaves
    the file; and if the rootfs directory exists before the call, it is not the promotion nor
    the start either. -/
def Harmless (env : Env) (data : Bytes) (w : World) (failed : List Step) : Prop :=
  .discard ∉ failed ∧ ¬ MarkLeft env data w ∧
    (w.fs.pathExists env.links (.at .root) = true →
      .promote ∉ failed ∧ ¬ StartFails env data w)

/-- A call that returns an error leaves the machine cold. -/
def StaysCold (env : Env) : Except Stop Unit × World → Prop
  | (.ok _, _) => True
  | (.error _, w) => detectState env w.fs = .cold

/-- A spec, and that it is about the execution. -/
theorem wp_traced {α : Type} {x : M α} {Q : α → World → Prop} {F : World → Prop}
    {C : Death → World → Prop} (h : wp x Q (Ends F C) w) :
    wp x (fun a w' => Q a w' ∧ Prog.exec x w = (.ok a, w'))
      (Ends (fun w' => F w' ∧ ∃ e, Prog.exec x w = (.error (.error e), w')) C) w := by
  unfold wp at h ⊢
  generalize Prog.exec x w = r at h ⊢
  obtain ⟨result, w'⟩ := r
  cases result with
  | ok a => exact ⟨h, rfl⟩
  | error stop =>
      cases stop with
      | error e => exact ⟨h, e, rfl⟩
      | crash d => exact h

/-- The end of the call, when everything is in place and marked. -/
theorem startNew_plain {es : Entries} {hadRoot : Bool} (hmarked : Marked w.fs)
    (hroot : w.fs .root = some (.dir es)) (hlinks : env.cfg.testMode = true → Links env es) :
    wp (startNew env hadRoot)
      (fun _ w' => Added (· = .start) w w' ∧
        ∃ w₁, Prog.exec (ensureRuntimeStarted env .start) w = (.ok (), w₁))
      (Ends (fun w' => (Marked w'.fs ∧ .discard ∈ w'.failed) ∨
          (∃ e w₁, Prog.exec (ensureRuntimeStarted env .start) w = (.error (.error e), w₁)) ∧
          Added Guarded w w' ∧ (w'.failed.length ≤ w.failed.length →
            ¬ SourcesReady w.fs) ∧ (w'.failed.length ≤ 1 → (w.failed = [] → SourcesReady w.fs) →
            MarkedIf (hadRoot && w.fs.pathExists env.links (.at .previous)) w'.fs))
        fun _ _ => True) w := by
  have hstart : Within env (· = .start) (ensureRuntimeStarted env .start) :=
    within_ensureRuntimeStarted rfl
  unfold startNew
  rw [wp_bind]
  refine wp_attempt (wp_mono (hstart.with (wp_traced (ensureRuntimeStarted_spec hroot hlinks))) ?_
    fun _ w₁ hw => hw.imp (fun hw e => ?_) fun _ _ => trivial)
  · rintro ⟨⟩ w₁ ⟨⟨⟨-, hkept⟩, hexec⟩, hadded⟩
    refine wp_mono (removePathIfExists_spec .previous) ?_ fun _ _ hw => hw.imp ?_
      fun _ _ => trivial
    · rintro - w₂ ⟨-, hfailed⟩
      exact ⟨hadded.of_failed_eq hfailed, w₁, hexec⟩
    · rintro ⟨hkept₂, hfailed, -⟩
      refine .inl ⟨hmarked.of_eq ?_, ?_⟩
      · rw [hkept₂ _ (by simp), hkept _ (by simp [Beside])]
      · rw [hfailed]
        exact List.mem_cons_self ..
  · obtain ⟨⟨⟨-, hkept, hnatural⟩, hexec⟩, hadded⟩ := hw
    have hguarded : Added Guarded w w₁ := hadded.mono (by rintro _ rfl; decide)
    have hprevious : w₁.fs.pathExists env.links (.at .previous) =
        w.fs.pathExists env.links (.at .previous) := by
      simp only [Fs.pathExists, Fs.get_at, hkept .previous (by simp [Beside])]
    refine wp_mono ((within_recover hadRoot e).with (recover_plain hadRoot e
      (.inr (hmarked.of_eq (hkept _ (by simp [Beside])))))) (fun _ _ hw => hw.1.elim) fun _ _ hw =>
      hw.imp (fun hw => ?_) fun _ _ => trivial
    obtain ⟨hmarker, hadded'⟩ := hw
    have hle := hguarded.length_le
    have hle' := hadded'.length_le
    refine .inr ⟨hexec.elim fun e he => ⟨e, w₁, he⟩, hguarded.trans hadded', fun hlength => ?_,
      fun hsingle hready => ?_⟩
    · by_cases heq : w₁.failed = w.failed
      · exact (hnatural heq).2
      · have := hadded.length_lt heq
        omega
    · rw [← hprevious]
      refine hmarker ?_
      by_contra hne
      have hnil₁ : w₁.failed = [] := List.eq_nil_of_length_eq_zero (by
        have := hadded'.length_lt hne
        omega)
      rw [hnil₁] at hle
      have hnil : w.failed = [] := List.eq_nil_of_length_eq_zero (Nat.le_zero.mp hle)
      exact (hnatural (hnil₁.trans hnil.symm)).2 (hready hnil)

theorem within_setupAndPrepare (data : Bytes) :
    Within env (fun _ => True) (setupAndPrepare env (some data)) :=
  (within_pathExists trivial _).bind fun _ => (within_stageRootfs trivial data).bind fun _ =>
    within_activateStagedRoot

section Outcome

variable {data : Bytes} {w₁ w₂ : World}

theorem markLeft_iff {hadRoot : Bool}
    (hexec : Prog.exec (promoted env data) w = (.ok hadRoot, w₁)) :
    MarkLeft env data w ↔ ∃ content, env.plan w₁.ops = some (.error (some (.file content))) := by
  constructor
  · rintro ⟨_, _, content, hexec', hplan⟩
    rw [hexec] at hexec'
    cases hexec'
    exact ⟨content, hplan⟩
  · rintro ⟨content, hplan⟩
    exact ⟨hadRoot, w₁, content, hexec, hplan⟩

theorem startFails_iff {hadRoot : Bool}
    (hexec₁ : Prog.exec (promoted env data) w = (.ok hadRoot, w₁))
    (hexec₂ : Prog.exec (storeProvisionMarker env .mark) w₁ = (.ok (), w₂)) :
    StartFails env data w ↔
      ∃ e w₃, Prog.exec (ensureRuntimeStarted env .start) w₂ = (.error (.error e), w₃) := by
  constructor
  · rintro ⟨_, _, _, e, w₃, hexec₁', hexec₂', hexec₃⟩
    rw [hexec₁] at hexec₁'
    cases hexec₁'
    rw [hexec₂] at hexec₂'
    cases hexec₂'
    exact ⟨e, w₃, hexec₃⟩
  · rintro ⟨e, w₃, hexec₃⟩
    exact ⟨hadRoot, w₁, w₂, e, w₃, hexec₁, hexec₂, hexec₃⟩

/-- The call ended before or at the promotion. -/
theorem cold_iff_of_notPromoted {e : String}
    (hexec : Prog.exec (promoted env data) w = (.error (.error e), w₁))
    (hdiscard : .discard ∉ w₁.failed)
    (hmarker : MarkedIf (decide (.promote ∈ w₁.failed) && w.fs.pathExists env.links (.at .root))
      w₁.fs) :
    detectState env w₁.fs = .cold ↔ Harmless env data w w₁.failed := by
  have hleft : ¬ MarkLeft env data w := by
    rintro ⟨_, _, _, hexec', -⟩
    rw [hexec] at hexec'
    cases hexec'
  have hstart : ¬ StartFails env data w := by
    rintro ⟨_, _, _, _, _, hexec', -⟩
    rw [hexec] at hexec'
    cases hexec'
  rw [hmarker.cold_iff]
  simp only [Harmless, hdiscard, hleft, hstart, not_false_eq_true, true_and, and_true]
  rw [Bool.and_eq_false_iff, decide_eq_false_iff_not]
  constructor
  · rintro (hpromote | habsent) hexists
    · exact hpromote
    · rw [habsent] at hexists
      cases hexists
  · intro himp
    by_cases hexists : w.fs.pathExists env.links (.at .root) = true
    · exact .inl (himp hexists)
    · exact .inr (by simpa using hexists)

/-- The call ended at the write of the marker. -/
theorem cold_iff_of_notMarked {hadRoot : Bool} {e : String} {residue : Option Node}
    (hexec₁ : Prog.exec (promoted env data) w = (.ok hadRoot, w₁))
    (hexec₂ : Prog.exec (storeProvisionMarker env .mark) w₁ = (.error (.error e), w₂))
    (hmarker : w₁.fs .provisioned = none) (hplan : env.plan w₁.ops = some (.error residue))
    (hfs : w₂.fs = (Damage.leaveFile (.at .provisioned)).apply residue w₁.fs)
    (hdiscard : .discard ∉ w₂.failed) (hpromote : .promote ∉ w₂.failed) :
    detectState env w₂.fs = .cold ↔ Harmless env data w w₂.failed := by
  have hstart : ¬ StartFails env data w := by
    rintro ⟨_, _, _, _, _, hexec₁', hexec₂', -⟩
    rw [hexec₁] at hexec₁'
    cases hexec₁'
    rw [hexec₂] at hexec₂'
    cases hexec₂'
  simp only [Harmless, hdiscard, hpromote, hstart, not_false_eq_true, true_and, and_true,
    implies_true]
  rw [markLeft_iff hexec₁, hplan, hfs]
  cases residue with
  | none => exact iff_of_true (detectState_of_absent hmarker) (by simp)
  | some n =>
      cases n with
      | file content =>
          refine iff_of_false ?_ fun h => h ⟨content, rfl⟩
          have hready : detectState env ((Damage.leaveFile (.at .provisioned)).apply
              (some (.file content)) w₁.fs) = .ready :=
            Marked.ready ⟨content, by simp [Damage.apply, hmarker]⟩
          rw [hready]
          simp
      | _ => exact iff_of_true (detectState_of_absent hmarker) (by simp)

/-- The call got past the write of the marker. -/
theorem startNew_harmless {hadRoot : Bool} {es : Entries} (hlog : w.failed = [])
    (hexec₁ : Prog.exec (promoted env data) w = (.ok hadRoot, w₁))
    (hexec₂ : Prog.exec (storeProvisionMarker env .mark) w₁ = (.ok (), w₂))
    (hleft : ¬ MarkLeft env data w) (hroot : w₂.fs .root = some (.dir es))
    (hlinks : env.cfg.testMode = true → Links env es) (hmarked : Marked w₂.fs)
    (hearly : Added Early w w₂) (hpromoted : w₂.failed.length ≤ 1 → Promoted env w hadRoot w₂) :
    wp (startNew env hadRoot) (fun _ w' => Harmless env data w w'.failed)
      (Ends (fun w' => w'.failed.length ≤ 1 →
        (detectState env w'.fs = .cold ↔ Harmless env data w w'.failed)) fun _ _ => True) w₂ := by
  have hstarts := startFails_iff hexec₁ hexec₂
  refine wp_mono (startNew_plain hmarked hroot hlinks) ?_ fun _ w' hw =>
    hw.imp (fun hw hle => ?_) fun _ _ => trivial
  · rintro - w' ⟨hadded, w₃, hexec₃⟩
    have hall : Added Early w w' := hearly.trans (hadded.mono (by rintro _ rfl; decide))
    refine ⟨hall.not_mem hlog (by decide), hleft, fun _ => ⟨hall.not_mem hlog (by decide), ?_⟩⟩
    rw [hstarts]
    rintro ⟨e, w₃', hexec₃'⟩
    rw [hexec₃] at hexec₃'
    cases hexec₃'
  · rcases hw with ⟨hmarked', hdiscard⟩ | ⟨hfails, hadded, hnatural, hmarker⟩
    · have hready : detectState env w'.fs = .ready := hmarked'.ready
      refine iff_of_false ?_ fun h => h.1 hdiscard
      rw [hready]
      simp
    · have hdiscard := hearly.no_discard hadded hlog
      have hlength := hadded.length_le
      rcases hpromoted (by omega) with ⟨hready, hne⟩ | ⟨hb, hprevious, hready⟩
      · have hpos := List.length_pos_iff.mpr hne
        exact absurd hready (hnatural (by omega))
      · have hcold := hmarker hle hready
        rw [hprevious, Bool.and_self] at hcold
        rw [hcold.cold_iff, hb]
        simp [Harmless, hdiscard, hleft, hstarts.mpr hfails]

end Outcome

/-- For a machine without the marker, whatever the data directory holds otherwise, and for every
    payload: a call with at most one failed operation that returns an error leaves the machine
    cold exactly if the failure is harmless. -/
theorem stays_cold_iff (data : Bytes) (hcold : w.fs .provisioned = none) (hlog : w.failed = [])
    (hcrash : ¬ Crashing env)
    (hsingle : (Prog.exec (setupAndPrepare env (some data)) w).2.failed.length ≤ 1) :
    StaysCold env (Prog.exec (setupAndPrepare env (some data)) w) ↔
      Harmless env data w (Prog.exec (setupAndPrepare env (some data)) w).2.failed := by
  have hspec : wp (setupAndPrepare env (some data))
      (fun _ w' => Harmless env data w w'.failed)
      (Ends (fun w' => w'.failed.length ≤ 1 →
        (detectState env w'.fs = .cold ↔ Harmless env data w w'.failed)) fun _ _ => True) w := by
    rw [setupAndPrepare_eq, wp_bind]
    refine wp_mono (wp_traced (promoted_spec data hcold hlog)) ?_ fun _ _ hw =>
      hw.imp (fun hw hle => ?_) fun _ _ => trivial
    · rintro hadRoot w₁ ⟨⟨hmarker₁, ⟨es, hroot₁, hlinks₁⟩, hearly₁, hpromoted₁⟩, hexec₁⟩
      rw [wp_bind]
      refine wp_mono (wp_traced (storeProvisionMarker_plain (.inl hmarker₁))) ?_ fun _ _ hw =>
        hw.imp (fun hw hle => ?_) fun _ _ => trivial
      · rintro ⟨⟩ w₂ ⟨⟨hmarked₂, hkept₂, hfailed₂, hplan⟩, hexec₂⟩
        refine startNew_harmless hlog hexec₁ hexec₂ ?_ ((hkept₂ _ (by simp)).trans hroot₁) hlinks₁
          hmarked₂ (hearly₁.of_failed_eq hfailed₂) fun hle => ?_
        · rw [markLeft_iff hexec₁, hplan]
          simp
        · exact (hpromoted₁ (hfailed₂ ▸ hle)).of_kept hkept₂ (by simp) (by simp) hfailed₂
      · obtain ⟨⟨⟨residue, hplan, hfs⟩, hfailed⟩, e, hexec₂⟩ := hw
        have hnew : ∀ s, ¬ Early s → s ∉ .mark :: w₁.failed := fun s hs => by
          rw [List.mem_cons, not_or]
          exact ⟨fun heq => hs (by rw [heq]; decide), hearly₁.not_mem hlog hs⟩
        exact cold_iff_of_notMarked hexec₁ hexec₂ hmarker₁ hplan hfs
          (hfailed ▸ hnew _ (by decide)) (hfailed ▸ hnew _ (by decide))
    · obtain ⟨⟨hdiscard, hmarker⟩, e, hexec⟩ := hw
      exact cold_iff_of_notPromoted hexec hdiscard (hmarker hle)
  have hrun := (within_setupAndPrepare data).with hspec
  unfold wp at hrun
  generalize Prog.exec (setupAndPrepare env (some data)) w = r at hrun hsingle ⊢
  obtain ⟨result, w'⟩ := r
  cases result with
  | ok u => exact iff_of_true trivial hrun.1
  | error stop =>
      cases stop with
      | error e => exact hrun.1 hsingle
      | crash d => exact absurd hrun.2.1 hcrash

/-- A machine whose data directory holds a rootfs but no provision marker. -/
def leftoverWorld : World where
  fs := fun
    | .root => some (.dir [("old", .file [])])
    | _ => none
  runtime := none
  ops := 0
  failed := []

/-- The launch fails on an empty data directory: the machine stays cold. -/
theorem stays_cold_launch :
    StaysCold (failingAt 22) (Prog.exec (setupAndPrepare (failingAt 22) (some [])) emptyWorld) := by
  have hfailed : (Prog.exec (setupAndPrepare (failingAt 22) (some [])) emptyWorld).2.failed =
      [.start] := rfl
  have hpromoted : Prog.exec (promoted (failingAt 22) []) emptyWorld =
      (.ok false, (Prog.exec (promoted (failingAt 22) []) emptyWorld).2) := Prod.ext rfl rfl
  have hops : (Prog.exec (promoted (failingAt 22) []) emptyWorld).2.ops = 20 := rfl
  refine (stays_cold_iff [] rfl rfl (not_crashing_failingAt 22)
    (by rw [hfailed]; decide)).mpr ⟨by rw [hfailed]; decide, ?_, fun hexists => ?_⟩
  · rw [markLeft_iff hpromoted, hops]
    rintro ⟨content, hplan⟩
    cases hplan
  · cases hexists

/-- The launch fails over a rootfs without a marker, and the machine is ready although it was
    never provisioned. The same if the removal of `rootfs.previous` fails, or a write of the
    marker that leaves the file, on an empty data directory. -/
theorem not_cold_leftover :
    (leftoverWorld.fs .provisioned = none ∧
      (Prog.exec (setupAndPrepare (failingAt 24) (some [])) leftoverWorld).2.failed = [.start] ∧
      ¬ StaysCold (failingAt 24)
        (Prog.exec (setupAndPrepare (failingAt 24) (some [])) leftoverWorld)) ∧
    ((Prog.exec (setupAndPrepare (failingAt 23) (some [])) emptyWorld).2.failed = [.discard] ∧
      ¬ StaysCold (failingAt 23)
        (Prog.exec (setupAndPrepare (failingAt 23) (some [])) emptyWorld)) ∧
    let env := { failingAt 20 with
      plan := fun k => if k = 20 then some (.error (some (.file []))) else none }
    (Prog.exec (setupAndPrepare env (some [])) emptyWorld).2.failed = [.mark] ∧
      ¬ StaysCold env (Prog.exec (setupAndPrepare env (some [])) emptyWorld) := by
  have hready : ∀ {env : Env} {r : Except Stop Unit × World} {stop : Stop}, r.1 = .error stop →
      detectState env r.2.fs = .ready → ¬ StaysCold env r := by
    rintro env ⟨result, w⟩ stop rfl hready hcold
    have hboth : VmState.ready = .cold := hready.symm.trans hcold
    cases hboth
  exact ⟨⟨rfl, rfl, hready rfl rfl⟩, ⟨rfl, hready rfl rfl⟩, rfl, hready rfl rfl⟩

end FlyVault.Init.Setup
