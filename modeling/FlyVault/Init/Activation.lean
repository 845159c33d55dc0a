/-
  The moves of `activate_staged_root` and `restore_previous_root`.

  For a machine with an active rootfs, each move either takes place or changes nothing, and the
  specs say at which of its operations the process may die and what the active rootfs is then.
  `recover_spec` is the way back after a start that failed: if nothing else fails, the previous
  rootfs is active again.
-/
import FlyVault.Init.SetupSteps

namespace FlyVault.Init.Setup

open FlyVault.Lib FlyVault.Protocol
open Prog (wp wp_bind wp_pure wp_throw wp_mono)

variable {env : Env} {step : Step} {w : World}

/-- The provision marker is there. -/
def Marked (fs : Fs Slot) : Prop := ∃ content, fs .provisioned = some (.file content)

theorem Marked.pathExists {fs : Fs Slot} (h : Marked fs) (links : String → Option Kind) :
    fs.pathExists links (.at .provisioned) = true := by
  obtain ⟨content, h⟩ := h
  simp [Fs.pathExists, h]

theorem Marked.of_eq {fs fs' : Fs Slot} (h : Marked fs)
    (heq : fs' .provisioned = fs .provisioned) : Marked fs' := by
  obtain ⟨content, h⟩ := h
  exact ⟨content, heq.trans h⟩

/-- A rename to a place that is free. -/
theorem rename_free {fs : Fs Slot} {k j : Slot} {n : Node} (hk : fs k = some n)
    (hj : fs j = none) :
    Fs.rename (.at k) (.at j) fs =
      .ok ((), Function.update (Function.update fs k none) j (some n)) := by
  simp [Fs.rename, hk, hj, Fs.parentExists, Path.at, Fs.get, Fs.put]

/-- An operation that does what it should, or fails or dies without an effect. -/
theorem wp_rename_free {k j : Slot} {n : Node} (hk : w.fs k = some n) (hj : w.fs j = none) :
    wp (rename env step (.at k) (.at j))
      (fun _ w' => w'.fs = Function.update (Function.update w.fs k none) j (some n) ∧
        w'.failed = w.failed)
      (Ends (fun w' => w'.fs = w.fs ∧ w'.failed = step :: w.failed ∧ Faulty env)
        fun d w' => d.step = step ∧ w'.fs = w.fs) w := by
  refine wp_perform ?_ ?_ ?_ ?_
  · intro r fs hop
    rw [rename_free hk hj] at hop
    cases hop
    exact ⟨rfl, rfl⟩
  · intro e hop
    rw [rename_free hk hj] at hop
    cases hop
  · exact fun _ hf => ⟨rfl, rfl, hf⟩
  · exact fun _ => ⟨rfl, rfl⟩

theorem storeProvisionMarker_spec (hmarked : Marked w.fs) :
    wp (storeProvisionMarker env step)
      (fun _ w' => Marked w'.fs ∧ Kept (· = .provisioned) w.fs w'.fs ∧ w'.failed = w.failed)
      (Ends (fun w' => Marked w'.fs ∧ Kept (· = .provisioned) w.fs w'.fs ∧
          w'.failed = step :: w.failed ∧ Faulty env)
        fun d w' => d.step = step ∧ w'.fs = w.fs) w := by
  obtain ⟨content, hprov⟩ := hmarked
  have hop : Fs.write (.at .provisioned) [0x31] w.fs =
      .ok ((), Function.update w.fs .provisioned (some (.file [0x31]))) := by
    simp [Fs.write, hprov]
  refine wp_context (wp_perform_torn ?_ ?_ ?_ ?_ ?_)
  · intro r fs h
    rw [hop] at h
    cases h
    exact ⟨⟨[0x31], by simp [World.next]⟩, kept_update_self _ _ _, rfl⟩
  · intro e h
    rw [hop] at h
    cases h
  · intro residue hf
    have hleave : (Damage.leaveFile (.at .provisioned)).apply residue w.fs = w.fs ∨
        ∃ c, (Damage.leaveFile (.at .provisioned)).apply residue w.fs =
          Function.update w.fs .provisioned (some (.file c)) := by
      cases residue with
      | none => exact .inl rfl
      | some n =>
          cases n with
          | file c => exact .inr ⟨c, by simp [Damage.apply, hprov]⟩
          | _ => exact .inl rfl
    rcases hleave with h | ⟨c, h⟩
    · rw [h]
      exact ⟨⟨content, hprov⟩, .refl _ _, rfl, hf⟩
    · rw [h]
      exact ⟨⟨c, by simp [World.fail, World.next]⟩, kept_update_self _ _ _, rfl, hf⟩
  · exact fun _ => ⟨rfl, rfl⟩
  · rintro p es ⟨⟩

/-- An operation was made to fail between `w` and `w'`. -/
def Upset (env : Env) (w w' : World) : Prop :=
  Faulty env ∧ w.failed.length < w'.failed.length

theorem upset_of_cons {w' : World} {s : Step} (hf : Faulty env)
    (h : w'.failed = s :: w.failed) : Upset env w w' := by
  refine ⟨hf, ?_⟩
  rw [h, List.length_cons]
  omega

theorem Upset.ne {w' : World} (h : Upset env w w') : w'.failed ≠ w.failed := fun heq =>
  absurd h.2 (by rw [heq]; exact Nat.lt_irrefl _)

theorem Upset.before {w₁ w' : World} (h : Upset env w₁ w')
    (hle : w.failed.length ≤ w₁.failed.length) : Upset env w w' := ⟨h.1, by have := h.2; omega⟩

/-- What runs after a failure does not undo it. -/
theorem Within.after {α : Type} {S : Step → Prop} {x : M α} {w₀ : World} (hx : Within env S x)
    (h : Upset env w₀ w) :
    wp x (fun _ w' => Upset env w₀ w') (Ends (fun w' => Upset env w₀ w') fun _ _ => Faulty env)
      w := by
  have hlater : ∀ {w' : World}, Added S w w' → Upset env w₀ w' := fun hadded =>
    ⟨h.1, by have := h.2; have := hadded.length_le; omega⟩
  exact wp_mono (hx w) (fun _ _ => hlater) fun _ _ h' => h'.imp hlater fun _ _ => h.1

theorem Added.length_lt {S : Step → Prop} {w' : World} (h : Added S w w')
    (hne : w'.failed ≠ w.failed) : w.failed.length < w'.failed.length := by
  obtain ⟨new, heq, -⟩ := h
  rw [heq] at hne ⊢
  have hnew : new ≠ [] := fun hnil => hne (by rw [hnil, List.nil_append])
  have := List.length_pos_iff.mpr hnew
  rw [List.length_append]
  omega

theorem Added.of_failed_eq {S : Step → Prop} {w₁ w₂ : World} (h : Added S w w₁)
    (heq : w₂.failed = w₁.failed) : Added S w w₂ := by
  obtain ⟨new, hnew, hS⟩ := h
  exact ⟨new, heq.trans hnew, hS⟩

/-! ## Where the failures are logged -/

/-- The steps whose failure leads back to the old rootfs. -/
def Guarded (s : Step) : Prop := s ≠ .mark ∧ s ≠ .discard

instance : DecidablePred Guarded := fun _ => inferInstanceAs (Decidable (_ ∧ _))

theorem within_putBack (hadRoot : Bool) : Within env Guarded (putBack env hadRoot) := by
  have hclear : Within env Guarded (clearProvisionMarker env .remark) :=
    (within_perform _ _ (by decide)).context.bind fun _ => within_pure _
  unfold putBack
  refine within_ite ((within_pathExists (by decide) _).bind fun b => within_ite ?_ hclear) hclear
  exact (within_perform _ _ (by decide)).context.bind fun _ =>
    within_storeProvisionMarker (by decide)

theorem within_restorePreviousRoot (hadRoot : Bool) :
    Within env Guarded (restorePreviousRoot env hadRoot) :=
  (within_removePathIfExists (by decide) _).bind fun _ =>
    (within_putBack hadRoot).bind fun _ => within_removePathIfExists (by decide) _

theorem recover_fails (hadRoot : Bool) (err : String) :
    wp (recover env hadRoot err) (fun _ _ => False)
      (Ends (fun w' => Added Guarded w w') fun d w' =>
        Crashing env ∧ Guarded d.step ∧ Added Guarded w w') w := by
  have hall : Within env Guarded (do
      let _ ← attempt (restorePreviousRoot env hadRoot)
      attempt (if hadRoot then ensureRuntimeStarted env .restart else pure ())) :=
    (within_restorePreviousRoot hadRoot).attempt.bind fun _ =>
      (within_ite (within_ensureRuntimeStarted (by decide)) (within_pure _)).attempt
  have hrun := hall w
  rw [wp_bind] at hrun
  unfold recover
  rw [wp_bind]
  refine wp_mono hrun (fun _ _ h => ?_) fun _ _ h => h
  rw [wp_bind]
  exact h

theorem within_recover (hadRoot : Bool) (err : String) :
    Within env Guarded (recover env hadRoot err) := fun _ =>
  wp_mono (recover_fails hadRoot err) (fun _ _ h => h.elim) fun _ _ h => h

theorem within_setAside (hadRoot : Bool) : Within env Guarded (setAside env hadRoot) :=
  within_ite ((within_pathExists (by decide) _).bind fun _ =>
    within_ite (within_perform _ _ (by decide)).context (within_pure _)) (within_pure _)

theorem within_promote (hadRoot : Bool) : Within env Guarded (promote env hadRoot) := by
  refine (within_perform _ _ (by decide)).context.attempt.bind fun r => ?_
  cases r with
  | ok _ => exact within_pure _
  | error err => exact (within_restorePreviousRoot hadRoot).bind fun _ => within_throw _

/-! ## Forward -/

theorem hadExistingRoot_spec {es : Entries} (hmarked : Marked w.fs)
    (hroot : w.fs .root = some (.dir es)) :
    wp (hadExistingRoot env)
      (fun b w' => w'.fs = w.fs ∧
        (b = true ∨ Faulty env ∧ w.failed.length + 2 ≤ w'.failed.length))
      (Ends (fun _ => False) fun _ w' => w'.fs = w.fs) w := by
  unfold hadExistingRoot
  rw [wp_bind]
  refine wp_mono (pathExists_spec _) ?_ fun _ _ h => h.imp id fun _ h => h.1
  rintro b w₁ ⟨hfs, ⟨rfl, -⟩ | ⟨rfl, hfailed, -⟩⟩
  · rw [hmarked.pathExists]
    exact ⟨hfs, .inl rfl⟩
  · simp only [Bool.false_eq_true, if_false]
    refine wp_mono (pathExists_spec _) ?_ fun _ _ h => h.imp id fun _ h => h.1.trans hfs
    rintro b w₂ ⟨hfs₂, ⟨rfl, -⟩ | ⟨rfl, hfailed₂, hf⟩⟩
    · refine ⟨hfs₂.trans hfs, .inl ?_⟩
      rw [hfs]
      exact dir_pathExists (p := .at .root) hroot env.links
    · refine ⟨hfs₂.trans hfs, .inr ⟨hf, ?_⟩⟩
      rw [hfailed₂, hfailed]
      simp

theorem setAside_spec {es : Entries} (hroot : w.fs .root = some (.dir es))
    (hprev : w.fs .previous = none) :
    wp (setAside env true)
      (fun _ w' => (w'.fs = Function.update (Function.update w.fs .root none) .previous
          (some (.dir es)) ∧ w'.failed = w.failed) ∨
        w'.fs = w.fs ∧ w'.failed = .setAside :: w.failed ∧ Faulty env)
      (Ends (fun w' => w'.fs = w.fs ∧ Faulty env)
        fun d w' => d.step = .setAside ∧ w'.fs = w.fs) w := by
  have hwithin : Within env (· = .setAside) (pathExists env .setAside (.at .root)) :=
    within_pathExists (S := (· = .setAside)) rfl _
  show wp (do if ← pathExists env .setAside (.at .root) then _ else pure ()) _ _ w
  rw [wp_bind]
  refine wp_mono (hwithin.with (pathExists_spec _)) ?_
    fun _ _ h => h.imp (fun h => h.1.elim) fun s h => ⟨h.2.2.1, h.1.1⟩
  rintro b w₁ ⟨⟨hfs, ⟨rfl, hfailed⟩ | ⟨rfl, hfailed, hf⟩⟩, -⟩
  · rw [dir_pathExists (p := .at .root) hroot, if_pos rfl]
    refine wp_context (wp_mono (wp_rename_free (hfs ▸ hroot) (hfs ▸ hprev)) ?_
      fun _ _ h => h.imp ?_ ?_)
    · rintro - w₂ ⟨hfs₂, hfailed₂⟩
      rw [hfs] at hfs₂
      exact .inl ⟨hfs₂, hfailed₂.trans hfailed⟩
    · exact fun h => ⟨h.1.trans hfs, h.2.2⟩
    · exact fun _ h => ⟨h.1, h.2.trans hfs⟩
  · exact .inr ⟨hfs, hfailed, hf⟩

/-! ## Back -/

/-- The previous rootfs is active again. -/
def Restored (es : Entries) (fs fs' : Fs Slot) : Prop :=
  fs' .root = some (.dir es) ∧ Marked fs' ∧ ∀ m, fs' (.persist m) = fs (.persist m)

/-- What the active rootfs is when the process dies on the way back. -/
def DiedBack (env : Env) (es : Entries) (w : World) (d : Death) (w' : World) : Prop :=
  Faulty env ∨ d.step = .clearNew ∧ Torn (.at .root) w.fs d w'.fs ∨
    d.step = .putBack ∧ w'.fs .root = none ∧ Marked w'.fs ∨
    (d.step ≠ .promote ∧ d.step ≠ .putBack ∧ d.step ≠ .clearNew) ∧ ActiveOffLinks env es w'.fs

theorem putBack_spec {es : Entries} (hroot : w.fs .root = none)
    (hprev : w.fs .previous = some (.dir es)) (hmarked : Marked w.fs) :
    wp (putBack env true)
      (fun _ w' => Restored es w.fs w'.fs ∧ w'.fs .staging = w.fs .staging ∧
        w'.failed = w.failed ∨ Upset env w w')
      (Ends (fun w' => Upset env w w') fun d w' => Faulty env ∨
        d.step = .putBack ∧ w'.fs .root = none ∧ Marked w'.fs ∨
        d.step = .remark ∧ w'.fs .root = some (.dir es)) w := by
  have hwithin : Within env (· = .putBack) (pathExists env .putBack (.at .previous)) :=
    within_pathExists (S := (· = .putBack)) rfl _
  show wp (do if ← pathExists env .putBack (.at .previous) then _ else _) _ _ w
  rw [wp_bind]
  refine wp_mono (hwithin.with (pathExists_spec _)) ?_
    fun _ _ h => h.imp (fun h => h.1.elim) fun s h =>
      .inr (.inl ⟨h.2.2.1, h.1.1 ▸ ⟨hroot, hmarked⟩⟩)
  rintro b w₁ ⟨⟨hfs, ⟨rfl, hfailed⟩ | ⟨rfl, hfailed, hf⟩⟩, -⟩
  · rw [dir_pathExists (p := .at .previous) hprev, if_pos rfl, wp_bind]
    refine wp_context (wp_mono (wp_rename_free (hfs ▸ hprev) (hfs ▸ hroot)) ?_
      fun _ _ h => h.imp (fun h => upset_of_cons h.2.2 (hfailed ▸ h.2.1))
        fun _ h => .inr (.inl ⟨h.1, h.2 ▸ hfs ▸ ⟨hroot, hmarked⟩⟩))
    rintro - w₂ ⟨hfs₂, hfailed₂⟩
    rw [hfs] at hfs₂
    have hroot₂ : w₂.fs .root = some (.dir es) := by rw [hfs₂, Function.update_self]
    have hrest : ∀ k, k ≠ .root → k ≠ .previous → w₂.fs k = w.fs k := fun k h h' => by
      rw [hfs₂, Function.update_of_ne h, Function.update_of_ne h']
    refine wp_mono (storeProvisionMarker_spec (hmarked.of_eq (hrest _ (by simp) (by simp)))) ?_
      fun _ _ h => h.imp (fun h => upset_of_cons h.2.2.2 (hfailed ▸ hfailed₂ ▸ h.2.2.1))
        fun _ h => .inr (.inr ⟨h.1, h.2 ▸ hroot₂⟩)
    rintro - w₃ ⟨hmarked₃, hkept₃, hfailed₃⟩
    refine .inl ⟨⟨(hkept₃ _ (by simp)).trans hroot₂, hmarked₃, fun m => ?_⟩, ?_,
      hfailed₃.trans (hfailed₂.trans hfailed)⟩
    · rw [hkept₃ _ (by simp), hrest _ (by simp) (by simp)]
    · rw [hkept₃ _ (by simp), hrest _ (by simp) (by simp)]
  · -- the wrong answer of `stat` makes the code forget the marker
    have hclear : Within env (· = .remark) (clearProvisionMarker env .remark) :=
      (within_perform (S := (· = .remark)) _ _ rfl).context.bind fun _ => within_pure _
    simp only [Bool.false_eq_true, if_false]
    exact wp_mono (hclear.after (upset_of_cons hf hfailed)) (fun _ _ h => .inr h)
      fun _ _ h => h.imp id fun _ h => .inl h

/-- `restore_previous_root` puts the previous rootfs back, unless another operation fails. -/
theorem restorePreviousRoot_spec {es : Entries} (hroot : w.fs .root ≠ some .special)
    (hprev : w.fs .previous = some (.dir es)) (hmarked : Marked w.fs)
    (hstaging : w.fs .staging ≠ some .special) :
    wp (restorePreviousRoot env true)
      (fun _ w' => Restored es w.fs w'.fs ∧ w'.failed = w.failed ∨ Upset env w w')
      (Ends (fun w' => Upset env w w') fun d w' => DiedBack env es w d w') w := by
  have hwithin : ∀ (s : Step) (k : Slot), Within env (· = s) (removePathIfExists env s (.at k)) :=
    fun s _ => within_removePathIfExists (S := (· = s)) rfl _
  unfold restorePreviousRoot
  rw [wp_bind]
  refine wp_mono ((hwithin .clearNew .root).with (removePathIfExists_spec .root)) ?_
    fun _ _ h => h.imp (fun h => upset_of_cons (h.1.2.2 hroot) h.1.2.1)
      fun _ h => .inr (.inl ⟨h.2.2.1, h.1⟩)
  rintro - w₁ ⟨⟨hfs₁, hfailed₁⟩, -⟩
  have hrest : ∀ k, k ≠ .root → w₁.fs k = w.fs k := fun k hk => by
    rw [hfs₁, Function.update_of_ne hk]
  have hbefore : ∀ {w' : World}, Upset env w₁ w' → Upset env w w' := fun h =>
    h.before (Nat.le_of_eq (congrArg _ hfailed₁.symm))
  rw [wp_bind]
  refine wp_mono (putBack_spec (w := w₁) (by rw [hfs₁, Function.update_self])
    ((hrest _ (by simp)).trans hprev) (hmarked.of_eq (hrest _ (by simp)))) ?_
    fun _ _ h => h.imp hbefore ?_
  · rintro - w₂ (⟨⟨hroot₂, hmarked₂, hpersist₂⟩, hstaging₂, hfailed₂⟩ | hupset)
    · have hstaging' : w₂.fs .staging ≠ some .special := by
        rw [hstaging₂, hrest _ (by simp)]
        exact hstaging
      have hfailed : w₂.failed = w.failed := hfailed₂.trans hfailed₁
      refine wp_mono ((hwithin .cleanup .staging).with (removePathIfExists_spec .staging)) ?_
        fun _ _ h => h.imp (fun h => upset_of_cons (h.1.2.2 hstaging') (hfailed ▸ h.1.2.1))
          fun s h => ?_
      · rintro - w₃ ⟨⟨hfs₃, hfailed₃⟩, -⟩
        refine .inl ⟨⟨?_, ?_, fun m => ?_⟩, hfailed₃.trans hfailed⟩
        · rw [hfs₃, Function.update_of_ne (by simp), hroot₂]
        · exact hmarked₂.of_eq (by rw [hfs₃, Function.update_of_ne (by simp)])
        · rw [hfs₃, Function.update_of_ne (by simp), hpersist₂, hrest _ (by simp)]
      · have hroot₃ := (h.1.kept .root (by simp)).trans hroot₂
        exact .inr (.inr (.inr ⟨by simp [h.2.2.1], (active_of_root hroot₃).offLinks⟩))
    · exact wp_mono ((hwithin .cleanup .staging).after (hbefore hupset)) (fun _ _ h => .inr h)
        fun _ _ h => h.imp id fun _ h => .inl h
  · rintro d (hf | ⟨hs, h⟩ | ⟨hs, h⟩)
    · exact .inl hf
    · exact .inr (.inr (.inl ⟨hs, h⟩))
    · exact .inr (.inr (.inr ⟨by simp [hs], (active_of_root h).offLinks⟩))

/-- A start that failed leads back to the previous rootfs. -/
theorem recover_spec {es : Entries} {err : String} (hroot : w.fs .root ≠ some .special)
    (hprev : w.fs .previous = some (.dir es)) (hmarked : Marked w.fs)
    (hstaging : w.fs .staging ≠ some .special) (hlinks : env.cfg.testMode = true → Links env es) :
    wp (recover env true err) (fun _ _ => False)
      (Ends (fun w' => (w'.failed = w.failed → Active es w'.fs ∧ Marked w'.fs) ∧
          (Faulty env ∨ ActiveOffLinks env es w'.fs))
        fun d w' => DiedBack env es w d w') w := by
  have hwithin : Within env (· = .restart) (ensureRuntimeStarted env .restart) :=
    within_ensureRuntimeStarted (S := (· = .restart)) rfl
  have hupset : ∀ {e : String} {w₁ : World}, Upset env w w₁ →
      wp (do
        let _ ← attempt (if true then ensureRuntimeStarted env .restart else pure ())
        throw (.error e) : M Unit)
        (fun _ _ => False)
        (Ends (fun w' => (w'.failed = w.failed → Active es w'.fs ∧ Marked w'.fs) ∧
            (Faulty env ∨ ActiveOffLinks env es w'.fs))
          fun d w' => DiedBack env es w d w') w₁ := by
    intro e w₁ hupset
    have hout : ∀ {w' : World}, Upset env w w' →
        (w'.failed = w.failed → Active es w'.fs ∧ Marked w'.fs) ∧
          (Faulty env ∨ ActiveOffLinks env es w'.fs) := fun h =>
      ⟨fun heq => absurd heq h.ne, .inl h.1⟩
    rw [wp_bind]
    exact wp_attempt (wp_mono (hwithin.after hupset) (fun _ _ h => hout h)
      fun _ _ h => h.imp (fun h _ => hout h) fun _ h => .inl h)
  unfold recover
  rw [wp_bind]
  refine wp_attempt (wp_mono (restorePreviousRoot_spec hroot hprev hmarked hstaging) ?_
    fun _ _ h => h.imp (fun h _ => hupset h) fun _ h => h)
  rintro - w₁ (⟨⟨hroot₁, hmarked₁, -⟩, hfailed₁⟩ | h)
  · rw [wp_bind]
    have hmarked' : ∀ {fs : Fs Slot}, Kept (Beside .root) w₁.fs fs → Marked fs := fun hkept =>
      hmarked₁.of_eq (hkept _ (by simp [Beside]))
    refine wp_attempt (wp_mono (hwithin.with (ensureRuntimeStarted_spec hroot₁ hlinks)) ?_
      fun _ _ h => h.imp ?_ ?_)
    · rintro - w₂ ⟨⟨hactive, hkept⟩, -⟩
      exact ⟨fun _ => ⟨hactive, hmarked' hkept⟩, .inr (Active.offLinks hactive)⟩
    · rintro ⟨⟨hactive, hkept, hclean⟩, -⟩ e
      exact ⟨fun heq => ⟨(hclean (heq.trans hfailed₁.symm)).1, hmarked' hkept⟩, .inr hactive⟩
    · rintro d ⟨⟨hactive, -⟩, -, hs, -⟩
      exact .inr (.inr (.inr ⟨by simp [hs], hactive⟩))
  · exact hupset h

/-! ## The two moves that decide -/

/-- The staged rootfs takes the free place, or the previous one comes back. -/
theorem promote_spec {es es₀ : Entries} (hroot : w.fs .root = none)
    (hstaging : w.fs .staging = some (.dir es)) (hprev : w.fs .previous = some (.dir es₀))
    (hmarked : Marked w.fs) :
    wp (promote env true)
      (fun _ w' => w'.fs = Function.update (Function.update w.fs .staging none) .root
        (some (.dir es)) ∧ w'.failed = w.failed)
      (Ends (fun w' => Upset env w w' ∧
          (w'.failed.length ≤ w.failed.length + 1 → Restored es₀ w.fs w'.fs))
        fun d w' => Faulty env ∨ d.step = .promote ∧ w'.fs = w.fs) w := by
  unfold promote
  rw [wp_bind]
  refine wp_attempt (wp_context (wp_mono (wp_rename_free hstaging hroot) (fun _ _ h => h)
    fun _ _ h => h.imp ?_ fun _ h => .inr h))
  rintro ⟨hfs, hfailed, hf⟩ e
  rw [wp_bind]
  have hgrew := upset_of_cons hf hfailed
  refine wp_mono (restorePreviousRoot_spec (by simp [hfs, hroot]) (hfs ▸ hprev) (hfs ▸ hmarked)
    (by simp [hfs, hstaging])) ?_ fun _ _ h => h.imp ?_ fun _ _ => .inl hf
  · rintro - w' (⟨hrestored, hfailed'⟩ | hupset)
    · exact ⟨upset_of_cons hf (hfailed'.trans hfailed), fun _ => hfs ▸ hrestored⟩
    · exact ⟨hupset.before (Nat.le_of_lt hgrew.2), fun hle => absurd hle (by
        have := hgrew.2; have := hupset.2; omega)⟩
  · intro hupset
    exact ⟨hupset.before (Nat.le_of_lt hgrew.2), fun hle => absurd hle (by
      have := hgrew.2; have := hupset.2; omega)⟩

/-- Whatever is at the active place, the staged rootfs takes it or a failure is logged. -/
theorem promote_over {es : Entries} {hadRoot : Bool}
    (hstaging : w.fs .staging = some (.dir es)) :
    wp (promote env hadRoot)
      (fun _ w' => w'.fs = Function.update (Function.update w.fs .staging none) .root
        (some (.dir es)) ∧ w'.failed = w.failed)
      (Ends (fun w' => w.failed.length < w'.failed.length) fun _ _ => True) w := by
  have hback : ∀ {fs : Fs Slot} (e : String),
      wp (do restorePreviousRoot env hadRoot; throw (.error e) : M Unit)
        (fun _ w' => w'.fs = Function.update (Function.update w.fs .staging none) .root
          (some (.dir es)) ∧ w'.failed = w.failed)
        (Ends (fun w' => w.failed.length < w'.failed.length) fun _ _ => True)
        (w.fail .promote fs) := by
    intro fs e
    have hle : ∀ {w' : World}, Added Guarded (w.fail .promote fs) w' →
        w.failed.length < w'.failed.length := fun h => h.length_le
    rw [wp_bind]
    exact wp_mono (within_restorePreviousRoot hadRoot _) (fun _ _ h => hle h)
      fun _ _ h => h.imp hle fun _ _ => trivial
  unfold promote
  rw [wp_bind]
  refine wp_attempt (wp_context (wp_perform ?_ ?_ ?_ ?_))
  · intro r fs hop
    obtain ⟨n, hn, hfs, -⟩ := Fs.rename_eq_ok hop
    rw [Fs.get_at, hstaging] at hn
    cases hn
    exact ⟨hfs, rfl⟩
  · exact fun _ _ e => hback e
  · exact fun _ _ e => hback e
  · exact fun _ => trivial

/-- A death that leaves an active rootfs: not between the two renames, nor in the middle of
    removing it. -/
def Death.Safe (d : Death) : Prop :=
  d.step ≠ .promote ∧ d.step ≠ .putBack ∧ (d.step = .clearNew → d.left = none)

/-- The process died while `es` was to replace `es₀`. -/
def Died (env : Env) (es₀ es : Entries) (d : Death) (w : World) : Prop :=
  ¬ Faulty env →
    (d.step = .promote ∨ d.step = .putBack) ∧ w.fs .root = none ∧ Marked w.fs ∨
      d.step = .clearNew ∧ (∃ left, d.left = some left ∧ w.fs .root = some (.dir left)) ∧
        Marked w.fs ∨
      d.Safe ∧ (ActiveOffLinks env es₀ w.fs ∨ ActiveOffLinks env es w.fs)

theorem DiedBack.died {es es₀ : Entries} {d : Death} {w' : World} (h : DiedBack env es₀ w d w')
    (hactive : ActiveOffLinks env es w.fs) (hmarked : Marked w.fs) : Died env es₀ es d w' := by
  intro hnf
  rcases h with hf | ⟨hs, ⟨hleft, hfs⟩ | ⟨left, hleft, hfs⟩⟩ | ⟨hs, hgap⟩ | ⟨hs, hback⟩
  · exact absurd hf hnf
  · exact .inr (.inr ⟨⟨by simp [hs], by simp [hs], fun _ => hleft⟩, .inr (hfs ▸ hactive)⟩)
  · refine .inr (.inl ⟨hs, ⟨left, hleft, ?_⟩, hmarked.of_eq ?_⟩)
    · rw [hfs, Fs.put_at, Function.update_self]
    · rw [hfs, Fs.put_at, Function.update_of_ne (by simp)]
  · exact .inl ⟨.inr hs, hgap⟩
  · exact .inr (.inr ⟨⟨hs.1, hs.2.1, fun h => absurd h hs.2.2⟩, .inl hback⟩)

/-- How the start of the new rootfs fails: `rootfs.previous` is not removed, or it does not
    start and the way back is taken. -/
def StartFailed (env : Env) (es es₀ : Entries) (w w' : World) : Prop :=
  (Upset env w w' ∧ Active es w'.fs ∧ Marked w'.fs ∧
      ∃ w₁, Added Guarded w w₁ ∧ w'.failed = .discard :: w₁.failed) ∨
    Added Guarded w w' ∧ (Faulty env ∨ ActiveOffLinks env es₀ w'.fs) ∧
      ∃ w₁, Added Guarded w w₁ ∧ (w₁.failed = w.failed → ¬ SourcesReady w.fs) ∧
        Added Guarded w₁ w' ∧ (w'.failed = w₁.failed → Active es₀ w'.fs ∧ Marked w'.fs)

theorem startNew_spec {es es₀ : Entries} (hroot : w.fs .root = some (.dir es))
    (hlinks : env.cfg.testMode = true → Links env es)
    (hprev : w.fs .previous = some (.dir es₀))
    (hlinks₀ : env.cfg.testMode = true → Links env es₀) (hmarked : Marked w.fs)
    (hstaging : w.fs .staging = none) :
    wp (startNew env true)
      (fun _ w' => Active es w'.fs ∧ w'.fs .previous = none ∧ Added Guarded w w')
      (Ends (fun w' => StartFailed env es es₀ w w')
        fun d w' => Died env es₀ es d w') w := by
  have hstart : Within env (· = .start) (ensureRuntimeStarted env .start) :=
    within_ensureRuntimeStarted (S := (· = .start)) rfl
  have hguarded : ∀ s, s = .start → Guarded s := by
    rintro _ rfl
    decide
  have hdiscard : Within env (· = .discard) (removePathIfExists env .discard (.at .previous)) :=
    within_removePathIfExists (S := (· = .discard)) rfl _
  have hkeep : ∀ {fs : Fs Slot} {k : Slot}, Kept (Beside .root) w.fs fs →
      (k = .previous ∨ k = .provisioned ∨ k = .staging) → fs k = w.fs k := by
    rintro fs k hkept (rfl | rfl | rfl) <;> exact hkept _ (by simp [Beside])
  unfold startNew
  rw [wp_bind]
  refine wp_attempt (wp_mono (hstart.with (ensureRuntimeStarted_spec hroot hlinks)) ?_
    fun _ _ h => h.imp ?_ ?_)
  · -- started
    rintro - w₁ ⟨⟨hactive, hkept⟩, hadded⟩
    replace hadded := hadded.mono hguarded
    have hprev₁ : w₁.fs .previous = some (.dir es₀) := (hkeep hkept (by simp)).trans hprev
    have hmarked₁ : Marked w₁.fs := hmarked.of_eq (hkeep hkept (by simp))
    refine wp_mono (hdiscard.with (removePathIfExists_spec .previous)) ?_ fun _ _ h => h.imp ?_ ?_
    · rintro - w₂ ⟨⟨hfs, hfailed⟩, -⟩
      refine ⟨Active.of_eq hactive ?_, ?_, hadded.of_failed_eq hfailed⟩
      · rw [hfs, Function.update_of_ne (by simp)]
      · rw [hfs, Function.update_self]
    · rintro ⟨⟨hkept₂, hfailed, hfault⟩, -⟩
      refine .inl ⟨?_, ?_, hmarked₁.of_eq (hkept₂ _ (by simp)), w₁, hadded, hfailed⟩
      · exact (upset_of_cons (hfault (by simp [hprev₁])) hfailed).before hadded.length_le
      · exact Active.of_eq hactive (hkept₂ _ (by simp))
    · rintro d ⟨htorn, -, hs, -⟩ -
      have hactive₂ := Active.of_eq hactive (htorn.kept .root (by simp))
      exact .inr (.inr ⟨by simp [Death.Safe, hs], .inr hactive₂.offLinks⟩)
  · -- not started
    rintro ⟨⟨⟨es₁, hroot₁, hoff⟩, hkept, hunready⟩, hadded⟩ e
    replace hadded := hadded.mono hguarded
    refine wp_mono ((within_recover true e).with (recover_spec (by simp [hroot₁])
      ((hkeep hkept (by simp)).trans hprev) (hmarked.of_eq (hkeep hkept (by simp)))
      (by simp [hkeep hkept, hstaging]) hlinks₀)) (fun _ _ h => h.1.elim) fun _ _ h => h.imp ?_ ?_
    · rintro ⟨⟨hback, hoff₀⟩, hadded'⟩
      exact .inr ⟨hadded.trans hadded', hoff₀, _, hadded, fun heq => (hunready heq).2, hadded',
        hback⟩
    · rintro d ⟨hdied, -⟩
      exact hdied.died ⟨es₁, hroot₁, hoff⟩ (hmarked.of_eq (hkeep hkept (by simp)))
  · rintro d ⟨⟨hactive, -⟩, -, hs, -⟩ -
    exact .inr (.inr ⟨by simp [Death.Safe, hs], .inr hactive⟩)

/-- Without a previous rootfs a start still succeeds or logs a failure. -/
theorem startNew_alone {es : Entries} {hadRoot : Bool} (hroot : w.fs .root = some (.dir es))
    (hlinks : env.cfg.testMode = true → Links env es) (hready : SourcesReady w.fs) :
    wp (startNew env hadRoot)
      (fun _ w' => Active es w'.fs ∧ w'.fs .previous = none ∧ Added Guarded w w')
      (Ends (fun w' => w.failed.length < w'.failed.length) fun _ _ => True) w := by
  have hstart : Within env Guarded (ensureRuntimeStarted env .start) :=
    within_ensureRuntimeStarted (by decide)
  unfold startNew
  rw [wp_bind]
  refine wp_attempt (wp_mono (hstart.with (ensureRuntimeStarted_spec hroot hlinks)) ?_
    fun _ _ h => h.imp ?_ fun _ _ => trivial)
  · rintro - w₁ ⟨⟨hactive, -⟩, hadded⟩
    refine wp_mono (removePathIfExists_spec .previous) ?_ fun _ _ h => h.imp ?_ fun _ _ => trivial
    · rintro - w₂ ⟨hfs, hfailed⟩
      refine ⟨Active.of_eq hactive ?_, ?_, hadded.of_failed_eq hfailed⟩
      · rw [hfs, Function.update_of_ne (by simp)]
      · rw [hfs, Function.update_self]
    · rintro ⟨-, hfailed, -⟩
      have := hadded.length_le
      rw [hfailed, List.length_cons]
      omega
  · rintro ⟨⟨-, -, hunready⟩, hadded⟩ e
    have hgrew : w.failed.length < _ := hadded.length_lt fun heq => (hunready heq).2 hready
    exact wp_mono (recover_fails hadRoot e) (fun _ _ h => h.elim) fun _ _ h =>
      h.imp (fun h => Nat.lt_of_lt_of_le hgrew h.length_le) fun _ _ => trivial

end FlyVault.Init.Setup
