/-
  What the setup manager may change, however its operations are answered.

  `Preserves R x`: wherever `x` starts and however it ends, the data directory before and after
  are related by `R`. `Permits R D` says what `R` has to allow for a function that works on the
  places in `D` only: any change there. `Adopts R D` adds what happens to the persistent
  directories: a new empty one where there was none, and the move of a directory out of a place
  in `D`, if `rename` accepts it. `Marks` is about the provision marker. Then there is one lemma
  for each function of the setup manager, with the places it works on.

  With `Kept T` for `R` this is the frame of a function; other relations say what happens to
  the persistent directories.
-/
import FlyVault.Init.SetupSteps

namespace FlyVault.Init.Setup

open FlyVault.Lib FlyVault.Protocol
open Prog (wp wp_bind wp_pure wp_throw wp_tryCatch wp_mono)

variable {α β : Type} {env : Env} {step : Step}

def Preserves (R : Fs Slot → Fs Slot → Prop) (x : M α) : Prop :=
  ∀ w, wp x (fun _ w' => R w.fs w'.fs) (fun _ w' => R w.fs w'.fs) w

structure Permits (R : Fs Slot → Fs Slot → Prop) (D : Slot → Prop) : Prop where
  refl : ∀ fs, R fs fs
  trans : ∀ {fs₁ fs₂ fs₃}, R fs₁ fs₂ → R fs₂ fs₃ → R fs₁ fs₃
  change : ∀ fs (p : Path Slot) n, D p.place → R fs (fs.put p n)

structure Adopts (R : Fs Slot → Fs Slot → Prop) (D : Slot → Prop) : Prop
    extends Permits R D where
  create : ∀ fs m, fs (.persist m) = none → R fs (fs.put (.at (.persist m)) (some (.dir [])))
  adopt : ∀ {fs fs'} k name m d, D k → fs.get (.in k name) = some (.dir d) →
    Fs.rename (.in k name) (.at (.persist m)) fs = .ok ((), fs') → R fs fs'

/-- What `R` has to allow for the provision marker. -/
structure Marks (env : Env) (R : Fs Slot → Fs Slot → Prop) : Prop where
  store : ∀ step, Preserves R (storeProvisionMarker env step)
  clear : ∀ step, Preserves R (clearProvisionMarker env step)

/-- The frame of functions that work on the places in `D` only. -/
theorem permits_kept {T D : Slot → Prop} (hD : ∀ k, D k → T k) : Permits (Kept T) D where
  refl := Kept.refl T
  trans := Kept.trans
  change fs p n hp k hk := Fs.put_of_ne fs (fun heq => hk (by rw [heq]; exact hD _ hp)) n

theorem adopts_kept {T D : Slot → Prop} (hD : ∀ k, D k → T k) (hT : ∀ m, T (.persist m)) :
    Adopts (Kept T) D where
  toPermits := permits_kept hD
  create fs m _ k hk := Fs.put_of_ne fs (fun heq => hk (by rw [heq]; exact hT m)) _
  adopt {fs fs'} k name m d hk _ hop := by
    obtain ⟨n, -, hfs', -⟩ := Fs.rename_eq_ok hop
    intro j hj
    rw [show fs' = _ from hfs', Fs.put_of_ne _ fun heq => hj (by rw [heq]; exact hT m),
      Fs.put_of_ne _ fun heq => hj (by rw [heq]; exact hD k hk)]

theorem Preserves.ends {R : Fs Slot → Fs Slot → Prop} {x : M α} (hx : Preserves R x)
    (w : World) :
    wp x (fun _ w' => R w.fs w'.fs)
      (Ends (fun w' => R w.fs w'.fs) fun _ w' => R w.fs w'.fs) w := by
  refine wp_mono (hx w) (fun _ _ hw => hw) fun stop _ hw => ?_
  cases stop with
  | error e => exact hw
  | crash d => exact hw

theorem Preserves.exec {R : Fs Slot → Fs Slot → Prop} {x : M α} (hx : Preserves R x)
    (w : World) : R w.fs (Prog.exec x w).2.fs := by
  have hw := hx w
  unfold wp at hw
  split at hw
  · next heq => rw [heq]; exact hw
  · next heq => rw [heq]; exact hw

/-! ## Rules -/

section Rules

variable {R : Fs Slot → Fs Slot → Prop} {D : Slot → Prop} (h : Permits R D)
include h

theorem preserves_pure (a : α) : Preserves R (pure a : M α) := fun w => h.refl w.fs

theorem preserves_throw (stop : Stop) : Preserves R (throw stop : M α) := fun w => h.refl w.fs

theorem Preserves.bind {x : M α} {f : α → M β} (hx : Preserves R x)
    (hf : ∀ a, Preserves R (f a)) : Preserves R (x >>= f) := by
  intro w
  rw [wp_bind]
  refine wp_mono (hx w) (fun a w' hw => ?_) fun _ _ hw => hw
  exact wp_mono (hf a w') (fun _ _ hw' => h.trans hw hw') fun _ _ hw' => h.trans hw hw'

omit h in
theorem Preserves.attempt {x : M α} (hx : Preserves R x) : Preserves R (attempt x) := by
  intro w
  unfold Setup.attempt
  rw [wp_tryCatch, wp_bind]
  refine wp_mono (hx w) (fun _ _ hw => hw) fun stop w' hw => ?_
  cases stop with
  | error e => exact hw
  | crash d => exact hw

omit h in
theorem Preserves.context {text : String} {x : M α} (hx : Preserves R x) :
    Preserves R (context text x) := by
  intro w
  unfold Setup.context
  rw [wp_tryCatch]
  refine wp_mono (hx w) (fun _ _ hw => hw) fun stop w' hw => ?_
  cases stop with
  | error e => exact hw
  | crash d => exact hw

omit h in
theorem preserves_ite {c : Prop} [Decidable c] {x y : M α} (hx : Preserves R x)
    (hy : Preserves R y) : Preserves R (if c then x else y) := by
  split
  · exact hx
  · exact hy

omit h in
/-- The rule for any operation. -/
theorem preserves_perform_of {damage : Damage} {op : Fs Slot → Except String (α × Fs Slot)}
    (hrefl : ∀ fs, R fs fs) (hop : ∀ fs a fs', op fs = .ok (a, fs') → R fs fs')
    (hfail : ∀ residue fs, R fs (damage.apply residue fs))
    (hdie : ∀ (w : World) left, R w.fs (w.die step damage left).2.fs) :
    Preserves R (perform env step damage op) := by
  intro w
  unfold wp perform
  simp only [Prog.exec_prim]
  cases env.plan w.ops with
  | none =>
      cases hres : op w.fs with
      | ok r => exact hop w.fs r.1 r.2 hres
      | error e => exact hrefl w.fs
  | some fault =>
      cases fault with
      | error residue => exact hfail residue w.fs
      | crash left => exact hdie w left

/-- An operation that works on one path. -/
theorem preserves_perform {damage : Damage} {op : Fs Slot → Except String (α × Fs Slot)}
    (hop : ∀ fs a fs', op fs = .ok (a, fs') → R fs fs')
    (hdamage : ∀ p, damage = .leave p ∨ damage = .leaveFile p → D p.place) :
    Preserves R (perform env step damage op) := by
  refine preserves_perform_of h.refl hop (fun residue fs => ?_) fun w left => ?_
  · unfold Damage.apply
    split
    · exact h.change _ _ _ (hdamage _ (.inl rfl))
    · split
      · exact h.change _ _ _ (hdamage _ (.inr rfl))
      · exact h.change _ _ _ (hdamage _ (.inr rfl))
      · exact h.refl _
    · exact h.refl _
  · unfold World.die
    split
    · exact h.change _ _ _ (hdamage _ (.inl rfl))
    · exact h.refl _

/-- An operation without a residue. -/
theorem preserves_intact {op : Fs Slot → Except String (α × Fs Slot)}
    (hop : ∀ fs a fs', op fs = .ok (a, fs') → R fs fs') :
    Preserves R (perform env step .intact op) :=
  preserves_perform h hop (by simp)

/-- An operation that only asks. -/
theorem preserves_ask (f : Fs Slot → α) :
    Preserves R (perform env step .intact fun fs => .ok (f fs, fs)) := by
  refine preserves_intact h fun fs a fs' hop => ?_
  cases hop
  exact h.refl fs

theorem preserves_getRuntime : Preserves R getRuntime := fun w => h.refl w.fs

theorem preserves_setRuntime (runtime : Option Nat) : Preserves R (setRuntime runtime) :=
  fun w => h.refl w.fs

/-! ## The helpers -/

theorem preserves_pathExists (p : Path Slot) : Preserves R (pathExists env step p) := by
  refine Preserves.bind h ((preserves_ask h _).attempt) fun r => ?_
  cases r <;> exact preserves_pure h _

theorem preserves_symlinkMetadata (p : Path Slot) :
    Preserves R (symlinkMetadata env step p) :=
  preserves_ask h _

theorem preserves_peek (p : Path Slot) : Preserves R (peek env step p) := by
  refine Preserves.bind h ((preserves_symlinkMetadata h p).attempt) fun r => ?_
  cases r <;> exact preserves_pure h _

theorem preserves_removeFile {p : Path Slot} (hp : D p.place) :
    Preserves R (removeFile env step p) := by
  refine preserves_intact h fun fs a fs' hop => ?_
  unfold Fs.removeFile at hop
  split at hop
  · cases hop; exact h.refl fs
  · cases hop
  · cases hop; exact h.change _ _ _ hp

theorem preserves_removeDirAll {p : Path Slot} (hp : D p.place) :
    Preserves R (removeDirAll env step p) := by
  refine preserves_perform h (fun fs a fs' hop => ?_) fun q hq => ?_
  · unfold Fs.removeDirAll at hop
    split at hop
    · cases hop
    · cases hop; exact h.change _ _ _ hp
    · cases hop; exact h.change _ _ _ hp
    · cases hop
  · rcases hq with hq | hq
    · cases hq; exact hp
    · cases hq

/-- A directory is created only where there is nothing. -/
theorem preserves_createDirAll {p : Path Slot}
    (hp : ∀ fs : Fs Slot, fs.get p = none → R fs (fs.put p (some (.dir [])))) :
    Preserves R (createDirAll env step p) := by
  refine preserves_intact h fun fs a fs' hop => ?_
  obtain ⟨hnone, hfs'⟩ | ⟨hfs', -⟩ := Fs.createDirAll_eq_ok hop
  · rw [show fs' = _ from hfs']
    exact hp fs hnone
  · rw [show fs' = _ from hfs']
    exact h.refl fs

theorem preserves_rename {p q : Path Slot} (hp : D p.place) (hq : D q.place) :
    Preserves R (rename env step p q) := by
  refine preserves_intact h fun fs a fs' hop => ?_
  obtain ⟨n, -, hfs', -⟩ := Fs.rename_eq_ok hop
  rw [show fs' = _ from hfs']
  exact h.trans (h.change fs p none hp) (h.change _ q _ hq)

theorem preserves_write {p : Path Slot} (hp : D p.place) (content : List UInt8) :
    Preserves R (perform env step (.leaveFile p) (Fs.write p content)) := by
  refine preserves_perform h (fun fs a fs' hop => ?_) fun q hq => ?_
  · unfold Fs.write at hop
    split at hop
    · cases hop
    · cases hop; exact h.refl fs
    · cases hop; exact h.refl fs
    · cases hop; exact h.change _ _ _ hp
    · split at hop
      · cases hop; exact h.change _ _ _ hp
      · cases hop
  · rcases hq with hq | hq
    · cases hq
    · cases hq; exact hp

theorem preserves_unlink {p : Path Slot} (hp : D p.place) : Preserves R (unlink env step p) :=
  Preserves.bind h (preserves_removeFile h hp) fun _ =>
    preserves_ite (preserves_pure h _) (preserves_throw h _)

theorem preserves_removePathIfExists {p : Path Slot} (hp : D p.place) :
    Preserves R (removePathIfExists env step p) := by
  refine Preserves.bind h (preserves_symlinkMetadata h p).context fun kind => ?_
  split
  · exact preserves_pure h _
  · exact (preserves_unlink h hp).context
  · exact (preserves_unlink h hp).context
  · exact (preserves_removeDirAll h hp).context

theorem preserves_ensureDirectory {p : Path Slot}
    (hp : ∀ fs : Fs Slot, fs.get p = none → R fs (fs.put p (some (.dir [])))) :
    Preserves R (ensureDirectory env step p) := by
  refine Preserves.bind h (preserves_pathExists h p) fun b =>
    preserves_ite ?_ (preserves_createDirAll h hp).context
  refine Preserves.bind h (preserves_symlinkMetadata h p).context fun kind => ?_
  split
  · exact preserves_pure h _
  · exact preserves_throw h _
  · exact preserves_throw h _

omit h in
/-- The same outcome for a failure and for a death. -/
theorem wp_ends {x : M α} {Q : α → World → Prop} {P : World → Prop} {w : World}
    (hx : wp x Q (Ends P fun _ => P) w) : wp x Q (fun _ => P) w := by
  refine wp_mono hx (fun _ _ hw => hw) fun stop w' hw => ?_
  cases stop with
  | error e => exact hw
  | crash d => exact hw

omit h in
theorem get_of_lstat_dir {fs : Fs Slot} {p : Path Slot} (hkind : fs.lstat p = some .dir) :
    ∃ d, fs.get p = some (.dir d) := by
  unfold Fs.lstat at hkind
  cases hget : fs.get p with
  | none => rw [hget] at hkind; cases hkind
  | some n =>
      cases n with
      | dir d => exact ⟨d, rfl⟩
      | _ => rw [hget] at hkind; cases hkind

theorem preserves_replaceWithSymlink {p : Path Slot} (hp : D p.place) (m : Mount) :
    Preserves R (replaceWithSymlink env step m p) := by
  refine Preserves.bind h ?_ fun _ => Preserves.context ?_
  · refine Preserves.bind h (preserves_peek h p) fun kind => ?_
    split
    · exact (preserves_unlink h hp).context
    · exact (preserves_unlink h hp).context
    · exact (preserves_removeDirAll h hp).context
    · exact preserves_throw h _
    · exact preserves_pure h _
  · refine preserves_intact h fun fs a fs' hop => ?_
    unfold Fs.symlink at hop
    split at hop
    · split at hop
      · cases hop; exact h.change _ _ _ hp
      · cases hop
    · cases hop

/-! ## The runtime -/

theorem preserves_clearFallbackMarker (hroot : D .root) :
    Preserves R (clearFallbackMarker env step) :=
  Preserves.bind h (preserves_removeFile h hroot).context fun _ => preserves_pure h _

theorem preserves_launch (hroot : D .root) : Preserves R (launch env step) :=
  Preserves.bind h (preserves_clearFallbackMarker h hroot) fun _ =>
    Preserves.bind h (preserves_ask h _).context fun _ => fun w => h.refl w.fs

/-- Outside test mode starting the runtime works on the rootfs only. -/
theorem preserves_startNamespaced (htest : env.cfg.testMode = false) (hroot : D .root) :
    Preserves R (ensureRuntimeStarted env step) := by
  unfold ensureRuntimeStarted
  rw [if_neg (by rw [htest]; exact Bool.false_ne_true)]
  refine Preserves.bind h (preserves_getRuntime h) fun runtime => ?_
  split
  · exact preserves_launch h hroot
  · refine Preserves.bind h (preserves_ask h _).context fun poll => ?_
    split
    · exact preserves_pure h _
    · exact Preserves.bind h (preserves_setRuntime h _) fun _ => preserves_launch h hroot

theorem preserves_stopRuntime (hroot : D .root) : Preserves R (stopRuntime env step) := by
  refine Preserves.bind h (preserves_getRuntime h) fun runtime => ?_
  split
  · exact preserves_pure h _
  · exact Preserves.bind h (preserves_setRuntime h _) fun _ =>
      preserves_ite (preserves_pure h _) (preserves_clearFallbackMarker h hroot)

/-! ## Staging and the moves -/

theorem preserves_resetDir {p : Path Slot} (hp : D p.place) :
    Preserves R (resetDir env step p) :=
  Preserves.bind h (preserves_removePathIfExists h hp) fun _ =>
    (preserves_createDirAll h fun fs _ => h.change fs _ _ hp).context

theorem preserves_extractRootfs (hstaging : D .staging) (data : Bytes) :
    Preserves R (extractRootfs env data) := by
  have hplace : D (Path.at Slot.staging).place := hstaging
  refine Preserves.context (Preserves.bind h ?_ fun _ =>
    preserves_ite (preserves_pure h _) (preserves_throw h _))
  refine preserves_perform h (fun fs a fs' hop => ?_) fun q hq => ?_
  · split at hop
    · cases hop; exact h.change _ _ _ hplace
    · cases hop
  · rcases hq with hq | hq
    · cases hq; exact hplace
    · cases hq

theorem preserves_hadExistingRoot : Preserves R (hadExistingRoot env) :=
  Preserves.bind h (preserves_pathExists h _) fun _ =>
    preserves_ite (preserves_pure h _) (preserves_pathExists h _)

theorem preserves_setAside (hroot : D .root) (hprevious : D .previous) (hadRoot : Bool) :
    Preserves R (setAside env hadRoot) :=
  preserves_ite (Preserves.bind h (preserves_pathExists h _) fun _ =>
    preserves_ite (preserves_rename h hroot hprevious).context (preserves_pure h _))
    (preserves_pure h _)

theorem preserves_storeProvisionMarker (hmarker : D .provisioned) :
    Preserves R (storeProvisionMarker env step) :=
  (preserves_write h hmarker _).context

theorem preserves_clearProvisionMarker (hmarker : D .provisioned) :
    Preserves R (clearProvisionMarker env step) :=
  Preserves.bind h (preserves_removeFile h hmarker).context fun _ => preserves_pure h _

theorem Permits.marks (hmarker : D .provisioned) : Marks env R where
  store _ := preserves_storeProvisionMarker h hmarker
  clear _ := preserves_clearProvisionMarker h hmarker

theorem preserves_restorePreviousRoot (hroot : D .root) (hstaging : D .staging)
    (hprevious : D .previous) (hmarker : Marks env R) (hadRoot : Bool) :
    Preserves R (restorePreviousRoot env hadRoot) := by
  refine Preserves.bind h (preserves_removePathIfExists h hroot) fun _ =>
    Preserves.bind h ?_ fun _ => preserves_removePathIfExists h hstaging
  refine preserves_ite (Preserves.bind h (preserves_pathExists h _) fun _ => preserves_ite ?_
    (hmarker.clear _)) (hmarker.clear _)
  exact Preserves.bind h (preserves_rename h hprevious hroot).context fun _ => hmarker.store _

theorem preserves_promote (hroot : D .root) (hstaging : D .staging) (hprevious : D .previous)
    (hmarker : Marks env R) (hadRoot : Bool) : Preserves R (promote env hadRoot) := by
  refine Preserves.bind h ((preserves_rename h hstaging hroot).context.attempt) fun promoted => ?_
  split
  · exact preserves_pure h _
  · exact Preserves.bind h
      (preserves_restorePreviousRoot h hroot hstaging hprevious hmarker hadRoot) fun _ =>
      preserves_throw h _

theorem preserves_runtimeStatus (hroot : D .root) : Preserves R (runtimeStatus env) := by
  refine preserves_ite (Preserves.bind h (preserves_getRuntime h) fun _ => preserves_pure h _)
    (Preserves.bind h (preserves_getRuntime h) fun runtime => ?_)
  split
  · exact preserves_pure h _
  · refine Preserves.bind h (preserves_ask h _).context fun poll => ?_
    split
    · exact Preserves.bind h (preserves_pathExists h _) fun _ =>
        preserves_ite (preserves_pure h _) (preserves_pure h _)
    · exact Preserves.bind h (preserves_setRuntime h _) fun _ =>
        Preserves.bind h (preserves_clearFallbackMarker h hroot) fun _ => preserves_pure h _

theorem preserves_shutdown (hroot : D .root) : Preserves R (shutdown env) := by
  refine Preserves.bind h (preserves_getRuntime h) fun runtime => ?_
  split
  · exact preserves_pure h _
  · exact Preserves.bind h (preserves_stopRuntime h hroot).attempt fun _ => preserves_pure h _

end Rules

/-! ## The persistent directories -/

section Adoption

variable {R : Fs Slot → Fs Slot → Prop} {D : Slot → Prop} (h : Adopts R D)
include h

/-- What is moved to the persistent directory was a directory just before. -/
theorem preserves_adoptSource {k : Slot} (hk : D k) (m : Mount) (name : String) :
    Preserves R (adoptSource env step m (.in k name)) := by
  have hp := h.toPermits
  refine Preserves.bind hp (preserves_pathExists hp _) fun b =>
    preserves_ite (preserves_pure hp _) fun w => ?_
  have hsame : ∀ {w' : World}, w'.fs = w.fs → R w.fs w'.fs := fun hfs => hfs ▸ h.refl w.fs
  refine wp_ends ?_
  rw [wp_bind]
  refine wp_mono (peek_spec _) ?_ fun _ _ hstop => hstop.imp False.elim fun _ => hsame
  rintro kind w₁ ⟨hfs, hkind⟩
  split
  · obtain ⟨d, hd⟩ : ∃ d, w.fs.get (.in k name) = some (.dir d) := by
      rcases hkind with ⟨hkind, -⟩ | ⟨hkind, -⟩
      · exact get_of_lstat_dir hkind.symm
      · cases hkind
    rw [wp_bind]
    refine wp_context (wp_perform ?_ (fun _ _ => hsame hfs) (fun _ _ => hsame hfs)
      fun _ => hsame hfs)
    intro a fs hop
    cases hop
    refine wp_context (wp_perform ?_ (fun _ _ => hsame hfs) (fun _ _ => hsame hfs)
      fun _ => hsame hfs)
    intro a fs hop
    rw [show (w₁.next w₁.fs).fs = w.fs from hfs] at hop
    exact h.adopt k name m d hk hd hop
  · exact hsame hfs
  · exact hsame hfs

theorem preserves_ensurePersistentSourceDir {k : Slot} (hk : D k) (m : Mount) (name : String) :
    Preserves R (ensurePersistentSourceDir env step m (.in k name)) := by
  have hp := h.toPermits
  exact Preserves.bind hp (preserves_adoptSource h hk m name) fun _ =>
    preserves_ensureDirectory hp fun fs => h.create fs m

theorem preserves_prepareMount {k : Slot} (hk : D k) (m : Mount) :
    Preserves R (prepareMount env step k m) := by
  have hp := h.toPermits
  exact Preserves.bind hp (preserves_ensurePersistentSourceDir h hk m _) fun _ =>
    preserves_ite (preserves_replaceWithSymlink hp hk m)
      (preserves_ensureDirectory hp fun fs _ => h.change fs _ _ hk)

theorem preserves_linkMount {k : Slot} (hk : D k) (m : Mount) :
    Preserves R (linkMount env step k m) := by
  have hp := h.toPermits
  exact Preserves.bind hp (preserves_ensurePersistentSourceDir h hk m _) fun _ =>
    preserves_replaceWithSymlink hp hk m

theorem preserves_ensureRuntimeStarted (hroot : D .root) :
    Preserves R (ensureRuntimeStarted env step) := by
  have hp := h.toPermits
  cases htest : env.cfg.testMode with
  | false => exact preserves_startNamespaced hp htest hroot
  | true =>
      unfold ensureRuntimeStarted
      rw [if_pos htest]
      refine Preserves.bind hp ?_ fun _ => preserves_setRuntime hp _
      exact Preserves.bind hp (preserves_linkMount h hroot .root) fun _ =>
        preserves_linkMount h hroot .home

/-! ## Provisioning -/

theorem preserves_stageRootfs (hstaging : D .staging) (data : Bytes) :
    Preserves R (stageRootfs env data) := by
  have hp := h.toPermits
  exact Preserves.bind hp (preserves_resetDir hp hstaging) fun _ =>
    Preserves.bind hp (preserves_extractRootfs hp hstaging data) fun _ =>
    Preserves.bind hp (preserves_prepareMount h hstaging .root) fun _ =>
    preserves_prepareMount h hstaging .home

section Activation

variable (hroot : D .root) (hstaging : D .staging) (hprevious : D .previous)
  (hmarker : Marks env R)
include hroot hstaging hprevious hmarker

theorem preserves_activateStagedRoot : Preserves R (activateStagedRoot env) := by
  have hp := h.toPermits
  have hrestore : ∀ hadRoot, Preserves R (restorePreviousRoot env hadRoot) :=
    preserves_restorePreviousRoot hp hroot hstaging hprevious hmarker
  refine Preserves.bind hp (preserves_hadExistingRoot hp) fun hadRoot =>
    Preserves.bind hp (preserves_stopRuntime hp hroot) fun _ =>
    Preserves.bind hp (preserves_removePathIfExists hp hprevious) fun _ =>
    Preserves.bind hp (preserves_setAside hp hroot hprevious hadRoot) fun _ =>
    Preserves.bind hp (preserves_promote hp hroot hstaging hprevious hmarker hadRoot) fun _ =>
    Preserves.bind hp (hmarker.store _) fun _ =>
    Preserves.bind hp ((preserves_ensureRuntimeStarted h hroot).attempt) fun started => ?_
  split
  · exact preserves_removePathIfExists hp hprevious
  · refine Preserves.bind hp ((hrestore hadRoot).attempt) fun _ => Preserves.bind hp ?_
      fun _ => preserves_throw hp _
    exact (preserves_ite (preserves_ensureRuntimeStarted h hroot) (preserves_pure hp _)).attempt

theorem preserves_setupAndPrepare (rootfsTarball : Option Bytes) :
    Preserves R (setupAndPrepare env rootfsTarball) := by
  have hp := h.toPermits
  refine Preserves.bind hp (preserves_pathExists hp _) fun provisioned => ?_
  split
  · exact Preserves.bind hp (preserves_stageRootfs h hstaging _) fun _ =>
      preserves_activateStagedRoot h hroot hstaging hprevious hmarker
  · exact preserves_ite (preserves_ensureRuntimeStarted h hroot) (preserves_throw hp _)

end Activation

/-! ## The other operations -/

theorem preserves_startReadyRuntime (hroot : D .root) : Preserves R (startReadyRuntime env) := by
  have hp := h.toPermits
  exact Preserves.bind hp (preserves_pathExists hp _) fun _ =>
    preserves_ite (preserves_ensureRuntimeStarted h hroot) (preserves_pure hp _)

theorem preserves_ensureLiveInnerInitPid (hroot : D .root) :
    Preserves R (ensureLiveInnerInitPid env) := by
  have hp := h.toPermits
  refine Preserves.bind hp (preserves_ensureRuntimeStarted h hroot) fun _ =>
    Preserves.bind hp (preserves_getRuntime hp) fun runtime => ?_
  split
  · exact preserves_pure hp _
  · exact preserves_throw hp _

end Adoption

end FlyVault.Init.Setup
