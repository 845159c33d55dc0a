/-
  The two processes after `clone`: the setup manager, which goes on as soon as it has the process
  id, and the child, which runs `child_bootstrap` (`crates/init/src/setup.rs`).

  The child is a list of steps (`bootSteps`) with an environment of its own, so every step may
  fail; what it does to the data directory goes through the same operations as in the setup
  manager. Mounts, `pivot_root`, `chdir` and `execv` have no effect there. After `pivot_root` the
  new root is the active rootfs. `run_fallback_init` waits for children without end.

  The manager has two operations left when the clone has returned: the look at `rootfs.previous`
  and its removal. A run is any interleaving of them with the steps of the child. `parent_alone`
  connects it with `setupAndPrepare`, and `previous_kept_iff` says when the previous rootfs
  outlives a bootstrap that fails.
-/
import FlyVault.Lib.Run
import FlyVault.Init.ColdProvision

namespace FlyVault.Init.Setup

open FlyVault.Lib FlyVault.Protocol
open Prog (wp wp_bind wp_pure wp_throw wp_mono)

variable {env : Env} {w : World}

/-! ## The child -/

/-- How a bootstrap goes on that does not fail. -/
inductive Boot
  | systemInit
  | fallbackInit
  deriving DecidableEq, Repr

/-- The steps of `child_bootstrap`. -/
inductive BootStep
  | setPrivate
  | bindRoot
  | ensureSource (m : Mount)
  | ensureTarget (m : Mount)
  | bindPersistent (m : Mount)
  | makeOldRoot
  | pivotRoot
  | changeDir
  | unmountOldRoot
  | removeOldRoot
  | execInit
  | runFallback
  deriving DecidableEq, Repr

/-- One turn of `bind_persistent_mounts`. -/
def mountSteps (m : Mount) : List BootStep := [.ensureSource m, .ensureTarget m, .bindPersistent m]

/-- `child_bootstrap`. -/
def bootSteps : List BootStep :=
  [.setPrivate, .bindRoot] ++ mountSteps .root ++ mountSteps .home ++
    [.makeOldRoot, .pivotRoot, .changeDir, .unmountOldRoot, .removeOldRoot, .execInit,
      .runFallback]

/-- The child's environment, and the bytes of the path of the init binary if it is UTF-8. -/
structure Child where
  env : Env
  initBinary : Option Bytes

def oldRoot : Path Slot := .in .root ".old_root"

/-- A system call without an effect on the data directory. -/
def sysCall (env : Env) (text : String) : M Unit :=
  context text (perform env .start .intact fun fs => .ok ((), fs))

/-- The path of the init binary as a C string. -/
def initCString : Option Bytes → Except String Unit
  | none => .error "init path contains non-utf8"
  | some path =>
      match path.findIdx? (· == 0) with
      | some i =>
          .error ("init cstring: nul byte found in provided data at position: " ++ toString i)
      | none => .ok ()

section Child

variable (c : Child)

/-- `exec_system_init_or_run_fallback` up to the fallback. -/
def execSystemInit : M (Option Boot) := do
  match initCString c.initBinary with
  | .error e => throw (.error e)
  | .ok () =>
      match ← attempt (perform c.env .start .intact fun fs => .ok ((), fs)) with
      | .ok () => pure (some .systemInit)
      | .error _ => pure none

/-- `run_fallback_init` up to its loop. -/
def runFallbackInit : M (Option Boot) := do
  context ("write /" ++ fallbackMarker)
    (perform c.env .start (.leaveFile (.in .root fallbackMarker))
      (Fs.write (.in .root fallbackMarker) [0x31]))
  pure (some .fallbackInit)

/-- One turn of the loop of `run_fallback_init`. -/
def reapChild : M (Option Boot) := do
  sysCall c.env "fallback init waitpid"
  pure (some .fallbackInit)

/-- A step of the child; `none` if the bootstrap goes on. -/
def BootStep.run : BootStep → M (Option Boot)
  | .setPrivate => do
      sysCall c.env "set mount propagation private"
      pure none
  | .bindRoot => do
      sysCall c.env ("bind-mount new root " ++ c.env.cfg.path .root)
      pure none
  | .ensureSource m => do
      ensureDirectory c.env .start (.at (.persist m))
      pure none
  | .ensureTarget m => do
      ensureDirectory c.env .start (.in .root m.name)
      pure none
  | .bindPersistent m => do
      sysCall c.env ("bind-mount persistent " ++ c.env.cfg.path (.persist m) ++ " onto " ++
        c.env.cfg.display (.in .root m.name))
      pure none
  | .makeOldRoot => do
      if ← pathExists c.env .start oldRoot then pure none
      else
        context ("create old root dir " ++ c.env.cfg.display oldRoot)
          (createDirAll c.env .start oldRoot)
        pure none
  | .pivotRoot => do
      -- the kernel wants a directory; where a link leads is up to the environment
      context ("pivot_root to " ++ c.env.cfg.path .root)
        (perform c.env .start .intact fun fs =>
          match fs.lstat oldRoot with
          | some .dir | some .symlink => .ok ((), fs)
          | _ => .error "not a directory")
      pure none
  | .changeDir => do
      sysCall c.env "chdir /"
      pure none
  | .unmountOldRoot => do
      sysCall c.env "umount old root"
      pure none
  | .removeOldRoot => do
      let _ ← attempt (perform c.env .start .intact (Fs.removeDir oldRoot))
      pure none
  | .execInit => execSystemInit c
  | .runFallback => runFallbackInit c

/-- The child works on the active rootfs and the persistent directories. -/
theorem preserves_bootStep (b : BootStep) : Preserves (Kept (Beside .root)) (b.run c) := by
  have h : Permits (Kept (Beside .root)) (Beside .root) := permits_kept fun _ hk => hk
  have hroot : ∀ name, Beside .root (Path.in Slot.root name).place := fun _ => .inl rfl
  have hpersist : ∀ m, Beside .root (Path.at (Slot.persist m)).place := fun m => .inr ⟨m, rfl⟩
  have hcall : ∀ text, Preserves (Kept (Beside .root)) (do
      sysCall c.env text
      pure (none : Option Boot)) := fun _ =>
    Preserves.bind h (preserves_ask h _).context fun _ => preserves_pure h _
  have hensure : ∀ p : Path Slot, Beside .root p.place → Preserves (Kept (Beside .root)) (do
      ensureDirectory c.env .start p
      pure (none : Option Boot)) := fun p hp =>
    Preserves.bind h (preserves_ensureDirectory h fun fs _ => h.change fs p _ hp) fun _ =>
      preserves_pure h _
  cases b with
  | setPrivate => exact hcall _
  | bindRoot => exact hcall _
  | ensureSource m => exact hensure _ (hpersist m)
  | ensureTarget m => exact hensure _ (hroot m.name)
  | bindPersistent m => exact hcall _
  | makeOldRoot =>
      refine Preserves.bind h (preserves_pathExists h _) fun _ =>
        preserves_ite (preserves_pure h _) ?_
      exact Preserves.bind h
        (preserves_createDirAll h fun fs _ => h.change fs oldRoot _ (hroot _)).context
        fun _ => preserves_pure h _
  | pivotRoot =>
      refine Preserves.bind h (preserves_intact h fun fs _ fs' hop => ?_).context fun _ =>
        preserves_pure h _
      split at hop
      · cases hop; exact h.refl fs
      · cases hop; exact h.refl fs
      · cases hop
  | changeDir => exact hcall _
  | unmountOldRoot => exact hcall _
  | removeOldRoot =>
      refine Preserves.bind h (preserves_intact h fun fs _ fs' hop => ?_).attempt fun _ =>
        preserves_pure h _
      unfold Fs.removeDir at hop
      split at hop
      · cases hop
      · cases hop; exact h.change fs oldRoot _ (hroot _)
      · cases hop
      · cases hop
  | execInit =>
      show Preserves _ (execSystemInit c)
      unfold execSystemInit
      split
      · exact preserves_throw h _
      · refine Preserves.bind h (preserves_ask h _).attempt fun r => ?_
        split
        · exact preserves_pure h _
        · exact preserves_pure h _
  | runFallback =>
      exact Preserves.bind h (preserves_write h (hroot _) _).context fun _ => preserves_pure h _

theorem preserves_reapChild : Preserves (Kept (Beside .root)) (reapChild c) := by
  have h : Permits (Kept (Beside .root)) (Beside .root) := permits_kept fun _ hk => hk
  exact Preserves.bind h (preserves_ask h _).context fun _ => preserves_pure h _

end Child

/-! ## The two processes -/

/-- Where the setup manager is after the clone has returned. -/
inductive ParentStatus
  | looking
  | removing (found : Kind)
  | returned (result : Except String Unit)
  | died

inductive ChildStatus
  /-- Nothing was launched. -/
  | absent
  | booting (todo : List BootStep)
  | running (boot : Boot)
  /-- The bootstrap failed with a message, or the process was killed in it. -/
  | exited (message : Option String)

structure Sys where
  parent : ParentStatus
  world : World
  child : ChildStatus
  childOps : Nat

inductive Actor
  | parent
  | child
  deriving DecidableEq, Repr

/-- The start in `activate_staged_root`. -/
def startOrRecover (env : Env) (hadRoot : Bool) : M Unit := do
  match ← attempt (ensureRuntimeStarted env .start) with
  | .ok () => pure ()
  | .error err => recover env hadRoot err

/-- `setup_and_prepare` up to the return of `ensure_runtime_started`. -/
def upToLaunch (env : Env) (data : Bytes) : M Unit := do
  let hadRoot ← promoted env data
  storeProvisionMarker env .mark
  startOrRecover env hadRoot

/-- The second half of `remove_path_if_exists`. -/
def removeFound (env : Env) (step : Step) (p : Path Slot) : Option Kind → M Unit
  | none => pure ()
  | some .file => context ("remove " ++ env.cfg.display p) (unlink env step p)
  | some .symlink => context ("remove " ++ env.cfg.display p) (unlink env step p)
  | some _ => context ("remove " ++ env.cfg.display p) (removeDirAll env step p)

def ParentStatus.after : Except Stop Unit → ParentStatus
  | .ok () => .returned (.ok ())
  | .error (.error e) => .returned (.error e)
  | .error (.crash _) => .died

def ParentStatus.found : Except Stop (Option Kind) → ParentStatus
  | .ok none => .returned (.ok ())
  | .ok (some kind) => .removing kind
  | .error (.error e) => .returned (.error e)
  | .error (.crash _) => .died

def ChildStatus.after (todo : List BootStep) : Except Stop (Option Boot) → ChildStatus
  | .ok none => .booting todo
  | .ok (some boot) => .running boot
  | .error (.error e) => .exited (some e)
  | .error (.crash _) => .exited none

/-- When the clone has returned, or the call has failed before. In test mode nothing is
    launched. -/
def Sys.launched (env : Env) (data : Bytes) (w : World) : Sys :=
  match Prog.exec (upToLaunch env data) w with
  | (.ok (), w') =>
      { parent := .looking
        world := w'
        child := if env.cfg.testMode then .absent else .booting bootSteps
        childOps := 0 }
  | (.error stop, w') =>
      { parent := .after (.error stop), world := w', child := .absent, childOps := 0 }

/-- The next operation of the setup manager. -/
def Sys.stepParent (env : Env) (s : Sys) : Option Sys :=
  match s.parent with
  | .looking =>
      let r := Prog.exec (context ("stat " ++ env.cfg.display (.at .previous))
        (symlinkMetadata env .discard (.at .previous))) s.world
      some { s with parent := .found r.1, world := r.2 }
  | .removing kind =>
      let r := Prog.exec (removeFound env .discard (.at .previous) (some kind)) s.world
      some { s with parent := .after r.1, world := r.2 }
  | _ => none

/-- What the child does next, and what is left to do after it. -/
def ChildStatus.next (c : Child) : ChildStatus → Option (List BootStep × M (Option Boot))
  | .booting (b :: todo) => some (todo, b.run c)
  | .running .fallbackInit => some ([], reapChild c)
  | _ => none

/-- The two processes share the data directory and nothing else. -/
def Sys.stepChild (c : Child) (s : Sys) : Option Sys :=
  match s.child.next c with
  | some (todo, x) =>
      let r := Prog.exec x { fs := s.world.fs, runtime := none, ops := s.childOps, failed := [] }
      some { s with
        world := { s.world with fs := r.2.fs }, child := .after todo r.1, childOps := r.2.ops }
  | none => none

def Sys.step (env : Env) (c : Child) (s : Sys) : Actor → Option Sys
  | .parent => s.stepParent env
  | .child => s.stepChild c

/-! ## The manager alone -/

theorem removePathIfExists_eq (step : Step) (p : Path Slot) :
    removePathIfExists env step p =
      context ("stat " ++ env.cfg.display p) (symlinkMetadata env step p) >>=
        removeFound env step p := rfl

theorem setupAndPrepare_upToLaunch (data : Bytes) :
    setupAndPrepare env (some data) = (do
      upToLaunch env data
      removePathIfExists env .discard (.at .previous)) := by
  rw [setupAndPrepare_eq]
  unfold upToLaunch startOrRecover startNew
  simp only [bind_assoc]
  congr 1
  funext hadRoot
  congr 1
  funext _
  congr 1
  funext started
  cases started with
  | ok _ => rfl
  | error err =>
      unfold recover
      simp only [bind_assoc]
      rfl

theorem step_looking {s : Sys} {c : Child} {found : Except Stop (Option Kind)} {w' : World}
    (hs : s.parent = .looking)
    (hlook : Prog.exec (context ("stat " ++ env.cfg.display (.at .previous))
      (symlinkMetadata env .discard (.at .previous))) s.world = (found, w')) :
    s.step env c .parent = some { s with parent := .found found, world := w' } := by
  simp only [Sys.step, Sys.stepParent, hs, hlook]

theorem step_removing {s : Sys} {c : Child} {kind : Kind} {result : Except Stop Unit} {w' : World}
    (hs : s.parent = .removing kind)
    (hremove : Prog.exec (removeFound env .discard (.at .previous) (some kind)) s.world =
      (result, w')) :
    s.step env c .parent = some { s with parent := .after result, world := w' } := by
  simp only [Sys.step, Sys.stepParent, hs, hremove]

/-- Without a child in between, the manager's operations are the call of `setup_and_prepare`. -/
theorem parent_alone (c : Child) (data : Bytes) :
    ∃ n s, Run (Sys.step env c) Any (Sys.launched env data w) (List.replicate n .parent) s ∧
      s.parent = .after (Prog.exec (setupAndPrepare env (some data)) w).1 ∧
      s.world = (Prog.exec (setupAndPrepare env (some data)) w).2 := by
  rw [setupAndPrepare_upToLaunch, Prog.exec_bind, removePathIfExists_eq]
  unfold Sys.launched
  cases hlaunch : Prog.exec (upToLaunch env data) w with
  | mk result w₁ =>
      cases result with
      | error stop => exact ⟨0, _, .nil _, rfl, rfl⟩
      | ok u =>
          cases u
          dsimp only
          rw [Prog.exec_bind]
          cases hlook : Prog.exec (context ("stat " ++ env.cfg.display (.at .previous))
              (symlinkMetadata env .discard (.at .previous))) w₁ with
          | mk found w₂ =>
              have hfirst := step_looking (c := c) (s := ⟨.looking, w₁,
                if env.cfg.testMode then .absent else .booting bootSteps, 0⟩) rfl hlook
              cases found with
              | error stop =>
                  refine ⟨1, _, .cons trivial hfirst (.nil _), ?_, rfl⟩
                  cases stop <;> rfl
              | ok found =>
                  cases found with
                  | none => exact ⟨1, _, .cons trivial hfirst (.nil _), rfl, rfl⟩
                  | some kind =>
                      dsimp only
                      cases hremove : Prog.exec (removeFound env .discard (.at .previous)
                          (some kind)) w₂ with
                      | mk result w₃ =>
                          exact ⟨2, _, .cons trivial hfirst (.cons trivial
                            (step_removing rfl hremove) (.nil _)), rfl, rfl⟩

/-! ## The previous rootfs -/

/-- The rootfs `es` is at `rootfs.previous`, up to the fallback marker. -/
def SetAside (es : Entries) (fs : Fs Slot) : Prop :=
  ∃ es', fs .previous = some (.dir es') ∧ OffFallback es es'

theorem SetAside.of_eq {es : Entries} {fs fs' : Fs Slot} (h : SetAside es fs)
    (heq : fs' .previous = fs .previous) : SetAside es fs' := by
  obtain ⟨es', hprevious, hoff⟩ := h
  exact ⟨es', heq.trans hprevious, hoff⟩

/-- What follows the move of the old rootfs does not touch `rootfs.previous`, if the clone
    returns. -/
theorem finishLaunch_spec {es es₀ : Entries} {hadRoot : Bool}
    (hstaging : w.fs .staging = some (.dir es)) (hprevious : SetAside es₀ w.fs) :
    wp (do
        promote env hadRoot
        storeProvisionMarker env .mark
        startOrRecover env hadRoot) (fun _ w' => SetAside es₀ w'.fs)
      (Ends (fun _ => True) fun _ _ => True) w := by
  have hmark : Preserves (Kept (· = .provisioned)) (storeProvisionMarker env .mark) :=
    preserves_storeProvisionMarker (permits_kept fun _ hk => hk) rfl
  have hstart : Preserves (Kept (Beside .root)) (ensureRuntimeStarted env .start) :=
    preserves_ensureRuntimeStarted (adopts_kept (fun _ hk => hk) fun m => .inr ⟨m, rfl⟩) (.inl rfl)
  refine wp_seq (promote_over hstaging) (fun _ _ => trivial) ?_
  intro _ w₁ hw₁
  have hprevious₁ : SetAside es₀ w₁.fs := hprevious.of_eq (by
    rw [hw₁.1, Function.update_of_ne (by simp), Function.update_of_ne (by simp)])
  refine wp_seq (hmark.ends w₁) (fun _ _ => trivial) ?_
  intro _ w₂ hkept₂
  have hprevious₂ : SetAside es₀ w₂.fs := hprevious₁.of_eq (hkept₂ _ (by simp))
  unfold startOrRecover
  rw [wp_bind]
  refine wp_attempt (wp_mono (hstart.ends w₂) ?_ fun _ _ hw => hw.imp (fun _ err => ?_)
    fun _ _ => trivial)
  · intro _ w₃ hkept₃
    exact hprevious₂.of_eq (hkept₃ _ (by simp [Beside]))
  · exact wp_mono (recover_fails hadRoot err) (fun _ _ hw => hw.elim) fun _ _ hw =>
      hw.imp (fun _ => trivial) fun _ _ => trivial

/-- When the clone has returned, the old rootfs is at `rootfs.previous`. -/
theorem upToLaunch_spec {es₀ : Entries} (h : Ready env es₀ w) (hfaulty : ¬ Faulty env)
    (data : Bytes) :
    wp (upToLaunch env data) (fun _ w' => SetAside es₀ w'.fs)
      (Ends (fun _ => True) fun _ _ => True) w := by
  unfold upToLaunch promoted clearWay
  simp only [bind_assoc, pure_bind]
  refine wp_seq (pathExists_spec _) (fun _ hw => hw.elim) ?_
  intro _ w₁ hw₁
  have hfs₁ := hw₁.1
  refine wp_seq (stageRootfs_spec data) (fun _ _ => trivial) ?_
  intro _ w₂ hw₂
  obtain ⟨es, hstaging₂, -, -, hkept₂, -⟩ := hw₂
  have hroot₂ : w₂.fs .root = some (.dir es₀) := by rw [hkept₂ _ (by simp [Beside]), hfs₁, h.root]
  have hmarked₂ : Marked w₂.fs := h.marked.of_eq (by rw [hkept₂ _ (by simp [Beside]), hfs₁])
  refine wp_seq (hadExistingRoot_spec hmarked₂ hroot₂) (fun _ hw => hw.elim) ?_
  intro hadRoot w₃ hw₃
  obtain ⟨hfs₃, rfl | ⟨hf, -⟩⟩ := hw₃
  · refine wp_seq (stopRuntime_spec (hfs₃ ▸ hroot₂)) (fun _ _ => trivial) ?_
    intro _ w₄ hw₄
    obtain ⟨⟨es₄, hroot₄, hoff⟩, hkept₄, -⟩ := hw₄
    have hstaging₄ : w₄.fs .staging = some (.dir es) := by
      rw [hkept₄ _ (by simp), hfs₃, hstaging₂]
    refine wp_seq (removePathIfExists_spec .previous) (fun _ _ => trivial) ?_
    intro _ w₅ hw₅
    have hfs₅ := hw₅.1
    have hroot₅ : w₅.fs .root = some (.dir es₄) := by
      rw [hfs₅, Function.update_of_ne (by simp), hroot₄]
    have hstaging₅ : w₅.fs .staging = some (.dir es) := by
      rw [hfs₅, Function.update_of_ne (by simp), hstaging₄]
    refine wp_seq (setAside_spec hroot₅ (by rw [hfs₅, Function.update_self]))
      (fun _ _ => trivial) ?_
    intro _ w₆ hw₆
    rcases hw₆ with ⟨hfs₆, -⟩ | ⟨-, -, hf⟩
    · have hstaging₆ : w₆.fs .staging = some (.dir es) := by
        rw [hfs₆, Function.update_of_ne (by simp), Function.update_of_ne (by simp), hstaging₅]
      exact finishLaunch_spec hstaging₆ ⟨es₄, by rw [hfs₆, Function.update_self], hoff⟩
    · exact absurd hf hfaulty
  · exact absurd hf hfaulty

/-- A program that neither fails nor dies. -/
theorem exec_ok {α : Type} {S : Step → Prop} {x : M α} {Q : α → World → Prop}
    {C : Death → World → Prop} (hfaulty : ¬ Faulty env) (hcrash : ¬ Crashing env)
    (hx : Within env S x) (h : wp x Q (Ends (fun _ => Faulty env) C) w) :
    ∃ a w', Prog.exec x w = (.ok a, w') ∧ Q a w' := by
  have hall := hx.with h
  unfold wp at hall
  generalize Prog.exec x w = r at hall ⊢
  obtain ⟨result, w'⟩ := r
  cases result with
  | ok a => exact ⟨a, w', rfl, hall.1⟩
  | error stop =>
      cases stop with
      | error e => exact absurd hall.1 hfaulty
      | crash d => exact absurd hall.2.1 hcrash

/-- Until the manager returns, the old rootfs is at `rootfs.previous`; then it is gone. -/
def Sys.Inv (es₀ : Entries) (s : Sys) : Prop :=
  s.child = .absent ∨
    match s.parent with
    | .looking => SetAside es₀ s.world.fs
    | .removing kind => kind = .dir ∧ SetAside es₀ s.world.fs
    | .returned result => result = .ok () ∧ s.world.fs .previous = none
    | .died => False

section Runs

variable {es₀ : Entries} {c : Child} {s s' : Sys}

theorem inv_launched (h : Ready env es₀ w) (hfaulty : ¬ Faulty env) (data : Bytes) :
    (Sys.launched env data w).Inv es₀ := by
  have hspec := upToLaunch_spec h hfaulty data
  unfold wp at hspec
  unfold Sys.launched
  generalize Prog.exec (upToLaunch env data) w = r at hspec ⊢
  obtain ⟨result, w'⟩ := r
  cases result with
  | ok u => exact .inr hspec
  | error stop => exact .inl rfl

theorem inv_stepParent (hfaulty : ¬ Faulty env) (hcrash : ¬ Crashing env) (h : s.Inv es₀)
    (hstep : s.step env c .parent = some s') : s'.Inv es₀ := by
  cases hparent : s.parent with
  | looking =>
      have hlook : wp (context ("stat " ++ env.cfg.display (.at .previous))
          (symlinkMetadata env .discard (.at .previous)))
          (fun kind w' => kind = s.world.fs.lstat (.at .previous) ∧ w'.fs = s.world.fs)
          (Ends (fun _ => Faulty env) fun _ _ => True) s.world :=
        wp_context (wp_mono (symlinkMetadata_spec _) (fun _ _ hw => ⟨hw.1, hw.2.1⟩) fun _ _ hw =>
          hw.imp (fun hw => hw.2.2) fun _ _ => trivial)
      obtain ⟨kind, w', hexec, hkind, hfs⟩ := exec_ok hfaulty hcrash
        (within_symlinkMetadata (S := (· = .discard)) rfl _).context hlook
      rw [step_looking hparent hexec] at hstep
      cases hstep
      unfold Sys.Inv at h ⊢
      rw [hparent] at h
      refine h.imp id fun hprevious => ?_
      have hdir : kind = some .dir := by
        obtain ⟨es', hes', -⟩ := hprevious
        rw [hkind, Fs.lstat, Fs.get_at, hes']
        rfl
      rw [hdir]
      exact ⟨rfl, hprevious.of_eq (by rw [hfs])⟩
  | removing kind =>
      unfold Sys.Inv at h
      rw [hparent] at h
      rcases h with habsent | ⟨rfl, es', hes', -⟩
      · cases hexec : Prog.exec (removeFound env .discard (.at .previous) (some kind)) s.world with
        | mk result w' =>
            rw [step_removing hparent hexec] at hstep
            cases hstep
            exact .inl habsent
      · have hremove : wp (removeFound env .discard (.at .previous) (some .dir))
            (fun _ w' => w'.fs .previous = none)
            (Ends (fun _ => Faulty env) fun _ _ => True) s.world := by
          refine wp_context (wp_mono (removeDirAll_spec (p := .at .previous) hes')
            (fun _ _ hw => ?_) fun _ _ hw => hw.imp (fun hw => hw.2.2) fun _ _ => trivial)
          rw [hw.1, Fs.put_at, Function.update_self]
        have hwithin : Within env (· = .discard)
            (removeFound env .discard (.at .previous) (some .dir)) :=
          (within_removeDirAll (S := (· = .discard)) rfl _).context
        obtain ⟨u, w', hexec, hnone⟩ := exec_ok hfaulty hcrash hwithin hremove
        rw [step_removing hparent hexec] at hstep
        cases hstep
        exact .inr ⟨rfl, hnone⟩
  | returned result => simp [Sys.step, Sys.stepParent, hparent] at hstep
  | died => simp [Sys.step, Sys.stepParent, hparent] at hstep

/-- A step of the child changes neither `rootfs.previous` nor where the manager is. -/
theorem step_child (hstep : s.step env c .child = some s') :
    s'.parent = s.parent ∧ s.child ≠ .absent ∧ Kept (Beside .root) s.world.fs s'.world.fs := by
  replace hstep : s.stepChild c = some s' := hstep
  unfold Sys.stepChild at hstep
  split at hstep
  · next todo x hnext =>
      cases hstep
      unfold ChildStatus.next at hnext
      split at hnext
      · next hchild =>
          cases hnext
          exact ⟨rfl, by rw [hchild]; simp, (preserves_bootStep c _).exec _⟩
      · next hchild =>
          cases hnext
          exact ⟨rfl, by rw [hchild]; simp, (preserves_reapChild c).exec _⟩
      · cases hnext
  · cases hstep

theorem inv_step (hfaulty : ¬ Faulty env) (hcrash : ¬ Crashing env) (h : s.Inv es₀)
    {actor : Actor} (hstep : s.step env c actor = some s') : s'.Inv es₀ := by
  cases actor with
  | parent => exact inv_stepParent hfaulty hcrash h hstep
  | child =>
      obtain ⟨hparent, hchild, hkept⟩ := step_child hstep
      have hsame : s'.world.fs .previous = s.world.fs .previous := hkept _ (by simp [Beside])
      rcases h with habsent | h
      · exact absurd habsent hchild
      · refine .inr ?_
        rw [hparent]
        cases hs : s.parent with
        | looking =>
            rw [hs] at h
            exact SetAside.of_eq h hsame
        | removing kind =>
            rw [hs] at h
            exact ⟨h.1, h.2.of_eq hsame⟩
        | returned result =>
            rw [hs] at h
            exact ⟨h.1, hsame.trans h.2⟩
        | died => rw [hs] at h; exact h

end Runs

/-! ## What a bootstrap that fails leaves -/

/-- The child's bootstrap has failed. -/
def Sys.BootFailed (s : Sys) : Prop := ∃ message, s.child = .exited message

/-- The rootfs `es` is on disk, in place or at `rootfs.previous`. -/
def OnDisk (es : Entries) (fs : Fs Slot) : Prop := Active es fs ∨ SetAside es fs

/-- If the bootstrap has failed, the call has not returned with `rootfs.previous` removed, and
    the old rootfs is still there to be restored. -/
def Sys.Safe (es₀ : Entries) (s : Sys) : Prop :=
  s.BootFailed → ¬ (s.parent = .returned (.ok ()) ∧ s.world.fs .previous = none) ∧
    OnDisk es₀ s.world.fs

/-- A reprovisioning of a machine that is ready, with no failure but the child's: in every
    interleaving the old rootfs outlives a bootstrap that fails only as long as the call has not
    returned. -/
theorem previous_kept_iff {es₀ : Entries} (h : Ready env es₀ w) (hfaulty : ¬ Faulty env)
    (hcrash : ¬ Crashing env) (c : Child) (data : Bytes) {actors : List Actor} {s : Sys}
    (hrun : Run (Sys.step env c) Any (Sys.launched env data w) actors s) :
    s.Safe es₀ ↔ ¬ s.BootFailed ∨ ∀ result, s.parent ≠ .returned result := by
  have hinv : s.Inv es₀ := hrun.inv (Sys.Inv es₀)
    (fun _ _ _ hs _ hstep => inv_step hfaulty hcrash hs hstep) (inv_launched h hfaulty data)
  by_cases hfailed : s.BootFailed
  · obtain ⟨message, hchild⟩ := hfailed
    rcases hinv with habsent | hinv
    · rw [habsent] at hchild
      cases hchild
    · cases hparent : s.parent with
      | looking =>
          rw [hparent] at hinv
          refine iff_of_true (fun _ => ⟨?_, .inr hinv⟩) (.inr ?_)
          · rw [hparent]; simp
          · simp
      | removing kind =>
          rw [hparent] at hinv
          refine iff_of_true (fun _ => ⟨?_, .inr hinv.2⟩) (.inr ?_)
          · rw [hparent]; simp
          · simp
      | returned result =>
          rw [hparent] at hinv
          obtain ⟨rfl, hnone⟩ := hinv
          refine iff_of_false (fun hsafe => ?_) ?_
          · exact (hsafe ⟨message, hchild⟩).1 ⟨hparent, hnone⟩
          · rintro (hnot | hnot)
            · exact hnot ⟨message, hchild⟩
            · exact hnot _ rfl
      | died => rw [hparent] at hinv; exact hinv.elim
  · exact iff_of_true (fun hf => absurd hf hfailed) (.inl hfailed)

/-- The machine of `failingAt` without a failure. -/
def calm : Env := { failingAt 0 with plan := fun _ => none }

theorem not_faulty_calm : ¬ Faulty calm := by
  rintro ⟨k, residue, hk⟩
  cases hk

theorem not_crashing_calm : ¬ Crashing calm := by
  rintro ⟨k, left, hk⟩
  cases hk

/-- A child whose `n`-th operation fails; the init binary is `/sbin/init`. -/
def childFailingAt (n : Nat) : Child where
  env := failingAt n
  initBinary := some [0x2f, 0x73, 0x62, 0x69, 0x6e, 0x2f, 0x69, 0x6e, 0x69, 0x74]

/-- The bootstrap completes after the manager has returned. -/
theorem previous_kept_systemInit :
    ∃ s, Run (Sys.step calm (childFailingAt 100)) Any (Sys.launched calm [] provisionedWorld)
        ([.parent, .parent] ++ List.replicate 14 .child) s ∧
      s.child = .running .systemInit ∧ s.Safe [("old", .file [])] := by
  obtain ⟨s, hrun, hchild⟩ : ∃ s, Run (Sys.step calm (childFailingAt 100)) Any
      (Sys.launched calm [] provisionedWorld) ([.parent, .parent] ++ List.replicate 14 .child) s ∧
      s.child = .running .systemInit := ⟨_, run_of_exec rfl, rfl⟩
  refine ⟨s, hrun, hchild, (previous_kept_iff (ready_provisionedWorld calm rfl) not_faulty_calm
    not_crashing_calm _ [] hrun).mpr (.inl ?_)⟩
  rintro ⟨message, hexited⟩
  rw [hchild] at hexited
  cases hexited

/-- In this order `pivot_root` fails in the child, the call has returned `Ok`, `rootfs.previous`
    is gone, and the old rootfs is not on disk. -/
def LosesOld (actors : List Actor) : Prop :=
  ∃ s, Run (Sys.step calm (childFailingAt 14)) Any (Sys.launched calm [] provisionedWorld)
      actors s ∧
    s.BootFailed ∧ s.parent = .returned (.ok ()) ∧ s.world.fs .previous = none ∧
    ¬ OnDisk [("old", .file [])] s.world.fs ∧ ¬ s.Safe [("old", .file [])]

/-- The child fails after the manager has returned, or before. -/
theorem old_rootfs_lost :
    LosesOld ([.parent, .parent] ++ List.replicate 10 .child) ∧
      LosesOld (List.replicate 10 .child ++ [.parent, .parent]) := by
  have hlost : ∀ {s : Sys}, s.BootFailed → s.world.fs .previous = none →
      s.world.fs .root = some (.dir [(".old_root", .dir []), ("home", .dir []), ("root", .dir []),
        ("new", .file [])]) →
      ¬ OnDisk [("old", .file [])] s.world.fs ∧ ¬ s.Safe [("old", .file [])] := by
    intro s hfailed hnone hroot
    have hgone : ¬ OnDisk [("old", .file [])] s.world.fs := by
      rintro (⟨es, hes, hoff⟩ | ⟨es, hes, -⟩)
      · rw [hroot] at hes
        cases hes
        have hold := hoff "old" (by decide)
        simp [Entries.find] at hold
      · rw [hnone] at hes
        cases hes
    exact ⟨hgone, fun hsafe => hgone (hsafe hfailed).2⟩
  constructor
  · exact ⟨_, run_of_exec rfl, ⟨_, rfl⟩, rfl, rfl, hlost ⟨_, rfl⟩ rfl rfl⟩
  · exact ⟨_, run_of_exec rfl, ⟨_, rfl⟩, rfl, rfl, hlost ⟨_, rfl⟩ rfl rfl⟩

end FlyVault.Init.Setup
