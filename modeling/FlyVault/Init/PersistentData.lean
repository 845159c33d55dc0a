/-
  The setup manager never touches what is in the persistent directories
  (`crates/init/src/setup.rs`).

  `KeepsData`: whatever is at `/data/persist/root` or `/data/persist/home` is there afterwards,
  as it was; only an empty directory may have been filled. That happens when the `stat` of
  `exists` fails: the directory is taken for missing, and `rename` accepts an empty one as its
  target. One with contents it refuses.

  The assumptions of the model: an archive is unpacked below its target, a recursive removal
  does not follow links, the mounts of a runtime are not seen by init, and the rootfs places
  are not links themselves. The process may die at any operation; the next one is then that of
  a new process, which knows of no runtime.
-/
import FlyVault.Init.SetupFrame
import FlyVault.Init.Reprovision

namespace FlyVault.Init.Setup

open FlyVault.Lib FlyVault.Protocol

/-- The operations of `SetupManager`. -/
inductive Operation
  | setupAndPrepare (rootfsTarball : Option Bytes)
  | startReadyRuntime
  | ensureLiveInnerInitPid
  | runtimeStatus
  | stopRuntime
  | shutdown

/-- The outcome of an operation is not looked at. -/
def Operation.run (env : Env) : Operation → M Unit
  | .setupAndPrepare rootfsTarball => Setup.setupAndPrepare env rootfsTarball
  | .startReadyRuntime => Setup.startReadyRuntime env
  | .ensureLiveInnerInitPid => do
      let _ ← Setup.ensureLiveInnerInitPid env
      pure ()
  | .runtimeStatus => do
      let _ ← Setup.runtimeStatus env
      pure ()
  | .stopRuntime => Setup.stopRuntime env .stop
  | .shutdown => Setup.shutdown env

/-- A new process after one that died. -/
def World.reboot (w : World) : World := { w with runtime := none, ops := w.ops + 1 }

def runOperation (env : Env) (w : World) (op : Operation) : World :=
  match Prog.exec (op.run env) w with
  | (.error (.crash _), w') => w'.reboot
  | (_, w') => w'

/-- Any operations in any order, whether they succeed or not. -/
def runAll (env : Env) (w : World) (ops : List Operation) : World :=
  ops.foldl (runOperation env) w

/-! ## What is kept -/

def KeepsData (fs fs' : Fs Slot) : Prop :=
  ∀ m n, fs (.persist m) = some n →
    fs' (.persist m) = some n ∨ n = .dir [] ∧ ∃ d, fs' (.persist m) = some (.dir d)

theorem KeepsData.trans {fs₁ fs₂ fs₃ : Fs Slot} (h : KeepsData fs₁ fs₂)
    (h' : KeepsData fs₂ fs₃) : KeepsData fs₁ fs₃ := by
  intro m n hn
  rcases h m n hn with hsame | ⟨hempty, d, hd⟩
  · exact h' m n hsame
  · rcases h' m _ hd with hsame | ⟨-, d', hd'⟩
    · exact .inr ⟨hempty, d, hsame⟩
    · exact .inr ⟨hempty, d', hd'⟩

theorem keepsData_of_eq {fs fs' : Fs Slot} (h : ∀ m, fs' (.persist m) = fs (.persist m)) :
    KeepsData fs fs' :=
  fun m _ hn => .inl ((h m).trans hn)

/-- `rename` of a directory replaces an empty one and nothing else. -/
theorem keepsData_rename {fs fs' : Fs Slot} {k : Slot} {name : String} {m : Mount}
    {d : Entries} (hk : ∀ m, k ≠ .persist m) (hd : fs.get (.in k name) = some (.dir d))
    (h : Fs.rename (.in k name) (.at (.persist m)) fs = .ok ((), fs')) : KeepsData fs fs' := by
  have hmoved : fs' = (fs.put (.in k name) none).put (.at (.persist m)) (some (.dir d)) ∧
      ∀ n, fs (.persist m) = some n → n = .dir [] := by
    obtain ⟨n, hn, hfs', hreplace⟩ := Fs.rename_eq_ok h
    rw [hd] at hn
    cases hn
    refine ⟨hfs', fun old hold => ?_⟩
    have hempty := hreplace old hold
    cases old with
    | dir es => rw [List.isEmpty_iff.mp hempty]
    | _ => cases hempty
  obtain ⟨rfl, hempty⟩ := hmoved
  intro m' n hn
  by_cases hm : m' = m
  · subst hm
    exact .inr ⟨hempty n hn, d, by simp⟩
  · have hne : (Slot.persist m') ≠ .persist m := by simpa using hm
    left
    rw [Fs.put_at, Function.update_of_ne hne, Fs.put_of_ne fs (hk m').symm, hn]

theorem adopts_keepsData : Adopts KeepsData fun k => ∀ m, k ≠ .persist m where
  refl _ := keepsData_of_eq fun _ => rfl
  trans := KeepsData.trans
  change fs _ _ hp := keepsData_of_eq fun m => Fs.put_of_ne fs (hp m).symm _
  create fs m hnone := by
    intro m' n hn
    have hne : (Slot.persist m') ≠ .persist m := by
      intro heq
      rw [heq, hnone] at hn
      cases hn
    exact .inl ((Fs.put_of_ne fs hne _).trans hn)
  adopt _ _ _ _ hk hd h := keepsData_rename hk hd h

theorem keepsData_operation (env : Env) (op : Operation) :
    Preserves KeepsData (op.run env) := by
  have h := adopts_keepsData
  have hp := h.toPermits
  cases op with
  | setupAndPrepare rootfsTarball =>
      exact preserves_setupAndPrepare h (by simp) (by simp) (by simp) (h.marks (by simp))
        rootfsTarball
  | startReadyRuntime => exact preserves_startReadyRuntime h (by simp)
  | ensureLiveInnerInitPid =>
      exact Preserves.bind hp (preserves_ensureLiveInnerInitPid h (by simp)) fun _ =>
        preserves_pure hp _
  | runtimeStatus =>
      exact Preserves.bind hp (preserves_runtimeStatus hp (by simp)) fun _ => preserves_pure hp _
  | stopRuntime => exact preserves_stopRuntime hp (by simp)
  | shutdown => exact preserves_shutdown hp (by simp)

theorem keepsData_runOperation (env : Env) (w : World) (op : Operation) :
    KeepsData w.fs (runOperation env w op).fs := by
  have hop := (keepsData_operation env op).exec w
  unfold runOperation
  split
  · next hexec => rw [hexec] at hop; exact hop
  · next hexec => rw [hexec] at hop; exact hop

theorem keepsData_runAll (env : Env) (ops : List Operation) (w : World) :
    KeepsData w.fs (runAll env w ops).fs := by
  induction ops generalizing w with
  | nil => exact keepsData_of_eq fun _ => rfl
  | cons op ops ih => exact (keepsData_runOperation env w op).trans (ih (runOperation env w op))

/-- For every sequence of operations, with any of their file system operations failing and the
    process dying anywhere: what is at a persistent directory stays there as it is, or it was an
    empty directory and still is a directory. -/
theorem persistent_data_kept (env : Env) (ops : List Operation) (w : World) (m : Mount)
    (n : Node) (h : w.fs (.persist m) = some n) :
    (runAll env w ops).fs (.persist m) = some n ∨
      n = .dir [] ∧ ∃ d, (runAll env w ops).fs (.persist m) = some (.dir d) :=
  keepsData_runAll env ops w m n h

/-- A provisioned machine with a file in a persistent directory. -/
def userWorld : World :=
  { provisionedWorld with
    fs := Function.update provisionedWorld.fs (.persist .home)
      (some (.dir [("notes", .file [])])) }

/-- A reprovisioning whose launch fails, and a shutdown. -/
theorem persistent_data_kept_launch :
    (runAll (failingAt 23) userWorld [.setupAndPrepare (some []), .shutdown]).fs
      (.persist .home) = some (.dir [("notes", .file [])]) := by
  have hfile : userWorld.fs (.persist .home) = some (.dir [("notes", .file [])]) := rfl
  rcases persistent_data_kept (failingAt 23) [.setupAndPrepare (some []), .shutdown] userWorld
    .home _ hfile with hsame | ⟨hempty, -⟩
  · exact hsame
  · cases hempty

end FlyVault.Init.Setup
