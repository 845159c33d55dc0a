/-
  The operations of the setup manager on the data directory alone.

  In the source these are the methods that borrow the manager without changing it: they neither
  read nor change the handle of the runtime. `OnFiles env x` says that `x` is built from
  operations of `perform`; one induction over it gives what holds for all of them.
-/
import FlyVault.Init.SetupRules

namespace FlyVault.Init.Setup

open FlyVault.Lib FlyVault.Protocol
open Prog (wp wp_bind wp_tryCatch wp_mono)

inductive OnFiles (env : Env) : {α : Type} → M α → Prop
  | ret {α : Type} (a : α) : OnFiles env (pure a : M α)
  | fail {α : Type} (e : String) : OnFiles env (throw (.error e) : M α)
  | bind {α β : Type} {x : M α} {f : α → M β} (hx : OnFiles env x)
      (hf : ∀ a, OnFiles env (f a)) : OnFiles env (x >>= f)
  | attempt {α : Type} {x : M α} (hx : OnFiles env x) : OnFiles env (attempt x)
  | context {α : Type} {x : M α} {text : String} (hx : OnFiles env x) :
      OnFiles env (context text x)
  | perform {α : Type} (step : Step) (damage : Damage)
      (op : Fs Slot → Except String (α × Fs Slot)) : OnFiles env (perform env step damage op)

/-- The handle is the same, and no operation has been undone. -/
def Steady (w w' : World) : Prop := w'.runtime = w.runtime ∧ w.ops ≤ w'.ops

theorem Steady.refl (w : World) : Steady w w := ⟨rfl, Nat.le_refl _⟩

theorem Steady.trans {w₁ w₂ w₃ : World} (h : Steady w₁ w₂) (h' : Steady w₂ w₃) : Steady w₁ w₃ :=
  ⟨h'.1.trans h.1, Nat.le_trans h.2 h'.2⟩

variable {α : Type} {env : Env} {step : Step} {x : M α}

theorem OnFiles.steady (h : OnFiles env x) (w : World) :
    wp x (fun _ w' => Steady w w') (fun _ w' => Steady w w') w := by
  have hends : ∀ {w w' : World} {stop : Stop},
      Ends (Steady w) (fun _ w' => Steady w w') stop w' ↔ Steady w w' := by
    intro w w' stop
    cases stop with
    | error e => exact Iff.rfl
    | crash d => exact Iff.rfl
  induction h generalizing w with
  | ret a => exact Steady.refl w
  | fail e => exact Steady.refl w
  | bind _ _ hx hf =>
      rw [wp_bind]
      refine wp_mono (hx w) (fun a w' h => ?_) fun _ _ h => h
      exact wp_mono (hf a w') (fun _ _ h' => h.trans h') fun _ _ h' => h.trans h'
  | attempt _ hx =>
      refine wp_mono (wp_attempt (wp_mono (hx w) (fun _ _ h => h) fun stop w' h => ?_))
        (fun _ _ h => h) fun _ _ h => hends.mp h
      exact (hends.mpr h).imp (fun h _ => h) fun _ h => h
  | context _ hx =>
      refine wp_mono (wp_context (wp_mono (hx w) (fun _ _ h => h) fun _ _ h => hends.mpr h))
        (fun _ _ h => h) fun _ _ h => hends.mp h
  | perform step damage op =>
      have hnext : ∀ fs, Steady w (w.next fs) := fun fs => ⟨rfl, Nat.le_succ _⟩
      have hfail : ∀ fs, Steady w (w.fail step fs) := fun fs => ⟨rfl, Nat.le_succ _⟩
      refine wp_mono (wp_perform_torn (fun _ fs _ => hnext fs) (fun _ _ => hfail _)
        (fun _ _ => hfail _) (fun _ => Steady.refl w) fun _ _ _ _ => ⟨rfl, Nat.le_refl _⟩)
        (fun _ _ h => h) fun _ _ h => hends.mp h

/-! ## The helpers -/

theorem onFiles_ite {c : Prop} [Decidable c] {y : M α} (hx : OnFiles env x)
    (hy : OnFiles env y) : OnFiles env (if c then x else y) := by
  split
  · exact hx
  · exact hy

theorem onFiles_pathExists (p : Path Slot) : OnFiles env (pathExists env step p) := by
  refine (OnFiles.perform ..).attempt.bind fun r => ?_
  cases r with
  | ok b => exact .ret b
  | error e => exact .ret false

theorem onFiles_peek (p : Path Slot) : OnFiles env (peek env step p) := by
  refine (OnFiles.perform ..).attempt.bind fun r => ?_
  cases r with
  | ok kind => exact .ret kind
  | error e => exact .ret none

theorem onFiles_unlink (p : Path Slot) : OnFiles env (unlink env step p) :=
  (OnFiles.perform ..).bind fun _ => onFiles_ite (.ret ()) (.fail _)

theorem onFiles_removePathIfExists (p : Path Slot) :
    OnFiles env (removePathIfExists env step p) := by
  refine (OnFiles.perform ..).context.bind fun kind => ?_
  split
  · exact .ret ()
  · exact (onFiles_unlink p).context
  · exact (onFiles_unlink p).context
  · exact (OnFiles.perform ..).context

theorem onFiles_ensureDirectory (p : Path Slot) : OnFiles env (ensureDirectory env step p) := by
  refine (onFiles_pathExists p).bind fun _ => onFiles_ite ?_ (OnFiles.perform ..).context
  refine (OnFiles.perform ..).context.bind fun kind => ?_
  split
  · exact .ret ()
  · exact .fail _
  · exact .fail _

theorem onFiles_ensurePersistentSourceDir (m : Mount) (target : Path Slot) :
    OnFiles env (ensurePersistentSourceDir env step m target) := by
  refine OnFiles.bind ?_ fun _ => onFiles_ensureDirectory _
  refine (onFiles_pathExists _).bind fun _ => onFiles_ite (.ret ()) ?_
  refine (onFiles_peek target).bind fun kind => ?_
  split
  · exact (OnFiles.perform ..).context.bind fun _ => (OnFiles.perform ..).context
  · exact .fail _
  · exact .ret ()

theorem onFiles_replaceWithSymlink (m : Mount) (target : Path Slot) :
    OnFiles env (replaceWithSymlink env step m target) := by
  refine OnFiles.bind ?_ fun _ => (OnFiles.perform ..).context
  refine (onFiles_peek target).bind fun kind => ?_
  split
  · exact (onFiles_unlink target).context
  · exact (onFiles_unlink target).context
  · exact (OnFiles.perform ..).context
  · exact .fail _
  · exact .ret ()

theorem onFiles_prepareMount (dir : Slot) (m : Mount) :
    OnFiles env (prepareMount env step dir m) :=
  (onFiles_ensurePersistentSourceDir m _).bind fun _ =>
    onFiles_ite (onFiles_replaceWithSymlink m _) (onFiles_ensureDirectory _)

theorem onFiles_clearFallbackMarker : OnFiles env (clearFallbackMarker env step) :=
  (OnFiles.perform ..).context.bind fun _ => .ret ()

theorem onFiles_stageRootfs (data : Bytes) : OnFiles env (stageRootfs env data) := by
  refine OnFiles.bind ?_ fun _ => OnFiles.bind ?_ fun _ => ?_
  · exact (onFiles_removePathIfExists _).bind fun _ => (OnFiles.perform ..).context
  · exact ((OnFiles.perform ..).bind fun _ => onFiles_ite (.ret ()) (.fail _)).context
  · exact (onFiles_prepareMount _ _).bind fun _ => onFiles_prepareMount _ _

theorem onFiles_hadExistingRoot : OnFiles env (hadExistingRoot env) :=
  (onFiles_pathExists _).bind fun _ => onFiles_ite (.ret true) (onFiles_pathExists _)

theorem onFiles_setAside (hadRoot : Bool) : OnFiles env (setAside env hadRoot) := by
  refine onFiles_ite ((onFiles_pathExists _).bind fun _ => ?_) (.ret ())
  exact onFiles_ite (OnFiles.perform ..).context (.ret ())

theorem onFiles_storeProvisionMarker : OnFiles env (storeProvisionMarker env step) :=
  (OnFiles.perform ..).context

theorem onFiles_restorePreviousRoot (hadRoot : Bool) :
    OnFiles env (restorePreviousRoot env hadRoot) := by
  have hclear : OnFiles env (clearProvisionMarker env .remark) :=
    (OnFiles.perform ..).context.bind fun _ => .ret ()
  refine (onFiles_removePathIfExists _).bind fun _ => OnFiles.bind ?_ fun _ =>
    onFiles_removePathIfExists _
  refine onFiles_ite ((onFiles_pathExists _).bind fun _ => onFiles_ite ?_ hclear) hclear
  exact (OnFiles.perform ..).context.bind fun _ => onFiles_storeProvisionMarker

theorem onFiles_promote (hadRoot : Bool) : OnFiles env (promote env hadRoot) := by
  refine (OnFiles.perform ..).context.attempt.bind fun r => ?_
  cases r with
  | ok => exact .ret ()
  | error e => exact (onFiles_restorePreviousRoot hadRoot).bind fun _ => .fail e

end FlyVault.Init.Setup
