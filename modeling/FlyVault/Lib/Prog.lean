/-
  Programs with a state that may fail, and their weakest preconditions.

  `Prog σ ε α` is the standard stack of exceptions over a state: a failure keeps the state it
  happened in, so a handler sees what was done before. `wp x Q E s` says that `x`, started in
  `s`, ends in `Q` if it returns and in `E` if it fails. It is compositional (`wp_bind`,
  `wp_tryCatch`), so a program is verified by walking through its text, with one
  lemma `s satisfies P → wp f Q E s` for each function it calls (`wp_mono` and `wp_and` join them).
-/
import Mathlib.Logic.Basic

namespace FlyVault.Lib

universe u

variable {σ ε α β : Type u}

/-- A program over the state `σ` that returns an `α` or fails with an `ε`. -/
abbrev Prog (σ ε α : Type u) := ExceptT ε (StateM σ) α

namespace Prog

/-- Run from a state: the result and the state it ends in. -/
def exec (x : Prog σ ε α) (s : σ) : Except ε α × σ := x.run s

/-- A primitive operation. -/
def prim (f : σ → Except ε α × σ) : Prog σ ε α := ExceptT.mk f

/-- `x` from `s` returns into `Q` or fails into `E`. -/
def wp (x : Prog σ ε α) (Q : α → σ → Prop) (E : ε → σ → Prop) (s : σ) : Prop :=
  match x.exec s with
  | (.ok a, s') => Q a s'
  | (.error e, s') => E e s'

variable {Q Q' : α → σ → Prop} {E E' : ε → σ → Prop} {s : σ}

theorem wp_mono {x : Prog σ ε α} (h : wp x Q E s) (hQ : ∀ a s', Q a s' → Q' a s')
    (hE : ∀ e s', E e s' → E' e s') : wp x Q' E' s := by
  unfold wp at h ⊢
  split
  · next heq => rw [heq] at h; exact hQ _ _ h
  · next heq => rw [heq] at h; exact hE _ _ h

theorem wp_and {x : Prog σ ε α} (h : wp x Q E s) (h' : wp x Q' E' s) :
    wp x (fun a s' => Q a s' ∧ Q' a s') (fun e s' => E e s' ∧ E' e s') s := by
  unfold wp at h h' ⊢
  split
  · next heq => rw [heq] at h h'; exact ⟨h, h'⟩
  · next heq => rw [heq] at h h'; exact ⟨h, h'⟩

@[simp] theorem exec_prim (f : σ → Except ε α × σ) : (prim f).exec = f := rfl

@[simp] theorem wp_pure (a : α) : wp (pure a : Prog σ ε α) Q E s ↔ Q a s := Iff.rfl

@[simp] theorem wp_throw (e : ε) : wp (throw e : Prog σ ε α) Q E s ↔ E e s := Iff.rfl

theorem exec_bind (x : Prog σ ε α) (f : α → Prog σ ε β) (s : σ) :
    (x >>= f).exec s =
      match x.exec s with
      | (.ok a, s') => (f a).exec s'
      | (.error e, s') => (.error e, s') := by
  show ExceptT.bindCont f (x.exec s).1 (x.exec s).2 = _
  cases x.exec s with
  | mk r s' => cases r <;> rfl

theorem exec_tryCatch (x : Prog σ ε α) (f : ε → Prog σ ε α) (s : σ) :
    (tryCatch x f).exec s =
      match x.exec s with
      | (.ok a, s') => (.ok a, s')
      | (.error e, s') => (f e).exec s' := by
  show (match (x.exec s).1 with
    | .ok a => (pure a : Prog σ ε α)
    | .error e => f e).exec (x.exec s).2 = _
  cases x.exec s with
  | mk r s' => cases r <;> rfl

@[simp] theorem wp_bind (x : Prog σ ε α) (f : α → Prog σ ε β) {Q : β → σ → Prop} :
    wp (x >>= f) Q E s ↔ wp x (fun a => wp (f a) Q E) E s := by
  unfold wp
  rw [exec_bind]
  cases x.exec s with
  | mk r s' => cases r <;> rfl

@[simp] theorem wp_tryCatch (x : Prog σ ε α) (f : ε → Prog σ ε α) :
    wp (tryCatch x f) Q E s ↔ wp x Q (fun e => wp (f e) Q E) s := by
  unfold wp
  rw [exec_tryCatch]
  cases x.exec s with
  | mk r s' => cases r <;> rfl

end Prog

end FlyVault.Lib
