/-
  Runs of a labelled transition system, with a guard on every step.

  A system is a partial step function `step : σ → α → Option σ`: the label resolves every
  choice of the scheduler and of the environment, so a step is a function of the label and
  can be evaluated. `Run step ok s as t` says that the labels `as` take `s` to `t`, every
  step enabled and every step allowed by the guard `ok` in the state before it. The guard
  `Any` allows everything.

  Nothing here names a particular program. The rules are the ones the developments above use:
  * `Run.inv`: an invariant of every allowed step is an invariant of every run;
  * `Run.mono`: a run under a guard is a run under every weaker guard;
  * `Run.reaches`, `Run.countdown`: what a task reaches in a bounded number of its own steps
    is reached in every run in which it takes them, whatever the others do in between;
  * `run_of_exec`: a run on fixed labels is an evaluation.
-/
import Mathlib.Logic.Function.Basic

namespace FlyVault.Lib

universe u v

variable {σ : Type u} {α : Type v}

/-- The labels `as` take `s` to `t`, every step enabled and allowed by `ok`. -/
inductive Run (step : σ → α → Option σ) (ok : σ → α → Prop) : σ → List α → σ → Prop
  | nil (s : σ) : Run step ok s [] s
  | cons {s s' t : σ} {a : α} {as : List α} (hok : ok s a) (hstep : step s a = some s')
      (hrun : Run step ok s' as t) : Run step ok s (a :: as) t

/-- The guard that allows every step. -/
def Any : σ → α → Prop := fun _ _ => True

variable {step : σ → α → Option σ} {ok ok' : σ → α → Prop}

/-- The invariant rule: what holds at the start and is kept by every allowed step holds at
    the end of every run. -/
theorem Run.inv (Inv : σ → Prop)
    (hstep : ∀ s a s', Inv s → ok s a → step s a = some s' → Inv s')
    {s t : σ} {as : List α} (hrun : Run step ok s as t) (hs : Inv s) : Inv t := by
  induction hrun with
  | nil s => exact hs
  | cons hok hst _ ih => exact ih (hstep _ _ _ hs hok hst)

/-- A run under a guard is a run under every weaker guard. -/
theorem Run.mono (h : ∀ s a, ok s a → ok' s a) {s t : σ} {as : List α}
    (hrun : Run step ok s as t) : Run step ok' s as t := by
  induction hrun with
  | nil s => exact .nil s
  | cons hok hst _ ih => exact .cons (h _ _ hok) hst ih

/-- While `P` holds no step raises the rank `r` and every step of `m` lowers it, until `Q`:
    then a run with more steps of `m` than the rank it starts with passes through `Q`. -/
theorem Run.reaches {P Q : σ → Prop} {m : α → Bool} {r : σ → Nat}
    (hstep : ∀ s a s', P s → ok s a → step s a = some s' →
      Q s' ∨ P s' ∧ r s' ≤ r s ∧ (m a = true → r s' < r s))
    {s t : σ} {as : List α} (hrun : Run step ok s as t) (hs : P s)
    (hcount : r s < as.countP m) :
    ∃ bs cs u, as = bs ++ cs ∧ Run step ok s bs u ∧ Run step ok u cs t ∧ Q u := by
  induction hrun with
  | nil s => simp at hcount
  | @cons s s' t a as hok hst hrest ih =>
      rcases hstep s a s' hs hok hst with hq | ⟨hp, hle, hlt⟩
      · exact ⟨[a], as, s', rfl, .cons hok hst (.nil s'), hrest, hq⟩
      · have hless : r s' < as.countP m := by
          rw [List.countP_cons] at hcount
          by_cases hm : m a = true
          · have hdrop := hlt hm
            rw [if_pos hm] at hcount
            omega
          · rw [if_neg hm] at hcount
            omega
        obtain ⟨bs, cs, u, has, hbs, hcs, hq⟩ := ih hp hless
        exact ⟨a :: bs, cs, u, by rw [has]; rfl, .cons hok hst hbs, hcs, hq⟩

/-- The same for a `Q` that every step keeps: it holds at the end of the run. -/
theorem Run.countdown {P Q : σ → Prop} {m : α → Bool} {r : σ → Nat}
    (hstep : ∀ s a s', P s → ok s a → step s a = some s' →
      Q s' ∨ P s' ∧ r s' ≤ r s ∧ (m a = true → r s' < r s))
    (hkeep : ∀ s a s', Q s → ok s a → step s a = some s' → Q s')
    {s t : σ} {as : List α} (hrun : Run step ok s as t) (hs : P s)
    (hcount : r s < as.countP m) : Q t := by
  obtain ⟨bs, cs, u, -, -, hcs, hq⟩ := hrun.reaches hstep hs hcount
  exact hcs.inv Q hkeep hq

theorem Run.append {s m t : σ} {as bs : List α} (h₁ : Run step ok s as m)
    (h₂ : Run step ok m bs t) : Run step ok s (as ++ bs) t := by
  induction h₁ with
  | nil s => exact h₂
  | cons hok hst _ ih => exact .cons hok hst (ih h₂)

/-- Evaluate a run on fixed labels, checking the guard at every step. -/
def exec (step : σ → α → Option σ) (ok : σ → α → Prop) [∀ s a, Decidable (ok s a)] :
    σ → List α → Option σ
  | s, [] => some s
  | s, a :: as => if ok s a then (step s a).bind fun s' => exec step ok s' as else none

theorem run_of_exec [∀ s a, Decidable (ok s a)] {s t : σ} {as : List α}
    (h : exec step ok s as = some t) : Run step ok s as t := by
  induction as generalizing s with
  | nil =>
      obtain rfl : s = t := by simpa [exec] using h
      exact .nil s
  | cons a as ih =>
      simp only [exec] at h
      split at h
      · next hok =>
          cases hst : step s a with
          | none => simp [hst] at h
          | some s' =>
              rw [hst, Option.bind_some] at h
              exact .cons hok hst (ih h)
      · cases h

instance (s : σ) (a : α) : Decidable (Any s a) := isTrue trivial

end FlyVault.Lib
