/-
  `connect` futures that are dropped (`crates/client/src/quic.rs`, and `handle_list_exec` of
  `crates/client/src/control.rs`, whose future hyper drops when the HTTP peer goes away).

  A future is dropped only while it is suspended, which is at an await point: the lock at the
  head of the loop, `notified()`, anywhere in `connect_ready`, the lock after it, or the pause
  before the next attempt. Nothing of the shared state has a destructor that looks at
  `reconnecting`, so a drop only takes the task out of the call.

  A drop between the section that sets `reconnecting` and the section that clears it leaves the
  flag set with nobody to clear it, for ever (`drop_wedges_connect`). As long as no attempt is
  dropped (`SparesAttempts`), a set flag has a task that clears it (`reconnecting_is_reset`).
-/
import FlyVault.Client.Reconnect

namespace FlyVault.Client.Reconnect

open FlyVault.Lib

/-- The task is suspended in `connect`. -/
def Phase.suspended : Phase → Bool
  | .check | .parked _ | .connecting _ _ | .connected _ | .failed _ _ | .sleeping => true
  | _ => false

inductive Event
  | act (a : Label)
  /-- The `connect` future of a task is dropped. -/
  | drop (task : Nat)

/-- The task is out of `connect` and may call it again. -/
def dropFuture (s : Sys) (i : Nat) : Option Sys :=
  if (s.tasks i).suspended then some (s.goto i (.idle none)) else none

def stepOrDrop (s : Sys) : Event → Option Sys
  | .act a => step s a
  | .drop i => dropFuture s i

/-- No future is dropped between setting `reconnecting` and clearing it. -/
def SparesAttempts (s : Sys) : Event → Prop
  | .act _ => True
  | .drop i => ¬ (s.tasks i).Attempts

/-- The event is a step of task `j`. -/
def Event.isStepOf (j : Nat) : Event → Bool
  | .act a => a.task == j
  | .drop _ => false

/-! ## What a drop does -/

theorem dropFuture_eq {s s' : Sys} {i : Nat} (h : dropFuture s i = some s') :
    s' = s.goto i (.idle none) := by
  unfold dropFuture at h
  split at h
  · exact (Option.some.inj h).symm
  · cases h

theorem exclusive_dropFuture {s s' : Sys} {i : Nat} (hs : Exclusive s)
    (hspared : ¬ (s.tasks i).Attempts) (h : dropFuture s i = some s') : Exclusive s' := by
  rw [dropFuture_eq h]
  refine hs.congr (fun j hj => tasks_goto_of_ne s _ hj) rfl (iff_of_false ?_ hspared)
  rw [tasks_goto_self]
  exact id

theorem exclusive_stepOrDrop (s : Sys) (e : Event) (s' : Sys) (hs : Exclusive s)
    (hok : SparesAttempts s e) (h : stepOrDrop s e = some s') : Exclusive s' := by
  cases e with
  | act a => exact exclusive_step hs (fun j hj => tasks_of_step h hj) (effect_of_step h)
  | drop i => exact exclusive_dropFuture hs hok h

/-! ## A set flag has a task that clears it -/

/-- One step while task `j` attempts: the flag is cleared, or the attempt goes on and a step of
    `j` has brought it nearer to its end. -/
theorem attempts_step {s s' : Sys} {a : Label} {j : Nat} (h : step s a = some s')
    (hat : (s.tasks j).Attempts) :
    s'.state.reconnecting = false ∨
      (s'.tasks j).Attempts ∧
        (s'.tasks j).stepsLeft ≤ (s.tasks j).stepsLeft ∧
        ((a.task == j) = true → (s'.tasks j).stepsLeft < (s.tasks j).stepsLeft) := by
  by_cases hj : j = a.task
  · subst hj
    cases effect_of_step h with
    | rests _ _ hnot _ _ => exact absurd hat hnot
    | waits _ _ _ hrests _ | begins _ _ _ hrests _ => exact absurd hat hrests.1
    | registers _ _ hreg _ => rw [hreg] at hat; exact hat.elim
    | notifies _ _ hnotifies _ => exact absurd hat hnotifies.not_attempts
    | proceeds _ _ _ hto hleft => exact .inr ⟨hto, Nat.le_of_lt hleft, fun _ => hleft⟩
    | ends hafter _ _ _ _ => exact .inl hafter
  · rw [tasks_of_step h hj]
    refine .inr ⟨hat, Nat.le_refl _, fun heq => ?_⟩
    exact absurd (beq_iff_eq.mp heq).symm hj

theorem Phase.Attempts.stepsLeft_pos {p : Phase} (h : p.Attempts) : 0 < p.stepsLeft := by
  cases p <;> first | exact h.elim | exact Nat.succ_pos _

/-- The same for a run with drops; two steps of the task are enough, so the rank is one less
    than the steps to the `notify_waiters`. -/
theorem attempts_stepOrDrop {s s' : Sys} {e : Event} {j : Nat} (hok : SparesAttempts s e)
    (h : stepOrDrop s e = some s') (hat : (s.tasks j).Attempts) :
    s'.state.reconnecting = false ∨
      (s'.tasks j).Attempts ∧
        (s'.tasks j).stepsLeft - 1 ≤ (s.tasks j).stepsLeft - 1 ∧
        (e.isStepOf j = true → (s'.tasks j).stepsLeft - 1 < (s.tasks j).stepsLeft - 1) := by
  cases e with
  | act a =>
      rcases attempts_step h hat with hcleared | ⟨hat', hle, hlt⟩
      · exact .inl hcleared
      · have hpos := hat'.stepsLeft_pos
        refine .inr ⟨hat', by omega, fun hj => ?_⟩
        have := hlt hj
        omega
  | drop i =>
      have hne : j ≠ i := fun heq => hok (heq ▸ hat)
      rw [dropFuture_eq h, tasks_goto_of_ne s _ hne]
      exact .inr ⟨hat, Nat.le_refl _, fun hj => (by cases hj)⟩

/-- As long as no attempt is dropped: while `reconnecting` is set some task has set it and is
    in `connect_ready`, or back from it and at the lock, and every further run with two steps
    of this task passes through a state in which the flag is cleared. -/
theorem reconnecting_is_reset (reprovision : Bool) (es : List Event) (s : Sys)
    (hrun : Run stepOrDrop SparesAttempts (Sys.new reprovision) es s)
    (hflag : s.state.reconnecting = true) :
    ∃ j, (s.tasks j).Attempts ∧
      ∀ fs t, Run stepOrDrop SparesAttempts s fs t → 2 ≤ fs.countP (Event.isStepOf j) →
        ∃ fs₁ fs₂ u, fs = fs₁ ++ fs₂ ∧ Run stepOrDrop SparesAttempts s fs₁ u ∧
          Run stepOrDrop SparesAttempts u fs₂ t ∧ u.state.reconnecting = false := by
  have hs := hrun.inv Exclusive exclusive_stepOrDrop (inv_new reprovision).exclusive
  obtain ⟨j, hj⟩ := hs.attempted hflag
  refine ⟨j, hj, fun fs t hfs hcount => ?_⟩
  have hleft := (s.tasks j).stepsLeft_lt
  exact hfs.reaches (P := fun s => (s.tasks j).Attempts)
    (Q := fun s => s.state.reconnecting = false) (r := fun s => (s.tasks j).stepsLeft - 1)
    (fun s e s' hat hok h => attempts_stepOrDrop hok h hat) hj (by omega)

/-- Task 0 connects, task 1 parks beside it and is dropped. -/
def dropWaiter : List Event :=
  waitForOther.map .act ++ [.drop 1]

theorem reconnecting_is_reset_dropWaiter :
    ∃ s, Run stepOrDrop SparesAttempts (Sys.new false) dropWaiter s ∧
      s.state.reconnecting = true ∧
      ∃ j, (s.tasks j).Attempts ∧
        ∀ fs t, Run stepOrDrop SparesAttempts s fs t → 2 ≤ fs.countP (Event.isStepOf j) →
          ∃ fs₁ fs₂ u, fs = fs₁ ++ fs₂ ∧ Run stepOrDrop SparesAttempts s fs₁ u ∧
            Run stepOrDrop SparesAttempts u fs₂ t ∧ u.state.reconnecting = false := by
  have hrun : Run stepOrDrop SparesAttempts (Sys.new false) dropWaiter _ :=
    .cons trivial rfl (.cons trivial rfl (.cons trivial rfl (.cons trivial rfl
      (.cons trivial rfl (.cons id rfl (.nil _))))))
  exact ⟨_, hrun, rfl, reconnecting_is_reset false dropWaiter _ hrun rfl⟩

/-! ## The dropped attempt -/

/-- `reconnecting` is set and nobody is going to clear it. -/
structure Wedged (s : Sys) : Prop where
  flag : s.state.reconnecting = true
  nobody : ∀ j, ¬ (s.tasks j).Attempts

theorem wedged_step {s s' : Sys} {a : Label} (hs : Wedged s) (h : step s a = some s') :
    Wedged s' := by
  have hothers : ¬ (s'.tasks a.task).Attempts → ∀ j, ¬ (s'.tasks j).Attempts := by
    intro hself j
    by_cases hj : j = a.task
    · rw [hj]; exact hself
    · rw [tasks_of_step h hj]; exact hs.nobody j
  cases effect_of_step h with
  | rests hreconnecting _ _ _ hto => exact ⟨hreconnecting.trans hs.flag, hothers hto.1⟩
  | waits _ hstate _ _ hto | registers hstate _ _ hto =>
      exact ⟨by rw [hstate]; exact hs.flag, hothers (by rw [hto]; exact id)⟩
  | notifies hstate _ _ hto => exact ⟨by rw [hstate]; exact hs.flag, hothers hto.1⟩
  | begins hbefore _ _ _ _ => rw [hs.flag] at hbefore; cases hbefore
  | proceeds _ _ hat _ _ | ends _ _ hat _ _ => exact absurd hat (hs.nobody _)

theorem wedged_stepOrDrop (s : Sys) (e : Event) (s' : Sys) (hs : Wedged s)
    (_ : Any s e) (h : stepOrDrop s e = some s') : Wedged s' := by
  cases e with
  | act a => exact wedged_step hs h
  | drop i =>
      rw [dropFuture_eq h]
      refine ⟨hs.flag, fun j => ?_⟩
      by_cases hj : j = i
      · rw [hj, tasks_goto_self]; exact id
      · rw [tasks_goto_of_ne s _ hj]; exact hs.nobody j

/-- Task 0 is dropped in `connect_ready`. -/
def dropAttempt : List Event :=
  [.act ⟨0, .callConnect⟩, .act ⟨0, .next⟩, .drop 0]

/-- After it `reconnecting` is set, no task is in an attempt, and so it stays whatever is
    called afterwards. -/
theorem drop_wedges_connect :
    ∃ s, Run stepOrDrop Any (Sys.new false) dropAttempt s ∧
      ∀ fs t, Run stepOrDrop Any s fs t →
        t.state.reconnecting = true ∧ ∀ j, ¬ (t.tasks j).Attempts := by
  have hrun : Run stepOrDrop Any (Sys.new false) dropAttempt _ := run_of_exec rfl
  refine ⟨_, hrun, fun fs t hfs => ?_⟩
  have hwedged : Wedged t := by
    refine hfs.inv Wedged wedged_stepOrDrop ⟨rfl, fun j => ?_⟩
    cases j with
    | zero => exact id
    | succ j => exact id
  exact ⟨hwedged.flag, hwedged.nobody⟩

end FlyVault.Client.Reconnect
