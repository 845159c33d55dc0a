/-
  `ReconnectableConnection` (`crates/client/src/quic.rs`): any number of tasks that call
  `connect` and `invalidate` on one shared connection.

  A task takes a step from one point at which another task may run to the next: a section
  under the lock is one step, and so are `connect_ready`, the creation of the `Notified`
  future after the lock is released, and each `notify_waiters`. `invalidate` notifies while it
  still holds the lock; a future created meanwhile is woken as one created just before, so
  that section is one step as well. `connect_ready` returns a connection, or an error that
  `is_reconnectable_transport` accepts or not; connections are numbered. Generations are `u64`,
  and their counter wraps as in a build without overflow checks. Calls are not cancelled.

  The waiter looks at the state under the lock and creates its future after releasing it. A
  `notify_waiters` that falls in between is lost on it (`parked_beside_lease`). As long as no
  attempt notifies while a task stands there (`NobodyBetween`), every parked task has a task
  that will wake it (`parked_has_notifier`).
-/
import FlyVault.Lib.Run
import FlyVault.Lib.Notify

namespace FlyVault.Client.Reconnect

open FlyVault.Lib

/-- `ConnectionLease`. -/
structure ConnectionLease where
  conn : Nat
  generation : UInt64
  deriving DecidableEq, Repr

/-- `ReconnectState`, what the lock protects. -/
structure ReconnectState where
  current : Option ConnectionLease
  nextGeneration : UInt64
  connectedOnce : Bool
  reconnecting : Bool
  reprovision : Bool
  deriving DecidableEq, Repr

/-- An error of `connect_ready`, and whether it is a reconnectable transport error. -/
structure ConnectError where
  message : String
  reconnectable : Bool
  deriving DecidableEq, Repr

/-- Where a task stands in `connect` or `invalidate`. -/
inductive Phase
  /-- Between two calls, with the result of the last `connect`. -/
  | idle (result : Option (Except ConnectError ConnectionLease))
  /-- At the lock at the head of the loop. -/
  | check
  /-- `connect_attempt` is `None` and the lock is released. -/
  | unregistered
  /-- At `notified().await`. -/
  | parked (notified : Notified)
  /-- In `connect_ready`. -/
  | connecting (connectedOnce reprovision : Bool)
  /-- `connect_ready` has returned; at the lock. -/
  | connected (conn : Nat)
  | failed (err : ConnectError) (connectedOnce : Bool)
  /-- The lock is released; at `notify_waiters`. -/
  | stored (lease : ConnectionLease)
  | cleared (err : ConnectError) (connectedOnce : Bool)
  /-- In the pause before the next attempt. -/
  | sleeping
  /-- At the lock of `invalidate`. -/
  | invalidating (generation : UInt64)
  deriving DecidableEq

structure Sys where
  state : ReconnectState
  notify : Notify
  tasks : Nat → Phase

/-- `ReconnectableConnection::new`, before any call. -/
def Sys.new (reprovision : Bool) : Sys where
  state := {
    current := none
    nextGeneration := 0
    connectedOnce := false
    reconnecting := false
    reprovision }
  notify := ⟨0⟩
  tasks := fun _ => .idle none

inductive Action
  | callConnect
  | callInvalidate (generation : UInt64)
  /-- `connect_ready` returns. -/
  | ready (result : Except ConnectError Nat)
  /-- The task runs on to its next point. -/
  | next

/-- The task that moves, and what it does. -/
structure Label where
  task : Nat
  action : Action

/-- Task `i` goes to `phase`. -/
def Sys.goto (s : Sys) (i : Nat) (phase : Phase) : Sys :=
  { s with tasks := Function.update s.tasks i phase }

/-- The section under the lock at the head of `connect`. -/
def checkState (s : Sys) (i : Nat) : Sys :=
  match s.state.current with
  | some lease => s.goto i (.idle (some (.ok lease)))
  | none =>
      if s.state.reconnecting then s.goto i .unregistered
      else
        { s with state := { s.state with reconnecting := true } }.goto i
          (.connecting s.state.connectedOnce s.state.reprovision)

/-- The section under the lock after a successful `connect_ready`. -/
def storeLease (s : Sys) (i conn : Nat) : Sys :=
  let lease : ConnectionLease := ⟨conn, s.state.nextGeneration⟩
  { s with
    state := {
      current := some lease
      nextGeneration := s.state.nextGeneration + 1
      connectedOnce := true
      reconnecting := false
      reprovision := false } }.goto i (.stored lease)

/-- The section under the lock after a failed `connect_ready`. -/
def clearAttempt (s : Sys) (i : Nat) (err : ConnectError) (connectedOnce : Bool) : Sys :=
  { s with state := { s.state with reconnecting := false } }.goto i (.cleared err connectedOnce)

/-- What `connect` does with an error after it has notified. -/
def afterFailure (err : ConnectError) (connectedOnce : Bool) : Phase :=
  if connectedOnce && err.reconnectable then .sleeping else .idle (some (.error err))

/-- `notify.notify_waiters()`. -/
def Sys.notifyWaiters (s : Sys) : Sys := { s with notify := s.notify.notifyWaiters }

/-- `invalidate` under its lock. -/
def invalidate (s : Sys) (generation : UInt64) : Sys :=
  match s.state.current with
  | some lease =>
      if lease.generation = generation then
        { s with state := { s.state with current := none } }.notifyWaiters
      else s
  | none => s

/-- One step of one task. -/
def step (s : Sys) (a : Label) : Option Sys :=
  match s.tasks a.task, a.action with
  | .idle _, .callConnect => some (s.goto a.task .check)
  | .idle _, .callInvalidate generation => some (s.goto a.task (.invalidating generation))
  | .check, .next => some (checkState s a.task)
  | .unregistered, .next => some (s.goto a.task (.parked s.notify.notified))
  | .parked waiter, .next => if waiter.Woken s.notify then some (s.goto a.task .check) else none
  | .connecting _ _, .ready (.ok conn) => some (s.goto a.task (.connected conn))
  | .connecting connectedOnce _, .ready (.error err) =>
      some (s.goto a.task (.failed err connectedOnce))
  | .connected conn, .next => some (storeLease s a.task conn)
  | .failed err connectedOnce, .next => some (clearAttempt s a.task err connectedOnce)
  | .stored lease, .next => some (s.notifyWaiters.goto a.task (.idle (some (.ok lease))))
  | .cleared err connectedOnce, .next =>
      some (s.notifyWaiters.goto a.task (afterFailure err connectedOnce))
  | .sleeping, .next => some (s.goto a.task .check)
  | .invalidating generation, .next => some ((invalidate s generation).goto a.task (.idle none))
  | _, _ => none

/-! ## Who notifies -/

/-- The task has set `reconnecting` and not cleared it yet. -/
def Phase.Attempts : Phase → Prop
  | .connecting _ _ | .connected _ | .failed _ _ => True
  | _ => False

/-- The next thing the task does is the `notify_waiters` of its attempt. -/
def Phase.Notifies : Phase → Prop
  | .stored _ | .cleared _ _ => True
  | _ => False

/-- The task has started an attempt and not notified for it yet. -/
def Phase.Owes (p : Phase) : Prop := p.Attempts ∨ p.Notifies

/-- An upper bound on the steps of the task before that `notify_waiters`. -/
def Phase.stepsLeft : Phase → Nat
  | .connecting _ _ => 2
  | .connected _ | .failed _ _ => 1
  | _ => 0

/-- The task waits for a `notify_waiters`, or is about to. -/
def Waits (s : Sys) (i : Nat) : Prop :=
  s.tasks i = .unregistered ∨ ∃ waiter, s.tasks i = .parked waiter ∧ ¬ waiter.Woken s.notify

/-- When an attempt notifies, no task stands between the release of the lock and the creation
    of its future. -/
def NobodyBetween (s : Sys) (a : Label) : Prop :=
  (s.tasks a.task).Notifies → ∀ i, s.tasks i ≠ .unregistered

/-- A phase in which a task neither attempts, nor notifies, nor waits. -/
def Phase.Rests (p : Phase) : Prop :=
  ¬ p.Attempts ∧ ¬ p.Notifies ∧ p ≠ .unregistered ∧ ∀ waiter, p ≠ .parked waiter

/-- What a step of task `i` does to the flag, the notification and the task. -/
inductive Effect (s : Sys) (i : Nat) (s' : Sys) : Prop
  /-- The task goes on or is woken, and `invalidate` may notify. -/
  | rests (hreconnecting : s'.state.reconnecting = s.state.reconnecting)
      (hnotify : s'.notify = s.notify ∨ s'.notify = s.notify.notifyWaiters)
      (hattempts : ¬ (s.tasks i).Attempts) (hnotifies : ¬ (s.tasks i).Notifies)
      (hto : (s'.tasks i).Rests)
  /-- The task goes to wait, having seen `reconnecting`. -/
  | waits (hreconnecting : s.state.reconnecting = true) (hstate : s'.state = s.state)
      (hnotify : s'.notify = s.notify) (hat : (s.tasks i).Rests)
      (hto : s'.tasks i = .unregistered)
  /-- The task creates its future. -/
  | registers (hstate : s'.state = s.state) (hnotify : s'.notify = s.notify)
      (hat : s.tasks i = .unregistered) (hto : s'.tasks i = .parked s.notify.notified)
  /-- The task starts an attempt. -/
  | begins (hbefore : s.state.reconnecting = false) (hafter : s'.state.reconnecting = true)
      (hnotify : s'.notify = s.notify) (hat : (s.tasks i).Rests) (hto : (s'.tasks i).Attempts)
  /-- `connect_ready` returns to the task. -/
  | proceeds (hstate : s'.state = s.state) (hnotify : s'.notify = s.notify)
      (hat : (s.tasks i).Attempts) (hto : (s'.tasks i).Attempts)
      (hleft : (s'.tasks i).stepsLeft < (s.tasks i).stepsLeft)
  /-- The task ends its attempt. -/
  | ends (hafter : s'.state.reconnecting = false) (hnotify : s'.notify = s.notify)
      (hat : (s.tasks i).Attempts) (hto : (s'.tasks i).Notifies)
      (hleft : (s'.tasks i).stepsLeft < (s.tasks i).stepsLeft)
  /-- The task notifies for its attempt. -/
  | notifies (hstate : s'.state = s.state) (hnotify : s'.notify = s.notify.notifyWaiters)
      (hat : (s.tasks i).Notifies) (hto : (s'.tasks i).Rests)

@[simp] theorem tasks_goto_self (s : Sys) (i : Nat) (phase : Phase) :
    (s.goto i phase).tasks i = phase := by simp [Sys.goto]

theorem tasks_goto_of_ne (s : Sys) {i j : Nat} (phase : Phase) (h : j ≠ i) :
    (s.goto i phase).tasks j = s.tasks j := by simp [Sys.goto, h]

/-- Wherever the task goes, the flag and the notification are those of the state before. -/
theorem goto_rests {s s₁ : Sys} {i : Nat} {before phase : Phase}
    (hreconnecting : s₁.state.reconnecting = s.state.reconnecting)
    (hnotify : s₁.notify = s.notify ∨ s₁.notify = s.notify.notifyWaiters)
    (hat : s.tasks i = before) (hattempts : ¬ before.Attempts) (hnotifies : ¬ before.Notifies)
    (hto : phase.Rests) : Effect s i (s₁.goto i phase) :=
  .rests hreconnecting hnotify (hat ▸ hattempts) (hat ▸ hnotifies)
    (by rw [tasks_goto_self]; exact hto)

theorem rests_idle (result : Option (Except ConnectError ConnectionLease)) :
    (Phase.idle result).Rests := ⟨id, id, by simp, by simp⟩

theorem rests_check : Phase.check.Rests := ⟨id, id, by simp, by simp⟩

theorem rests_afterFailure (err : ConnectError) (connectedOnce : Bool) :
    (afterFailure err connectedOnce).Rests := by
  unfold afterFailure
  split
  · exact ⟨id, id, by simp, by simp⟩
  · exact rests_idle _

theorem invalidate_frame (s : Sys) (generation : UInt64) :
    (invalidate s generation).state.reconnecting = s.state.reconnecting ∧
      ((invalidate s generation).notify = s.notify ∨
        (invalidate s generation).notify = s.notify.notifyWaiters) ∧
      (invalidate s generation).tasks = s.tasks := by
  unfold invalidate
  split
  · split
    · exact ⟨rfl, .inr rfl, rfl⟩
    · exact ⟨rfl, .inl rfl, rfl⟩
  · exact ⟨rfl, .inl rfl, rfl⟩

/-- The section at the head of `connect`: return the lease, wait, or start an attempt. -/
theorem effect_checkState {s : Sys} {i : Nat} (hat : s.tasks i = .check) :
    Effect s i (checkState s i) := by
  have hrests : (s.tasks i).Rests := by rw [hat]; exact rests_check
  unfold checkState
  split
  · exact goto_rests rfl (.inl rfl) hat id id (rests_idle _)
  · split
    · next hrec => exact .waits hrec rfl rfl hrests (tasks_goto_self _ _ _)
    · next hrec =>
        have hbefore : s.state.reconnecting = false := Bool.eq_false_iff.mpr hrec
        exact .begins hbefore rfl rfl hrests (by rw [tasks_goto_self]; trivial)

theorem effect_of_step {s s' : Sys} {a : Label} (h : step s a = some s') :
    Effect s a.task s' := by
  obtain ⟨i, action⟩ := a
  unfold step at h
  split at h
  case h_1 hat _ =>
    cases h
    exact goto_rests rfl (.inl rfl) hat id id rests_check
  case h_2 hat _ =>
    cases h
    exact goto_rests rfl (.inl rfl) hat id id ⟨id, id, by simp, by simp⟩
  case h_3 hat _ =>
    cases h
    exact effect_checkState hat
  case h_4 hat _ =>
    cases h
    exact .registers rfl rfl hat (tasks_goto_self _ _ _)
  case h_5 hat _ =>
    split at h
    · cases h
      exact goto_rests rfl (.inl rfl) hat id id rests_check
    · cases h
  case h_6 hat _ =>
    cases h
    exact .proceeds rfl rfl (by rw [hat]; trivial) (by rw [tasks_goto_self]; trivial)
      (by rw [hat, tasks_goto_self]; exact Nat.lt_succ_self 1)
  case h_7 hat _ =>
    cases h
    exact .proceeds rfl rfl (by rw [hat]; trivial) (by rw [tasks_goto_self]; trivial)
      (by rw [hat, tasks_goto_self]; exact Nat.lt_succ_self 1)
  case h_8 hat _ =>
    cases h
    exact .ends rfl rfl (by rw [hat]; trivial) (by rw [storeLease, tasks_goto_self]; trivial)
      (by rw [hat, storeLease, tasks_goto_self]; exact Nat.lt_succ_self 0)
  case h_9 hat _ =>
    cases h
    exact .ends rfl rfl (by rw [hat]; trivial) (by rw [clearAttempt, tasks_goto_self]; trivial)
      (by rw [hat, clearAttempt, tasks_goto_self]; exact Nat.lt_succ_self 0)
  case h_10 hat _ =>
    cases h
    exact .notifies rfl rfl (by rw [hat]; trivial) (by rw [tasks_goto_self]; exact rests_idle _)
  case h_11 hat _ =>
    cases h
    exact .notifies rfl rfl (by rw [hat]; trivial)
      (by rw [tasks_goto_self]; exact rests_afterFailure _ _)
  case h_12 hat _ =>
    cases h
    exact goto_rests rfl (.inl rfl) hat id id rests_check
  case h_13 generation hat _ =>
    cases h
    obtain ⟨hrec, hnotify, -⟩ := invalidate_frame s generation
    exact goto_rests hrec hnotify hat id id (rests_idle _)
  case h_14 => cases h

theorem tasks_checkState (s : Sys) {i j : Nat} (h : j ≠ i) :
    (checkState s i).tasks j = s.tasks j := by
  unfold checkState
  split
  · exact tasks_goto_of_ne s _ h
  · split
    · exact tasks_goto_of_ne s _ h
    · exact tasks_goto_of_ne _ _ h

/-- A step leaves the other tasks alone. -/
theorem tasks_of_step {s s' : Sys} {a : Label} (h : step s a = some s') {j : Nat}
    (hj : j ≠ a.task) : s'.tasks j = s.tasks j := by
  unfold step at h
  split at h
  case h_3 =>
    cases h
    exact tasks_checkState s hj
  case h_5 =>
    split at h
    · cases h
      exact tasks_goto_of_ne s _ hj
    · cases h
  case h_13 generation _ _ =>
    cases h
    rw [tasks_goto_of_ne _ _ hj, (invalidate_frame s generation).2.2]
  case h_14 => cases h
  all_goals
    cases h
    exact tasks_goto_of_ne _ _ hj

/-! ## The invariant -/

/-- `reconnecting` is set exactly while one task attempts. -/
structure Exclusive (s : Sys) : Prop where
  attempted : s.state.reconnecting = true → ∃ j, (s.tasks j).Attempts
  flagged : ∀ j, (s.tasks j).Attempts → s.state.reconnecting = true
  alone : ∀ j k, (s.tasks j).Attempts → (s.tasks k).Attempts → j = k

/-- In addition futures belong to the cell, and while a task waits somebody has still to
    notify. -/
structure Inv (s : Sys) : Prop where
  exclusive : Exclusive s
  created : ∀ i waiter, s.tasks i = .parked waiter → waiter.Of s.notify
  owed : ∀ i, Waits s i → ∃ j, (s.tasks j).Owes

theorem inv_new (reprovision : Bool) : Inv (Sys.new reprovision) where
  exclusive := ⟨(by intros; contradiction), fun _ h => h.elim, fun _ _ h => h.elim⟩
  created _ _ h := by cases h
  owed i h := by rcases h with h | ⟨_, h, -⟩ <;> cases h

theorem Phase.Notifies.not_attempts {p : Phase} (h : p.Notifies) : ¬ p.Attempts := by
  cases p <;> first | exact id | exact h.elim

section Step

variable {s s' : Sys} {i : Nat}

/-- A step that neither starts nor ends an attempt. -/
theorem Exclusive.congr (hs : Exclusive s) (hframe : ∀ j, j ≠ i → s'.tasks j = s.tasks j)
    (hflag : s'.state.reconnecting = s.state.reconnecting)
    (hi : (s'.tasks i).Attempts ↔ (s.tasks i).Attempts) : Exclusive s' := by
  have hiff : ∀ j, (s'.tasks j).Attempts ↔ (s.tasks j).Attempts := by
    intro j
    by_cases hj : j = i
    · rw [hj]; exact hi
    · rw [hframe j hj]
  refine ⟨fun h => ?_, fun j h => ?_, fun j k hj hk => ?_⟩
  · obtain ⟨j, hj⟩ := hs.attempted (hflag ▸ h)
    exact ⟨j, (hiff j).mpr hj⟩
  · rw [hflag]
    exact hs.flagged j ((hiff j).mp h)
  · exact hs.alone j k ((hiff j).mp hj) ((hiff k).mp hk)

theorem exclusive_step (hs : Exclusive s) (hframe : ∀ j, j ≠ i → s'.tasks j = s.tasks j)
    (h : Effect s i s') : Exclusive s' := by
  cases h with
  | rests hflag _ hattempts _ hto =>
      exact hs.congr hframe hflag (iff_of_false hto.1 hattempts)
  | waits _ hstate _ hat hto =>
      exact hs.congr hframe (by rw [hstate]) (iff_of_false (by rw [hto]; exact id) hat.1)
  | registers hstate _ hat hto =>
      exact hs.congr hframe (by rw [hstate])
        (iff_of_false (by rw [hto]; exact id) (by rw [hat]; exact id))
  | proceeds hstate _ hat hto _ => exact hs.congr hframe (by rw [hstate]) (iff_of_true hto hat)
  | notifies hstate _ hat hto =>
      exact hs.congr hframe (by rw [hstate]) (iff_of_false hto.1 hat.not_attempts)
  | begins hbefore hafter _ _ hto =>
      -- nobody attempted before, so the new attempt is the only one
      have honly : ∀ j, (s'.tasks j).Attempts → j = i := by
        intro j hj
        by_contra hne
        rw [hframe j hne] at hj
        have hflag := hs.flagged j hj
        rw [hbefore] at hflag
        cases hflag
      exact ⟨fun _ => ⟨i, hto⟩, fun _ _ => hafter, fun j k hj hk => (honly j hj).trans
        (honly k hk).symm⟩
  | ends hafter _ hat hto _ =>
      have hnone : ∀ j, ¬ (s'.tasks j).Attempts := by
        intro j hj
        by_cases hji : j = i
        · rw [hji] at hj
          exact hto.not_attempts hj
        · rw [hframe j hji] at hj
          exact hji (hs.alone j i hj hat)
      exact ⟨fun h => (by rw [hafter] at h; cases h), fun j hj => (hnone j hj).elim,
        fun j _ hj => (hnone j hj).elim⟩

/-- No step takes a notification back. -/
theorem Effect.notify_cases (h : Effect s i s') :
    s'.notify = s.notify ∨ s'.notify = s.notify.notifyWaiters := by
  cases h with
  | rests _ hnotify _ _ _ => exact hnotify
  | notifies _ hnotify _ _ => exact .inr hnotify
  | waits _ _ hnotify _ _ | registers _ hnotify _ _ | begins _ _ hnotify _ _
  | proceeds _ hnotify _ _ _ | ends _ hnotify _ _ _ => exact .inl hnotify

theorem Effect.woken {waiter : Notified} (h : Effect s i s') (hw : waiter.Woken s.notify) :
    waiter.Woken s'.notify := by
  rcases h.notify_cases with hn | hn
  · rw [hn]; exact hw
  · rw [hn]; exact hw.mono

theorem created_step (hs : ∀ k waiter, s.tasks k = .parked waiter → waiter.Of s.notify)
    (hframe : ∀ j, j ≠ i → s'.tasks j = s.tasks j) (h : Effect s i s') (k : Nat)
    (waiter : Notified) (hk : s'.tasks k = .parked waiter) : waiter.Of s'.notify := by
  by_cases hki : k = i
  · subst hki
    cases h with
    | registers _ hn _ hto =>
        rw [hk] at hto
        cases hto
        rw [hn]
        exact of_notified s.notify
    | rests _ _ _ _ hto | notifies _ _ _ hto => exact absurd hk (hto.2.2.2 waiter)
    | waits _ _ _ _ hto => rw [hto] at hk; cases hk
    | begins _ _ _ _ hto | proceeds _ _ _ hto _ | ends _ _ _ hto _ => rw [hk] at hto; cases hto
  · rw [hframe k hki] at hk
    rcases h.notify_cases with hn | hn
    · rw [hn]; exact hs k waiter hk
    · rw [hn]; exact (hs k waiter hk).mono

theorem waits_of_frame {k : Nat} (h : Effect s i s') (hk : s'.tasks k = s.tasks k)
    (hw : Waits s' k) : Waits s k := by
  rcases hw with hu | ⟨waiter, hp, hnot⟩
  · exact .inl (hk ▸ hu)
  · exact .inr ⟨waiter, hk ▸ hp, fun hwoken => hnot (h.woken hwoken)⟩

theorem not_waits_of_rests {k : Nat} (h : (s.tasks k).Rests) : ¬ Waits s k := by
  rintro (hu | ⟨waiter, hp, -⟩)
  · exact h.2.2.1 hu
  · exact h.2.2.2 waiter hp

/-- Whoever had to notify and has not moved still has to. -/
theorem owed_of_frame (hframe : ∀ j, j ≠ i → s'.tasks j = s.tasks j)
    (hattempts : ¬ (s.tasks i).Attempts) (hnotifies : ¬ (s.tasks i).Notifies)
    (h : ∃ j, (s.tasks j).Owes) :
    ∃ j, (s'.tasks j).Owes := by
  obtain ⟨j, hj⟩ := h
  have hne : j ≠ i := by
    intro hji
    rw [hji] at hj
    exact hj.elim hattempts hnotifies
  exact ⟨j, (hframe j hne).symm ▸ hj⟩

/-- The step that matters is the `notify_waiters` of an attempt: it wakes every future there
    is, and nobody stands between the lock and their future. -/
theorem owed_step (hs : Inv s) (hframe : ∀ j, j ≠ i → s'.tasks j = s.tasks j)
    (h : Effect s i s') (hbetween : (s.tasks i).Notifies → ∀ k, s.tasks k ≠ .unregistered)
    (k : Nat) (hk : Waits s' k) : ∃ j, (s'.tasks j).Owes := by
  have hother : k ≠ i → Waits s k := fun hne => waits_of_frame h (hframe k hne) hk
  cases h with
  | rests _ _ hattempts hnotifies hto =>
      have hne : k ≠ i := fun heq => not_waits_of_rests hto (heq ▸ hk)
      exact owed_of_frame hframe hattempts hnotifies (hs.owed k (hother hne))
  | waits hflag _ _ hat _ =>
      obtain ⟨j, hj⟩ := hs.exclusive.attempted hflag
      exact owed_of_frame hframe hat.1 hat.2.1 ⟨j, .inl hj⟩
  | registers _ _ hat _ =>
      have howed := hs.owed i (.inl hat)
      exact owed_of_frame hframe (by rw [hat]; exact id) (by rw [hat]; exact id) howed
  | begins _ _ _ _ hto => exact ⟨i, .inl hto⟩
  | proceeds _ _ _ hto _ => exact ⟨i, .inl hto⟩
  | ends _ _ _ hto _ => exact ⟨i, .inr hto⟩
  | notifies _ hnotify hat hto =>
      have hne : k ≠ i := fun heq => not_waits_of_rests hto (heq ▸ hk)
      rcases hk with hu | ⟨waiter, hp, hnot⟩
      · rw [hframe k hne] at hu
        exact absurd hu (hbetween hat k)
      · rw [hframe k hne] at hp
        rw [hnotify] at hnot
        exact absurd (woken_notifyWaiters (hs.created k waiter hp)) hnot

end Step

theorem inv_step (s : Sys) (a : Label) (s' : Sys) (hs : Inv s) (hok : NobodyBetween s a)
    (h : step s a = some s') : Inv s' := by
  have hframe : ∀ j, j ≠ a.task → s'.tasks j = s.tasks j := fun j hj => tasks_of_step h hj
  have heffect := effect_of_step h
  exact ⟨exclusive_step hs.exclusive hframe heffect, created_step hs.created hframe heffect,
    owed_step hs hframe heffect hok⟩

/-! ## Every parked task has a notifier -/

/-- One step while task `j` has still to notify: the notification, or, at a step of `j`, one
    step nearer to it. -/
theorem owes_step {s s' : Sys} {a : Label} {j : Nat} (h : step s a = some s')
    (howes : (s.tasks j).Owes) :
    s'.notify = s.notify.notifyWaiters ∨
      (s'.tasks j).Owes ∧
        (s'.tasks j).stepsLeft ≤ (s.tasks j).stepsLeft ∧
        ((a.task == j) = true → (s'.tasks j).stepsLeft < (s.tasks j).stepsLeft) := by
  by_cases hj : j = a.task
  · subst hj
    cases effect_of_step h with
    | rests _ _ hattempts hnotifies _ => exact (howes.elim hattempts hnotifies).elim
    | waits _ _ _ hat _ | begins _ _ _ hat _ => exact (howes.elim hat.1 hat.2.1).elim
    | registers _ _ hat _ => rw [hat] at howes; exact (howes.elim id id).elim
    | proceeds _ _ _ hto hleft => exact .inr ⟨.inl hto, Nat.le_of_lt hleft, fun _ => hleft⟩
    | ends _ _ _ hto hleft => exact .inr ⟨.inr hto, Nat.le_of_lt hleft, fun _ => hleft⟩
    | notifies _ hnotify _ _ => exact .inl hnotify
  · rw [tasks_of_step h hj]
    refine .inr ⟨howes, Nat.le_refl _, fun heq => ?_⟩
    exact absurd (beq_iff_eq.mp heq).symm hj

/-- Whatever the others do, task `j` notifies within its next steps. -/
theorem woken_of_steps {s t : Sys} {as : List Label} {j : Nat} {waiter : Notified}
    (hrun : Run step Any s as t) (hof : waiter.Of s.notify)
    (howes : (s.tasks j).Owes)
    (hcount : (s.tasks j).stepsLeft < as.countP fun a => a.task == j) :
    waiter.Woken t.notify := by
  refine hrun.countdown
    (P := fun s => waiter.Of s.notify ∧ (s.tasks j).Owes)
    (Q := fun s => waiter.Woken s.notify) (r := fun s => (s.tasks j).stepsLeft)
    ?_ ?_ ⟨hof, howes⟩ hcount
  · rintro s a s' ⟨hof, howes⟩ - h
    rcases owes_step h howes with hn | ⟨howes', hle, hlt⟩
    · exact .inl (by rw [hn]; exact woken_notifyWaiters hof)
    · have hof' : waiter.Of s'.notify := by
        rcases (effect_of_step h).notify_cases with hn | hn
        · rw [hn]; exact hof
        · rw [hn]; exact hof.mono
      exact .inr ⟨⟨hof', howes'⟩, hle, hlt⟩
  · intro s a s' hw _ h
    exact (effect_of_step h).woken hw

theorem Phase.stepsLeft_lt (p : Phase) : p.stepsLeft < 3 := by
  unfold Phase.stepsLeft
  split <;> omega

/-- As long as no attempt notifies while a task stands between the lock and its future: a
    parked task that is not woken yet has a task that is reconnecting, or at its
    `notify_waiters`, and that wakes it within three further steps of its own, whatever the
    others do. -/
theorem parked_has_notifier (reprovision : Bool) (as : List Label) (s : Sys)
    (hrun : Run step NobodyBetween (Sys.new reprovision) as s) (i : Nat) (waiter : Notified)
    (hparked : s.tasks i = .parked waiter) (hnot : ¬ waiter.Woken s.notify) :
    ∃ j, ((s.state.reconnecting = true ∧ (s.tasks j).Attempts) ∨ (s.tasks j).Notifies) ∧
      ∀ bs t, Run step Any s bs t → 3 ≤ bs.countP (fun a => a.task == j) →
        waiter.Woken t.notify := by
  have hs := hrun.inv Inv inv_step (inv_new reprovision)
  obtain ⟨j, hj⟩ := hs.owed i (.inr ⟨waiter, hparked, hnot⟩)
  refine ⟨j, ?_, fun bs t hbs hcount => ?_⟩
  · rcases hj with hattempts | hnotifies
    · exact .inl ⟨hs.exclusive.flagged j hattempts, hattempts⟩
    · exact .inr hnotifies
  · have hleft := (s.tasks j).stepsLeft_lt
    exact woken_of_steps hbs (hs.created i waiter hparked) hj (by omega)

/-- Task 0 connects, task 1 finds it reconnecting and parks. -/
def waitForOther : List Label :=
  [⟨0, .callConnect⟩, ⟨0, .next⟩, ⟨1, .callConnect⟩, ⟨1, .next⟩, ⟨1, .next⟩]

theorem parked_has_notifier_waitForOther :
    ∃ s waiter, Run step NobodyBetween (Sys.new false) waitForOther s ∧
      s.tasks 1 = .parked waiter ∧ ¬ waiter.Woken s.notify ∧
      ∃ j, ((s.state.reconnecting = true ∧ (s.tasks j).Attempts) ∨ (s.tasks j).Notifies) ∧
        ∀ bs t, Run step Any s bs t → 3 ≤ bs.countP (fun a => a.task == j) →
          waiter.Woken t.notify := by
  have hrun : Run step NobodyBetween (Sys.new false) waitForOther _ :=
    .cons (fun h => h.elim) rfl (.cons (fun h => h.elim) rfl (.cons (fun h => h.elim) rfl
      (.cons (fun h => h.elim) rfl (.cons (fun h => h.elim) rfl (.nil _)))))
  have hnot := not_woken_notified ⟨0⟩
  exact ⟨_, _, hrun, rfl, hnot, parked_has_notifier false waitForOther _ hrun 1 _ rfl hnot⟩

/-! ## The lost wake-up -/

/-- Task 1 finds task 0 reconnecting and releases the lock; task 0 stores its lease and
    notifies; only then task 1 creates its future. -/
def notifyBetween : List Label :=
  [⟨0, .callConnect⟩, ⟨0, .next⟩, ⟨1, .callConnect⟩, ⟨1, .next⟩, ⟨0, .ready (.ok 7)⟩, ⟨0, .next⟩,
    ⟨0, .next⟩, ⟨1, .next⟩]

/-- Task 1 is parked, with no step of its own to take, although there is a lease and no task
    is reconnecting or has still to notify. -/
theorem parked_beside_lease :
    ∃ s waiter, Run step Any (Sys.new false) notifyBetween s ∧
      s.state.current = some ⟨7, 0⟩ ∧ s.state.reconnecting = false ∧
      s.tasks 1 = .parked waiter ∧ ¬ waiter.Woken s.notify ∧ step s ⟨1, .next⟩ = none ∧
      ∀ j, ¬ (s.tasks j).Owes := by
  have hrun : Run step Any (Sys.new false) notifyBetween _ := run_of_exec rfl
  refine ⟨_, _, hrun, rfl, rfl, rfl, not_woken_notified ⟨1⟩, rfl, fun j => ?_⟩
  match j with
  | 0 => exact fun h => h.elim id id
  | 1 => exact fun h => h.elim id id
  | k + 2 => exact fun h => h.elim id id

end FlyVault.Client.Reconnect
