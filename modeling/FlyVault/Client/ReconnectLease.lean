/-
  The leases of `ReconnectableConnection` (`crates/client/src/quic.rs`): `connect_ready` is
  single-flight, and a lease is only replaced after it was invalidated by its own generation.

  The connector works outside the lock between two critical sections, so the facts about
  `current` hold together with those about the flag and the tasks (`LeaseInv`): while an
  attempt runs there is no lease to overwrite. `leases` collects the leases of a run in the
  order in which they were established. `next_generation` is a `u64` that wraps, so their
  generations increase strictly for the first 2^64 of them, and the next one repeats the first
  (`generation_repeats`).
-/
import FlyVault.Client.Reconnect
import Mathlib.Algebra.Group.Nat.Defs

namespace FlyVault.Client.Reconnect

open FlyVault.Lib

/-- `connect_ready` is in flight in the task. -/
def Phase.InConnectReady : Phase → Prop
  | .connecting _ _ => True
  | _ => False

/-- The lease that a step from `s` to `s'` establishes. -/
def newLease (s s' : Sys) : Option ConnectionLease :=
  if s'.state.current = s.state.current then none else s'.state.current

/-- The leases established along a run, in order. -/
def leases (s : Sys) : List Label → List ConnectionLease
  | [] => []
  | a :: as =>
      match step s a with
      | some s' => (newLease s s').toList ++ leases s' as
      | none => []

/-! ## What a step does to the lease -/

/-- What a step of task `i` does to the state under the lock. -/
inductive LeaseEffect (s : Sys) (i : Nat) (s' : Sys) : Prop
  | keeps (hat : ∀ conn, s.tasks i ≠ .connected conn) (hstate : s'.state = s.state)
      (hto : ¬ (s'.tasks i).InConnectReady)
  /-- The task starts an attempt. -/
  | begins (hcurrent : s.state.current = none) (hreconnecting : s.state.reconnecting = false)
      (hstate : s'.state = { s.state with reconnecting := true })
      (hto : s'.tasks i = .connecting s.state.connectedOnce s.state.reprovision)
  /-- The attempt has succeeded. -/
  | stores (conn : Nat) (hat : s.tasks i = .connected conn)
      (hcurrent : s'.state.current = some ⟨conn, s.state.nextGeneration⟩)
      (hnext : s'.state.nextGeneration = s.state.nextGeneration + 1)
      (hreconnecting : s'.state.reconnecting = false)
      (hreprovision : s'.state.reprovision = false) (hto : ¬ (s'.tasks i).InConnectReady)
  /-- The attempt has failed. -/
  | fails (hat : ∀ conn, s.tasks i ≠ .connected conn)
      (hstate : s'.state = { s.state with reconnecting := false })
      (hto : ¬ (s'.tasks i).InConnectReady)
  | invalidates (lease : ConnectionLease) (hat : s.tasks i = .invalidating lease.generation)
      (hcurrent : s.state.current = some lease)
      (hstate : s'.state = { s.state with current := none })
      (hto : ¬ (s'.tasks i).InConnectReady)

/-- Only the task moves, to a phase outside `connect_ready`. -/
theorem goto_keeps {s s₁ : Sys} {i : Nat} {before phase : Phase} (hat : s.tasks i = before)
    (hbefore : ∀ conn, before ≠ .connected conn) (hstate : s₁.state = s.state)
    (hto : ¬ phase.InConnectReady) : LeaseEffect s i (s₁.goto i phase) :=
  .keeps (hat ▸ hbefore) hstate (by rw [tasks_goto_self]; exact hto)

theorem leaseEffect_checkState {s : Sys} {i : Nat} (hat : s.tasks i = .check) :
    LeaseEffect s i (checkState s i) := by
  unfold checkState
  split
  · exact goto_keeps hat (by simp) rfl id
  · next hcurrent =>
    split
    · exact goto_keeps hat (by simp) rfl id
    · next hrec =>
        exact .begins hcurrent (Bool.eq_false_iff.mpr hrec) rfl (tasks_goto_self _ _ _)

theorem leaseEffect_invalidate {s : Sys} {i : Nat} {generation : UInt64}
    (hat : s.tasks i = .invalidating generation) :
    LeaseEffect s i ((invalidate s generation).goto i (.idle none)) := by
  unfold invalidate
  split
  · next lease hcurrent =>
    split
    · next hgeneration =>
        refine .invalidates lease (hgeneration ▸ hat) hcurrent rfl ?_
        rw [tasks_goto_self]
        exact id
    · exact goto_keeps hat (by simp) rfl id
  · exact goto_keeps hat (by simp) rfl id

theorem leaseEffect_of_step {s s' : Sys} {a : Label} (h : step s a = some s') :
    LeaseEffect s a.task s' := by
  obtain ⟨i, action⟩ := a
  unfold step at h
  split at h
  case h_3 hat _ =>
    cases h
    exact leaseEffect_checkState hat
  case h_5 hat _ =>
    split at h
    · cases h
      exact goto_keeps hat (by simp) rfl id
    · cases h
  case h_8 conn hat _ =>
    cases h
    exact .stores conn hat rfl rfl rfl rfl (by rw [storeLease, tasks_goto_self]; exact id)
  case h_9 hat _ =>
    cases h
    exact .fails (by rw [hat]; simp) rfl (by rw [clearAttempt, tasks_goto_self]; exact id)
  case h_11 err connectedOnce hat _ =>
    cases h
    refine goto_keeps hat (by simp) rfl ?_
    unfold afterFailure
    split <;> exact id
  case h_13 hat _ =>
    cases h
    exact leaseEffect_invalidate hat
  case h_14 => cases h
  all_goals
    rename_i hat _
    cases h
    exact goto_keeps hat (by simp) rfl id

/-! ## The joint invariant -/

/-- One attempt at a time, and no lease while it runs. -/
structure LeaseInv (s : Sys) : Prop where
  exclusive : Exclusive s
  vacant : s.state.reconnecting = true → s.state.current = none

theorem leaseInv_new (reprovision : Bool) : LeaseInv (Sys.new reprovision) :=
  ⟨(inv_new reprovision).exclusive, fun _ => rfl⟩

theorem LeaseEffect.vacant {s s' : Sys} {i : Nat} (h : LeaseEffect s i s')
    (hs : s.state.reconnecting = true → s.state.current = none) :
    s'.state.reconnecting = true → s'.state.current = none := by
  intro hrec
  cases h with
  | keeps _ hstate _ => rw [hstate] at hrec ⊢; exact hs hrec
  | begins hcurrent _ hstate _ => rw [hstate]; exact hcurrent
  | stores _ _ _ _ hcleared _ _ => rw [hcleared] at hrec; cases hrec
  | fails _ hstate _ => rw [hstate] at hrec; cases hrec
  | invalidates _ _ _ hstate _ => rw [hstate]

theorem leaseInv_step (s : Sys) (a : Label) (s' : Sys) (hs : LeaseInv s) (_ : Any s a)
    (h : step s a = some s') : LeaseInv s' :=
  ⟨exclusive_step hs.exclusive (fun _ hj => tasks_of_step h hj) (effect_of_step h),
    (leaseEffect_of_step h).vacant hs.vacant⟩

/-- A task back from a successful `connect_ready` finds no lease. -/
theorem LeaseInv.current_of_connected {s : Sys} (hs : LeaseInv s) {i conn : Nat}
    (hat : s.tasks i = .connected conn) : s.state.current = none :=
  hs.vacant (hs.exclusive.flagged i (by rw [hat]; trivial))

/-- A lease goes only by an `invalidate` of its own generation. -/
theorem LeaseInv.invalidating_of_cleared {s s' : Sys} {a : Label} (hs : LeaseInv s)
    (h : step s a = some s') {lease : ConnectionLease} (hbefore : s.state.current = some lease)
    (hafter : s'.state.current ≠ some lease) : s.tasks a.task = .invalidating lease.generation := by
  cases leaseEffect_of_step h with
  | keeps _ hstate _ | begins _ _ hstate _ | fails _ hstate _ =>
      rw [hstate] at hafter
      exact absurd hbefore hafter
  | stores conn hat _ _ _ _ _ =>
      have hnone := hs.current_of_connected hat
      rw [hbefore] at hnone
      cases hnone
  | invalidates lease' hat hcurrent _ _ =>
      rw [hbefore] at hcurrent
      cases hcurrent
      exact hat

/-! ## Generations -/

/-- A step establishes no lease, or one with the next generation. -/
theorem LeaseInv.newLease_cases {s s' : Sys} {a : Label} (hs : LeaseInv s)
    (h : step s a = some s') :
    newLease s s' = none ∧ s'.state.nextGeneration = s.state.nextGeneration ∨
      ∃ lease, newLease s s' = some lease ∧ lease.generation = s.state.nextGeneration ∧
        s'.state.nextGeneration = s.state.nextGeneration + 1 := by
  cases leaseEffect_of_step h with
  | keeps _ hstate _ | begins _ _ hstate _ | fails _ hstate _ =>
      exact .inl ⟨by simp [newLease, hstate], by rw [hstate]⟩
  | stores conn hat hcurrent hnext _ _ _ =>
      have hnone := hs.current_of_connected hat
      exact .inr ⟨⟨conn, s.state.nextGeneration⟩, by simp [newLease, hnone, hcurrent], rfl, hnext⟩
  | invalidates _ _ _ hstate _ => exact .inl ⟨by simp [newLease, hstate], by rw [hstate]⟩

/-- The generations of a run count up from `next_generation`, wrapping. -/
theorem generations_of_run {s t : Sys} {as : List Label} (hs : LeaseInv s)
    (hrun : Run step Any s as t) :
    (leases s as).map ConnectionLease.generation =
      (List.range (leases s as).length).map fun n =>
        s.state.nextGeneration + UInt64.ofNat n := by
  induction hrun with
  | nil s => rfl
  | @cons s s' t a as hok h _ ih =>
      have ih := ih (leaseInv_step s a s' hs hok h)
      rw [leases, h]
      rcases hs.newLease_cases h with ⟨hnone, hnext⟩ | ⟨lease, hsome, hgeneration, hnext⟩
      · rw [hnext] at ih
        simpa [hnone] using ih
      · have hshift : ∀ n, s'.state.nextGeneration + UInt64.ofNat n =
            s.state.nextGeneration + UInt64.ofNat (n + 1) := by
          intro n
          rw [hnext, UInt64.ofNat_add, UInt64.add_assoc, UInt64.add_comm 1]
          rfl
        simp only [hshift] at ih
        simp only [hsome, Option.toList_some, List.singleton_append, List.map_cons,
          List.length_cons, List.range_succ_eq_map, List.map_map, hgeneration, ih]
        simp [Function.comp_def]

theorem generations_increase (reprovision : Bool) {as : List Label} {s : Sys}
    (hrun : Run step Any (Sys.new reprovision) as s)
    (hcount : (leases (Sys.new reprovision) as).length ≤ 2 ^ 64) :
    ((leases (Sys.new reprovision) as).map ConnectionLease.generation).Pairwise (· < ·) := by
  rw [generations_of_run (leaseInv_new reprovision) hrun, List.pairwise_map]
  refine List.pairwise_lt_range.imp_of_mem fun {m n} _ hn hlt => ?_
  have hbound : n < UInt64.size := Nat.lt_of_lt_of_le (List.mem_range.mp hn) hcount
  simp only [Sys.new, UInt64.zero_add]
  rw [UInt64.lt_iff_toNat_lt, UInt64.toNat_ofNat_of_lt' (Nat.lt_trans hlt hbound),
    UInt64.toNat_ofNat_of_lt' hbound]
  exact hlt

/-! ## Reprovisioning -/

/-- Some `connect_ready` has succeeded: its task has still to store the lease, or
    `reprovision` is cleared; and whichever is in flight was started without it. -/
structure Provisioned (s : Sys) : Prop where
  inFlight : ∀ i connectedOnce reprovision, s.tasks i = .connecting connectedOnce reprovision →
    reprovision = false
  settled : s.state.reprovision = false ∨ ∃ j conn, s.tasks j = .connected conn

theorem connected_of_ready {s s' : Sys} {a : Label} {conn : Nat} (h : step s a = some s')
    (ha : a.action = .ready (.ok conn)) :
    (s.tasks a.task).Attempts ∧ s'.tasks a.task = .connected conn := by
  obtain ⟨i, action⟩ := a
  cases ha
  unfold step at h
  split at h
  case h_6 hat hready =>
    cases hready
    cases h
    exact ⟨by rw [hat]; trivial, tasks_goto_self _ _ _⟩
  case h_14 => cases h
  all_goals
    rename_i hready
    cases hready

theorem provisioned_of_ready {s s' : Sys} {a : Label} {conn : Nat} (hs : LeaseInv s)
    (h : step s a = some s') (ha : a.action = .ready (.ok conn)) : Provisioned s' := by
  obtain ⟨hat, hto⟩ := connected_of_ready h ha
  refine ⟨fun i connectedOnce reprovision hi => ?_, .inr ⟨a.task, conn, hto⟩⟩
  by_cases hia : i = a.task
  · rw [hia, hto] at hi
    cases hi
  · rw [tasks_of_step h hia] at hi
    exact absurd (hs.exclusive.alone i a.task (by rw [hi]; trivial) hat) hia

theorem provisioned_step {s s' : Sys} {a : Label} (hs : LeaseInv s) (hp : Provisioned s)
    (h : step s a = some s') : Provisioned s' := by
  have hflight : ¬ (s'.tasks a.task).InConnectReady → ∀ i connectedOnce reprovision,
      s'.tasks i = .connecting connectedOnce reprovision → reprovision = false := by
    intro hto i connectedOnce reprovision hi
    by_cases hia : i = a.task
    · rw [← hia, hi] at hto
      exact absurd trivial hto
    · rw [tasks_of_step h hia] at hi
      exact hp.inFlight i connectedOnce reprovision hi
  -- a task at the lock with its connection stays there unless the step is its own
  have hsettled : (∀ conn, s.tasks a.task ≠ .connected conn) →
      s'.state.reprovision = s.state.reprovision →
      s'.state.reprovision = false ∨ ∃ j conn, s'.tasks j = .connected conn := by
    intro hat hsame
    rcases hp.settled with hfalse | ⟨j, conn, hj⟩
    · exact .inl (hsame.trans hfalse)
    · have hja : j ≠ a.task := fun heq => hat conn (heq ▸ hj)
      exact .inr ⟨j, conn, (tasks_of_step h hja).trans hj⟩
  cases leaseEffect_of_step h with
  | keeps hat hstate hto | fails hat hstate hto =>
      exact ⟨hflight hto, hsettled hat (by rw [hstate])⟩
  | invalidates _ hat _ hstate hto =>
      exact ⟨hflight hto, hsettled (by rw [hat]; simp) (by rw [hstate])⟩
  | stores _ _ _ _ _ hreprovision hto => exact ⟨hflight hto, .inl hreprovision⟩
  | begins _ hreconnecting hstate hto =>
      have hfalse : s.state.reprovision = false := by
        rcases hp.settled with hfalse | ⟨j, conn, hj⟩
        · exact hfalse
        · have hflag := hs.exclusive.flagged j (by rw [hj]; trivial)
          rw [hreconnecting] at hflag
          cases hflag
      refine ⟨fun i connectedOnce reprovision hi => ?_, .inl (by rw [hstate]; exact hfalse)⟩
      by_cases hia : i = a.task
      · rw [hia, hto] at hi
        cases hi
        exact hfalse
      · rw [tasks_of_step h hia] at hi
        exact hp.inFlight i connectedOnce reprovision hi

theorem provisioned_of_run {s t : Sys} {as : List Label} (hs : LeaseInv s)
    (hrun : Run step Any s as t) (hready : ∃ a ∈ as, ∃ conn, a.action = .ready (.ok conn)) :
    Provisioned t := by
  induction hrun with
  | nil s =>
      obtain ⟨a, ha, -⟩ := hready
      cases ha
  | @cons s s' t a as hok h hrest ih =>
      have hs' := leaseInv_step s a s' hs hok h
      obtain ⟨b, hb, conn, hconn⟩ := hready
      rcases List.mem_cons.mp hb with rfl | hb
      · have hkeep := hrest.inv (fun s => LeaseInv s ∧ Provisioned s)
          (fun s a s' hs hok h => ⟨leaseInv_step s a s' hs.1 hok h, provisioned_step hs.1 hs.2 h⟩)
          ⟨hs', provisioned_of_ready hs h hconn⟩
        exact hkeep.2
      · exact ih hs' ⟨b, hb, conn, hconn⟩

/-! ## Single flight -/

/-- In every reachable state: at most one `connect_ready` is in flight; there is no lease while
    `reconnecting` is set; the generations of the leases so far increase strictly, up to 2^64
    leases; a lease goes only by an `invalidate` of its own generation; and after one
    `connect_ready` has succeeded none is in flight that was started with `reprovision`. -/
theorem connect_single_flight (reprovision : Bool) (as : List Label) (s : Sys)
    (hrun : Run step Any (Sys.new reprovision) as s) :
    (∀ j k, (s.tasks j).InConnectReady → (s.tasks k).InConnectReady → j = k) ∧
      (s.state.reconnecting = true → s.state.current = none) ∧
      ((leases (Sys.new reprovision) as).length ≤ 2 ^ 64 →
        ((leases (Sys.new reprovision) as).map ConnectionLease.generation).Pairwise (· < ·)) ∧
      (∀ a s' lease, step s a = some s' → s.state.current = some lease →
        s'.state.current ≠ some lease → s.tasks a.task = .invalidating lease.generation) ∧
      ((∃ a ∈ as, ∃ conn, a.action = .ready (.ok conn)) →
        ∀ i connectedOnce withReprovision,
          s.tasks i = .connecting connectedOnce withReprovision → withReprovision = false) := by
  have hs := hrun.inv LeaseInv leaseInv_step (leaseInv_new reprovision)
  have hattempts : ∀ {p : Phase}, p.InConnectReady → p.Attempts := by
    intro p hp
    cases p <;> first | exact hp.elim | exact trivial
  refine ⟨fun j k hj hk => hs.exclusive.alone j k (hattempts hj) (hattempts hk), hs.vacant,
    generations_increase reprovision hrun, ?_, fun hready => ?_⟩
  · intro a s' lease h hbefore hafter
    exact hs.invalidating_of_cleared h hbefore hafter
  · exact (provisioned_of_run (leaseInv_new reprovision) hrun hready).inFlight

/-- Task 0 connects, invalidates its lease and is in its second `connect_ready`. -/
def reconnectOnce : List Label :=
  [⟨0, .callConnect⟩, ⟨0, .next⟩, ⟨0, .ready (.ok 7)⟩, ⟨0, .next⟩, ⟨0, .next⟩,
    ⟨0, .callInvalidate 0⟩, ⟨0, .next⟩, ⟨0, .callConnect⟩, ⟨0, .next⟩]

theorem connect_single_flight_reconnectOnce :
    ∃ s, Run step Any (Sys.new true) reconnectOnce s ∧ s.tasks 0 = .connecting true false ∧
      (∀ k, (s.tasks k).InConnectReady → 0 = k) ∧ s.state.current = none := by
  have hrun : Run step Any (Sys.new true) reconnectOnce _ := run_of_exec rfl
  have h := connect_single_flight true reconnectOnce _ hrun
  exact ⟨_, hrun, rfl, fun k hk => h.1 0 k trivial hk, h.2.1 rfl⟩

/-! ## The generation after the last -/

/-- Task 0 connects and invalidates the lease of generation `g` that it got. -/
def cycle (g : UInt64) : List Label :=
  [⟨0, .callConnect⟩, ⟨0, .next⟩, ⟨0, .ready (.ok 0)⟩, ⟨0, .next⟩, ⟨0, .next⟩,
    ⟨0, .callInvalidate g⟩, ⟨0, .next⟩]

def cycles (g : UInt64) : Nat → List Label
  | 0 => []
  | n + 1 => cycle g ++ cycles (g + 1) n

/-- Task 0 is outside a call, nobody attempts and there is no lease. -/
structure Rested (s : Sys) (g : UInt64) : Prop where
  task : ∃ result, s.tasks 0 = .idle result
  current : s.state.current = none
  reconnecting : s.state.reconnecting = false
  next : s.state.nextGeneration = g

/-- The state after a cycle. -/
def afterCycle (s : Sys) : Sys where
  state := {
    current := none
    nextGeneration := s.state.nextGeneration + 1
    connectedOnce := true
    reconnecting := false
    reprovision := false }
  notify := s.notify.notifyWaiters.notifyWaiters
  tasks := Function.update s.tasks 0 (.idle none)

theorem cycle_spec {s : Sys} {g : UInt64} (hs : Rested s g) :
    ∃ t, Run step Any s (cycle g) t ∧ Rested t (g + 1) ∧ (leases s (cycle g)).length = 1 := by
  obtain ⟨⟨result, htask⟩, hcurrent, hreconnecting, rfl⟩ := hs
  have hexec : exec step Any s (cycle s.state.nextGeneration) = some (afterCycle s) := by
    simp [exec, Any, cycle, step, htask, checkState, hcurrent, hreconnecting, storeLease, Sys.goto,
      Sys.notifyWaiters, invalidate, afterCycle]
  refine ⟨afterCycle s, run_of_exec hexec, ⟨⟨none, by simp [afterCycle]⟩, rfl, rfl, rfl⟩, ?_⟩
  simp [leases, newLease, cycle, step, htask, checkState, hcurrent, hreconnecting, storeLease,
    Sys.goto, Sys.notifyWaiters, invalidate]

theorem leases_append {s t : Sys} {as bs : List Label} (hrun : Run step Any s as t) :
    leases s (as ++ bs) = leases s as ++ leases t bs := by
  induction hrun with
  | nil s => rfl
  | cons _ h _ ih => simp only [List.cons_append, leases, h, ih, List.append_assoc]

theorem cycles_spec (n : Nat) {s : Sys} {g : UInt64} (hs : Rested s g) :
    ∃ t, Run step Any s (cycles g n) t ∧ (leases s (cycles g n)).length = n := by
  induction n generalizing s g with
  | zero => exact ⟨s, .nil s, rfl⟩
  | succ n ih =>
      obtain ⟨m, hm, hrested, hone⟩ := cycle_spec hs
      obtain ⟨t, ht, hcount⟩ := ih hrested
      refine ⟨t, hm.append ht, ?_⟩
      rw [cycles, leases_append hm, List.length_append, hone, hcount, Nat.add_comm]

/-- A run that establishes 2^64 + 1 leases: the last has the generation of the first. -/
theorem generation_repeats :
    ∃ as s, Run step Any (Sys.new false) as s ∧
      ¬ ((leases (Sys.new false) as).map ConnectionLease.generation).Pairwise (· < ·) := by
  obtain ⟨s, hrun, hcount⟩ := cycles_spec (2 ^ 64 + 1) (s := Sys.new false) (g := 0)
    ⟨⟨none, rfl⟩, rfl, rfl, rfl⟩
  refine ⟨_, s, hrun, fun hpairwise => ?_⟩
  rw [generations_of_run (leaseInv_new false) hrun, hcount, List.pairwise_map] at hpairwise
  rw [List.pairwise_iff_getElem] at hpairwise
  have hless := hpairwise 0 (2 ^ 64) (by simp) (by simp) (by decide)
  rw [List.getElem_range, List.getElem_range] at hless
  revert hless
  decide

end FlyVault.Client.Reconnect
