/-
  Waiting for a state in chunks (`MachinesClient::wait_for_state`,
  `crates/admin/src/machines.rs`).

  The API takes timeouts from 1 to 60 seconds, so a longer wait is made of several requests.
  `waitChunks` is the loop as a recursion. Here it is a loop again, `waitLoop`: it goes on as
  long as there are rounds left, and the subtraction panics where it would go below zero.
  `waitLoop_eq`: with enough rounds it neither runs out of them nor panics.

  `WaitRun` lists the requests of a run with their timeouts and answers. `chunked_waiting`: every
  timeout is in the range, only a 408 is followed by another request, and the timeouts add up to
  at most the time to wait, and to exactly that if all answers are a 408.
-/
import Mathlib.Algebra.Ring.Nat
import FlyVault.Admin.Machines

namespace FlyVault.Admin

open FlyVault.Lib FlyVault.Lib.Script

section

variable (machineId state : String) (instanceId : Option String)

/-- `a -= b` on an unsigned integer. -/
def subtract (a b : Nat) : Api Nat := if b ≤ a then pure (a - b) else panic

/-- The loop of `wait_for_state`, for at most the given number of rounds. -/
def waitLoop : Nat → Nat → Fallible Unit
  | 0, _ => ExceptT.mk spin
  | rounds + 1, remaining =>
      let chunk := min remaining 60
      ExceptT.mk do
        match ← ask (Call.wait machineId state chunk instanceId) with
        | .ok () => pure (.ok ())
        | .error e =>
            if remaining > chunk ∧ isWaitTimeout e then do
              let remaining ← subtract remaining chunk
              (waitLoop rounds remaining).run
            else pure (.error e)

theorem waitLoop_eq {rounds remaining : Nat} (h : remaining ≤ 60 * rounds) (hpos : 0 < remaining) :
    waitLoop machineId state instanceId rounds remaining =
      waitChunks machineId state instanceId remaining := by
  induction rounds generalizing remaining with
  | zero => omega
  | succ rounds ih =>
      rw [waitLoop, waitChunks]
      refine congrArg (Script.call (Call.wait machineId state (min remaining 60) instanceId)) ?_
      funext r
      cases r with
      | ok u => rfl
      | error e =>
          by_cases hmore : remaining > min remaining 60 ∧ isWaitTimeout e
          · have hnext := @ih (remaining - min remaining 60) (by omega) (by omega)
            have hsub : subtract remaining (min remaining 60) =
                pure (remaining - min remaining 60) := if_pos (by omega)
            show (if _ then _ else _ : Api (Except Error Unit)) = if _ then _ else _
            rw [if_pos hmore, if_pos hmore, hsub, ← hnext]
            rfl
          · show (if _ then _ else _ : Api (Except Error Unit)) = if _ then _ else _
            rw [if_neg hmore, if_neg hmore]

end

/-! ## The requests of a run -/

/-- The answer is a 408. -/
def TimedOut (r : Except Error Unit) : Prop := ∃ e, r = .error e ∧ isWaitTimeout e

/-- The requests of the loop with `remaining` seconds left, as timeouts and answers, and what the
    loop returns. -/
inductive WaitRun : Nat → List (Nat × Except Error Unit) → Except Error Unit → Prop
  | ends {remaining : Nat} {r : Except Error Unit} (h : TimedOut r → remaining ≤ 60) :
      WaitRun remaining [(min remaining 60, r)] r
  | goesOn {remaining : Nat} {r result : Except Error Unit}
      {rounds : List (Nat × Except Error Unit)} (htimeout : TimedOut r) (hmore : 60 < remaining)
      (hrest : WaitRun (remaining - 60) rounds result) :
      WaitRun remaining ((60, r) :: rounds) result

/-- A request of the loop. -/
def waitEvent (machineId state : String) (instanceId : Option String)
    (round : Nat × Except Error Unit) : ApiEvent :=
  ⟨.wait machineId state round.1 instanceId, round.2⟩

section

variable {machineId state : String} {instanceId : Option String}

theorem waitRun_of_exec {remaining : Nat} {t : List ApiEvent} {o : Option (Except Error Unit)}
    (h : Exec (waitChunks machineId state instanceId remaining).run t o) :
    ∃ rounds result, t = rounds.map (waitEvent machineId state instanceId) ∧ o = some result ∧
      WaitRun remaining rounds result := by
  induction remaining using Nat.strongRecOn generalizing t with
  | ind remaining ih =>
      rw [waitChunks] at h
      cases h with
      | @call _ _ r t _ h =>
          cases r with
          | ok u =>
              obtain ⟨rfl, rfl⟩ := exec_pure.mp h
              refine ⟨[(min remaining 60, .ok ())], _, rfl, rfl, .ends ?_⟩
              intro htimeout
              obtain ⟨e, he, -⟩ := htimeout
              cases he
          | error e =>
              by_cases hmore : remaining > min remaining 60 ∧ isWaitTimeout e
              · have hnext : Exec (waitChunks machineId state instanceId
                    (remaining - min remaining 60)).run t o := by
                  have h' : Exec (if remaining > min remaining 60 ∧ isWaitTimeout e then _ else _)
                    t o := h
                  rwa [if_pos hmore] at h'
                have hchunk : min remaining 60 = 60 := by omega
                rw [hchunk] at hnext ⊢
                obtain ⟨rounds, result, rfl, rfl, hrun⟩ := ih (remaining - 60) (by omega) hnext
                exact ⟨(60, .error e) :: rounds, result, rfl, rfl,
                  .goesOn ⟨e, rfl, hmore.2⟩ (by omega) hrun⟩
              · have hlast : Exec (pure (.error e) : Api (Except Error Unit)) t o := by
                  have h' : Exec (if remaining > min remaining 60 ∧ isWaitTimeout e then _ else _)
                    t o := h
                  rwa [if_neg hmore] at h'
                obtain ⟨rfl, rfl⟩ := exec_pure.mp hlast
                refine ⟨[(min remaining 60, .error e)], _, rfl, rfl, .ends ?_⟩
                intro htimeout
                obtain ⟨e', he, hstatus⟩ := htimeout
                cases he
                by_contra hlong
                exact hmore ⟨by omega, hstatus⟩

theorem ends_waitChunks (remaining : Nat) :
    Ends (waitChunks machineId state instanceId remaining).run := by
  induction remaining using Nat.strongRecOn with
  | ind remaining ih =>
      rw [waitChunks]
      apply ends_call
      intro r
      cases r with
      | ok u => exact ends_pure _
      | error e =>
          show Ends (if _ then _ else _)
          split
          · next hmore => exact ih _ (by omega)
          · exact ends_pure _

end

section

variable {remaining : Nat} {rounds : List (Nat × Except Error Unit)} {result : Except Error Unit}

theorem WaitRun.in_range (h : WaitRun remaining rounds result) (hpos : 0 < remaining) :
    ∀ round ∈ rounds, 1 ≤ round.1 ∧ round.1 ≤ 60 := by
  induction h with
  | ends _ =>
      rw [List.forall_mem_singleton]
      dsimp only
      omega
  | goesOn _ hmore _ ih =>
      rw [List.forall_mem_cons]
      exact ⟨⟨(by decide : 1 ≤ 60), le_rfl⟩, ih (by omega)⟩

theorem WaitRun.sum_le (h : WaitRun remaining rounds result) :
    (rounds.map Prod.fst).sum ≤ remaining := by
  induction h with
  | ends _ =>
      rw [List.map_singleton, List.sum_singleton]
      omega
  | goesOn _ hmore _ ih =>
      rw [List.map_cons, List.sum_cons]
      omega

theorem WaitRun.sum_eq (h : WaitRun remaining rounds result)
    (hall : ∀ round ∈ rounds, TimedOut round.2) : (rounds.map Prod.fst).sum = remaining := by
  induction h with
  | ends hend =>
      have hshort := hend (hall _ List.mem_cons_self)
      rw [List.map_singleton, List.sum_singleton]
      omega
  | goesOn _ hmore _ ih =>
      have hrest := ih (List.forall_mem_cons.mp hall).2
      rw [List.map_cons, List.sum_cons]
      omega

/-- Another request comes only after a 408. -/
theorem WaitRun.timedOut (h : WaitRun remaining rounds result)
    {before after : List (Nat × Except Error Unit)} {round next : Nat × Except Error Unit}
    (hsplit : rounds = before ++ round :: next :: after) : TimedOut round.2 := by
  induction h generalizing before with
  | ends _ =>
      have hlength := congrArg List.length hsplit
      simp only [List.length_append, List.length_cons, List.length_nil] at hlength
      omega
  | goesOn htimeout _ _ ih =>
      cases before with
      | nil =>
          rw [← (List.cons.inj hsplit).1]
          exact htimeout
      | cons first before => exact ih (List.cons.inj hsplit).2

theorem WaitRun.last (h : WaitRun remaining rounds result) :
    ∃ before chunk, rounds = before ++ [(chunk, result)] := by
  induction h with
  | ends _ => exact ⟨[], _, rfl⟩
  | goesOn _ _ _ ih =>
      obtain ⟨before, chunk, hrounds⟩ := ih
      rw [hrounds]
      exact ⟨_ :: before, chunk, rfl⟩

end

/-- The loop of `wait_for_state` ends for every sequence of answers, and its subtraction does not
    go below zero. Its requests have timeouts from 1 to 60, which add up to at most the time to
    wait, and to exactly that if every answer is a 408. Only a 408 is followed by another
    request, and the last answer is what the function returns. -/
theorem chunked_waiting (machineId state : String) (timeout : Nat) (instanceId : Option String) :
    (∀ rounds, max (timeout / second) 1 ≤ 60 * rounds →
      waitLoop machineId state instanceId rounds (max (timeout / second) 1) =
        waitForState machineId state timeout instanceId) ∧
    Ends (waitForState machineId state timeout instanceId).run ∧
    ∀ t o, Exec (waitForState machineId state timeout instanceId).run t o →
      ∃ rounds result, t = rounds.map (waitEvent machineId state instanceId) ∧ o = some result ∧
        (∃ before chunk, rounds = before ++ [(chunk, result)]) ∧
        (∀ round ∈ rounds, 1 ≤ round.1 ∧ round.1 ≤ 60) ∧
        (rounds.map Prod.fst).sum ≤ max (timeout / second) 1 ∧
        ((∀ round ∈ rounds, TimedOut round.2) →
          (rounds.map Prod.fst).sum = max (timeout / second) 1) ∧
        ∀ before round next after, rounds = before ++ round :: next :: after →
          TimedOut round.2 := by
  have hpos : 0 < max (timeout / second) 1 := by omega
  refine ⟨fun rounds h => waitLoop_eq machineId state instanceId h hpos,
    ends_waitChunks _, ?_⟩
  intro t o h
  obtain ⟨rounds, result, ht, ho, hrun⟩ := waitRun_of_exec h
  exact ⟨rounds, result, ht, ho, hrun.last, hrun.in_range hpos, hrun.sum_le, hrun.sum_eq,
    fun _ _ _ _ hsplit => hrun.timedOut hsplit⟩

end FlyVault.Admin
