/-
  The replay buffer against the full output log (`BufferedConsoleState`,
  `crates/init/src/forward.rs`).

  `push`, `replay_from` and `subscribe_from` subtract offsets and lengths, and `clamp` wants its
  bounds in order. The checked forms here are the same code with `none` where a subtraction
  would go below zero or `clamp` would panic. On a buffer that shows a window of the log they
  agree with the plain ones (`pushChecked_eq`, `replayFromChecked_eq`).

  `replay_buffer_refines`: after any pushes of less than 2^64 bytes in total the buffer is the
  end of everything pushed, no longer than the limit, and a reader at any offset is given exactly
  what it lacks of it.
-/
import FlyVault.Init.ConsoleBuffer

namespace FlyVault.Init

open FlyVault.Lib FlyVault.Protocol

/-- A subtraction that may not go below zero. -/
def checkedSub (a b : Nat) : Option Nat := if b ≤ a then some (a - b) else none

/-- `Ord::clamp` with its assertion. -/
def checkedClamp (x lo hi : Nat) : Option Nat := if lo ≤ hi then some (clamp x lo hi) else none

theorem checkedSub_of_le {a b : Nat} (h : b ≤ a) : checkedSub a b = some (a - b) := if_pos h

theorem checkedClamp_of_le {lo hi : Nat} (x : Nat) (h : lo ≤ hi) :
    checkedClamp x lo hi = some (clamp x lo hi) := if_pos h

namespace BufferedConsoleState

/-- `push` with its subtractions checked. -/
def pushChecked (st : BufferedConsoleState) (payload : Bytes) (limitBytes : Nat) :
    Option BufferedConsoleState := do
  let nextOffset := satAdd st.nextOffset payload.length
  if limitBytes = 0 then
    return { retainedStart := nextOffset, nextOffset := nextOffset, buffer := [] }
  else if limitBytes ≤ payload.length then
    let buffer := payload.drop (← checkedSub payload.length limitBytes)
    let retainedStart ← checkedSub nextOffset buffer.length
    return { retainedStart, nextOffset, buffer }
  else
    let buffer := st.buffer ++ payload
    let overflow := buffer.length - limitBytes
    if 0 < overflow then
      return { retainedStart := satAdd st.retainedStart overflow
               nextOffset := nextOffset
               buffer := buffer.drop overflow }
    else return { st with nextOffset := nextOffset, buffer := buffer }

/-- `replay_from` with its subtraction and its `clamp` checked. -/
def replayFromChecked (st : BufferedConsoleState) (renderedBytes : Nat) :
    Option (Bytes × Nat) := do
  let replayFrom ← checkedClamp renderedBytes st.retainedStart st.nextOffset
  let skip ← checkedSub replayFrom st.retainedStart
  return (st.buffer.drop skip, st.nextOffset)

theorem pushChecked_eq {st : BufferedConsoleState} {payload : Bytes} (limit : Nat)
    (hfit : st.nextOffset + payload.length ≤ u64Max) :
    st.pushChecked payload limit = some (st.push payload limit) := by
  unfold pushChecked push
  dsimp only
  split
  · rfl
  split
  · next hle =>
      have hnext : (payload.drop (payload.length - limit)).length ≤
          satAdd st.nextOffset payload.length := by
        rw [satAdd, Nat.min_eq_left hfit, List.length_drop]
        omega
      rw [checkedSub_of_le hle]
      show (checkedSub (satAdd st.nextOffset payload.length) _).bind _ = _
      rw [checkedSub_of_le hnext]
      rfl
  · split
    · rfl
    · rfl

theorem replayFromChecked_eq {st : BufferedConsoleState} (offset : Nat)
    (h : st.retainedStart ≤ st.nextOffset) :
    st.replayFromChecked offset = some (st.replayFrom offset) := by
  unfold replayFromChecked replayFrom
  rw [checkedClamp_of_le offset h]
  show (checkedSub (clamp offset st.retainedStart st.nextOffset) _).bind _ = _
  rw [checkedSub_of_le (le_clamp offset h)]
  rfl

end BufferedConsoleState

namespace BufferedConsoleOutput

/-- `subscribe_from` with its subtraction and its `clamp` checked. -/
def subscribeFromChecked (out : BufferedConsoleOutput) (renderedBytes : Nat) :
    Option (Bytes × Nat) := do
  let nextOffset := out.state.nextOffset
  let replayFrom ← checkedClamp renderedBytes out.state.retainedStart nextOffset
  let skip ← checkedSub replayFrom out.state.retainedStart
  return (out.state.buffer.drop skip, nextOffset)

/-- `subscribe_from` repeats the body of `replay_from`, checks included. -/
theorem subscribeFromChecked_eq (out : BufferedConsoleOutput) (offset : Nat) :
    out.subscribeFromChecked offset = out.state.replayFromChecked offset := rfl

end BufferedConsoleOutput

/-- The buffer shows the log `log`, of which it keeps the last `limit` bytes. -/
structure KeepsEnd (limit : Nat) (log : Bytes) (out : BufferedConsoleOutput) : Prop where
  limit_eq : out.limitBytes = limit
  nextOffset : out.state.nextOffset = log.length
  retainedStart : out.state.retainedStart = log.length - limit
  buffer : out.state.buffer = log.drop (log.length - limit)

/-- One more push. -/
theorem KeepsEnd.pushData {limit : Nat} {log : Bytes} {out : BufferedConsoleOutput}
    (h : KeepsEnd limit log out) (payload : Bytes) (hfit : (log ++ payload).length ≤ u64Max) :
    KeepsEnd limit (log ++ payload) (out.pushData payload) ∧
      out.state.pushChecked payload limit = some (out.pushData payload).state := by
  have hrefines : out.state.Refines ⟨log, log.length - limit, Nat.sub_le _ _⟩ :=
    ⟨h.retainedStart, h.nextOffset, h.buffer⟩
  have hpush := BufferedConsoleState.push_refines hrefines payload limit hfit
  have hstart : max (log.length - limit) ((log ++ payload).length - limit) =
      (log ++ payload).length - limit := by
    rw [List.length_append]
    omega
  have hstate : (out.pushData payload).state = out.state.push payload limit := by
    rw [← h.limit_eq]
    rfl
  constructor
  · refine ⟨h.limit_eq, ?_, ?_, ?_⟩
    · rw [hstate, hpush.nextOffset]
      rfl
    · rw [hstate, hpush.retainedStart]
      exact hstart
    · rw [hstate, hpush.buffer]
      exact congrArg (log ++ payload).drop hstart
  · rw [hstate]
    refine BufferedConsoleState.pushChecked_eq limit ?_
    rw [h.nextOffset, ← List.length_append]
    exact hfit

/-- Any number of pushes, none of which goes below zero. -/
theorem KeepsEnd.pushAll {limit : Nat} {log : Bytes} {out : BufferedConsoleOutput}
    (h : KeepsEnd limit log out) (payloads : List Bytes)
    (hfit : (log ++ payloads.flatten).length ≤ u64Max) :
    KeepsEnd limit (log ++ payloads.flatten) (payloads.foldl .pushData out) ∧
      payloads.foldlM (fun st payload => st.pushChecked payload limit) out.state =
        some (payloads.foldl BufferedConsoleOutput.pushData out).state := by
  induction payloads generalizing log out with
  | nil =>
      rw [List.flatten_nil, List.append_nil]
      exact ⟨h, rfl⟩
  | cons payload payloads ih =>
      rw [List.flatten_cons, ← List.append_assoc] at hfit ⊢
      have hfirst : (log ++ payload).length ≤ u64Max := by
        rw [List.length_append] at hfit
        omega
      obtain ⟨hkeeps, hchecked⟩ := h.pushData payload hfirst
      rw [List.foldlM_cons, hchecked]
      exact ih hkeeps hfit

theorem KeepsEnd.length_buffer {limit : Nat} {log : Bytes} {out : BufferedConsoleOutput}
    (h : KeepsEnd limit log out) : out.state.buffer.length = min limit log.length := by
  rw [h.buffer, List.length_drop]
  omega

/-- A reader at any offset gets the retained bytes from there on. -/
theorem KeepsEnd.read {limit : Nat} {log : Bytes} {out : BufferedConsoleOutput}
    (h : KeepsEnd limit log out) (offset : Nat) :
    out.state.replayFromChecked offset = some
      (log.drop (min (max offset out.state.retainedStart) out.state.nextOffset),
        out.state.nextOffset) := by
  have hle : out.state.retainedStart ≤ out.state.nextOffset := by
    rw [h.retainedStart, h.nextOffset]
    exact Nat.sub_le _ _
  have hrefines : out.state.Refines ⟨log, log.length - limit, Nat.sub_le _ _⟩ :=
    ⟨h.retainedStart, h.nextOffset, h.buffer⟩
  have hclamp : clamp offset out.state.retainedStart out.state.nextOffset =
      min (max offset out.state.retainedStart) out.state.nextOffset := by
    unfold clamp
    split <;> [skip; split] <;> omega
  rw [BufferedConsoleState.replayFromChecked_eq offset hle,
    BufferedConsoleState.replayFrom_clamp hrefines, hclamp, h.nextOffset]

/-- For every limit and every sequence of pushes with less than 2^64 bytes in all: no subtraction
    goes below zero, the counters and the buffer are those of the log, and reading at any offset,
    in either way, gives the retained bytes from there on. -/
theorem replay_buffer_refines (limit : Nat) (payloads : List Bytes)
    (htotal : payloads.flatten.length < 2 ^ 64) :
    let log := payloads.flatten
    let out := payloads.foldl BufferedConsoleOutput.pushData (.new limit)
    payloads.foldlM (fun st payload => st.pushChecked payload limit) .default = some out.state ∧
    out.state.nextOffset = log.length ∧
    out.state.retainedStart + out.state.buffer.length = out.state.nextOffset ∧
    out.state.buffer.length = min limit log.length ∧
    out.state.buffer = log.drop (log.length - min limit log.length) ∧
    ∀ offset,
      out.state.replayFromChecked offset = some
        (log.drop (min (max offset out.state.retainedStart) out.state.nextOffset),
          out.state.nextOffset) ∧
      out.subscribeFromChecked offset = some
        (log.drop (min (max offset out.state.retainedStart) out.state.nextOffset),
          out.state.nextOffset) := by
  intro log out
  have hempty : KeepsEnd limit [] (BufferedConsoleOutput.new limit) :=
    ⟨rfl, rfl, (Nat.zero_sub limit).symm, List.drop_nil.symm⟩
  have hfit : ([] ++ log).length ≤ u64Max := Nat.le_sub_one_of_lt htotal
  obtain ⟨hkeeps, hchecked⟩ := hempty.pushAll payloads hfit
  have hkeeps : KeepsEnd limit log out := hkeeps
  refine ⟨hchecked, hkeeps.nextOffset, ?_, hkeeps.length_buffer, ?_, fun offset => ?_⟩
  · rw [hkeeps.retainedStart, hkeeps.length_buffer, hkeeps.nextOffset]
    omega
  · have hstart : log.length - limit = log.length - min limit log.length := by omega
    rw [hkeeps.buffer, hstart]
  · rw [BufferedConsoleOutput.subscribeFromChecked_eq]
    exact ⟨hkeeps.read offset, hkeeps.read offset⟩

/-- A limit of two bytes, a payload larger than that and a small one. -/
theorem replay_buffer_refines_two :
    [[1, 2, 3], [4]].flatten.length < 2 ^ 64 ∧
    ([[1, 2, 3], [4]].foldl BufferedConsoleOutput.pushData (.new 2)).state.buffer = [3, 4] :=
  ⟨by decide, by
    obtain ⟨-, -, -, -, hbuffer, -⟩ := replay_buffer_refines 2 [[1, 2, 3], [4]] (by decide)
    exact hbuffer⟩

end FlyVault.Init
