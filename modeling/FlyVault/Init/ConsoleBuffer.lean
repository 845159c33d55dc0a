/-
  The replay buffer of a persistent console (`crates/init/src/forward.rs`,
  `BufferedConsoleState` and `BufferedConsoleOutput`).

  The buffer keeps the last `limit_bytes` bytes of everything pushed, together with two
  absolute offsets, `retained_start` and `next_offset`. Offsets are `u64` and every addition
  saturates, so the model keeps them as natural numbers and saturates at `u64Max` where the
  code does.

  `Refines b w`: the buffer `b` shows the window `w` of the whole output log. `push_refines`
  and `replayFrom_refines` say that `push` is `Window.push` and `replay_from` is
  `Window.readFrom`, as long as the log stays within `u64Max`; past that the counters
  saturate and the buffer no longer knows where it is in the log.
-/
import FlyVault.Lib.Window
import FlyVault.Protocol.Console

namespace FlyVault.Init

open FlyVault.Lib FlyVault.Protocol

/-- `u64::MAX`. -/
def u64Max : Nat := 2 ^ 64 - 1

/-- `u64::saturating_add`. -/
def satAdd (a b : Nat) : Nat := min (a + b) u64Max

/-- `Ord::clamp`. -/
def clamp (x lo hi : Nat) : Nat := if x < lo then lo else if hi < x then hi else x

/-- `DETACHED_OUTPUT_BUFFER_LIMIT_BYTES`. -/
def detachedOutputBufferLimitBytes : Nat := 1024 * 1024

/-- `BufferedConsoleState`. -/
structure BufferedConsoleState where
  retainedStart : Nat
  nextOffset : Nat
  buffer : Bytes
  deriving DecidableEq, Repr

namespace BufferedConsoleState

/-- `BufferedConsoleState::default`. -/
def default : BufferedConsoleState := ⟨0, 0, []⟩

/-- `BufferedConsoleState::push`; the returned start offset is not used by any caller. -/
def push (st : BufferedConsoleState) (payload : Bytes) (limitBytes : Nat) :
    BufferedConsoleState :=
  let nextOffset := satAdd st.nextOffset payload.length
  if limitBytes = 0 then
    { retainedStart := nextOffset, nextOffset := nextOffset, buffer := [] }
  else if limitBytes ≤ payload.length then
    let buffer := payload.drop (payload.length - limitBytes)
    { retainedStart := nextOffset - buffer.length, nextOffset := nextOffset, buffer := buffer }
  else
    let buffer := st.buffer ++ payload
    let overflow := buffer.length - limitBytes
    if 0 < overflow then
      { retainedStart := satAdd st.retainedStart overflow
        nextOffset := nextOffset
        buffer := buffer.drop overflow }
    else { st with nextOffset := nextOffset, buffer := buffer }

/-- `BufferedConsoleState::replay_from`: the bytes to send and the cursor after them. -/
def replayFrom (st : BufferedConsoleState) (renderedBytes : Nat) : Bytes × Nat :=
  let replayFrom := clamp renderedBytes st.retainedStart st.nextOffset
  let skip := replayFrom - st.retainedStart
  (st.buffer.drop skip, st.nextOffset)

/-- The buffer shows the window `w`. -/
structure Refines (st : BufferedConsoleState) (w : Window UInt8) : Prop where
  retainedStart : st.retainedStart = w.start
  nextOffset : st.nextOffset = w.log.length
  buffer : st.buffer = w.retained

theorem default_refines : Refines default Window.empty := ⟨rfl, rfl, rfl⟩

/-- Within `u64Max`, `push` is `Window.push`. -/
theorem push_refines {st : BufferedConsoleState} {w : Window UInt8} (h : Refines st w)
    (payload : Bytes) (limit : Nat) (hfit : (w.log ++ payload).length ≤ u64Max) :
    Refines (st.push payload limit) (w.push limit payload) := by
  obtain ⟨hs, hn, hb⟩ := h
  have hle := w.start_le
  have hnext : satAdd st.nextOffset payload.length = (w.log ++ payload).length := by
    rw [satAdd, hn, ← List.length_append, Nat.min_eq_left hfit]
  -- what `Window.push` retains, in terms of the buffer
  have hstart := w.push_start limit payload
  have hret := w.retained_push limit payload
  rw [← hb] at hstart hret
  have hlen : st.buffer.length = w.log.length - w.start := by rw [hb, Window.length_retained]
  simp only [List.length_append] at hstart hret hnext hfit
  unfold push
  dsimp only
  split
  · next h0 =>
      -- nothing is kept
      refine ⟨?_, ?_, ?_⟩
      · simp only [hnext, hstart]; omega
      · simp [hnext]
      · rw [hret, List.drop_eq_nil_of_le (by simp; omega)]
  · split
    · next hbig =>
        -- the payload alone fills the buffer
        refine ⟨?_, ?_, ?_⟩
        · simp only [hnext, hstart, List.length_drop]; omega
        · simp [hnext]
        · have hidx : st.buffer.length + payload.length - limit =
              st.buffer.length + (payload.length - limit) := by omega
          rw [hret, hidx, List.drop_length_add_append]
    · split
      · -- the oldest bytes are drained
        refine ⟨?_, ?_, ?_⟩
        · simp only [List.length_append, hs, hstart]
          rw [satAdd, Nat.min_eq_left (by omega)]
        · simp [hnext]
        · simp [hret]
      · next hov =>
          simp only [List.length_append] at hov
          refine ⟨?_, ?_, ?_⟩
          · simp only [hs, hstart]; omega
          · simp [hnext]
          · rw [hret, show st.buffer.length + payload.length - limit = 0 by omega]; rfl

theorem le_clamp (x : Nat) {lo hi : Nat} (h : lo ≤ hi) : lo ≤ clamp x lo hi := by
  unfold clamp
  split <;> [skip; split] <;> omega

theorem clamp_le (x : Nat) {lo hi : Nat} (h : lo ≤ hi) : clamp x lo hi ≤ hi := by
  unfold clamp
  split <;> [skip; split] <;> omega

/-- `replay_from` reads from the clamped offset to the end of the log. -/
theorem replayFrom_clamp {st : BufferedConsoleState} {w : Window UInt8} (h : Refines st w)
    (offset : Nat) :
    st.replayFrom offset =
      (w.log.drop (clamp offset st.retainedStart st.nextOffset), w.log.length) := by
  obtain ⟨hs, hn, hb⟩ := h
  have hle := le_clamp offset w.start_le
  simp only [replayFrom, hs, hn, hb, Window.retained, List.drop_drop]
  rw [Nat.add_sub_cancel' hle]

/-- On an offset of the log, `replay_from` is `Window.readFrom`, and the cursor it returns is
    the end of the log. -/
theorem replayFrom_refines {st : BufferedConsoleState} {w : Window UInt8} (h : Refines st w)
    {offset : Nat} (hoff : offset ≤ w.log.length) :
    st.replayFrom offset = (w.readFrom offset, w.log.length) := by
  have hclamp : clamp offset w.start w.log.length = max w.start offset := by
    unfold clamp
    split <;> [skip; split] <;> omega
  rw [replayFrom_clamp h, h.retainedStart, h.nextOffset, hclamp, Window.readFrom]

end BufferedConsoleState

/-- `BufferedConsoleOutput`. The watch channel is the number of `send_modify` calls made on
    it: `changed` compares versions, and nobody reads the value sent. -/
structure BufferedConsoleOutput where
  limitBytes : Nat
  state : BufferedConsoleState
  version : Nat
  deriving DecidableEq, Repr

namespace BufferedConsoleOutput

/-- `BufferedConsoleOutput::new`. -/
def new (limitBytes : Nat) : BufferedConsoleOutput := ⟨limitBytes, .default, 0⟩

/-- What `subscribe_from` reads under the lock: the replay and the cursor after it. -/
def subscribeFrom (out : BufferedConsoleOutput) (renderedBytes : Nat) : Bytes × Nat :=
  let nextOffset := out.state.nextOffset
  let replayFrom := clamp renderedBytes out.state.retainedStart nextOffset
  let skip := replayFrom - out.state.retainedStart
  (out.state.buffer.drop skip, nextOffset)

/-- The part of `push_data` done under the lock. -/
def store (out : BufferedConsoleOutput) (payload : Bytes) : BufferedConsoleOutput :=
  { out with state := out.state.push payload out.limitBytes }

/-- `notify_tx.send_modify`, as `push_data` and `push_exit` call it. -/
def notify (out : BufferedConsoleOutput) : BufferedConsoleOutput :=
  { out with version := out.version + 1 }

/-- `push_data`. -/
def pushData (out : BufferedConsoleOutput) (payload : Bytes) : BufferedConsoleOutput :=
  (out.store payload).notify

/-- `push_exit`; the code is not used. -/
def pushExit (out : BufferedConsoleOutput) : BufferedConsoleOutput := out.notify

/-- `subscribe_from` repeats the body of `replay_from`. -/
theorem subscribeFrom_eq (out : BufferedConsoleOutput) (renderedBytes : Nat) :
    out.subscribeFrom renderedBytes = out.state.replayFrom renderedBytes := rfl

end BufferedConsoleOutput

end FlyVault.Init
