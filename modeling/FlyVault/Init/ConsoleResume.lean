/-
  Resuming a console across reconnects.

  A client that reattaches with its count of rendered bytes continues the output exactly
  where it stopped. The three counters involved (the buffer's offsets, the streaming task's
  cursor, the client's `rendered_bytes`) are kept by different code; `Resumed` says how they
  agree, and every step that reads no evicted offset keeps it.

  The counters are `u64` and saturate. As long as the total output fits into 64 bits
  (`Fits`), `rendered_eq_take` holds in every state of every run. Past that the client's
  count stops while its output goes on, and `rendered_past_u64Max` is a run that shows it.
-/
import FlyVault.Init.ConsoleStream

namespace FlyVault.Init.ConsoleStream

open FlyVault.Lib FlyVault.Protocol

/-- The client attaches with its own count, and no offset below `retained_start` is read. -/
def ResumeOk (s : Sys) : Label → Prop
  | .attach renderedBytes => renderedBytes = s.renderedBytes
  | .stream => ∀ t ∈ s.task, NotEvicted s t.phase
  | _ => True

/-- In addition the total output stays within `u64Max`. -/
def ResumeFits (s : Sys) (a : Label) : Prop := ResumeOk s a ∧ Fits s a

instance (s : Sys) (p : Phase) : Decidable (NotEvicted s p) :=
  inferInstanceAs (Decidable (∀ n ∈ p.requested, s.output.state.retainedStart ≤ n))

instance (s : Sys) : (a : Label) → Decidable (ResumeOk s a)
  | .attach renderedBytes => inferInstanceAs (Decidable (renderedBytes = s.renderedBytes))
  | .stream => inferInstanceAs (Decidable (∀ t ∈ s.task, NotEvicted s t.phase))
  | .push _ | .notify | .recordExit _ | .pushExit | .dropSender | .takeover | .recv | .lose =>
      isTrue trivial

instance (s : Sys) (a : Label) : Decidable (ResumeFits s a) := instDecidableAnd

/-- How the counters of buffer, task and client agree. -/
structure Resumed (s : Sys) : Prop where
  buffered : Shows s
  fits : s.log.length ≤ u64Max
  counted : s.renderedBytes = s.rendered.length
  resumed : s.rendered <+: s.log
  streamed : s.client = .connected →
    ∃ t, s.task = some t ∧ Covers s.log 0 (s.rendered ++ wireData s.wire) t.phase

theorem resumed_init : Resumed init :=
  ⟨shows_init, Nat.zero_le _, rfl, List.prefix_rfl, fun h => by cases h⟩

/-- An attach from `rendered_bytes` starts at the end of what has been rendered. -/
theorem covers_attach {log rendered : Bytes} (h : rendered <+: log) :
    Covers log 0 (rendered ++ wireData []) (.subscribing rendered.length) := by
  refine ⟨rendered.length, ⟨Nat.zero_le _, h.length_le, ?_⟩, ?_⟩
  · simpa [wireData, Phase.pending] using List.prefix_iff_eq_take.mp h
  · intro n hn
    simpa [Phase.cursor] using hn.symm

theorem prefix_of_covers {log d : Bytes} {p : Phase} (h : Covers log 0 d p) : d <+: log := by
  obtain ⟨k, ⟨-, -, hd⟩, -⟩ := h
  rw [List.drop_zero] at hd
  exact (List.prefix_append d p.pending).trans (hd ▸ List.take_prefix k log)

/-- What reading one frame does to a client that has `Covers` before it. -/
theorem resumed_handleFrame {s : Sys} {frame : ConsoleFrame} {rest : List ConsoleFrame}
    (hs : Resumed s) (hconn : s.client = .connected) (hwire : s.wire = frame :: rest) :
    Resumed (handleFrame { s with wire := rest } frame) := by
  obtain ⟨hbuf, hfit, hcount, hres, hstr⟩ := hs
  obtain ⟨t, ht, hcov⟩ := hstr hconn
  rw [hwire] at hcov
  unfold handleFrame
  split
  · next hty =>
      -- the payload moves from the wire to the rendered output
      have hsplit : s.rendered ++ wireData (frame :: rest) =
          (s.rendered ++ frame.payload) ++ wireData rest := by
        simp [wireData, hty]
      rw [hsplit] at hcov
      have hpre : s.rendered ++ frame.payload <+: s.log :=
        (List.prefix_append _ _).trans (prefix_of_covers hcov)
      have hlen := hpre.length_le
      rw [List.length_append] at hlen
      refine ⟨hbuf, hfit, ?_, hpre, fun _ => ⟨t, ht, hcov⟩⟩
      simp only [satAdd, hcount, List.length_append]
      omega
  · next hty =>
      have hskip : wireData (frame :: rest) = wireData rest := by simp [wireData, hty]
      rw [hskip] at hcov
      split
      · split <;> exact ⟨hbuf, hfit, hcount, hres, fun h => by cases h⟩
      · exact ⟨hbuf, hfit, hcount, hres, fun _ => ⟨t, ht, hcov⟩⟩

/-- Every step that reads no evicted offset keeps the counters in agreement. -/
theorem resumed_step (s : Sys) (a : Label) (s' : Sys) (hs : Resumed s) (hok : ResumeFits s a)
    (h : step s a = some s') : Resumed s' := by
  have hbuf' := shows_step s a s' hs.buffered hok.2 h
  obtain ⟨hbuf, hfit, hcount, hres, hstr⟩ := hs
  cases a with
  | push payload =>
      simp only [step, Option.ite_none_left_eq_some, Option.some.injEq] at h
      obtain ⟨-, rfl⟩ := h
      refine ⟨hbuf', hok.2, hcount, hres.trans (List.prefix_append _ _), fun hconn => ?_⟩
      obtain ⟨t, ht, hcov⟩ := hstr hconn
      obtain ⟨k, hk, hcur⟩ := hcov
      exact ⟨t, ht, k, hk.append payload, hcur⟩
  | attach renderedBytes =>
      simp only [step, Option.ite_none_right_eq_some, Option.some.injEq] at h
      obtain ⟨-, rfl⟩ := h
      refine ⟨hbuf', hfit, hcount, hres, fun _ => ⟨_, rfl, ?_⟩⟩
      obtain rfl : renderedBytes = s.rendered.length := Eq.trans hok.1 hcount
      exact covers_attach hres
  | stream =>
      obtain ⟨t, ht, hst⟩ := Option.bind_eq_some_iff.mp h
      obtain ⟨task, wire, sent, base, rfl⟩ := streamStep_frame hst
      refine ⟨hbuf', hfit, hcount, hres, fun hconn => ?_⟩
      obtain ⟨t₀, ht₀, hcov⟩ := hstr hconn
      obtain rfl : t₀ = t := Option.some.inj (ht₀.symm.trans ht)
      obtain ⟨t', ht', -, hwire, hcov'⟩ := covers_streamStep hbuf (hok.1 t₀ ht₀) hcov hst
      refine ⟨t', ht', ?_⟩
      rw [List.append_assoc] at hcov'
      simpa only [hwire] using hcov'
  | takeover =>
      simp only [step] at h
      split at h
      · next n seen ht =>
          cases h
          refine ⟨hbuf', hfit, hcount, hres, fun hconn => ⟨_, rfl, ?_⟩⟩
          obtain ⟨t₀, ht₀, hcov⟩ := hstr hconn
          obtain rfl := Option.some.inj (ht₀.symm.trans ht)
          simpa [Phase.pending] using covers_send hcov (q := .ended) rfl (by simp [Phase.cursor])
      · cases h
  | recv =>
      simp only [step] at h
      split at h
      · next frame rest hconn hwire =>
          cases h
          exact resumed_handleFrame ⟨hbuf, hfit, hcount, hres, hstr⟩ hconn hwire
      · cases h
  | lose =>
      simp only [step, Option.ite_none_right_eq_some, Option.some.injEq] at h
      obtain ⟨-, rfl⟩ := h
      exact ⟨hbuf', hfit, hcount, hres, fun h => by cases h⟩
  | notify | pushExit =>
      simp only [step, Option.ite_none_right_eq_some, Option.some.injEq] at h
      obtain ⟨-, rfl⟩ := h
      exact ⟨hbuf', hfit, hcount, hres, hstr⟩
  | recordExit | dropSender =>
      simp only [step, Option.ite_none_left_eq_some, Option.some.injEq] at h
      obtain ⟨-, rfl⟩ := h
      exact ⟨hbuf', hfit, hcount, hres, hstr⟩

/-- In every run that reads no evicted offset and whose output fits into 64 bits, what the
    client has rendered over all its connections is exactly the first `rendered_bytes` bytes
    of the output. -/
theorem rendered_eq_take (as : List Label) (s : Sys) (hrun : Run step ResumeFits init as s) :
    s.rendered = s.log.take s.renderedBytes ∧ s.renderedBytes ≤ s.log.length := by
  have hs := hrun.inv Resumed resumed_step resumed_init
  rw [hs.counted]
  exact ⟨List.prefix_iff_eq_take.mp hs.resumed, hs.resumed.length_le⟩

/-- The client sees two bytes, loses the connection, misses one byte and comes back. -/
def reconnectOnce : List Label :=
  [.attach 0, .stream, .stream, .stream, .push [1, 2], .notify, .stream, .stream, .stream,
    .recv, .lose, .push [3], .notify, .attach 2, .stream, .stream, .recv]

theorem rendered_reconnectOnce :
    ∃ s, Run step ResumeFits init reconnectOnce s ∧ s.rendered = [1, 2, 3] ∧
      s.rendered = s.log.take s.renderedBytes ∧ s.renderedBytes ≤ s.log.length :=
  ⟨_, run_of_exec rfl, rfl, rendered_eq_take reconnectOnce _ (run_of_exec rfl)⟩

/-! ## Past 64 bits -/

/-- The counters after `n` bytes. -/
def counter (n : Nat) : Nat := min n u64Max

theorem satAdd_counter (n : Nat) : satAdd (counter n) 1 = counter (n + 1) := by
  unfold satAdd counter
  omega

/-- The buffer after `n` zero bytes, pushed one at a time. -/
def zeroBuffer (limit n : Nat) : BufferedConsoleState where
  retainedStart := n - limit
  nextOffset := counter n
  buffer := List.replicate (min n limit) 0

theorem push_zeroBuffer {limit n : Nat} (hl : 1 < limit) (hn : n ≤ u64Max) :
    (zeroBuffer limit n).push [0] limit = zeroBuffer limit (n + 1) := by
  have hbuf : List.replicate (min n limit) 0 ++ [0] =
      List.replicate (min n limit + 1) (0 : UInt8) := List.replicate_succ'.symm
  unfold BufferedConsoleState.push zeroBuffer
  simp only [List.length_singleton, hbuf, List.length_replicate, satAdd_counter]
  rw [if_neg (by omega), if_neg (by omega)]
  split
  · -- the buffer is full: the oldest byte goes
    have hdrop : min n limit + 1 - (min n limit + 1 - limit) = min (n + 1) limit := by omega
    have hstart : satAdd (n - limit) (min n limit + 1 - limit) = n + 1 - limit := by
      unfold satAdd
      omega
    rw [List.drop_replicate, hdrop, hstart]
  · have hstart : n - limit = n + 1 - limit := by omega
    have hlen : min n limit + 1 = min (n + 1) limit := by omega
    rw [hstart, hlen]

/-- A reader that has all but the last byte gets that byte. -/
theorem replayFrom_zeroBuffer {limit n : Nat} (hl : 1 < limit) (hn : n ≤ u64Max) :
    (zeroBuffer limit (n + 1)).replayFrom (counter n) = ([0], counter (n + 1)) := by
  have hclamp : clamp (counter n) (n + 1 - limit) (counter (n + 1)) = n := by
    unfold clamp counter
    rw [if_neg (by omega), if_neg (by omega)]
    omega
  have hlen : min (n + 1) limit - (n - (n + 1 - limit)) = 1 := by omega
  simp only [BufferedConsoleState.replayFrom, zeroBuffer, hclamp, List.drop_replicate, hlen]
  rfl

/-- An attached client that has rendered `n` zero bytes, all there are. -/
def caughtUp (limit n : Nat) : Sys :=
  { init with
    output := ⟨limit, zeroBuffer limit n, n⟩
    task := some ⟨.waiting (counter n), n⟩
    client := .connected
    renderedBytes := counter n
    log := List.replicate n 0
    rendered := List.replicate n 0
    sent := List.replicate n 0 }

/-- One byte is pushed, streamed and rendered. -/
def oneByte : List Label := [.push [0], .notify, .stream, .stream, .stream, .stream, .recv]

/-- On the way there: the byte is in the buffer, and the streaming task is in `phase`. -/
def delivering (limit n : Nat) (phase : Phase) : Sys :=
  { caughtUp limit n with
    output := ⟨limit, zeroBuffer limit (n + 1), n + 1⟩
    task := some ⟨phase, n + 1⟩
    log := List.replicate n 0 ++ [0] }

/-- The pushed byte wakes the streaming task. -/
theorem run_wake {limit n : Nat} (hl : 1 < limit) (hn : n ≤ u64Max) :
    Run step ResumeOk (caughtUp limit n) [.push [0], .notify, .stream]
      (delivering limit n (.woken (counter n))) := by
  have hseen : n ≠ n + 1 := by omega
  have hpush : step (caughtUp limit n) (.push [0]) = some { caughtUp limit n with
      output := ⟨limit, zeroBuffer limit (n + 1), n⟩
      unnotified := true
      log := List.replicate n 0 ++ [0] } := by
    rw [← push_zeroBuffer hl hn]
    rfl
  refine .cons trivial hpush (.cons trivial rfl (.cons ?_ (if_pos hseen) (.nil _)))
  rintro t ⟨⟩ k ⟨⟩

/-- The woken task sends the byte and waits again. -/
theorem run_send {limit n : Nat} (hl : 1 < limit) (hn : n ≤ u64Max) :
    Run step ResumeOk (delivering limit n (.woken (counter n))) [.stream, .stream, .stream]
      { delivering limit n (.waiting (counter (n + 1))) with
        wire := [⟨consoleData, [0]⟩]
        sent := List.replicate n 0 ++ [0] } := by
  have hret : n + 1 - limit ≤ counter n := by
    unfold counter
    omega
  have hread : step (delivering limit n (.woken (counter n))) .stream =
      some (delivering limit n (.sendData [0] (counter (n + 1)))) := by
    have heq := replayFrom_zeroBuffer hl hn
    show some { delivering limit n (.woken (counter n)) with
      task := some ⟨.sendData ((zeroBuffer limit (n + 1)).replayFrom (counter n)).1
        ((zeroBuffer limit (n + 1)).replayFrom (counter n)).2, n + 1⟩ } = _
    rw [heq]
    rfl
  refine .cons ?_ hread (.cons ?_ rfl (.cons ?_ rfl (.nil _)))
  · rintro t ⟨⟩ k ⟨⟩
    exact hret
  · rintro t ⟨⟩ k ⟨⟩
  · rintro t ⟨⟩ k ⟨⟩

theorem run_oneByte {limit n : Nat} (hl : 1 < limit) (hn : n ≤ u64Max) :
    Run step ResumeOk (caughtUp limit n) oneByte (caughtUp limit (n + 1)) := by
  have hrecv : step { delivering limit n (.waiting (counter (n + 1))) with
      wire := [⟨consoleData, [0]⟩]
      sent := List.replicate n 0 ++ [0] } .recv = some (caughtUp limit (n + 1)) := by
    have hrep : List.replicate (n + 1) (0 : UInt8) = List.replicate n 0 ++ [0] :=
      List.replicate_succ'
    unfold caughtUp
    rw [hrep, ← satAdd_counter]
    rfl
  exact (run_wake hl hn).append ((run_send hl hn).append (.cons trivial hrecv (.nil _)))

theorem run_caughtUp (n : Nat) (hn : n ≤ u64Max + 1) :
    ∃ as, Run step ResumeOk init as (caughtUp detachedOutputBufferLimitBytes n) := by
  induction n with
  | zero => exact ⟨[.attach 0, .stream, .stream, .stream], run_of_exec rfl⟩
  | succ n ih =>
      obtain ⟨as, has⟩ := ih (by omega)
      exact ⟨as ++ oneByte, has.append (run_oneByte (by decide) (by omega))⟩

/-- After 2^64 bytes, each rendered as it came, the client's count is one short of what it
    has rendered. -/
theorem rendered_past_u64Max :
    ∃ as s, Run step ResumeOk init as s ∧ s.rendered = s.log ∧
      s.rendered.length = 2 ^ 64 ∧ s.renderedBytes = 2 ^ 64 - 1 ∧
      s.rendered ≠ s.log.take s.renderedBytes := by
  obtain ⟨as, has⟩ := run_caughtUp (u64Max + 1) (Nat.le_refl _)
  have hlen : (List.replicate (u64Max + 1) (0 : UInt8)).length = 2 ^ 64 := List.length_replicate
  have hcount : counter (u64Max + 1) = 2 ^ 64 - 1 := by decide
  refine ⟨as, _, has, rfl, hlen, hcount, fun heq => ?_⟩
  have hle := List.length_take_le (counter (u64Max + 1)) (List.replicate (u64Max + 1) (0 : UInt8))
  have heq' : List.replicate (u64Max + 1) (0 : UInt8) =
      (List.replicate (u64Max + 1) 0).take (counter (u64Max + 1)) := heq
  rw [← heq', hlen, hcount] at hle
  omega

end FlyVault.Init.ConsoleStream
