/-
  The exit frame and the output in front of it.

  `stream_console_output` reads the buffer, sends what it read, and then looks at the exit
  code; in each of its three exit branches the look comes after a read made earlier. Output
  pushed between that read and the recording of the exit code is still in the buffer when the
  exit frame is written, and the stream is finished without it (`exit_before_output`).

  The condition that excludes this is `QuietWindow`: when the exit code is recorded, the task
  is not between a read and its look at the exit code with output pushed since that read.
  `exit_after_output`: in every run with this condition the exit frame comes after every byte
  pushed before the exit code was set. `exit_before_output_of_window` is the converse: once
  the condition has failed, the task's own next steps write the exit frame too early.
-/
import FlyVault.Init.ConsoleStream

namespace FlyVault.Init.ConsoleStream

open FlyVault.Lib FlyVault.Protocol

/-- The cursor of a task that looks at the exit code before it reads the buffer again. -/
def Phase.unchecked : Phase → Option Nat
  | .sendReplay _ n | .firstCheck n | .sendData _ n | .check n => some n
  | _ => none

/-- The cursor the next step reads from, after the first read. -/
def Phase.reread : Phase → Option Nat
  | .woken n | .closed n => some n
  | _ => none

/-- No read after the first one, which is clamped, is below `retained_start`. -/
def CursorKept (s : Sys) : Label → Prop
  | .stream => ∀ t ∈ s.task, ∀ n ∈ t.phase.reread, s.output.state.retainedStart ≤ n
  | _ => True

/-- When the exit code is recorded, nothing has been pushed since a read that is still to be
    followed by a look at the exit code. -/
def QuietWindow (s : Sys) : Label → Prop
  | .recordExit _ =>
      ∀ t ∈ s.task, ∀ n ∈ t.phase.unchecked, n = s.output.state.nextOffset
  | _ => True

def ExitOk (s : Sys) (a : Label) : Prop := Fits s a ∧ CursorKept s a ∧ QuietWindow s a

instance (s : Sys) : (a : Label) → Decidable (CursorKept s a)
  | .stream =>
      inferInstanceAs (Decidable
        (∀ t ∈ s.task, ∀ n ∈ t.phase.reread, s.output.state.retainedStart ≤ n))
  | .push _ | .notify | .recordExit _ | .pushExit | .dropSender | .attach _ | .takeover | .recv
  | .lose => isTrue trivial

instance (s : Sys) : (a : Label) → Decidable (QuietWindow s a)
  | .recordExit _ =>
      inferInstanceAs (Decidable
        (∀ t ∈ s.task, ∀ n ∈ t.phase.unchecked, n = s.output.state.nextOffset))
  | .push _ | .notify | .pushExit | .dropSender | .attach _ | .stream | .takeover | .recv
  | .lose => isTrue trivial

instance (s : Sys) (a : Label) : Decidable (ExitOk s a) := instDecidableAnd

/-- What has been sent, then `pending`, is the output from the attach offset to `k`. -/
def Streamed (s : Sys) (pending : Bytes) (k : Nat) : Prop :=
  Stretch s.log s.base k (s.sent ++ pending)

/-- If the exit code is set, everything pushed before that lies below `k`. -/
def Marked (s : Sys) (k : Nat) : Prop := s.exitCode.isSome = true → s.exitMark ≤ k

/-- What holds of the task in each of its phases. -/
def PhaseInv (s : Sys) : Phase → Prop
  | .subscribing _ => s.sent = []
  | .sendReplay data n | .sendData data n => Streamed s data n ∧ Marked s n
  | .firstCheck n | .check n => Streamed s [] n ∧ Marked s n
  | .waiting n | .woken n => Streamed s [] n
  | .closed n => Streamed s [] n ∧ s.senderDropped = true
  | .sendLast data => Streamed s data s.log.length ∧ s.senderDropped = true
  | .lastCheck => Streamed s [] s.log.length ∧ s.senderDropped = true
  | .writeExit code => s.exitCode = some code ∧ ∃ k, Streamed s [] k ∧ s.exitMark ≤ k
  | .ended => True

structure ExitInv (s : Sys) : Prop where
  buffered : Shows s
  mark_le : s.exitMark ≤ s.log.length
  phase : ∀ t, s.task = some t → PhaseInv s t.phase

theorem exitInv_init : ExitInv init := ⟨shows_init, Nat.le_refl _, fun t h => by cases h⟩

/-! ## One step of the task -/

/-- Sending what is pending. -/
theorem streamed_send {s : Sys} {data : Bytes} {k : Nat} (h : Streamed s data k)
    (task : Option Task) : Streamed { sendConsoleBytes s data with task := task } [] k := by
  obtain ⟨wire, he⟩ := sendConsoleBytes_eq s data
  rw [he]
  unfold Streamed at *
  rwa [List.append_nil]

theorem marked_send {s : Sys} {k : Nat} (h : Marked s k) (data : Bytes) (task : Option Task) :
    Marked { sendConsoleBytes s data with task := task } k := by
  obtain ⟨wire, he⟩ := sendConsoleBytes_eq s data
  rw [he]
  exact h

/-- A later read, at a cursor from which nothing has been evicted. -/
theorem streamed_read {s : Sys} {n : Nat} (hs : Shows s) (h : Streamed s [] n)
    (hev : s.output.state.retainedStart ≤ n) :
    s.output.state.replayFrom n = (s.log.drop n, s.log.length) ∧
      Streamed s (s.log.drop n) s.log.length := by
  unfold Streamed at *
  rw [List.append_nil] at h
  exact ⟨replayFrom_eq hs hev h.2.1, h.extend⟩

/-- After a look at the exit code the task waits again, or writes the exit frame. -/
theorem phaseInv_afterCheck {s : Sys} {n : Nat} {q : Phase} {code : Option UInt32}
    (hc : s.exitCode = code) (hst : Streamed s [] n) (hm : Marked s n) (hq : PhaseInv s q) :
    PhaseInv s (afterCheck code q) := by
  cases code with
  | none => exact hq
  | some code => exact ⟨hc, n, hst, hm (by rw [hc]; rfl)⟩

/-- A step of the task keeps what holds of it, unless it reads an evicted offset. -/
theorem phaseInv_streamStep {s s' : Sys} {t : Task} (hs : ExitInv s) (ht : PhaseInv s t.phase)
    (hev : ∀ n ∈ t.phase.reread, s.output.state.retainedStart ≤ n)
    (h : streamStep s t = some s') : ∀ t', s'.task = some t' → PhaseInv s' t'.phase := by
  obtain ⟨hbuf, hmark, -⟩ := hs
  obtain ⟨phase, seen⟩ := t
  dsimp only at ht hev
  intro t' ht'
  cases phase with
  | subscribing r =>
      obtain ⟨hread, hle⟩ := subscribeFrom_clamp hbuf r
      simp only [streamStep, hread, Option.some.injEq] at h
      subst h
      cases ht'
      have hsent : s.sent = [] := ht
      refine ⟨?_, fun _ => hmark⟩
      simp only [Streamed, hsent, List.nil_append]
      exact stretch_drop s.log hle
  | sendReplay data n =>
      cases h
      cases ht'
      exact ⟨streamed_send ht.1 _, marked_send ht.2 data _⟩
  | firstCheck n =>
      cases h
      cases ht'
      exact phaseInv_afterCheck rfl ht.1 ht.2 (q := .waiting n) ht.1
  | waiting n =>
      simp only [streamStep] at h
      split at h
      · cases h
        cases ht'
        exact ht
      · split at h
        · next hdrop =>
            cases h
            cases ht'
            exact ⟨ht, hdrop⟩
        · cases h
  | woken n =>
      obtain ⟨hread, hst⟩ := streamed_read hbuf ht (hev n rfl)
      simp only [streamStep, hread, Option.some.injEq] at h
      subst h
      cases ht'
      exact ⟨hst, fun _ => hmark⟩
  | sendData data n =>
      cases h
      cases ht'
      exact ⟨streamed_send ht.1 _, marked_send ht.2 data _⟩
  | check n =>
      cases h
      cases ht'
      exact phaseInv_afterCheck rfl ht.1 ht.2 (q := .waiting n) ht.1
  | closed n =>
      obtain ⟨hread, hst⟩ := streamed_read hbuf ht.1 (hev n rfl)
      simp only [streamStep, hread, Option.some.injEq] at h
      subst h
      cases ht'
      exact ⟨hst, ht.2⟩
  | sendLast data =>
      cases h
      cases ht'
      obtain ⟨wire, he⟩ := sendConsoleBytes_eq s data
      rw [he]
      refine ⟨?_, ht.2⟩
      have hst := ht.1
      unfold Streamed at *
      rwa [List.append_nil]
  | lastCheck =>
      cases h
      cases ht'
      exact phaseInv_afterCheck rfl ht.1 (fun _ => hmark) (q := .ended) trivial
  | writeExit code =>
      cases h
      cases ht'
      trivial
  | ended => cases h

/-! ## One step of the system -/

/-- Output pushed later does not concern the task, and none comes after the sender is gone. -/
theorem phaseInv_push {s : Sys} {p : Phase} (h : PhaseInv s p) (hdrop : s.senderDropped = false)
    (output : BufferedConsoleOutput) (payload : Bytes) :
    PhaseInv { s with output := output, unnotified := true, log := s.log ++ payload } p := by
  cases p with
  | subscribing r => exact h
  | sendReplay data n | sendData data n | firstCheck n | check n =>
      exact ⟨Stretch.append h.1 payload, h.2⟩
  | waiting n | woken n => exact Stretch.append h payload
  | closed n | sendLast data | lastCheck => rw [h.2] at hdrop; cases hdrop
  | writeExit code =>
      obtain ⟨hc, k, hk, hm⟩ := h
      exact ⟨hc, k, Stretch.append hk payload, hm⟩
  | ended => trivial

/-- Recording the exit code marks the end of the log; a task that is still to look at the
    code must have read up to there. -/
theorem phaseInv_recordExit {s : Sys} {p : Phase} (h : PhaseInv s p) (hnone : s.exitCode = none)
    (hquiet : ∀ n ∈ p.unchecked, n = s.log.length) (code : UInt32) :
    PhaseInv { s with exitCode := some code, exitMark := s.log.length } p := by
  cases p with
  | sendReplay data n | sendData data n | firstCheck n | check n =>
      exact ⟨h.1, fun _ => Nat.le_of_eq (hquiet n rfl).symm⟩
  | writeExit c => cases hnone.symm.trans h.1
  | _ => exact h

theorem phaseInv_dropSender {s : Sys} {p : Phase} (h : PhaseInv s p) :
    PhaseInv { s with senderDropped := true } p := by
  cases p with
  | closed n | sendLast data | lastCheck => exact ⟨h.1, rfl⟩
  | _ => exact h

theorem exitInv_step (s : Sys) (a : Label) (s' : Sys) (hs : ExitInv s) (hok : ExitOk s a)
    (h : step s a = some s') : ExitInv s' := by
  have hbuf' := shows_step s a s' hs.buffered hok.1 h
  obtain ⟨hbuf, hmark, hph⟩ := hs
  cases a with
  | push payload =>
      simp only [step, Option.ite_none_left_eq_some, Option.some.injEq, not_or] at h
      obtain ⟨⟨-, hdrop⟩, rfl⟩ := h
      refine ⟨hbuf', ?_, fun t ht => phaseInv_push (hph t ht) (by simpa using hdrop) _ payload⟩
      simp only [List.length_append]
      omega
  | recordExit code =>
      simp only [step, Option.ite_none_left_eq_some, Option.some.injEq] at h
      obtain ⟨hnone, rfl⟩ := h
      refine ⟨hbuf', Nat.le_refl _, fun t ht => ?_⟩
      obtain ⟨w, hlog, hw⟩ := hbuf
      refine phaseInv_recordExit (hph t ht) (by simpa using hnone) (fun n hn => ?_) code
      rw [hok.2.2 t ht n hn, hw.nextOffset, hlog]
  | attach renderedBytes =>
      simp only [step, Option.ite_none_right_eq_some, Option.some.injEq] at h
      obtain ⟨-, rfl⟩ := h
      refine ⟨hbuf', hmark, fun t ht => ?_⟩
      cases ht
      rfl
  | stream =>
      obtain ⟨t, ht, hst⟩ := Option.bind_eq_some_iff.mp h
      have hph' := phaseInv_streamStep ⟨hbuf, hmark, hph⟩ (hph t ht) (hok.2.1 t ht) hst
      obtain ⟨task, wire, sent, base, rfl⟩ := streamStep_frame hst
      exact ⟨hbuf', hmark, hph'⟩
  | takeover =>
      simp only [step] at h
      split at h
      · cases h
        refine ⟨hbuf', hmark, fun t ht => ?_⟩
        cases ht
        trivial
      · cases h
  | recv =>
      simp only [step] at h
      split at h
      · cases h
        unfold handleFrame at hbuf' ⊢
        split
        · exact ⟨hbuf, hmark, hph⟩
        · split
          · split <;> exact ⟨hbuf, hmark, hph⟩
          · exact ⟨hbuf, hmark, hph⟩
      · cases h
  | lose =>
      simp only [step, Option.ite_none_right_eq_some, Option.some.injEq] at h
      obtain ⟨-, rfl⟩ := h
      exact ⟨hbuf', hmark, fun t ht => by cases ht⟩
  | notify | pushExit =>
      simp only [step, Option.ite_none_right_eq_some, Option.some.injEq] at h
      obtain ⟨-, rfl⟩ := h
      exact ⟨hbuf', hmark, hph⟩
  | dropSender =>
      simp only [step, Option.ite_none_left_eq_some, Option.some.injEq] at h
      obtain ⟨-, rfl⟩ := h
      exact ⟨hbuf', hmark, fun t ht => phaseInv_dropSender (hph t ht)⟩

/-- In every run with `ExitOk` steps: when the task writes the exit frame, it has sent the
    output from its attach offset up to some `k`, and everything pushed before the exit code
    was set lies below `k`. -/
theorem exit_after_output (as : List Label) (s : Sys) (hrun : Run step ExitOk init as s)
    (code : UInt32) (seen : Nat) (ht : s.task = some ⟨.writeExit code, seen⟩) :
    s.exitCode = some code ∧ ∃ k, s.exitMark ≤ k ∧ Stretch s.log s.base k s.sent := by
  have hs := hrun.inv ExitInv exitInv_step exitInv_init
  obtain ⟨hcode, k, hk, hmark⟩ := hs.phase _ ht
  refine ⟨hcode, k, hmark, ?_⟩
  simpa [Streamed] using hk

/-- One byte is pushed, the exit code is set while the task waits, and the task wakes up. -/
def exitWhileWaiting : List Label :=
  [.attach 0, .stream, .stream, .stream, .push [65], .recordExit 0, .notify, .stream, .stream,
    .stream, .stream]

theorem exit_after_output_waiting :
    ∃ s, Run step ExitOk init exitWhileWaiting s ∧ s.task = some ⟨.writeExit 0, 1⟩ ∧
      s.sent = [65] ∧ s.exitCode = some 0 ∧
      ∃ k, s.exitMark ≤ k ∧ Stretch s.log s.base k s.sent :=
  ⟨_, run_of_exec rfl, rfl, rfl, exit_after_output exitWhileWaiting _ (run_of_exec rfl) 0 1 rfl⟩

/-! ## Why the window must be quiet -/

/-- The same byte, pushed between the task's first read and its first look at the exit
    code. -/
def exitInWindow : List Label :=
  [.attach 0, .stream, .push [65], .notify, .recordExit 0, .pushExit, .stream, .stream, .stream,
    .recv]

/-- The client sees the command exit and never sees its output. -/
theorem exit_before_output :
    ∃ s, Run step (fun s a => Fits s a ∧ CursorKept s a) init exitInWindow s ∧
      s.log = [65] ∧ s.exitMark = 1 ∧ s.client = .exited 0 ∧ s.sent = [] ∧ s.rendered = [] :=
  ⟨_, run_of_exec rfl, rfl, rfl, rfl, rfl, rfl⟩

theorem step_look {s : Sys} {p : Phase} {seen n : Nat} {code : UInt32}
    (ht : s.task = some ⟨p, seen⟩) (hp : p = .firstCheck n ∨ p = .check n)
    (hcode : s.exitCode = some code) :
    step s .stream = some { s with task := some ⟨.writeExit code, seen⟩ } := by
  rcases hp with rfl | rfl <;> simp [step, ht, streamStep, hcode, afterCheck]

theorem streamed_of_unchecked {s : Sys} {p : Phase} {n : Nat} (hph : PhaseInv s p)
    (hn : n ∈ p.unchecked) : Streamed s p.pending n := by
  cases p with
  | sendReplay data m | sendData data m | firstCheck m | check m => cases hn; exact hph.1
  | _ => cases hn

/-- A task that has still to look at the exit code does so without another read. -/
theorem run_to_writeExit {s : Sys} {p : Phase} {seen n : Nat} {code : UInt32}
    (ht : s.task = some ⟨p, seen⟩) (hst : Streamed s p.pending n) (hn : n ∈ p.unchecked)
    (hcode : s.exitCode = some code) :
    ∃ as s', Run step Any s as s' ∧ s'.task = some ⟨.writeExit code, seen⟩ ∧
      Stretch s'.log s'.base n s'.sent ∧ s'.exitMark = s.exitMark := by
  -- from the look on
  have hlook : ∀ s₁ : Sys, ∀ q, s₁.task = some ⟨q, seen⟩ → q = .firstCheck n ∨ q = .check n →
      s₁.exitCode = some code → Streamed s₁ [] n →
      ∃ as s', Run step Any s₁ as s' ∧ s'.task = some ⟨.writeExit code, seen⟩ ∧
        Stretch s'.log s'.base n s'.sent ∧ s'.exitMark = s₁.exitMark := by
    intro s₁ q ht₁ hq hc hst₁
    refine ⟨[.stream], _, .cons trivial (step_look ht₁ hq hc) (.nil _), rfl, ?_, rfl⟩
    simpa [Streamed] using hst₁
  -- from the sending before it on
  have hsend : ∀ data q, Streamed s data n → q = .firstCheck n ∨ q = .check n →
      step s .stream = some { sendConsoleBytes s data with task := some ⟨q, seen⟩ } →
      ∃ as s', Run step Any s as s' ∧ s'.task = some ⟨.writeExit code, seen⟩ ∧
        Stretch s'.log s'.base n s'.sent ∧ s'.exitMark = s.exitMark := by
    intro data q hst₁ hq hstep
    have hst' := streamed_send hst₁ (some ⟨q, seen⟩)
    obtain ⟨wire, he⟩ := sendConsoleBytes_eq s data
    rw [he] at hstep hst'
    obtain ⟨as, s', hrun, htask, hstr, hmark⟩ :=
      hlook { s with wire := wire, sent := s.sent ++ data, task := some ⟨q, seen⟩ } q rfl hq
        hcode hst'
    exact ⟨.stream :: as, s', .cons trivial hstep hrun, htask, hstr, hmark⟩
  cases p with
  | sendReplay data m =>
      cases hn
      exact hsend data (.firstCheck n) hst (.inl rfl) (by simp [step, ht, streamStep])
  | sendData data m =>
      cases hn
      exact hsend data (.check n) hst (.inr rfl) (by simp [step, ht, streamStep])
  | firstCheck m => cases hn; exact hlook s _ ht (.inl rfl) hcode hst
  | check m => cases hn; exact hlook s _ ht (.inr rfl) hcode hst
  | _ => cases hn

/-- The condition is exact: once the exit code is recorded in a window that is not quiet, the
    task's own next steps take it to the exit frame with output missing in front of it. -/
theorem exit_before_output_of_window {s : Sys} {p : Phase} {seen n : Nat} (hs : ExitInv s)
    (ht : s.task = some ⟨p, seen⟩) (hnone : s.exitCode = none) (hn : n ∈ p.unchecked)
    (hlt : n < s.log.length) (code : UInt32) :
    ∃ as s', Run step Any s (.recordExit code :: as) s' ∧
      s'.task = some ⟨.writeExit code, seen⟩ ∧ Stretch s'.log s'.base n s'.sent ∧
      n < s'.exitMark := by
  have hstep : step s (.recordExit code) =
      some { s with exitCode := some code, exitMark := s.log.length } := by simp [step, hnone]
  have hst : Streamed s p.pending n := streamed_of_unchecked (hs.phase _ ht) hn
  obtain ⟨as, s', hrun, htask, hstr, hmark⟩ :=
    run_to_writeExit (s := { s with exitCode := some code, exitMark := s.log.length }) ht hst hn rfl
  exact ⟨as, s', .cons trivial hstep hrun, htask, hstr, by rw [hmark]; exact hlt⟩

end FlyVault.Init.ConsoleStream
