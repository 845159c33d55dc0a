/-
  The output side of a persistent console: the child, its PTY, and the two tasks
  `run_persistent_console_output` and `wait_for_persistent_console_exit`
  (`crates/init/src/forward.rs`).

  The PTY is a byte queue that the child fills until it exits. The output task moves bytes
  from the queue to `push_data`, at most 8192 at a time, until it sees end of file or the
  shared shutdown token. The waiter records the exit code and the exit time, wakes the
  streaming tasks and cancels the token. The label of a step says which task moves and
  resolves its choices, `select!` included.

  `written` and `pushed` are ghosts: everything the child has written, and everything handed
  to `push_data`.

  What is proved:
  * conserved_step: no byte is duplicated or reordered between the two ends;
  * output_complete_iff: the output task ends with every byte pushed exactly when it never
    leaves through the token while the queue still holds bytes. `select!` does not
    prefer the read, so the source does not ensure this.
-/
import FlyVault.Lib.Run
import FlyVault.Init.ConsoleBuffer

namespace FlyVault.Init.PtyOutput

open FlyVault.Lib FlyVault.Protocol

/-- The size of the output task's read buffer. -/
def readBufferBytes : Nat := 8192

/-- What `child.wait()` returned: an error, or the status, which has no code when a signal
    ended the child. -/
inductive WaitResult
  | status (code : Option Int32)
  | failed
  deriving DecidableEq, Repr

/-- The code `wait_for_persistent_console_exit` reports for it. -/
def WaitResult.exitCode : WaitResult → UInt32
  | .status code => (code.getD 255).toUInt32
  | .failed => 255

/-- `wait_for_persistent_console_exit`, between its statements. -/
inductive Waiter
  | waiting
  | reaped (code : UInt32)
  | recorded (code : UInt32)
  | stamped (code : UInt32)
  | notified
  | done
  deriving DecidableEq, Repr

/-- `run_persistent_console_output`: at its `select!`, holding what a read returned, ended. -/
inductive Reader
  | selecting
  | pushing (data : Bytes)
  | done
  deriving DecidableEq, Repr

/-- The child, its PTY and the tasks that serve it. -/
structure Sys where
  queue : Bytes
  childExited : Bool
  output : BufferedConsoleOutput
  shutdown : Bool
  exitCode : Option UInt32
  exitedAt : Option Nat
  reader : Reader
  waiter : Waiter
  written : Bytes
  pushed : Bytes
  deriving DecidableEq, Repr

/-- The state `spawn_persistent_console` leaves behind. -/
def init : Sys where
  queue := []
  childExited := false
  output := .new detachedOutputBufferLimitBytes
  shutdown := false
  exitCode := none
  exitedAt := none
  reader := .selecting
  waiter := .waiting
  written := []
  pushed := []

inductive Label
  /-- The child writes. -/
  | write (data : Bytes)
  /-- The child exits, and with it the last writer. -/
  | exit
  /-- `pty_read` returns `n` bytes. -/
  | read (n : Nat)
  /-- The bytes read are pushed. -/
  | push
  /-- `pty_read` returns 0: nothing is queued and no writer is left (`EIO`). -/
  | eof
  /-- `pty_read` fails otherwise. -/
  | readError
  /-- The output task's `select!` takes the token. -/
  | cancelled
  /-- `child.wait()` returns. -/
  | wait (result : WaitResult)
  | recordExit
  | stampExit (now : Nat)
  | pushExit
  | cancel
  /-- `run_persistent_console_input` fails to write and cancels the token. -/
  | inputError
  deriving DecidableEq, Repr

/-- One step of one task. -/
def step (s : Sys) : Label → Option Sys
  | .write data =>
      if s.childExited then none
      else some { s with queue := s.queue ++ data, written := s.written ++ data }
  | .exit => if s.childExited then none else some { s with childExited := true }
  | .read n =>
      if s.reader = .selecting ∧ 0 < n ∧ n ≤ readBufferBytes ∧ n ≤ s.queue.length then
        some { s with queue := s.queue.drop n, reader := .pushing (s.queue.take n) }
      else none
  | .push =>
      match s.reader with
      | .pushing data =>
          some { s with
            output := s.output.pushData data
            reader := .selecting
            pushed := s.pushed ++ data }
      | _ => none
  | .eof =>
      if s.reader = .selecting ∧ s.queue = [] ∧ s.childExited then
        some { s with reader := .done }
      else none
  | .readError => if s.reader = .selecting then some { s with reader := .done } else none
  | .cancelled =>
      if s.reader = .selecting ∧ s.shutdown then some { s with reader := .done } else none
  | .wait result =>
      -- `waitpid` fails only for a child that has been reaped elsewhere, so it has exited too
      if s.waiter = .waiting ∧ s.childExited then
        some { s with waiter := .reaped result.exitCode }
      else none
  | .recordExit =>
      match s.waiter with
      | .reaped code => some { s with exitCode := some code, waiter := .recorded code }
      | _ => none
  | .stampExit now =>
      match s.waiter with
      | .recorded code => some { s with exitedAt := some now, waiter := .stamped code }
      | _ => none
  | .pushExit =>
      match s.waiter with
      | .stamped _ => some { s with output := s.output.pushExit, waiter := .notified }
      | _ => none
  | .cancel =>
      if s.waiter = .notified then some { s with shutdown := true, waiter := .done } else none
  | .inputError => some { s with shutdown := true }

/-- No read fails other than by end of file, and no input write fails. -/
def NoIoError (_ : Sys) (a : Label) : Prop := a ≠ .readError ∧ a ≠ .inputError

/-- The output task leaves through the token only when nothing is queued. -/
def DrainedFirst (s : Sys) (a : Label) : Prop :=
  NoIoError s a ∧ (a = .cancelled → s.queue = [])

instance (s : Sys) (a : Label) : Decidable (NoIoError s a) := instDecidableAnd

instance (s : Sys) (a : Label) : Decidable (DrainedFirst s a) := instDecidableAnd

/-! ## Every byte is in one place -/

/-- What the output task has read and not pushed yet. -/
def Reader.inHand : Reader → Bytes
  | .pushing data => data
  | _ => []

/-- Pushed, in hand and queued bytes make up what the child wrote, in order. -/
def Conserved (s : Sys) : Prop := s.pushed ++ s.reader.inHand ++ s.queue = s.written

theorem Conserved.done {s : Sys} (hc : Conserved s) (hr : s.reader = .selecting) :
    Conserved { s with reader := .done } := by
  unfold Conserved at *
  rw [hr] at hc
  exact hc

theorem conserved_step (s : Sys) (a : Label) (s' : Sys) (hc : Conserved s)
    (h : step s a = some s') : Conserved s' := by
  unfold step at h
  cases a with
  | read n =>
      simp only [Option.ite_none_right_eq_some, Option.some.injEq] at h
      obtain ⟨⟨hr, -⟩, rfl⟩ := h
      unfold Conserved at *
      rw [hr] at hc
      simpa [Reader.inHand] using hc
  | push =>
      dsimp only at h
      split at h
      · next data hr =>
          obtain rfl := Option.some.inj h
          unfold Conserved at *
          rw [hr] at hc
          simpa [Reader.inHand] using hc
      · cases h
  | write data =>
      simp only [Option.ite_none_left_eq_some, Option.some.injEq] at h
      obtain ⟨-, rfl⟩ := h
      unfold Conserved at *
      simp [← hc]
  | eof =>
      simp only [Option.ite_none_right_eq_some, Option.some.injEq] at h
      obtain ⟨⟨hr, -⟩, rfl⟩ := h
      exact hc.done hr
  | readError =>
      simp only [Option.ite_none_right_eq_some, Option.some.injEq] at h
      obtain ⟨hr, rfl⟩ := h
      exact hc.done hr
  | cancelled =>
      simp only [Option.ite_none_right_eq_some, Option.some.injEq] at h
      obtain ⟨⟨hr, -⟩, rfl⟩ := h
      exact hc.done hr
  | inputError =>
      obtain rfl := Option.some.inj h
      exact hc
  | _ =>
      -- the waiter and the child's exit touch none of the bytes
      dsimp only at h
      split at h
      all_goals cases h
      exact hc

/-- While no I/O fails, only the waiter cancels the token, after the child has exited. -/
def CancelledAfterExit (s : Sys) : Prop :=
  s.waiter ≠ .waiting ∨ s.shutdown = true → s.childExited = true

theorem cancelledAfterExit_step (s : Sys) (a : Label) (s' : Sys) (hc : CancelledAfterExit s)
    (hok : NoIoError s a) (h : step s a = some s') : CancelledAfterExit s' := by
  unfold CancelledAfterExit at *
  unfold step at h
  cases a with
  | exit =>
      simp only [Option.ite_none_left_eq_some, Option.some.injEq] at h
      obtain ⟨-, rfl⟩ := h
      exact fun _ => rfl
  | wait result =>
      simp only [Option.ite_none_right_eq_some, Option.some.injEq] at h
      obtain ⟨⟨-, hexit⟩, rfl⟩ := h
      exact fun _ => hexit
  | inputError => exact absurd rfl hok.2
  | write data =>
      simp only [Option.ite_none_left_eq_some, Option.some.injEq] at h
      obtain ⟨-, rfl⟩ := h
      exact hc
  | recordExit | stampExit | pushExit | cancel =>
      -- the waiter has left `waiting` behind
      dsimp only at h
      split at h
      · next hw =>
          cases h
          exact fun _ => hc (.inl (by rw [hw]; simp))
      · cases h
  | read | push | eof | readError | cancelled =>
      dsimp only at h
      split at h
      all_goals cases h
      exact hc

/-- An output task that has left bytes in the queue leaves them there for good. -/
theorem abandoned_step (s : Sys) (a : Label) (s' : Sys) (hs : s.reader = .done ∧ s.queue ≠ [])
    (h : step s a = some s') : s'.reader = .done ∧ s'.queue ≠ [] := by
  unfold step at h
  cases a with
  | read | push | eof | readError | cancelled => simp [hs.1] at h
  | write data =>
      simp only [Option.ite_none_left_eq_some, Option.some.injEq] at h
      obtain ⟨-, rfl⟩ := h
      exact ⟨hs.1, fun hnil => hs.2 (List.append_eq_nil_iff.mp hnil).1⟩
  | inputError =>
      obtain rfl := Option.some.inj h
      exact hs
  | _ =>
      dsimp only at h
      split at h
      all_goals cases h
      exact hs

theorem abandoned_run {s t : Sys} {as : List Label} {ok : Sys → Label → Prop}
    (hrun : Run step ok s as t) (hs : s.reader = .done ∧ s.queue ≠ []) : t.queue ≠ [] :=
  (hrun.inv (fun s => s.reader = .done ∧ s.queue ≠ [])
    (fun s a s' hi _ h => abandoned_step s a s' hi h) hs).2

/-! ## When the output task has ended -/

/-- What a run that drains first keeps: an output task that has ended has left nothing behind,
    and nothing more can come. -/
def EndedDrained (s : Sys) : Prop :=
  CancelledAfterExit s ∧ (s.reader = .done → s.queue = [] ∧ s.childExited = true)

theorem endedDrained_step (s : Sys) (a : Label) (s' : Sys) (hi : EndedDrained s)
    (hok : DrainedFirst s a) (h : step s a = some s') : EndedDrained s' := by
  obtain ⟨hc, hd⟩ := hi
  refine ⟨cancelledAfterExit_step s a s' hc hok.1 h, ?_⟩
  unfold step at h
  cases a with
  | write data =>
      simp only [Option.ite_none_left_eq_some, Option.some.injEq] at h
      obtain ⟨hexit, rfl⟩ := h
      exact fun hr => absurd (hd hr).2 hexit
  | exit =>
      simp only [Option.ite_none_left_eq_some, Option.some.injEq] at h
      obtain ⟨-, rfl⟩ := h
      exact fun hr => ⟨(hd hr).1, rfl⟩
  | read n =>
      simp only [Option.ite_none_right_eq_some, Option.some.injEq] at h
      obtain ⟨-, rfl⟩ := h
      exact fun hr => (by cases hr)
  | push =>
      dsimp only at h
      split at h
      all_goals cases h
      exact fun hr => (by cases hr)
  | eof =>
      simp only [Option.ite_none_right_eq_some, Option.some.injEq] at h
      obtain ⟨⟨-, hq, hexit⟩, rfl⟩ := h
      exact fun _ => ⟨hq, hexit⟩
  | cancelled =>
      simp only [Option.ite_none_right_eq_some, Option.some.injEq] at h
      obtain ⟨⟨-, hshut⟩, rfl⟩ := h
      exact fun _ => ⟨hok.2 rfl, hc (.inr hshut)⟩
  | readError => exact absurd rfl hok.1.1
  | inputError => exact absurd rfl hok.1.2
  | _ =>
      dsimp only at h
      split at h
      all_goals cases h
      exact hd

theorem endedDrained_run {as : List Label} {s : Sys} (hrun : Run step DrainedFirst init as s) :
    EndedDrained s :=
  hrun.inv EndedDrained endedDrained_step ⟨by simp [CancelledAfterExit, init], by simp [init]⟩

theorem conserved_run {as : List Label} {s : Sys} {ok : Sys → Label → Prop}
    (hrun : Run step ok init as s) : Conserved s :=
  hrun.inv Conserved (fun s a s' hc _ h => conserved_step s a s' hc h) rfl

/-- A run that ends with an empty queue has never abandoned one. -/
theorem drainedFirst_of_queue_nil {s t : Sys} {as : List Label}
    (hrun : Run step NoIoError s as t) (ht : t.queue = []) : Run step DrainedFirst s as t := by
  induction hrun with
  | nil s => exact .nil s
  | @cons s s' t a as hok hst hrun ih =>
      refine .cons ⟨hok, ?_⟩ hst (ih ht)
      rintro rfl
      by_contra hq
      have hs' : s'.reader = .done ∧ s'.queue ≠ [] := by
        simp only [step, Option.ite_none_right_eq_some, Option.some.injEq] at hst
        obtain ⟨-, rfl⟩ := hst
        exact ⟨rfl, hq⟩
      exact abandoned_run hrun hs' ht

/-- When the output task has ended, everything the child wrote has been pushed if and only if
    the task never took the token with bytes still queued. -/
theorem output_complete_iff (as : List Label) (s : Sys) (hrun : Run step NoIoError init as s)
    (hdone : s.reader = .done) : s.pushed = s.written ↔ Run step DrainedFirst init as s := by
  have hcons : s.pushed ++ s.queue = s.written := by
    have := conserved_run hrun
    simpa [Conserved, hdone, Reader.inHand] using this
  constructor
  · intro hall
    refine drainedFirst_of_queue_nil hrun ?_
    rw [← hcons] at hall
    exact List.self_eq_append_right.mp hall
  · intro hdr
    obtain ⟨hq, -⟩ := (endedDrained_run hdr).2 hdone
    rw [← hcons, hq, List.append_nil]

/-- The child writes one byte and exits, and the waiter runs to its end. -/
def shortChild : List Label :=
  [.write [65], .exit, .wait (.status (some 0)), .recordExit, .stampExit 0, .pushExit, .cancel]

/-- A child that the output task reads to the end of file: nothing is lost. -/
theorem output_complete_short_child :
    ∃ s, Run step NoIoError init (shortChild ++ [.read 1, .push, .eof]) s ∧
      s.reader = .done ∧ s.written = [65] ∧ s.pushed = s.written := by
  refine ⟨_, run_of_exec rfl, rfl, rfl, ?_⟩
  exact (output_complete_iff (shortChild ++ [.read 1, .push, .eof]) _ (run_of_exec rfl)
    rfl).mpr (run_of_exec rfl)

/-- The same child, with the output task woken by the token first: its last byte is lost. -/
theorem output_lost_at_exit :
    ∃ s, Run step NoIoError init (shortChild ++ [.cancelled]) s ∧ s.reader = .done ∧
      s.childExited = true ∧ s.written = [65] ∧ s.pushed = [] :=
  ⟨_, run_of_exec rfl, rfl, rfl, rfl, rfl⟩

end FlyVault.Init.PtyOutput
