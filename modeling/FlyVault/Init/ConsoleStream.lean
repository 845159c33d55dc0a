/-
  One persistent console and one client that reconnects: the buffered output, the task
  `stream_console_output` of the client's current attachment (`crates/init/src/forward.rs`),
  and the receive loop of `run_session` (`crates/client/src/console.rs`).

  A step is one atomic action of one party. `push_data` is two steps (the buffer under its
  lock, then the notification), the recording of the exit code and `push_exit` are two, and
  the streaming task is cut at every await and at every lock: `subscribe_from` takes its
  receiver before it reads the buffer, and the replay it read, the sending of it and the look
  at the exit code are separate steps. The wire holds the frames written and not yet read;
  a loss drops them, also the one cut in the middle, which `ConsoleFrame::read_from` never
  returns.

  A task whose connection is lost runs on until its next write fails. It only reads the
  buffer and nobody receives its frames, so it is dropped together with its connection.
  The branch for a dropped sender is kept as the source has it, although an attachment owns
  the output it streams.

  `log`, `rendered`, `sent`, `base` and `exitMark` are ghosts: everything pushed, everything the
  client has rendered, what the current attachment has sent and from which offset, and the
  length of the log when the exit code was set.

  What is proved here is what later modules need of a single step: `shows_step`, the buffer
  shows the log; `streamStep_frame`, what a streaming step leaves alone; and
  `covers_streamStep`, that sent and pending bytes stay one gapless stretch of the log.
-/
import FlyVault.Lib.Run
import FlyVault.Init.ConsoleBuffer

namespace FlyVault.Init.ConsoleStream

open FlyVault.Lib FlyVault.Protocol

/-- `stream_console_output` between two of its steps; `next` is its `next_offset`. -/
inductive Phase
  /-- Inside `subscribe_from`: subscribed to the watch channel, the buffer not read yet. -/
  | subscribing (renderedBytes : Nat)
  | sendReplay (replay : Bytes) (next : Nat)
  | firstCheck (next : Nat)
  /-- At `notify_rx.changed()`. -/
  | waiting (next : Nat)
  | woken (next : Nat)
  | sendData (data : Bytes) (next : Nat)
  | check (next : Nat)
  /-- `changed` has failed: the sender is gone. -/
  | closed (next : Nat)
  | sendLast (replay : Bytes)
  | lastCheck
  | writeExit (code : UInt32)
  | ended
  deriving DecidableEq, Repr

/-- The streaming task: where it is, and the last version its receiver has seen. -/
structure Task where
  phase : Phase
  seen : Nat
  deriving DecidableEq, Repr

/-- The client: `run_session` between two connections, in one, or ended. -/
inductive Client
  | disconnected
  | connected
  | exited (code : UInt32)
  | failed
  deriving DecidableEq, Repr

structure Sys where
  output : BufferedConsoleOutput
  /-- A `push_data` has changed the buffer and not notified yet. -/
  unnotified : Bool
  senderDropped : Bool
  exitCode : Option UInt32
  exitPushed : Bool
  task : Option Task
  wire : List ConsoleFrame
  client : Client
  renderedBytes : Nat
  log : Bytes
  rendered : Bytes
  sent : Bytes
  base : Nat
  exitMark : Nat
  deriving DecidableEq, Repr

/-- A fresh session and a client that has rendered nothing. -/
def init : Sys where
  output := .new detachedOutputBufferLimitBytes
  unnotified := false
  senderDropped := false
  exitCode := none
  exitPushed := false
  task := none
  wire := []
  client := .disconnected
  renderedBytes := 0
  log := []
  rendered := []
  sent := []
  base := 0
  exitMark := 0

inductive Label
  /-- `push_data`, under the lock. -/
  | push (payload : Bytes)
  /-- `push_data`, the notification. -/
  | notify
  /-- `wait_for_persistent_console_exit` sets the exit code. -/
  | recordExit (code : UInt32)
  | pushExit
  /-- The last owner of the output goes away. -/
  | dropSender
  /-- The client connects and attaches from `renderedBytes`. -/
  | attach (renderedBytes : Nat)
  /-- The streaming task takes its next step. -/
  | stream
  /-- The streaming task's `select!` takes the takeover token. -/
  | takeover
  /-- The client reads the next frame. -/
  | recv
  /-- The connection is lost. -/
  | lose
  deriving DecidableEq, Repr

/-- What a console does by itself, whoever is attached. -/
inductive Output
  | push (payload : Bytes)
  | notify
  | recordExit (code : UInt32)
  | pushExit
  deriving DecidableEq, Repr

def Output.label : Output → Label
  | .push payload => .push payload
  | .notify => .notify
  | .recordExit code => .recordExit code
  | .pushExit => .pushExit

/-- `send_console_bytes`: empty payloads are not sent. -/
def sendConsoleBytes (s : Sys) (payload : Bytes) : Sys :=
  if payload.isEmpty then s
  else { s with wire := s.wire ++ [⟨consoleData, payload⟩], sent := s.sent ++ payload }

/-- `write_exit_frame`. -/
def writeExitFrame (s : Sys) (code : UInt32) : Sys :=
  { s with wire := s.wire ++ [⟨consoleExit, encodeExit code⟩] }

/-- What the task does after looking at the exit code. -/
def afterCheck (exitCode : Option UInt32) (otherwise : Phase) : Phase :=
  match exitCode with
  | some code => .writeExit code
  | none => otherwise

/-- One step of `stream_console_output`. -/
def streamStep (s : Sys) (t : Task) : Option Sys :=
  match t.phase with
  | .subscribing renderedBytes =>
      let (replay, next) := s.output.subscribeFrom renderedBytes
      some { s with
        task := some { t with phase := .sendReplay replay next }
        base := clamp renderedBytes s.output.state.retainedStart s.output.state.nextOffset }
  | .sendReplay replay next =>
      some { sendConsoleBytes s replay with task := some { t with phase := .firstCheck next } }
  | .firstCheck next =>
      some { s with task := some { t with phase := afterCheck s.exitCode (.waiting next) } }
  | .waiting next =>
      if t.seen ≠ s.output.version then
        some { s with task := some ⟨.woken next, s.output.version⟩ }
      else if s.senderDropped then
        some { s with task := some { t with phase := .closed next } }
      else none
  | .woken next =>
      let (data, new) := s.output.state.replayFrom next
      some { s with task := some { t with phase := .sendData data new } }
  | .sendData data new =>
      some { sendConsoleBytes s data with task := some { t with phase := .check new } }
  | .check next =>
      some { s with task := some { t with phase := afterCheck s.exitCode (.waiting next) } }
  | .closed next =>
      let (replay, _) := s.output.state.replayFrom next
      some { s with task := some { t with phase := .sendLast replay } }
  | .sendLast replay =>
      some { sendConsoleBytes s replay with task := some { t with phase := .lastCheck } }
  | .lastCheck =>
      some { s with task := some { t with phase := afterCheck s.exitCode .ended } }
  | .writeExit code =>
      some { writeExitFrame s code with task := some { t with phase := .ended } }
  | .ended => none

/-- `run_session` on one frame. -/
def handleFrame (s : Sys) (frame : ConsoleFrame) : Sys :=
  if frame.ty = consoleData then
    { s with
      renderedBytes := satAdd s.renderedBytes frame.payload.length
      rendered := s.rendered ++ frame.payload }
  else if frame.ty = consoleExit then
    match decodeExit frame.payload with
    | .ok code => { s with client := .exited code }
    | .error _ => { s with client := .failed }
  else s

/-- One step of one party. -/
def step (s : Sys) : Label → Option Sys
  | .push payload =>
      if s.unnotified ∨ s.senderDropped then none
      else some { s with
        output := s.output.store payload
        unnotified := true
        log := s.log ++ payload }
  | .notify =>
      if s.unnotified then some { s with output := s.output.notify, unnotified := false }
      else none
  | .recordExit code =>
      if s.exitCode.isSome then none
      else some { s with exitCode := some code, exitMark := s.log.length }
  | .pushExit =>
      if s.exitCode.isSome ∧ ¬ s.exitPushed ∧ ¬ s.senderDropped then
        some { s with output := s.output.pushExit, exitPushed := true }
      else none
  | .dropSender =>
      if s.unnotified ∨ s.senderDropped then none else some { s with senderDropped := true }
  | .attach renderedBytes =>
      if s.client = .disconnected ∧ ¬ s.senderDropped then
        some { s with
          client := .connected
          task := some ⟨.subscribing renderedBytes, s.output.version⟩
          wire := []
          sent := []
          base := renderedBytes }
      else none
  | .stream => s.task.bind (streamStep s)
  | .takeover =>
      match s.task with
      | some ⟨.waiting _, seen⟩ => some { s with task := some ⟨.ended, seen⟩ }
      | _ => none
  | .recv =>
      match s.client, s.wire with
      | .connected, frame :: rest => some (handleFrame { s with wire := rest } frame)
      | _, _ => none
  | .lose =>
      if s.client = .connected then
        some { s with client := .disconnected, task := none, wire := [] }
      else none

/-! ## The buffer shows the log -/

/-- The buffer shows a window of everything pushed. -/
def Shows (s : Sys) : Prop :=
  ∃ w : Window UInt8, w.log = s.log ∧ BufferedConsoleState.Refines s.output.state w

/-- The total output stays within `u64Max`. -/
def Fits (s : Sys) : Label → Prop
  | .push payload => (s.log ++ payload).length ≤ u64Max
  | _ => True

instance (s : Sys) : (a : Label) → Decidable (Fits s a)
  | .push payload => inferInstanceAs (Decidable ((s.log ++ payload).length ≤ u64Max))
  | .notify | .recordExit _ | .pushExit | .dropSender | .attach _ | .stream | .takeover | .recv
  | .lose => isTrue trivial

theorem sendConsoleBytes_eq (s : Sys) (payload : Bytes) :
    ∃ wire, sendConsoleBytes s payload = { s with wire := wire, sent := s.sent ++ payload } := by
  unfold sendConsoleBytes
  split
  · next he => exact ⟨s.wire, by rw [List.isEmpty_iff.mp he, List.append_nil]⟩
  · exact ⟨_, rfl⟩

/-- A streaming step touches nothing but its own task, what it has sent and the wire. -/
theorem streamStep_frame {s s' : Sys} {t : Task} (h : streamStep s t = some s') :
    ∃ task wire sent base, s' = { s with task, wire, sent, base } := by
  unfold streamStep at h
  split at h
  case h_2 replay next _ =>
    obtain ⟨wire, he⟩ := sendConsoleBytes_eq s replay
    cases h
    exact ⟨_, _, _, _, by rw [he]⟩
  case h_4 =>
    split at h
    · cases h; exact ⟨_, _, _, _, rfl⟩
    · split at h
      · cases h; exact ⟨_, _, _, _, rfl⟩
      · cases h
  case h_6 data new _ =>
    obtain ⟨wire, he⟩ := sendConsoleBytes_eq s data
    cases h
    exact ⟨_, _, _, _, by rw [he]⟩
  case h_9 replay _ =>
    obtain ⟨wire, he⟩ := sendConsoleBytes_eq s replay
    cases h
    exact ⟨_, _, _, _, by rw [he]⟩
  case h_12 => cases h
  all_goals (cases h; exact ⟨_, _, _, _, rfl⟩)

/-- Reading a frame touches nothing but the client. -/
theorem handleFrame_frame (s : Sys) (frame : ConsoleFrame) :
    ∃ renderedBytes rendered client,
      handleFrame s frame = { s with renderedBytes, rendered, client } := by
  unfold handleFrame
  split
  · exact ⟨_, _, _, rfl⟩
  · split
    · split <;> exact ⟨_, _, _, rfl⟩
    · exact ⟨_, _, _, rfl⟩

theorem recv_frame {s s' : Sys} (h : step s .recv = some s') :
    ∃ wire renderedBytes rendered client,
      s' = { s with wire, renderedBytes, rendered, client } := by
  simp only [step] at h
  split at h
  · next frame rest _ _ =>
      cases h
      obtain ⟨_, _, _, he⟩ := handleFrame_frame { s with wire := rest } frame
      rw [he]
      exact ⟨_, _, _, _, rfl⟩
  · cases h

theorem shows_init : Shows init := ⟨Window.empty, rfl, BufferedConsoleState.default_refines⟩

/-- While the output fits, every step keeps the buffer a window of the log. -/
theorem shows_step (s : Sys) (a : Label) (s' : Sys) (hs : Shows s) (hfit : Fits s a)
    (h : step s a = some s') : Shows s' := by
  obtain ⟨w, hlog, hw⟩ := hs
  cases a with
  | push payload =>
      simp only [step, Option.ite_none_left_eq_some, Option.some.injEq] at h
      obtain ⟨-, rfl⟩ := h
      refine ⟨w.push s.output.limitBytes payload, by simp [hlog], ?_⟩
      refine BufferedConsoleState.push_refines hw payload s.output.limitBytes ?_
      rw [hlog]
      exact hfit
  | stream =>
      obtain ⟨t, -, ht⟩ := Option.bind_eq_some_iff.mp h
      obtain ⟨task, wire, sent, base, rfl⟩ := streamStep_frame ht
      exact ⟨w, hlog, hw⟩
  | takeover =>
      simp only [step] at h
      split at h
      · cases h; exact ⟨w, hlog, hw⟩
      · cases h
  | recv =>
      obtain ⟨_, _, _, _, rfl⟩ := recv_frame h
      exact ⟨w, hlog, hw⟩
  | recordExit code =>
      simp only [step, Option.ite_none_left_eq_some, Option.some.injEq] at h
      obtain ⟨-, rfl⟩ := h
      exact ⟨w, hlog, hw⟩
  | dropSender =>
      simp only [step, Option.ite_none_left_eq_some, Option.some.injEq] at h
      obtain ⟨-, rfl⟩ := h
      exact ⟨w, hlog, hw⟩
  | _ =>
      simp only [step, Option.ite_none_right_eq_some, Option.some.injEq] at h
      obtain ⟨-, rfl⟩ := h
      exact ⟨w, hlog, hw⟩

/-! ## What a streaming step sends -/

/-- The console bytes of some frames. -/
def wireData (frames : List ConsoleFrame) : Bytes :=
  frames.flatMap fun f => if f.ty = consoleData then f.payload else []

/-- Bytes read from the buffer and not sent yet. -/
def Phase.pending : Phase → Bytes
  | .sendReplay data _ | .sendData data _ | .sendLast data => data
  | _ => []

/-- The offset up to which the task has read, where it still keeps it. -/
def Phase.cursor : Phase → Option Nat
  | .subscribing n | .sendReplay _ n | .firstCheck n | .waiting n | .woken n | .sendData _ n
  | .check n | .closed n => some n
  | _ => none

/-- The offset the next step passes to `subscribe_from` or `replay_from`. -/
def Phase.requested : Phase → Option Nat
  | .subscribing n | .woken n | .closed n => some n
  | _ => none

/-- The next step reads from no offset below `retained_start`. -/
def NotEvicted (s : Sys) (p : Phase) : Prop :=
  ∀ n ∈ p.requested, s.output.state.retainedStart ≤ n

/-- `d`, then what is pending, is the stretch of the log from `b` to the cursor. -/
def Covers (log : Bytes) (b : Nat) (d : Bytes) (p : Phase) : Prop :=
  ∃ k, Stretch log b k (d ++ p.pending) ∧ ∀ n ∈ p.cursor, n = k

theorem wireData_sendConsoleBytes (s : Sys) (payload : Bytes) :
    wireData (sendConsoleBytes s payload).wire = wireData s.wire ++ payload := by
  unfold sendConsoleBytes
  split
  · next he => rw [List.isEmpty_iff.mp he, List.append_nil]
  · simp [wireData]

theorem sent_sendConsoleBytes (s : Sys) (payload : Bytes) :
    (sendConsoleBytes s payload).sent = s.sent ++ payload := by
  obtain ⟨wire, he⟩ := sendConsoleBytes_eq s payload
  rw [he]

/-- Reading at the cursor, when nothing there has been evicted, brings exactly the rest of
    the log. -/
theorem covers_read {log d : Bytes} {b n : Nat} {p q : Phase} (h : Covers log b d p)
    (hp : p.pending = []) (hcur : p.cursor = some n) (hq : q.pending = log.drop n)
    (hcur' : ∀ m ∈ q.cursor, m = log.length) : Covers log b d q := by
  obtain ⟨k, hk, hn⟩ := h
  obtain rfl : n = k := hn n (by rw [hcur]; rfl)
  rw [hp, List.append_nil] at hk
  exact ⟨log.length, hq ▸ hk.extend, hcur'⟩

/-- Sending what is pending moves it behind `d`. -/
theorem covers_send {log d : Bytes} {b : Nat} {p q : Phase} (h : Covers log b d p)
    (hq : q.pending = []) (hcur : ∀ m ∈ q.cursor, m ∈ p.cursor) :
    Covers log b (d ++ p.pending) q := by
  obtain ⟨k, hk, hn⟩ := h
  refine ⟨k, ?_, fun m hm => hn m (hcur m hm)⟩
  rwa [hq, List.append_nil]

theorem replayFrom_eq {s : Sys} (hs : Shows s) {n : Nat}
    (hev : s.output.state.retainedStart ≤ n) (hn : n ≤ s.log.length) :
    s.output.state.replayFrom n = (s.log.drop n, s.log.length) := by
  obtain ⟨w, hlog, hw⟩ := hs
  rw [BufferedConsoleState.replayFrom_refines hw (by rw [hlog]; exact hn),
    w.readFrom_of_le (by rw [← hw.retainedStart]; exact hev), hlog]

/-- The first read: from the clamped offset to the end of the log. -/
theorem subscribeFrom_clamp {s : Sys} (hs : Shows s) (renderedBytes : Nat) :
    s.output.subscribeFrom renderedBytes =
        (s.log.drop (clamp renderedBytes s.output.state.retainedStart s.output.state.nextOffset),
          s.log.length) ∧
      clamp renderedBytes s.output.state.retainedStart s.output.state.nextOffset
        ≤ s.log.length := by
  obtain ⟨w, hlog, hw⟩ := hs
  constructor
  · rw [BufferedConsoleOutput.subscribeFrom_eq, BufferedConsoleState.replayFrom_clamp hw, hlog]
  · rw [← hlog, hw.retainedStart, hw.nextOffset]
    exact BufferedConsoleState.clamp_le renderedBytes w.start_le

theorem pending_afterCheck (code : Option UInt32) {p : Phase} (hp : p.pending = []) :
    (afterCheck code p).pending = [] := by
  cases code with
  | none => exact hp
  | some c => rfl

theorem cursor_afterCheck (code : Option UInt32) (p : Phase) :
    ∀ m ∈ (afterCheck code p).cursor, m ∈ p.cursor := by
  intro m hm
  cases code with
  | none => exact hm
  | some c => simp [afterCheck, Phase.cursor] at hm

/-- The offset at which a read that asks for `n` starts. -/
def Sys.readAt (s : Sys) (n : Nat) : Nat :=
  clamp n s.output.state.retainedStart s.output.state.nextOffset

theorem readAt_eq {s : Sys} (hs : Shows s) {n : Nat}
    (hev : s.output.state.retainedStart ≤ n) (hn : n ≤ s.log.length) : s.readAt n = n := by
  obtain ⟨w, hlog, hw⟩ := hs
  have hnext := hw.nextOffset
  rw [hlog] at hnext
  unfold Sys.readAt clamp
  rw [if_neg (by omega), if_neg (by omega)]

/-- How one step takes the task from one phase to the next, with the base of the attachment
    after it: it reads the log from some offset to the end, or it reads nothing. -/
inductive Advances (s : Sys) : Phase → Phase → Nat → Prop
  | subscribe (n : Nat) :
      Advances s (.subscribing n) (.sendReplay (s.log.drop (s.readAt n)) s.log.length) (s.readAt n)
  | wake (n : Nat) :
      Advances s (.woken n) (.sendData (s.log.drop (s.readAt n)) s.log.length) s.base
  | close (n : Nat) : Advances s (.closed n) (.sendLast (s.log.drop (s.readAt n))) s.base
  | move {p q : Phase} (hreq : p.requested = none) (hpend : q.pending = [])
      (hcur : ∀ m ∈ q.cursor, m ∈ p.cursor) (hsub : ∀ n, q ≠ .subscribing n) : Advances s p q s.base

theorem advances_afterCheck {s : Sys} {p q : Phase} (code : Option UInt32)
    (hreq : p.requested = none) (hpend : q.pending = []) (hcur : ∀ m ∈ q.cursor, m ∈ p.cursor)
    (hsub : ∀ n, q ≠ .subscribing n) : Advances s p (afterCheck code q) s.base := by
  refine .move hreq (pending_afterCheck code hpend) ?_ ?_
  · intro m hm
    exact hcur m (cursor_afterCheck code q m hm)
  · intro n
    cases code with
    | none => exact hsub n
    | some c =>
        intro h
        cases h

/-- A streaming step sends what was pending and advances the task. -/
theorem advances_streamStep {s s' : Sys} {t : Task} (hs : Shows s)
    (h : streamStep s t = some s') :
    ∃ t', s'.task = some t' ∧ s'.sent = s.sent ++ t.phase.pending ∧
      wireData s'.wire = wireData s.wire ++ t.phase.pending ∧
      Advances s t.phase t'.phase s'.base := by
  obtain ⟨phase, seen⟩ := t
  have hquiet : phase.pending = [] → s.sent = s.sent ++ phase.pending ∧
      wireData s.wire = wireData s.wire ++ phase.pending := by
    intro hnil
    rw [hnil, List.append_nil, List.append_nil]
    exact ⟨rfl, rfl⟩
  have hsend : ∀ data, (sendConsoleBytes s data).base = s.base := by
    intro data
    obtain ⟨wire, he⟩ := sendConsoleBytes_eq s data
    rw [he]
  cases phase with
  | subscribing n =>
      have hread := (subscribeFrom_clamp hs n).1
      simp only [streamStep, hread, Option.some.injEq] at h
      subst h
      exact ⟨_, rfl, (hquiet rfl).1, (hquiet rfl).2, .subscribe n⟩
  | woken n =>
      have hread := (subscribeFrom_clamp hs n).1
      rw [BufferedConsoleOutput.subscribeFrom_eq] at hread
      simp only [streamStep, hread, Option.some.injEq] at h
      subst h
      exact ⟨_, rfl, (hquiet rfl).1, (hquiet rfl).2, .wake n⟩
  | closed n =>
      have hread := (subscribeFrom_clamp hs n).1
      rw [BufferedConsoleOutput.subscribeFrom_eq] at hread
      simp only [streamStep, hread, Option.some.injEq] at h
      subst h
      exact ⟨_, rfl, (hquiet rfl).1, (hquiet rfl).2, .close n⟩
  | sendReplay data n | sendData data n =>
      cases h
      refine ⟨_, rfl, sent_sendConsoleBytes s data, wireData_sendConsoleBytes s data, ?_⟩
      show Advances s _ _ (sendConsoleBytes s data).base
      rw [hsend data]
      exact .move rfl rfl (fun m hm => hm) (by simp)
  | sendLast data =>
      cases h
      refine ⟨_, rfl, sent_sendConsoleBytes s data, wireData_sendConsoleBytes s data, ?_⟩
      show Advances s _ _ (sendConsoleBytes s data).base
      rw [hsend data]
      exact .move rfl rfl (by intros; contradiction) (by simp)
  | firstCheck n | check n =>
      cases h
      exact ⟨_, rfl, (hquiet rfl).1, (hquiet rfl).2,
        advances_afterCheck s.exitCode rfl rfl (fun m hm => hm) (by simp)⟩
  | lastCheck =>
      cases h
      exact ⟨_, rfl, (hquiet rfl).1, (hquiet rfl).2,
        advances_afterCheck s.exitCode rfl rfl (by intros; contradiction) (by simp)⟩
  | waiting n =>
      simp only [streamStep] at h
      split at h
      · cases h
        exact ⟨_, rfl, (hquiet rfl).1, (hquiet rfl).2, .move rfl rfl (fun m hm => hm) (by simp)⟩
      · split at h
        · cases h
          exact ⟨_, rfl, (hquiet rfl).1, (hquiet rfl).2, .move rfl rfl (fun m hm => hm) (by simp)⟩
        · cases h
  | writeExit code =>
      cases h
      refine ⟨_, rfl, (hquiet rfl).1, ?_, .move rfl rfl (by intros; contradiction) (by simp)⟩
      simp [writeExitFrame, wireData, Phase.pending, consoleData, consoleExit]
  | ended => cases h

/-- A streaming step that reads no evicted offset sends what was pending, and what it leaves
    sent and pending is again one stretch of the log. -/
theorem covers_streamStep {s s' : Sys} {t : Task} {b : Nat} {d : Bytes} (hs : Shows s)
    (hev : NotEvicted s t.phase) (hc : Covers s.log b d t.phase)
    (h : streamStep s t = some s') :
    ∃ t', s'.task = some t' ∧ s'.sent = s.sent ++ t.phase.pending ∧
      wireData s'.wire = wireData s.wire ++ t.phase.pending ∧
      Covers s.log b (d ++ t.phase.pending) t'.phase := by
  obtain ⟨t', ht', hsent, hwire, hadv⟩ := advances_streamStep hs h
  refine ⟨t', ht', hsent, hwire, ?_⟩
  -- the offset of a task that still keeps one lies inside the log
  have hin : ∀ n ∈ t.phase.cursor, n ≤ s.log.length := by
    obtain ⟨k, ⟨-, hk, -⟩, hn⟩ := hc
    intro n hmem
    rw [hn n hmem]
    exact hk
  generalize t.phase = p at *
  generalize t'.phase = q at *
  generalize s'.base = base at *
  cases hadv with
  | subscribe n | wake n =>
      rw [readAt_eq hs (hev n rfl) (hin n rfl), show Phase.pending _ = [] from rfl,
        List.append_nil]
      exact covers_read hc rfl rfl rfl (by simp [Phase.cursor])
  | close n =>
      rw [readAt_eq hs (hev n rfl) (hin n rfl), show Phase.pending _ = [] from rfl,
        List.append_nil]
      exact covers_read hc rfl rfl rfl (by intros; contradiction)
  | move _ hpend hcur _ => exact covers_send hc hpend hcur

end FlyVault.Init.ConsoleStream
