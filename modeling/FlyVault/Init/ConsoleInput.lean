/-
  The two directions of one attachment: `handle_exec_session_stream` and
  `handle_shared_console_stream` with `relay_client_input` (`crates/init/src/forward.rs`), and
  the send task of `run_session` (`crates/client/src/console.rs`).

  The handler races two loops with `select!`: `stream_console_output` to the client and
  `relay_client_input` from the client. The end of either is the end of both. The relay ends at
  the end of the client's stream, which a client with a non-terminal stdin finishes as soon as
  its input does; what the console still has to say, and its exit code, are then not sent
  (`input_end_cuts_output`).

  A step is one action of one party. The relay is cut between reading a frame and putting it
  into the channel, which holds 64 inputs; a send to a closed channel is ignored, as in the
  source. Frames arrive whole and in order, and the end of the stream after them. The console
  itself, its streaming task and the receiving client are those of `ConsoleStream`; the
  attachment owns the output, so the sender of the watch channel is not dropped while the
  handler runs. `exitWritten` is a ghost: the code of the exit frame, once it has been written.

  `ended_after_exit`: as long as the client keeps its stream open until the exit frame has been
  written, the handler ends only after it, and what it has sent reaches the client.
-/
import FlyVault.Init.ConsoleExit

namespace FlyVault.Init.ConsoleInput

open FlyVault.Lib FlyVault.Protocol FlyVault.Init.ConsoleStream

/-- `ConsoleInput`. -/
inductive Input
  | data (payload : Bytes)
  | resize (rows cols : UInt16)
  deriving DecidableEq, Repr

/-- The frame `run_session` writes for an input. -/
def Input.frame : Input → ConsoleFrame
  | .data payload => ⟨consoleData, payload⟩
  | .resize rows cols => ⟨consoleResize, encodeResize rows cols⟩

/-- `forward_client_frame` up to its send: other frames are dropped. -/
def forwardClientFrame (frame : ConsoleFrame) : Except String (Option Input) :=
  if frame.ty = consoleData then .ok (some (.data frame.payload))
  else if frame.ty = consoleResize then
    match decodeResize frame.payload with
    | .ok (rows, cols) => .ok (some (.resize rows cols))
    | .error e => .error e
  else .ok none

theorem forwardClientFrame_frame (input : Input) :
    forwardClientFrame input.frame = .ok (some input) := by
  cases input with
  | data payload => rfl
  | resize rows cols =>
      have hty : consoleResize ≠ consoleData := by decide
      rw [forwardClientFrame, Input.frame, if_neg hty, if_pos rfl, decodeResize_encodeResize]

/-- `relay_client_input` between two of its steps. -/
inductive Relay
  | reading
  /-- At `input_tx.send`. -/
  | sending (input : Input)
  | ended
  | failed (error : String)
  deriving DecidableEq, Repr

/-- One attachment and the handler that serves it. -/
structure Handler where
  sys : Sys
  /-- Frames the client has written and the relay has not read. -/
  incoming : List ConsoleFrame
  /-- The client has finished its send stream. -/
  finished : Bool
  relay : Relay
  /-- What waits in the channel to the console's input task. -/
  channel : List Input
  channelClosed : Bool
  /-- The takeover token; a shared console has none. -/
  cancelled : Bool
  /-- `select!` has not returned. -/
  running : Bool
  exitWritten : Option UInt32
  deriving DecidableEq, Repr

/-- The handler right after the attach. -/
def start (sys : Sys) : Handler where
  sys := sys
  incoming := []
  finished := false
  relay := .reading
  channel := []
  channelClosed := false
  cancelled := false
  running := true
  exitWritten := none

inductive Label
  | output (e : Output)
  | clientWrites (input : Input)
  | clientFinishes
  | clientReads
  /-- `stream_console_output` takes its next step. -/
  | stream
  /-- `relay_client_input` takes its next step. -/
  | relay
  /-- Another client takes the session over. -/
  | cancel
  | streamCancelled
  | relayCancelled
  /-- The console's input task takes an input, or another client's relay adds one. -/
  | consume
  | otherInput (input : Input)
  | closeChannel
  | lose
  deriving DecidableEq, Repr

/-- The capacity of the channel. -/
def channelCapacity : Nat := 64

/-- A step of the console. -/
def Handler.console (h : Handler) (a : ConsoleStream.Label) : Option Handler :=
  (ConsoleStream.step h.sys a).map fun sys => { h with sys }

/-- The exit frame written by the next streaming step, or before. -/
def Handler.exitAfter (h : Handler) : Option UInt32 :=
  match h.sys.task with
  | some ⟨.writeExit code, _⟩ => some code
  | _ => h.exitWritten

def Handler.streamEnded (h : Handler) : Bool :=
  match h.sys.task with
  | some ⟨.ended, _⟩ => true
  | _ => false

/-- One step of `relay_client_input`. -/
def relayStep (h : Handler) : Option Handler :=
  match h.relay with
  | .reading =>
      match h.incoming with
      | frame :: rest =>
          match forwardClientFrame frame with
          | .ok (some input) => some { h with incoming := rest, relay := .sending input }
          | .ok none => some { h with incoming := rest }
          | .error e => some { h with incoming := rest, relay := .failed e, running := false }
      | [] => if h.finished then some { h with relay := .ended, running := false } else none
  | .sending input =>
      if h.channelClosed then some { h with relay := .reading }
      else if h.channel.length < channelCapacity then
        some { h with relay := .reading, channel := h.channel ++ [input] }
      else none
  | .ended | .failed _ => none

def step (h : Handler) : Label → Option Handler
  | .output e => h.console e.label
  | .clientWrites input =>
      if h.finished ∨ h.sys.client ≠ .connected then none
      else some { h with incoming := h.incoming ++ [input.frame] }
  | .clientFinishes =>
      if h.finished ∨ h.sys.client ≠ .connected then none else some { h with finished := true }
  | .clientReads => h.console .recv
  | .stream =>
      if h.running then
        (h.console .stream).map fun h' =>
          { h' with exitWritten := h.exitAfter, running := ¬ h'.streamEnded }
      else none
  | .relay => if h.running then relayStep h else none
  | .cancel => some { h with cancelled := true }
  | .streamCancelled =>
      if h.running ∧ h.cancelled then
        (h.console .takeover).map fun h' => { h' with running := false }
      else none
  | .relayCancelled =>
      if h.running ∧ h.cancelled ∧ h.relay = .reading then
        some { h with relay := .ended, running := false }
      else none
  | .consume =>
      match h.channel with
      | _ :: rest => some { h with channel := rest }
      | [] => none
  | .otherInput input =>
      if h.channelClosed ∨ channelCapacity ≤ h.channel.length then none
      else some { h with channel := h.channel ++ [input] }
  | .closeChannel => some { h with channelClosed := true }
  | .lose => (h.console .lose).map fun h' => { h' with running := false }

/-- The connection holds and nobody takes over. -/
def Undisturbed (_ : Handler) : Label → Prop
  | .cancel | .lose => False
  | _ => True

/-- In addition the client keeps its stream open until the exit frame has been written. -/
def KeepsOpen (h : Handler) (a : Label) : Prop :=
  Undisturbed h a ∧ (a = .clientFinishes → h.exitWritten.isSome = true)

/-! ## One step of the console -/

/-- The task is on its way to the exit frame: the branch for a dropped sender is not taken, and
    the code it is about to write is the exit code. -/
def Live (s : Sys) : Phase → Prop
  | .closed _ | .sendLast _ | .lastCheck | .ended => False
  | .writeExit code => s.exitCode = some code
  | _ => True

theorem live_afterCheck (s : Sys) {p : Phase} (hp : Live s p) :
    Live s (afterCheck s.exitCode p) := by
  unfold afterCheck
  split
  · next code hcode => exact hcode
  · exact hp

/-- The frame `write_exit_frame` writes. -/
def exitFrame (code : UInt32) : ConsoleFrame := ⟨consoleExit, encodeExit code⟩

def AllData (frames : List ConsoleFrame) : Prop := ∀ frame ∈ frames, frame.ty = consoleData

/-- What a streaming step writes: some data, or the exit frame and then nothing more. -/
inductive Sends (s : Sys) (t : Task) : Sys → Prop
  | data {frames : List ConsoleFrame} (hall : AllData frames) (t' : Task) (base : Nat)
      (hlive : Live s t'.phase) (hp : ∀ code, t.phase ≠ .writeExit code) :
      Sends s t { s with
        task := some t'
        wire := s.wire ++ frames
        sent := s.sent ++ wireData frames
        base }
  | exit (code : UInt32) (hp : t.phase = .writeExit code) :
      Sends s t { s with task := some ⟨.ended, t.seen⟩, wire := s.wire ++ [exitFrame code] }

theorem Sends.nothing {s : Sys} {t : Task} (t' : Task) (base : Nat) (hlive : Live s t'.phase)
    (hp : ∀ code, t.phase ≠ .writeExit code) : Sends s t { s with task := some t', base } := by
  have hnone : AllData [] := by intro _ h; cases h
  have hsend := Sends.data (t := t) hnone t' base hlive hp
  rw [List.append_nil, show wireData [] = [] from rfl, List.append_nil] at hsend
  exact hsend

theorem Sends.payload {s : Sys} {t : Task} (payload : Bytes) (t' : Task)
    (hlive : Live s t'.phase) (hp : ∀ code, t.phase ≠ .writeExit code) :
    Sends s t { sendConsoleBytes s payload with task := some t' } := by
  unfold sendConsoleBytes
  split
  · exact .nothing t' s.base hlive hp
  · have hall : AllData [⟨consoleData, payload⟩] := by
      intro frame hframe
      rw [List.mem_singleton.mp hframe]
    have hsend := Sends.data hall t' s.base hlive hp
    rw [show wireData [⟨consoleData, payload⟩] = payload by simp [wireData]] at hsend
    exact hsend

theorem sends_of_streamStep {s s' : Sys} {t : Task} (hdrop : s.senderDropped = false)
    (hlive : Live s t.phase) (h : streamStep s t = some s') : Sends s t s' := by
  obtain ⟨phase, seen⟩ := t
  cases phase with
  | subscribing n =>
      cases h
      exact .nothing _ _ trivial (by simp)
  | sendReplay data n | sendData data n =>
      cases h
      exact .payload data _ trivial (by simp)
  | firstCheck n | check n =>
      cases h
      exact .nothing _ _ (live_afterCheck s (p := .waiting n) trivial) (by simp)
  | waiting n =>
      simp only [streamStep] at h
      split at h
      · cases h
        exact .nothing _ _ trivial (by simp)
      · rw [if_neg (by simp [hdrop])] at h
        cases h
  | woken n =>
      cases h
      exact .nothing _ _ trivial (by simp)
  | writeExit code =>
      cases h
      exact .exit code rfl
  | closed n | sendLast data | lastCheck | ended => exact hlive.elim

/-- The console's own steps leave the attachment alone, and an exit code once set stays. -/
theorem step_output {s s' : Sys} {e : Output} (h : ConsoleStream.step s e.label = some s') :
    ∃ output unnotified exitCode exitPushed log exitMark,
      s' = { s with output, unnotified, exitCode, exitPushed, log, exitMark } ∧
        ∀ code, s.exitCode = some code → exitCode = some code := by
  cases e with
  | push payload =>
      simp only [Output.label, ConsoleStream.step, Option.ite_none_left_eq_some,
        Option.some.injEq] at h
      obtain ⟨-, rfl⟩ := h
      exact ⟨_, _, _, _, _, _, rfl, fun _ hcode => hcode⟩
  | notify | pushExit =>
      simp only [Output.label, ConsoleStream.step, Option.ite_none_right_eq_some,
        Option.some.injEq] at h
      obtain ⟨-, rfl⟩ := h
      exact ⟨_, _, _, _, _, _, rfl, fun _ hcode => hcode⟩
  | recordExit code =>
      simp only [Output.label, ConsoleStream.step, Option.ite_none_left_eq_some,
        Option.some.injEq] at h
      obtain ⟨hnone, rfl⟩ := h
      refine ⟨_, _, _, _, _, _, rfl, ?_⟩
      intro code' hcode
      rw [hcode] at hnone
      exact absurd rfl hnone

/-! ## The exit frame comes before the end -/

/-- Before the exit frame the handler runs and streams; after it the handler has ended, and the
    client has read the frame or will read it after everything sent before. -/
def Stage (sys : Sys) (running : Bool) : Option UInt32 → Prop
  | none =>
      running = true ∧ sys.client = .connected ∧ AllData sys.wire ∧
        ∃ t, sys.task = some t ∧ Live sys t.phase
  | some code =>
      running = false ∧ sys.exitCode = some code ∧
        (sys.client = .exited code ∨
          sys.client = .connected ∧
            ∃ frames, AllData frames ∧ sys.wire = frames ++ [exitFrame code])

/-- `rendered` is what the client had rendered before this attachment. -/
structure Inv (rendered : Bytes) (h : Handler) : Prop where
  uncancelled : h.cancelled = false
  owned : h.sys.senderDropped = false
  incoming : ∀ frame ∈ h.incoming, ∃ input : Input, frame = input.frame
  kept : h.finished = true → h.exitWritten.isSome = true
  delivered : h.sys.rendered ++ wireData h.sys.wire = rendered ++ h.sys.sent
  stage : Stage h.sys h.running h.exitWritten

theorem inv_start {s₀ sys : Sys} {n : Nat}
    (hattach : ConsoleStream.step s₀ (.attach n) = some sys) : Inv sys.rendered (start sys) := by
  simp only [ConsoleStream.step, Option.ite_none_right_eq_some, Option.some.injEq,
    Bool.not_eq_true] at hattach
  obtain ⟨⟨-, howned⟩, rfl⟩ := hattach
  exact ⟨rfl, howned, by intros; contradiction, by intros; contradiction, rfl, rfl, rfl,
    (by intro _ h; cases h), _, rfl, trivial⟩

/-- While the exit frame is not written the handler runs. -/
theorem Inv.exitWritten_none {rendered : Bytes} {h : Handler} (hi : Inv rendered h)
    (hrunning : h.running = true) : h.exitWritten = none := by
  have hstage := hi.stage
  cases hexit : h.exitWritten with
  | none => rfl
  | some code =>
      rw [hexit] at hstage
      have hstopped := hstage.1
      rw [hrunning] at hstopped
      cases hstopped

theorem inv_output {rendered : Bytes} {h h' : Handler} {e : Output} (hi : Inv rendered h)
    (hstep : h.console e.label = some h') : Inv rendered h' := by
  obtain ⟨sys, hsys, rfl⟩ := Option.map_eq_some_iff.mp hstep
  obtain ⟨output, unnotified, exitCode, exitPushed, log, exitMark, rfl, hcode⟩ := step_output hsys
  refine ⟨hi.uncancelled, hi.owned, hi.incoming, hi.kept, hi.delivered, ?_⟩
  have hstage := hi.stage
  show Stage _ h.running h.exitWritten
  cases hexit : h.exitWritten with
  | none =>
      rw [hexit] at hstage
      obtain ⟨hrunning, hclient, hdata, t, ht, hlive⟩ := hstage
      refine ⟨hrunning, hclient, hdata, t, ht, ?_⟩
      unfold Live at hlive ⊢
      split at hlive <;> first | exact hlive | exact hcode _ hlive
  | some code =>
      rw [hexit] at hstage
      obtain ⟨hstopped, hset, hclient⟩ := hstage
      exact ⟨hstopped, hcode code hset, hclient⟩

theorem handleFrame_exitFrame (s : Sys) (code : UInt32) :
    handleFrame s (exitFrame code) = { s with client := .exited code } := by
  have hty : consoleExit ≠ consoleData := by decide
  rw [handleFrame, exitFrame, if_neg hty, if_pos rfl, decodeExit_encodeExit]

/-- Reading a data frame moves its bytes from the wire to what is rendered. -/
theorem delivered_data {rendered sent out : Bytes} {frame : ConsoleFrame}
    {rest : List ConsoleFrame} (hty : frame.ty = consoleData)
    (h : out ++ wireData (frame :: rest) = rendered ++ sent) :
    out ++ frame.payload ++ wireData rest = rendered ++ sent := by
  rw [← h, List.append_assoc]
  simp [wireData, hty]

theorem inv_clientReads {rendered : Bytes} {h h' : Handler} (hi : Inv rendered h)
    (hstep : h.console .recv = some h') : Inv rendered h' := by
  obtain ⟨sys, hsys, rfl⟩ := Option.map_eq_some_iff.mp hstep
  simp only [ConsoleStream.step] at hsys
  split at hsys
  · next frame rest hconn hwire =>
      cases hsys
      have hdelivered := hi.delivered
      have hstage := hi.stage
      rw [hwire] at hdelivered
      obtain ⟨written, hexit⟩ : ∃ written, h.exitWritten = written := ⟨_, rfl⟩
      cases written with
      | none =>
          rw [hexit] at hstage
          obtain ⟨hrunning, hclient, hall, t, ht, hlive⟩ := hstage
          rw [hwire] at hall
          obtain ⟨hty, hall⟩ := List.forall_mem_cons.mp hall
          rw [handleFrame, if_pos hty]
          refine ⟨hi.uncancelled, hi.owned, hi.incoming, hi.kept, delivered_data hty hdelivered, ?_⟩
          show Stage _ h.running h.exitWritten
          rw [hexit]
          exact ⟨hrunning, hclient, hall, t, ht, hlive⟩
      | some code =>
          rw [hexit] at hstage
          obtain ⟨hstopped, hset, hexited | ⟨hclient, frames, hall, hframes⟩⟩ := hstage
          · rw [hconn] at hexited
            cases hexited
          · rw [hwire] at hframes
            cases frames with
            | nil =>
                -- the exit frame itself
                cases hframes
                rw [handleFrame_exitFrame]
                refine ⟨hi.uncancelled, hi.owned, hi.incoming, hi.kept, hdelivered, ?_⟩
                show Stage _ h.running h.exitWritten
                rw [hexit]
                exact ⟨hstopped, hset, .inl rfl⟩
            | cons first frames =>
                cases hframes
                obtain ⟨hty, hall⟩ := List.forall_mem_cons.mp hall
                rw [handleFrame, if_pos hty]
                refine ⟨hi.uncancelled, hi.owned, hi.incoming, hi.kept,
                  delivered_data hty hdelivered, ?_⟩
                show Stage _ h.running h.exitWritten
                rw [hexit]
                exact ⟨hstopped, hset, .inr ⟨hclient, frames, hall, rfl⟩⟩
  · cases hsys

theorem streamEnded_of_live {h : Handler} {s : Sys} {t : Task} (ht : h.sys.task = some t)
    (hlive : Live s t.phase) : h.streamEnded = false := by
  rw [Handler.streamEnded, ht]
  split
  · next seen hended =>
      cases hended
      exact hlive.elim
  · rfl

theorem wireData_append (frames frames' : List ConsoleFrame) :
    wireData (frames ++ frames') = wireData frames ++ wireData frames' := List.flatMap_append

theorem inv_stream {rendered : Bytes} {h h' : Handler} (hi : Inv rendered h)
    (hstep : step h .stream = some h') : Inv rendered h' := by
  simp only [step, Option.ite_none_right_eq_some] at hstep
  obtain ⟨hrunning, hstep⟩ := hstep
  obtain ⟨h₁, hconsole, rfl⟩ := Option.map_eq_some_iff.mp hstep
  obtain ⟨sys, hsys, rfl⟩ := Option.map_eq_some_iff.mp hconsole
  obtain ⟨t, ht, hst⟩ := Option.bind_eq_some_iff.mp hsys
  have hnone := hi.exitWritten_none hrunning
  have hstage := hi.stage
  rw [hnone] at hstage
  obtain ⟨-, hclient, hdata, u, hu, hlive⟩ := hstage
  obtain rfl : u = t := Option.some.inj (hu.symm.trans ht)
  cases sends_of_streamStep hi.owned hlive hst with
  | @data frames hall t' base hlive' hp =>
      -- nothing but data is written, and the loop goes on
      have hafter : h.exitAfter = none := by
        rw [Handler.exitAfter, ht]
        split
        · next code seen hwrite =>
            cases hwrite
            exact absurd rfl (hp code)
        · exact hnone
      refine ⟨hi.uncancelled, hi.owned, hi.incoming, ?_, ?_, ?_⟩
      · intro hfinished
        have hsome := hi.kept hfinished
        rw [hnone] at hsome
        cases hsome
      · show h.sys.rendered ++ wireData (h.sys.wire ++ frames) =
          rendered ++ (h.sys.sent ++ wireData frames)
        rw [wireData_append, ← List.append_assoc, hi.delivered, List.append_assoc]
      · show Stage _ _ h.exitAfter
        rw [hafter]
        refine ⟨?_, hclient, ?_, t', rfl, hlive'⟩
        · rw [streamEnded_of_live rfl hlive']
          rfl
        · intro frame hframe
          rcases List.mem_append.mp hframe with hold | hnew
          · exact hdata frame hold
          · exact hall frame hnew
  | exit code hp =>
      obtain ⟨phase, seen⟩ := u
      cases hp
      have hafter : h.exitAfter = some code := by
        rw [Handler.exitAfter, ht]
      refine ⟨hi.uncancelled, hi.owned, hi.incoming, ?_, ?_, ?_⟩
      · intro _
        show h.exitAfter.isSome = true
        rw [hafter]
        rfl
      · show h.sys.rendered ++ wireData (h.sys.wire ++ [exitFrame code]) = rendered ++ h.sys.sent
        rw [wireData_append, show wireData [exitFrame code] = [] from rfl, List.append_nil]
        exact hi.delivered
      · show Stage _ _ h.exitAfter
        rw [hafter]
        exact ⟨rfl, hlive, .inr ⟨hclient, h.sys.wire, hdata, rfl⟩⟩

theorem inv_relay {rendered : Bytes} {h h' : Handler} (hi : Inv rendered h)
    (hrunning : h.running = true) (hstep : relayStep h = some h') : Inv rendered h' := by
  have hnone := hi.exitWritten_none hrunning
  have hopen : h.finished = false := by
    by_contra hfinished
    have hsome := hi.kept (by simpa using hfinished)
    rw [hnone] at hsome
    cases hsome
  unfold relayStep at hstep
  split at hstep
  · split at hstep
    · next frame rest hincoming =>
        have hrest : ∀ frame ∈ rest, ∃ input : Input, frame = input.frame := by
          intro f hf
          apply hi.incoming f
          rw [hincoming]
          exact List.mem_cons_of_mem frame hf
        -- every frame of the client can be forwarded
        obtain ⟨input, rfl⟩ := hi.incoming frame (by rw [hincoming]; exact List.mem_cons_self)
        rw [forwardClientFrame_frame] at hstep
        cases hstep
        exact ⟨hi.uncancelled, hi.owned, hrest, hi.kept, hi.delivered, hi.stage⟩
    · rw [hopen] at hstep
      cases hstep
  · split at hstep
    · cases hstep
      exact ⟨hi.uncancelled, hi.owned, hi.incoming, hi.kept, hi.delivered, hi.stage⟩
    · split at hstep
      · cases hstep
        exact ⟨hi.uncancelled, hi.owned, hi.incoming, hi.kept, hi.delivered, hi.stage⟩
      · cases hstep
  · cases hstep
  · cases hstep

theorem inv_step {rendered : Bytes} (h : Handler) (a : Label) (h' : Handler)
    (hi : Inv rendered h) (hok : KeepsOpen h a) (hstep : step h a = some h') :
    Inv rendered h' := by
  cases a with
  | output e => exact inv_output hi hstep
  | clientReads => exact inv_clientReads hi hstep
  | stream => exact inv_stream hi hstep
  | relay =>
      simp only [step, Option.ite_none_right_eq_some] at hstep
      exact inv_relay hi hstep.1 hstep.2
  | clientWrites input =>
      simp only [step, Option.ite_none_left_eq_some, Option.some.injEq] at hstep
      obtain ⟨-, rfl⟩ := hstep
      refine ⟨hi.uncancelled, hi.owned, ?_, hi.kept, hi.delivered, hi.stage⟩
      intro frame hframe
      rcases List.mem_append.mp hframe with hold | hnew
      · exact hi.incoming frame hold
      · exact ⟨input, List.mem_singleton.mp hnew⟩
  | clientFinishes =>
      simp only [step, Option.ite_none_left_eq_some, Option.some.injEq] at hstep
      obtain ⟨-, rfl⟩ := hstep
      exact ⟨hi.uncancelled, hi.owned, hi.incoming, fun _ => hok.2 rfl, hi.delivered, hi.stage⟩
  | cancel => exact hok.1.elim
  | lose => exact hok.1.elim
  | streamCancelled =>
      simp only [step, hi.uncancelled, Bool.false_eq_true, and_false, if_false] at hstep
      cases hstep
  | relayCancelled =>
      simp only [step, hi.uncancelled, Bool.false_eq_true, false_and, and_false, if_false] at hstep
      cases hstep
  | consume =>
      simp only [step] at hstep
      split at hstep
      · cases hstep
        exact ⟨hi.uncancelled, hi.owned, hi.incoming, hi.kept, hi.delivered, hi.stage⟩
      · cases hstep
  | otherInput input =>
      simp only [step, Option.ite_none_left_eq_some, Option.some.injEq] at hstep
      obtain ⟨-, rfl⟩ := hstep
      exact ⟨hi.uncancelled, hi.owned, hi.incoming, hi.kept, hi.delivered, hi.stage⟩
  | closeChannel =>
      cases hstep
      exact ⟨hi.uncancelled, hi.owned, hi.incoming, hi.kept, hi.delivered, hi.stage⟩

/-! ## All output before the exit frame -/

/-- The step of the console in a step of the handler. -/
def Label.console : Label → Option ConsoleStream.Label
  | .output e => some e.label
  | .clientReads => some .recv
  | .stream => some .stream
  | .streamCancelled => some .takeover
  | .lose => some .lose
  | _ => none

/-- The client keeps its stream open, and the exit code is not recorded between a read of the
    output and the look at the code that follows it. -/
def KeepsOpenQuietly (h : Handler) (a : Label) : Prop :=
  KeepsOpen h a ∧ ∀ c ∈ a.console, ExitOk h.sys c

/-- What the attachment has sent by the exit frame: the output from its start up to some point
    behind everything written before the exit code was set. -/
structure Complete (h : Handler) : Prop where
  exit : ExitInv h.sys
  output : h.exitWritten.isSome = true →
    ∃ k, h.sys.exitMark ≤ k ∧ Stretch h.sys.log h.sys.base k h.sys.sent

/-- The steps that do not touch the console. -/
theorem step_beside {h h' : Handler} {a : Label} (ha : a.console = none)
    (hstep : step h a = some h') : h'.sys = h.sys ∧ h'.exitWritten = h.exitWritten := by
  cases a with
  | output e | clientReads | stream | streamCancelled | lose => cases ha
  | relay =>
      simp only [step, Option.ite_none_right_eq_some] at hstep
      obtain ⟨-, hstep⟩ := hstep
      unfold relayStep at hstep
      repeat' split at hstep
      all_goals cases hstep
      all_goals exact ⟨rfl, rfl⟩
  | consume =>
      simp only [step] at hstep
      split at hstep
      · cases hstep
        exact ⟨rfl, rfl⟩
      · cases hstep
  | cancel | closeChannel =>
      cases hstep
      exact ⟨rfl, rfl⟩
  | relayCancelled =>
      simp only [step, Option.ite_none_right_eq_some, Option.some.injEq] at hstep
      obtain ⟨-, rfl⟩ := hstep
      exact ⟨rfl, rfl⟩
  | clientWrites _ | clientFinishes | otherInput _ =>
      simp only [step, Option.ite_none_left_eq_some, Option.some.injEq] at hstep
      obtain ⟨-, rfl⟩ := hstep
      exact ⟨rfl, rfl⟩

/-- The other steps are steps of the console. -/
theorem step_console {h h' : Handler} {a : Label} {c : ConsoleStream.Label}
    (ha : a.console = some c) (hstep : step h a = some h') :
    ConsoleStream.step h.sys c = some h'.sys := by
  have hconsole : ∀ h₁, h.console c = some h₁ → ConsoleStream.step h.sys c = some h₁.sys := by
    intro h₁ hh
    obtain ⟨sys, hsys, rfl⟩ := Option.map_eq_some_iff.mp hh
    exact hsys
  cases a with
  | output e | clientReads =>
      cases ha
      exact hconsole h' hstep
  | stream | streamCancelled =>
      cases ha
      simp only [step, Option.ite_none_right_eq_some] at hstep
      obtain ⟨-, hstep⟩ := hstep
      obtain ⟨h₁, hh, rfl⟩ := Option.map_eq_some_iff.mp hstep
      exact hconsole h₁ hh
  | lose =>
      cases ha
      obtain ⟨h₁, hh, rfl⟩ := Option.map_eq_some_iff.mp hstep
      exact hconsole h₁ hh
  | _ => cases ha

/-- What the console does after the exit frame does not change what has been sent. -/
theorem complete_output {rendered : Bytes} {h h' : Handler} {e : Output} (hi : Inv rendered h)
    (hc : Complete h) (hexit : ExitInv h'.sys) (hstep : h.console e.label = some h') :
    Complete h' := by
  obtain ⟨sys, hsys, rfl⟩ := Option.map_eq_some_iff.mp hstep
  refine ⟨hexit, ?_⟩
  intro hsome
  obtain ⟨k, hmark, hstretch⟩ := hc.output hsome
  have hset : h.sys.exitCode.isSome = true := by
    obtain ⟨code, hcode⟩ := Option.isSome_iff_exists.mp hsome
    have hstage := hi.stage
    rw [hcode] at hstage
    rw [hstage.2.1]
    rfl
  cases e with
  | push payload =>
      simp only [Output.label, ConsoleStream.step, Option.ite_none_left_eq_some,
        Option.some.injEq] at hsys
      obtain ⟨-, rfl⟩ := hsys
      exact ⟨k, hmark, hstretch.append payload⟩
  | notify | pushExit =>
      simp only [Output.label, ConsoleStream.step, Option.ite_none_right_eq_some,
        Option.some.injEq] at hsys
      obtain ⟨-, rfl⟩ := hsys
      exact ⟨k, hmark, hstretch⟩
  | recordExit code =>
      simp only [Output.label, ConsoleStream.step, hset, if_true] at hsys
      cases hsys

/-- The streaming step that writes the exit frame has sent everything before it. -/
theorem complete_stream {rendered : Bytes} {h h' : Handler} (hi : Inv rendered h)
    (hc : Complete h) (hexit : ExitInv h'.sys) (hstep : step h .stream = some h') :
    Complete h' := by
  simp only [step, Option.ite_none_right_eq_some] at hstep
  obtain ⟨hrunning, hstep⟩ := hstep
  obtain ⟨h₁, hconsole, rfl⟩ := Option.map_eq_some_iff.mp hstep
  obtain ⟨sys, hsys, rfl⟩ := Option.map_eq_some_iff.mp hconsole
  obtain ⟨t, ht, hst⟩ := Option.bind_eq_some_iff.mp hsys
  refine ⟨hexit, ?_⟩
  intro hsome
  change h.exitAfter.isSome = true at hsome
  rw [Handler.exitAfter, ht] at hsome
  split at hsome
  · next code seen hwrite =>
      cases hwrite
      obtain ⟨-, k, hstreamed, hmark⟩ := hc.exit.phase _ ht
      cases hst
      refine ⟨k, hmark, ?_⟩
      rw [Streamed, List.append_nil] at hstreamed
      exact hstreamed
  · rw [hi.exitWritten_none hrunning] at hsome
    cases hsome

theorem complete_clientReads {h h' : Handler} (hc : Complete h) (hexit : ExitInv h'.sys)
    (hstep : h.console .recv = some h') : Complete h' := by
  obtain ⟨sys, hsys, rfl⟩ := Option.map_eq_some_iff.mp hstep
  refine ⟨hexit, ?_⟩
  simp only [ConsoleStream.step] at hsys
  split at hsys
  · cases hsys
    unfold handleFrame
    split
    · exact hc.output
    · split
      · split <;> exact hc.output
      · exact hc.output
  · cases hsys

theorem complete_step {rendered : Bytes} (h : Handler) (a : Label) (h' : Handler)
    (hi : Inv rendered h ∧ Complete h) (hok : KeepsOpenQuietly h a) (hstep : step h a = some h') :
    Inv rendered h' ∧ Complete h' := by
  refine ⟨inv_step h a h' hi.1 hok.1 hstep, ?_⟩
  obtain ⟨hi, hc⟩ := hi
  have hbeside : a.console = none → Complete h' := by
    intro ha
    obtain ⟨hsys, hwritten⟩ := step_beside ha hstep
    refine ⟨?_, ?_⟩
    · rw [hsys]
      exact hc.exit
    · rw [hsys, hwritten]
      exact hc.output
  have hexit : ∀ c, a.console = some c → ExitInv h'.sys := by
    intro c ha
    exact exitInv_step h.sys c h'.sys hc.exit (hok.2 c ha) (step_console ha hstep)
  cases a with
  | output e => exact complete_output hi hc (hexit _ rfl) hstep
  | clientReads => exact complete_clientReads hc (hexit _ rfl) hstep
  | stream => exact complete_stream hi hc (hexit _ rfl) hstep
  | streamCancelled =>
      simp only [step, hi.uncancelled, Bool.false_eq_true, and_false, if_false] at hstep
      cases hstep
  | lose => exact hok.1.1.elim
  | _ => exact hbeside rfl

/-- In every run in which the client keeps its stream open until the exit frame has been
    written, and in which the connection holds and nobody takes over: when the handler has
    ended, it has written the exit frame, and everything it has sent on this attachment has
    been rendered or lies on the wire in front of the exit frame. If in addition no exit code
    is recorded in the window between a read and the look at the code, that is all output
    written before the exit, from the offset the attachment started at. -/
theorem ended_after_exit {s₀ sys : Sys} {n : Nat}
    (hattach : ConsoleStream.step s₀ (.attach n) = some sys) (as : List Label) (h : Handler)
    (hrun : Run step KeepsOpen (start sys) as h) (hended : h.running = false) :
    ∃ code, h.exitWritten = some code ∧ h.sys.exitCode = some code ∧
      h.sys.rendered ++ wireData h.sys.wire = sys.rendered ++ h.sys.sent ∧
      (h.sys.client = .exited code ∨
        h.sys.client = .connected ∧
          ∃ frames, AllData frames ∧ h.sys.wire = frames ++ [exitFrame code]) ∧
      (∀ before, Run ConsoleStream.step ExitOk ConsoleStream.init before s₀ →
        Run step KeepsOpenQuietly (start sys) as h →
          ∃ k, h.sys.exitMark ≤ k ∧ Stretch h.sys.log h.sys.base k h.sys.sent) := by
  have hi := hrun.inv (Inv sys.rendered) inv_step (inv_start hattach)
  have hstage := hi.stage
  obtain ⟨written, hexit⟩ : ∃ written, h.exitWritten = written := ⟨_, rfl⟩
  rw [hexit] at hstage
  cases written with
  | none =>
      have hrunning := hstage.1
      rw [hended] at hrunning
      cases hrunning
  | some code =>
      obtain ⟨-, hset, hclient⟩ := hstage
      refine ⟨code, hexit, hset, hi.delivered, hclient, ?_⟩
      intro before hbefore hquiet
      have hconsole := hbefore.inv ExitInv exitInv_step exitInv_init
      have hattached := exitInv_step s₀ (.attach n) sys hconsole ⟨trivial, trivial, trivial⟩ hattach
      have hcomplete := hquiet.inv (fun h => Inv sys.rendered h ∧ Complete h) complete_step
        ⟨inv_start hattach, hattached, by intros; contradiction⟩
      apply hcomplete.2.output
      rw [hexit]
      rfl

instance (h : Handler) : (a : Label) → Decidable (Undisturbed h a)
  | .cancel | .lose => isFalse id
  | .output _ | .clientWrites _ | .clientFinishes | .clientReads | .stream | .relay
  | .streamCancelled | .relayCancelled | .consume | .otherInput _ | .closeChannel => isTrue trivial

instance (h : Handler) (a : Label) : Decidable (KeepsOpen h a) := by
  unfold KeepsOpen
  infer_instance

/-- A fresh console to which the client has attached. -/
def fresh : Sys :=
  { ConsoleStream.init with
    client := .connected
    task := some ⟨.subscribing 0, 0⟩ }

/-- The client sends one line, the console answers and exits, and only then the client finishes
    its stream. -/
def lineThenExit : List Label :=
  [.stream, .stream, .stream, .clientWrites (.data [108, 115, 10]), .relay, .relay, .consume,
    .output (.push [65]), .output .notify, .stream, .stream, .stream, .clientReads, .stream,
    .output (.recordExit 0), .output .pushExit, .stream, .stream, .stream, .stream, .stream,
    .clientFinishes, .clientReads]

theorem ended_after_exit_line :
    ∃ h, Run step KeepsOpen (start fresh) lineThenExit h ∧ h.running = false ∧
      h.sys.rendered = [65] ∧ h.sys.client = .exited 0 ∧
      ∃ code, h.exitWritten = some code ∧ h.sys.exitCode = some code := by
  have hattach : ConsoleStream.step ConsoleStream.init (.attach 0) = some fresh := rfl
  obtain ⟨h, hrun, hended, hrendered, hclient⟩ : ∃ h,
      Run step KeepsOpen (start fresh) lineThenExit h ∧
      h.running = false ∧ h.sys.rendered = [65] ∧ h.sys.client = .exited 0 :=
    ⟨_, run_of_exec rfl, rfl, rfl, rfl⟩
  obtain ⟨code, hwritten, hset, -⟩ := ended_after_exit hattach lineThenExit h hrun hended
  exact ⟨h, hrun, hended, hrendered, hclient, code, hwritten, hset⟩

/-- The client sends one line and its input ends. -/
def lineThenEnd : List Label :=
  [.clientWrites (.data [108, 115, 10]), .clientFinishes, .relay, .relay, .relay]

/-- The handler has ended before the console has answered or exited. -/
theorem input_end_cuts_output :
    ∃ h, Run step Undisturbed (start fresh) lineThenEnd h ∧ h.running = false ∧
      h.channel = [.data [108, 115, 10]] ∧ h.exitWritten = none ∧ h.sys.exitCode = none :=
  ⟨_, run_of_exec rfl, rfl, rfl, rfl, rfl⟩

end FlyVault.Init.ConsoleInput
