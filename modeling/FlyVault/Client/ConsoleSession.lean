/-
  A console session of the client: `run_session` with `write_console_output` and
  `is_reconnectable_transport` (`crates/client/src/console.rs`).

  The session is a program whose calls are answered by the connection, the terminal and standard
  output. A `write` on standard output returns at most the length of its slice; a negative return
  value is an error. The tasks for standard input and for the sending side run beside the session
  and have no part in its result, and of the resize task only how it is joined. The loop over the
  frames has a bound on its rounds.

  `rendered_bytes` counts whole frames. A write that fails in the middle of a frame is an I/O
  error, which counts as a lost connection, and what was written of the frame is not counted
  (`frame_cut_uncounted`). `watermark_iff`: the count is right exactly if that does not happen and
  the count fits in 64 bits.
-/
import FlyVault.Lib.Script
import FlyVault.Protocol.Console
import Mathlib.Algebra.Ring.Nat

namespace FlyVault.Client.ConsoleSession

open FlyVault.Lib FlyVault.Lib.Script FlyVault.Protocol

/-! ## Errors -/

/-- `quinn::ConnectionError`. -/
inductive ConnectionError
  | versionMismatch
  | transportError
  | connectionClosed
  | applicationClosed
  | reset
  | timedOut
  | locallyClosed
  | cidsExhausted
  deriving DecidableEq, Repr

/-- `quinn::ReadError`. -/
inductive ReadError
  | reset
  | connectionLost (e : ConnectionError)
  | closedStream
  | illegalOrderedRead
  | zeroRttRejected
  deriving DecidableEq, Repr

/-- `quinn::WriteError`. -/
inductive WriteError
  | stopped
  | connectionLost (e : ConnectionError)
  | closedStream
  | zeroRttRejected
  deriving DecidableEq, Repr

/-- An error in the chain of an `anyhow::Error`. -/
inductive Cause
  | connection (e : ConnectionError)
  | read (e : ReadError)
  | write (e : WriteError)
  | io (text : String)
  /-- A context or a plain message. -/
  | message (text : String)
  deriving DecidableEq, Repr

/-- The chain, outermost first. -/
abbrev Error := List Cause

def context (text : String) (e : Error) : Error := .message text :: e

def isReconnectableConnectionError : ConnectionError → Bool
  | .applicationClosed | .connectionClosed | .reset | .timedOut | .transportError => true
  | .versionMismatch | .locallyClosed | .cidsExhausted => false

def isReconnectableReadError : ReadError → Bool
  | .reset => true
  | .connectionLost e => isReconnectableConnectionError e
  | _ => false

def isReconnectableWriteError : WriteError → Bool
  | .stopped => true
  | .connectionLost e => isReconnectableConnectionError e
  | _ => false

def isReconnectableTransport (err : Error) : Bool :=
  err.any fun
    | .connection e => isReconnectableConnectionError e
    | .read e => isReconnectableReadError e
    | .write e => isReconnectableWriteError e
    | .io _ => true
    | .message _ => false

/-! ## The session -/

inductive ConsoleSessionOutcome
  | exited (exitCode : UInt32)
  | disconnected
  deriving DecidableEq, Repr

structure ConsoleSessionProgress where
  outcome : ConsoleSessionOutcome
  renderedBytes : UInt64
  deriving DecidableEq, Repr

/-- How the resize task ends. Its own result is always Ok. -/
inductive Joined
  | finished
  | cancelled
  | panicked (text : String)
  deriving DecidableEq, Repr

inductive SessionCall
  | openBi
  /-- `write_u8(STREAM_CONSOLE)`. -/
  | writeTag
  | writeFrame (frame : ConsoleFrame)
  | isTerminal
  | enableRawMode
  | terminalSize
  | readFrame
  /-- `libc::write` on standard output. -/
  | writeStdout (slice : Bytes)
  | joinResize

def SessionAnswer : SessionCall → Type
  | .openBi => Except ConnectionError Unit
  | .writeTag => Except String Unit
  | .writeFrame _ => Except Error Unit
  | .isTerminal => Bool
  | .enableRawMode => Except Error Unit
  | .terminalSize => Option (UInt16 × UInt16)
  | .readFrame => Except Error ConsoleFrame
  | .writeStdout slice => { ret : Int // ret ≤ slice.length }
  | .joinResize => Joined

abbrev Session := Script SessionCall SessionAnswer

abbrev SessionEvent := Event SessionCall SessionAnswer

/-- The loop of `write_console_output`. -/
@[semireducible]
def writeConsoleOutput (payload : Bytes) (written : Nat) : Session (Except Error Unit) :=
  if written < payload.length then
    Script.call (.writeStdout (payload.drop written)) fun ret =>
      if ret.val < 0 then pure (.error (context "write stdout" [.io "os error"]))
      else if ret.val = 0 then pure (.error (context "write stdout" [.io "write zero"]))
      else writeConsoleOutput payload (written + ret.val.toNat)
  else pure (.ok ())
termination_by payload.length - written
decreasing_by omega

/-- `u64::saturating_add`. -/
def saturatingAdd (a : UInt64) (n : Nat) : UInt64 := UInt64.ofNat (min (a.toNat + n) (2 ^ 64 - 1))

/-- The loop of `run_session`: its result and `rendered_bytes` at its end. -/
def sessionLoop : Nat → UInt64 → Session (Except Error ConsoleSessionOutcome × UInt64)
  | 0, _ => spin
  | rounds + 1, renderedBytes => do
      match ← ask SessionCall.readFrame with
      | .error err =>
          if isReconnectableTransport err then return (.ok .disconnected, renderedBytes)
          else return (.error err, renderedBytes)
      | .ok frame =>
          if frame.ty = consoleData then
            match ← writeConsoleOutput frame.payload 0 with
            | .error err => return (.error err, renderedBytes)
            | .ok () => sessionLoop rounds (saturatingAdd renderedBytes frame.payload.length)
          else if frame.ty = consoleExit then
            match decodeExit frame.payload with
            | .ok exitCode => return (.ok (.exited exitCode), renderedBytes)
            | .error e => return (.error [.message e], renderedBytes)
          else sessionLoop rounds renderedBytes

/-- A lost connection ends a session with what was rendered so far. -/
def disconnectedOr (renderedBytes : UInt64) (err : Error) :
    Except Error ConsoleSessionProgress :=
  if isReconnectableTransport err then .ok ⟨.disconnected, renderedBytes⟩ else .error err

/-- The raw mode and the first resize. -/
def prepareTerminal : Session (Except Error Unit) := do
  match ← ask SessionCall.isTerminal with
  | false => return .ok ()
  | true =>
      match ← ask SessionCall.enableRawMode with
      | .error err => return .error (context "enable raw mode" err)
      | .ok () =>
          match ← ask SessionCall.terminalSize with
          | some (rows, cols) =>
              ask (SessionCall.writeFrame ⟨consoleResize, encodeResize rows cols⟩)
          | none => return .ok ()

/-- What `run_session` makes of the result of the loop, once the resize task is joined. -/
def finishSession (result : Except Error ConsoleSessionOutcome) (renderedBytes : UInt64) :
    Joined → Except Error ConsoleSessionProgress
  | .panicked text => .error (context "join resize task" [.message text])
  | .finished | .cancelled =>
      match result with
      | .ok outcome => .ok ⟨outcome, renderedBytes⟩
      | .error err => disconnectedOr renderedBytes err

def runSession (rounds : Nat) (startup : ConsoleFrame) (renderedBytes : UInt64) :
    Session (Except Error ConsoleSessionProgress) := do
  match ← ask SessionCall.openBi with
  | .error err =>
      return disconnectedOr renderedBytes (context "open console stream" [.connection err])
  | .ok () =>
      match ← ask SessionCall.writeTag with
      | .error err =>
          return disconnectedOr renderedBytes (context "write console stream tag" [.io err])
      | .ok () =>
          match ← ask (SessionCall.writeFrame startup) with
          | .error err => return disconnectedOr renderedBytes err
          | .ok () =>
              match ← prepareTerminal with
              | .error err => return .error err
              | .ok () =>
                  let (result, renderedBytes) ← sessionLoop rounds renderedBytes
                  let joined ← ask SessionCall.joinResize
                  return finishSession result renderedBytes joined

/-! ## What is written -/

/-- The bytes that a call puts on standard output. -/
def eventBytes : SessionEvent → Nat
  | ⟨.writeStdout _, ret⟩ => ret.val.toNat
  | _ => 0

def outputBytes (t : List SessionEvent) : Nat := (t.map eventBytes).sum

def isWrite : SessionCall → Bool
  | .writeStdout _ => true
  | _ => false

/-- The call is a write that fails. -/
def writeFails : SessionEvent → Bool
  | ⟨.writeStdout _, ret⟩ => decide (ret.val ≤ 0)
  | _ => false

/-- A write fails right after another one, and so in the middle of a frame: each frame is read
    before it is written. `begun` tells whether the call before was a write. -/
def cutAfter : Bool → List SessionEvent → Bool
  | _, [] => false
  | begun, e :: rest => begun && writeFails e || cutAfter (isWrite e.1) rest

def frameCut (t : List SessionEvent) : Bool := cutAfter false t

@[simp] theorem outputBytes_nil : outputBytes [] = 0 := rfl

@[simp] theorem outputBytes_cons (e : SessionEvent) (t : List SessionEvent) :
    outputBytes (e :: t) = eventBytes e + outputBytes t := List.sum_cons

@[simp] theorem outputBytes_append (t t' : List SessionEvent) :
    outputBytes (t ++ t') = outputBytes t + outputBytes t' := by
  unfold outputBytes
  rw [List.map_append, List.sum_append]

/-- What comes next does not start with a write: whether something was cut before does not
    matter. -/
theorem cutAfter_append {t rest : List SessionEvent}
    (hrest : ∀ begun, cutAfter begun rest = cutAfter false rest) (begun : Bool) :
    cutAfter begun (t ++ rest) = (cutAfter begun t || cutAfter false rest) := by
  induction t generalizing begun with
  | nil => exact hrest begun
  | cons e t ih =>
      rw [List.cons_append, cutAfter, cutAfter, ih, Bool.or_assoc]

/-- One round: a write that fails ends the loop, and after any other one the loop goes on with
    the rest. -/
theorem writeConsoleOutput_round {payload : Bytes} {written : Nat} {t : List SessionEvent}
    {r : Except Error Unit} (hlt : written < payload.length)
    (h : Exec (writeConsoleOutput payload written) t (some r)) :
    ∃ ret t', t = ⟨.writeStdout (payload.drop written), ret⟩ :: t' ∧
      (ret.val ≤ 0 ∧ r ≠ .ok () ∧ t' = [] ∨
        0 < ret.val ∧ Exec (writeConsoleOutput payload (written + ret.val.toNat)) t' (some r)) := by
  unfold writeConsoleOutput at h
  rw [if_pos hlt] at h
  cases h with
  | @call _ _ ret t' _ h =>
      dsimp only at h
      refine ⟨ret, t', rfl, ?_⟩
      split at h
      · next hneg =>
          obtain ⟨rfl, ho⟩ := exec_pure.mp h
          cases ho
          exact .inl ⟨Int.le_of_lt hneg, (fun h => by cases h), rfl⟩
      next hneg =>
      split at h
      · next hzero =>
          obtain ⟨rfl, ho⟩ := exec_pure.mp h
          cases ho
          exact .inl ⟨Int.le_of_eq hzero, (fun h => by cases h), rfl⟩
      · exact .inr ⟨by omega, h⟩

/-- A frame is written as a whole, or a write fails; that one is in the middle of the frame if
    something was written before. -/
theorem writeConsoleOutput_spec {payload : Bytes} {written : Nat} {t : List SessionEvent}
    {r : Except Error Unit} (hle : written ≤ payload.length)
    (h : Exec (writeConsoleOutput payload written) t (some r)) :
    (r = .ok () ∧ outputBytes t = payload.length - written ∧
      ∀ begun, cutAfter begun t = false) ∨
    (r ≠ .ok () ∧ cutAfter true t = true ∧ (cutAfter false t = true ↔ 0 < outputBytes t)) := by
  induction hrest : payload.length - written using Nat.strongRecOn generalizing written t with
  | ind rest ih =>
      by_cases hlt : written < payload.length
      swap
      · unfold writeConsoleOutput at h
        rw [if_neg hlt] at h
        obtain ⟨rfl, ho⟩ := exec_pure.mp h
        cases ho
        refine .inl ⟨rfl, ?_, fun _ => rfl⟩
        rw [outputBytes_nil]
        omega
      obtain ⟨ret, t, rfl, ⟨hpos, hr, rfl⟩ | ⟨hpos, h⟩⟩ := writeConsoleOutput_round hlt h
      · refine .inr ⟨hr, ?_, ?_⟩
        · simp [cutAfter, writeFails, hpos]
        · simp [cutAfter, eventBytes, hpos]
      have hret : ret.val ≤ (payload.drop written).length := ret.property
      have hlength : (payload.drop written).length = payload.length - written :=
        List.length_drop
      obtain ⟨hr, hout, hcut⟩ | ⟨hr, hcut, -⟩ :=
        ih (payload.length - (written + ret.val.toNat)) (by omega) (by omega) h rfl
      · refine .inl ⟨hr, ?_, ?_⟩
        · rw [outputBytes_cons, hout]
          show ret.val.toNat + _ = _
          omega
        · intro begun
          simp [cutAfter, writeFails, hpos, hcut]
      · refine .inr ⟨hr, ?_, ?_⟩
        · simp [cutAfter, writeFails, isWrite, hcut]
        · refine iff_of_true ?_ ?_
          · simp [cutAfter, isWrite, hcut]
          · have hbytes : 0 < ret.val.toNat := by omega
            rw [outputBytes_cons]
            exact Nat.add_pos_left hbytes _

/-! ## What is counted -/

/-- Of the output `full` bytes belong to frames written as a whole, which are counted, and `part`
    to a frame that was cut. -/
def Counted (before : UInt64) (t : List SessionEvent) (after : UInt64) : Prop :=
  ∃ full part, outputBytes t = full + part ∧
    after.toNat = min (before.toNat + full) (2 ^ 64 - 1) ∧
    ∀ begun, cutAfter begun t = true ↔ 0 < part

/-- Calls among which there is no write. -/
def Quiet (t : List SessionEvent) : Prop := ∀ e ∈ t, isWrite e.1 = false

theorem eventBytes_of_not_write {e : SessionEvent} (h : isWrite e.1 = false) :
    eventBytes e = 0 := by
  unfold eventBytes
  split
  · cases h
  · rfl

theorem writeFails_of_not_write {e : SessionEvent} (h : isWrite e.1 = false) :
    writeFails e = false := by
  unfold writeFails
  split
  · cases h
  · rfl

theorem Counted.cons {before after : UInt64} {e : SessionEvent} {t : List SessionEvent}
    (h : Counted before t after) (he : isWrite e.1 = false) : Counted before (e :: t) after := by
  obtain ⟨full, part, hout, hafter, hcut⟩ := h
  refine ⟨full, part, ?_, hafter, ?_⟩
  · rw [outputBytes_cons, eventBytes_of_not_write he, hout, Nat.zero_add]
  · intro begun
    rw [cutAfter, writeFails_of_not_write he, Bool.and_false, Bool.false_or]
    exact hcut _

theorem Counted.prepend {before after : UInt64} {t t' : List SessionEvent} (hquiet : Quiet t)
    (h : Counted before t' after) : Counted before (t ++ t') after := by
  induction t with
  | nil => exact h
  | cons e t ih =>
      obtain ⟨he, ht⟩ := List.forall_mem_cons.mp hquiet
      exact (ih ht).cons he

theorem counted_nil (before : UInt64) : Counted before [] before := by
  refine ⟨0, 0, rfl, ?_, ?_⟩
  · have hlt := before.toNat_lt
    omega
  · intro begun
    exact iff_of_false Bool.false_ne_true (Nat.lt_irrefl 0)

theorem Counted.append_joined {before after : UInt64} {t : List SessionEvent} {joined : Joined}
    (h : Counted before t after) : Counted before (t ++ [⟨.joinResize, joined⟩]) after := by
  obtain ⟨full, part, hout, hafter, hcut⟩ := h
  refine ⟨full, part, ?_, hafter, ?_⟩
  · rw [outputBytes_append, hout]
    rfl
  · intro begun
    have hrest : ∀ begun, cutAfter begun [⟨SessionCall.joinResize, joined⟩] = false := by
      intro begun
      simp [cutAfter, writeFails]
    rw [cutAfter_append (fun begun => (hrest begun).trans (hrest false).symm), hrest,
      Bool.or_false]
    exact hcut begun

theorem toNat_saturatingAdd (a : UInt64) (n : Nat) :
    (saturatingAdd a n).toNat = min (a.toNat + n) (2 ^ 64 - 1) := by
  unfold saturatingAdd
  rw [UInt64.toNat_ofNat']
  exact Nat.mod_eq_of_lt (by omega)

/-- A frame that was written as a whole, and what follows. -/
theorem Counted.whole {before after : UInt64} {t rest : List SessionEvent} {n : Nat}
    (hout : outputBytes t = n) (hwhole : ∀ begun, cutAfter begun t = false)
    (h : Counted (saturatingAdd before n) rest after) : Counted before (t ++ rest) after := by
  obtain ⟨full, part, hrest, hafter, hcut⟩ := h
  refine ⟨n + full, part, ?_, ?_, ?_⟩
  · rw [outputBytes_append, hout, hrest, Nat.add_assoc]
  · rw [hafter, toNat_saturatingAdd]
    omega
  · intro begun
    have hsame : ∀ begun, cutAfter begun rest = cutAfter false rest := fun begun =>
      Bool.eq_iff_iff.mpr ((hcut begun).trans (hcut false).symm)
    rw [cutAfter_append hsame, hwhole, Bool.false_or]
    exact hcut false

/-- A frame that was read and not written as a whole. -/
theorem counted_cut {before : UInt64} {t : List SessionEvent} {read : Except Error ConsoleFrame}
    (hcut : cutAfter false t = true ↔ 0 < outputBytes t) :
    Counted before (⟨.readFrame, read⟩ :: t) before := by
  refine ⟨0, outputBytes t, rfl, ?_, ?_⟩
  · have hlt := before.toNat_lt
    omega
  · intro begun
    have hread : cutAfter begun (⟨.readFrame, read⟩ :: t) = cutAfter false t := by
      rw [cutAfter, writeFails_of_not_write rfl, Bool.and_false, Bool.false_or]
      rfl
    rw [hread]
    exact hcut

theorem sessionLoop_spec {rounds : Nat} {before after : UInt64} {t : List SessionEvent}
    {result : Except Error ConsoleSessionOutcome}
    (h : Exec (sessionLoop rounds before) t (some (result, after))) :
    Counted before t after := by
  induction rounds generalizing before t with
  | zero => cases h
  | succ rounds ih =>
      obtain ⟨read, t₂, rfl, hnext⟩ := exec_ask_bind.mp h
      -- the loop ends with the count it has
      have hend : ∀ r, Exec (pure (r, before) : Session _) t₂ (some (result, after)) →
          Counted before (⟨.readFrame, read⟩ :: t₂) after := by
        intro r hreturn
        obtain ⟨rfl, ho⟩ := exec_pure.mp hreturn
        cases ho
        exact (counted_nil _).cons rfl
      cases read with
      | error err =>
          dsimp only at hnext
          split at hnext
          · exact hend _ hnext
          · exact hend _ hnext
      | ok frame =>
          dsimp only at hnext
          split at hnext
          · obtain ⟨t₃, t₄, written, rfl, hwrite, hnext⟩ := exec_bind_some.mp hnext
            obtain ⟨rfl, hout, hwhole⟩ | ⟨hfailed, -, hcut⟩ :=
              writeConsoleOutput_spec (Nat.zero_le _) hwrite
            · exact (Counted.whole hout hwhole (ih hnext)).cons rfl
            · cases written with
              | ok => exact absurd rfl hfailed
              | error err =>
                  obtain ⟨rfl, ho⟩ := exec_pure.mp hnext
                  cases ho
                  rw [List.append_nil]
                  exact counted_cut hcut
          split at hnext
          · cases hexit : decodeExit frame.payload with
            | ok exitCode =>
                rw [hexit] at hnext
                exact hend _ hnext
            | error e =>
                rw [hexit] at hnext
                exact hend _ hnext
          · exact (ih hnext).cons rfl

theorem quiet_prepareTerminal {t : List SessionEvent} {r : Except Error Unit}
    (h : Exec prepareTerminal t (some r)) : Quiet t := by
  have honly : Only (fun _ => True) (fun c => isWrite c = false) prepareTerminal := by
    refine Only.bind (only_ask.mpr rfl) fun tty => ?_
    cases tty with
    | false => trivial
    | true =>
        refine Only.bind (only_ask.mpr rfl) fun raw => ?_
        cases raw with
        | error err => trivial
        | ok =>
            refine Only.bind (only_ask.mpr rfl) fun size => ?_
            cases size with
            | none => trivial
            | some size => exact only_ask.mpr rfl
  exact honly.calls h

theorem renderedBytes_of_disconnectedOr {before : UInt64} {err : Error}
    {progress : ConsoleSessionProgress} (h : disconnectedOr before err = .ok progress) :
    progress.renderedBytes = before := by
  unfold disconnectedOr at h
  split at h
  · cases h
    rfl
  · cases h

theorem renderedBytes_of_finishSession {result : Except Error ConsoleSessionOutcome}
    {after : UInt64} {joined : Joined} {progress : ConsoleSessionProgress}
    (h : finishSession result after joined = .ok progress) : progress.renderedBytes = after := by
  have hresult : (∃ outcome, (.ok progress : Except Error _) = .ok ⟨outcome, after⟩) ∨
      ∃ err, disconnectedOr after err = .ok progress := by
    rw [← h]
    cases joined with
    | panicked text => cases h
    | finished =>
        cases result with
        | ok outcome => exact .inl ⟨outcome, rfl⟩
        | error err => exact .inr ⟨err, rfl⟩
    | cancelled =>
        cases result with
        | ok outcome => exact .inl ⟨outcome, rfl⟩
        | error err => exact .inr ⟨err, rfl⟩
  obtain ⟨outcome, ho⟩ | ⟨err, ho⟩ := hresult
  · cases ho
    rfl
  · exact renderedBytes_of_disconnectedOr ho

theorem runSession_spec {rounds : Nat} {startup : ConsoleFrame} {before : UInt64}
    {t : List SessionEvent} {progress : ConsoleSessionProgress}
    (h : Exec (runSession rounds startup before) t (some (.ok progress))) :
    Counted before t progress.renderedBytes := by
  have hearly : ∀ {t err}, Exec (pure (disconnectedOr before err) : Session _) t
      (some (.ok progress)) → Counted before t progress.renderedBytes := by
    intro t err hreturn
    obtain ⟨rfl, ho⟩ := exec_pure.mp hreturn
    rw [renderedBytes_of_disconnectedOr (Option.some.inj ho).symm]
    exact counted_nil before
  obtain ⟨opened, t₁, rfl, htag⟩ := exec_ask_bind.mp h
  refine Counted.cons ?_ rfl
  cases opened with
  | error err => exact hearly htag
  | ok =>
      obtain ⟨tagged, t₂, rfl, hsend⟩ := exec_ask_bind.mp htag
      refine Counted.cons ?_ rfl
      cases tagged with
      | error err => exact hearly hsend
      | ok =>
          obtain ⟨sent, t₃, rfl, hprepare⟩ := exec_ask_bind.mp hsend
          refine Counted.cons ?_ rfl
          cases sent with
          | error err => exact hearly hprepare
          | ok =>
              obtain ⟨t₄, t₅, prepared, rfl, hterminal, hloop⟩ := exec_bind_some.mp hprepare
              cases prepared with
              | error err =>
                  obtain ⟨-, ho⟩ := exec_pure.mp hloop
                  cases ho
              | ok =>
                  refine Counted.prepend (quiet_prepareTerminal hterminal) ?_
                  obtain ⟨t₆, t₇, looped, rfl, hframes, hjoin⟩ := exec_bind_some.mp hloop
                  obtain ⟨result, after⟩ := looped
                  obtain ⟨joined, t₈, rfl, hreturn⟩ := exec_ask_bind.mp hjoin
                  obtain ⟨rfl, ho⟩ := exec_pure.mp hreturn
                  rw [renderedBytes_of_finishSession (Option.some.inj ho).symm]
                  exact (sessionLoop_spec hframes).append_joined

/-- When a session ends disconnected, the watermark has grown by exactly the bytes written to
    standard output if and only if no write has failed in the middle of a frame and the count
    fits in 64 bits. -/
theorem watermark_iff (rounds : Nat) (startup : ConsoleFrame) (before after : UInt64)
    (t : List SessionEvent)
    (hexec : Exec (runSession rounds startup before) t (some (.ok ⟨.disconnected, after⟩))) :
    after.toNat = before.toNat + outputBytes t ↔
      frameCut t = false ∧ before.toNat + outputBytes t < 2 ^ 64 := by
  obtain ⟨full, part, hout, hafter, hcut⟩ := runSession_spec hexec
  have hcut' : frameCut t = true ↔ 0 < part := hcut false
  have hafter' : after.toNat = min (before.toNat + full) (2 ^ 64 - 1) := hafter
  rw [← Bool.not_eq_true, hcut', hout]
  omega

/-- A session with one frame `ab` and then the end of the stream. -/
def oneFrame (ret : Nat → (slice : Bytes) → { ret : Int // ret ≤ slice.length }) (n : Nat) :
    (c : SessionCall) → SessionAnswer c
  | .openBi => .ok ()
  | .writeTag => .ok ()
  | .writeFrame _ => .ok ()
  | .isTerminal => false
  | .enableRawMode => .ok ()
  | .terminalSize => none
  | .readFrame => if n = 4 then .ok ⟨consoleData, [0x61, 0x62]⟩ else .error [.io "closed"]
  | .writeStdout slice => ret n slice
  | .joinResize => .cancelled

theorem watermark_iff_whole : ∃ t,
    Exec (runSession 2 ⟨consoleData, []⟩ 0) t (some (.ok ⟨.disconnected, 2⟩)) ∧
    frameCut t = false ∧ ((2 : UInt64).toNat = (0 : UInt64).toNat + outputBytes t ↔
      frameCut t = false ∧ (0 : UInt64).toNat + outputBytes t < 2 ^ 64) := by
  obtain ⟨t, hplay, hcut⟩ : ∃ t,
      play (oneFrame fun _ slice => ⟨slice.length, Int.le_refl _⟩) 0
        (runSession 2 ⟨consoleData, []⟩ 0) = some (t, some (.ok ⟨.disconnected, 2⟩)) ∧
      frameCut t = false := ⟨_, rfl, rfl⟩
  have hexec := exec_of_play hplay
  exact ⟨t, hexec, hcut, watermark_iff 2 _ 0 2 t hexec⟩

/-- One byte of the frame is written, the next write fails, and the watermark stays at 0. -/
theorem frame_cut_uncounted : ∃ t,
    Exec (runSession 2 ⟨consoleData, []⟩ 0) t (some (.ok ⟨.disconnected, 0⟩)) ∧
    outputBytes t = 1 := by
  obtain ⟨t, hplay, hout⟩ : ∃ t,
      play (oneFrame fun n slice => if h : n = 5 ∧ 1 ≤ (slice.length : Int) then ⟨1, h.2⟩
        else ⟨-1, by omega⟩) 0
        (runSession 2 ⟨consoleData, []⟩ 0) = some (t, some (.ok ⟨.disconnected, 0⟩)) ∧
      outputBytes t = 1 := ⟨_, rfl, rfl⟩
  exact ⟨t, exec_of_play hplay, hout⟩

end FlyVault.Client.ConsoleSession
