/-
  The control protocol (`crates/protocol/src/lib.rs`): control frames, the five control
  messages and their payloads.

  The decoders are written with the operations of a byte cursor, which panic when too few bytes
  are left, so that their length checks matter. A stream is what the peer has sent on it and
  whether it is finished; reading past the end of an unfinished stream waits. An error is
  modelled by its outermost text.
-/
import FlyVault.Lib.Endian
import FlyVault.Lib.Outcome
import FlyVault.Protocol.ProxyPacket

namespace FlyVault.Protocol

open FlyVault.Lib

/-- `PROTOCOL_VERSION`. -/
def protocolVersion : UInt16 := 1

def controlRequestAttestation : UInt8 := 0x01

def controlAttestation : UInt8 := 0x02

def controlSetupRequest : UInt8 := 0x03

def controlSetupComplete : UInt8 := 0x04

def controlError : UInt8 := 0x05

/-- `VmState`. -/
inductive VmState
  | cold
  | ready
  deriving DecidableEq, Repr

def VmState.toU8 : VmState → UInt8
  | .cold => 0x00
  | .ready => 0x01

/-- `VmState::from_u8`. -/
def VmState.fromU8 (value : Nat) : Outcome String VmState :=
  match value with
  | 0x00 => .ok .cold
  | 0x01 => .ok .ready
  | _ => .err s!"invalid vm state: {value}"

/-- `RuntimeStatus`. -/
inductive RuntimeStatus
  | notStarted
  | systemInit
  | fallbackInit
  deriving DecidableEq, Repr

def RuntimeStatus.toU8 : RuntimeStatus → UInt8
  | .notStarted => 0x00
  | .systemInit => 0x01
  | .fallbackInit => 0x02

/-- `RuntimeStatus::from_u8`. -/
def RuntimeStatus.fromU8 (value : Nat) : Outcome String RuntimeStatus :=
  match value with
  | 0x00 => .ok .notStarted
  | 0x01 => .ok .systemInit
  | 0x02 => .ok .fallbackInit
  | _ => .err s!"invalid runtime status: {value}"

/-- `String::as_bytes`. -/
def utf8 (s : String) : Bytes := s.toByteArray.data.toList

/-- `String::from_utf8` with a context. -/
def fromUtf8Or (context : String) (bytes : Bytes) : Outcome String String :=
  match fromUtf8 bytes with
  | some s => .ok s
  | none => .err context

/-! ## Cursors -/

/-- `get_u8`, `get_u16` and `get_u32`: the next `k` bytes as a number. -/
def getBe (k : Nat) (bytes : Bytes) : Outcome String (Nat × Bytes) := do
  let head ← .slice bytes 0 k
  let rest ← .sliceFrom bytes k
  pure (beNat head, rest)

/-- A length prefix and what it announces; the length is truncated to 32 bits. -/
def lenPrefixed (payload : Bytes) : Bytes := beBytes 4 payload.length ++ payload

/-- `take_len_prefixed`. -/
def takeLenPrefixed (bytes : Bytes) (label : String) : Outcome String (Bytes × Bytes) :=
  if bytes.length < 4 then .err (label ++ " length prefix truncated")
  else do
    let (len, bytes) ← getBe 4 bytes
    if bytes.length < len then .err (label ++ " payload truncated")
    else do
      let payload ← .slice bytes 0 len
      let rest ← .sliceFrom bytes len
      pure (payload, rest)

/-! ## Payloads -/

/-- `AttestationPayload`. -/
structure AttestationPayload where
  protocolVersion : UInt16
  state : VmState
  runtimeStatus : RuntimeStatus
  jwt : String
  deriving DecidableEq, Repr

/-- `AttestationPayload::to_bytes`. -/
def AttestationPayload.toBytes (p : AttestationPayload) : Bytes :=
  beBytes 2 p.protocolVersion.toNat ++ [p.state.toU8, p.runtimeStatus.toU8] ++
    lenPrefixed (utf8 p.jwt)

/-- `AttestationPayload::from_bytes`. -/
def AttestationPayload.fromBytes (bytes : Bytes) : Outcome String AttestationPayload :=
  if bytes.length < 8 then .err "attestation payload too short"
  else do
    let (protocolVersion, bytes) ← getBe 2 bytes
    let (state, bytes) ← getBe 1 bytes
    let state ← VmState.fromU8 state
    let (runtimeStatus, bytes) ← getBe 1 bytes
    let runtimeStatus ← RuntimeStatus.fromU8 runtimeStatus
    let (jwtLen, bytes) ← getBe 4 bytes
    if bytes.length ≠ jwtLen then
      .err ("attestation payload length mismatch: expected " ++ toString jwtLen ++ ", got " ++
        toString bytes.length)
    else do
      let jwt ← fromUtf8Or "attestation jwt not utf-8" bytes
      pure ⟨UInt16.ofNat protocolVersion, state, runtimeStatus, jwt⟩

/-- `RootfsSource`. -/
inductive RootfsSource
  | none
  | inline (data : Bytes)
  | url (address : String)
  deriving DecidableEq, Repr

/-- `RootfsSource::encode`. -/
def RootfsSource.encode : RootfsSource → Bytes
  | .none => [0x00]
  | .inline data => 0x01 :: lenPrefixed data
  | .url address => 0x02 :: lenPrefixed (utf8 address)

/-- `RootfsSource::decode`. -/
def RootfsSource.decode (bytes : Bytes) : Outcome String (RootfsSource × Bytes) :=
  if bytes.isEmpty then .err "rootfs source payload too short"
  else do
    let (kind, bytes) ← getBe 1 bytes
    match kind with
    | 0x00 => pure (.none, bytes)
    | 0x01 => do
        let (payload, bytes) ← takeLenPrefixed bytes "inline rootfs"
        pure (.inline payload, bytes)
    | 0x02 => do
        let (payload, bytes) ← takeLenPrefixed bytes "rootfs url"
        let url ← fromUtf8Or "rootfs url not utf-8" payload
        pure (.url url, bytes)
    | kind => .err s!"invalid rootfs source kind: {kind}"

/-- `SetupRequest`. -/
structure SetupRequest where
  accessToken : String
  rootfs : RootfsSource
  deriving DecidableEq, Repr

/-- `SetupRequest::to_bytes`. -/
def SetupRequest.toBytes (request : SetupRequest) : Bytes :=
  lenPrefixed (utf8 request.accessToken) ++ request.rootfs.encode

/-- `SetupRequest::from_bytes`. -/
def SetupRequest.fromBytes (bytes : Bytes) : Outcome String SetupRequest := do
  let (token, bytes) ← takeLenPrefixed bytes "access token"
  let accessToken ← fromUtf8Or "setup access token not utf-8" token
  let (rootfs, bytes) ← RootfsSource.decode bytes
  if ¬ bytes.isEmpty then .err "setup request payload has trailing bytes"
  else pure ⟨accessToken, rootfs⟩

/-! ## Frames and messages -/

/-- `ControlFrame`. -/
structure ControlFrame where
  ty : UInt8
  payload : Bytes
  deriving DecidableEq, Repr

/-- `ControlMessage`. -/
inductive ControlMessage
  | requestAttestation
  | attestation (payload : AttestationPayload)
  | setupRequest (request : SetupRequest)
  | setupComplete
  | error (message : String)
  deriving DecidableEq, Repr

/-- `ControlMessage::to_frame`. -/
def ControlMessage.toFrame : ControlMessage → ControlFrame
  | .requestAttestation => ⟨controlRequestAttestation, []⟩
  | .attestation payload => ⟨controlAttestation, payload.toBytes⟩
  | .setupRequest request => ⟨controlSetupRequest, request.toBytes⟩
  | .setupComplete => ⟨controlSetupComplete, []⟩
  | .error message => ⟨controlError, utf8 message⟩

/-- `ControlMessage::from_frame`. -/
def ControlMessage.fromFrame (frame : ControlFrame) : Outcome String ControlMessage :=
  if frame.ty = controlRequestAttestation then
    if frame.payload.isEmpty then .ok .requestAttestation
    else .err "request attestation frame must be empty"
  else if frame.ty = controlAttestation then do
    let payload ← AttestationPayload.fromBytes frame.payload
    pure (.attestation payload)
  else if frame.ty = controlSetupRequest then do
    let request ← SetupRequest.fromBytes frame.payload
    pure (.setupRequest request)
  else if frame.ty = controlSetupComplete then
    if frame.payload.isEmpty then .ok .setupComplete
    else .err "setup complete frame must be empty"
  else if frame.ty = controlError then do
    let message ← fromUtf8Or "control error not utf-8" frame.payload
    pure (.error message)
  else .err ("unknown control type: " ++ toString frame.ty.toNat)

/-! ## Streams -/

/-- The receiving side of a stream: what is still to be read, and whether the peer has
    finished or reset it. -/
structure Recv where
  bytes : Bytes
  ended : Bool
  deriving DecidableEq, Repr

/-- Why a read on a stream does not return. -/
inductive ReadStop
  | error (message : String)
  | pending
  deriving DecidableEq, Repr

/-- `read_exact` with a context. -/
def Recv.readExact (recv : Recv) (n : Nat) (context : String) :
    Outcome ReadStop (Bytes × Recv) :=
  if n ≤ recv.bytes.length then
    .ok (recv.bytes.take n, { recv with bytes := recv.bytes.drop n })
  else if recv.ended then .err (.error context)
  else .err .pending

/-- `read_u8` with a context. -/
def Recv.readU8 (recv : Recv) (context : String) : Outcome ReadStop (UInt8 × Recv) := do
  let (bytes, recv) ← recv.readExact 1 context
  pure (UInt8.ofNat (beNat bytes), recv)

/-- `ControlFrame::read_from`. -/
def ControlFrame.readFrom (recv : Recv) : Outcome ReadStop (ControlFrame × Recv) := do
  let (ty, recv) ← recv.readU8 "read control type"
  let (len, recv) ← recv.readExact 4 "read control payload length"
  let (payload, recv) ← recv.readExact (beNat len) "read control payload"
  pure (⟨ty, payload⟩, recv)

/-- The bytes `ControlFrame::write_to` writes. -/
def ControlFrame.toBytes (frame : ControlFrame) : Bytes :=
  frame.ty :: lenPrefixed frame.payload

/-- `ControlMessage::read_from`. -/
def ControlMessage.readFrom (recv : Recv) : Outcome ReadStop (ControlMessage × Recv) := do
  let (frame, recv) ← ControlFrame.readFrom recv
  match ControlMessage.fromFrame frame with
  | .ok message => .ok (message, recv)
  | .err e => .err (.error e)
  | .panic p => .panic p

/-- The bytes `ControlMessage::write_to` writes. -/
def ControlMessage.toBytes (message : ControlMessage) : Bytes := message.toFrame.toBytes

end FlyVault.Protocol
