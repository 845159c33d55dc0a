/-
  The datagrams the UDP proxy receives (`decode_proxy_packet`, `crates/protocol/src/lib.rs`,
  and the loop of `run_proxy`, `crates/proxy/src/proxy.rs`).

  A packet is a little-endian 64-bit length, a machine id of that length and a payload. The
  length is whatever the sender wrote, and the bound check adds 8 to it. `usize` has 64 bits;
  the model is parametrised by what an overflowing addition does, since a debug build panics
  and a release build wraps.

  `decodeProxyPacket_safe_iff`: with either, decoding panics exactly on the packets whose
  length field is at least 2^64 - 8. A wrapped sum is below 8, so it passes the bound check and
  the slice from 8 to it panics. `runProxy` decodes in its own task, so one such datagram ends
  it.
-/
import FlyVault.Lib.Endian
import FlyVault.Lib.Outcome
import FlyVault.Protocol.Console

namespace FlyVault.Protocol

open FlyVault.Lib

/-- `ProxyPacket`. -/
structure ProxyPacket where
  machineId : String
  payload : Bytes
  deriving DecidableEq

/-- `std::str::from_utf8`. -/
def fromUtf8 (bytes : Bytes) : Option String := String.fromUTF8? ⟨bytes.toArray⟩

/-- `decode_proxy_packet`. -/
def decodeProxyPacket (arith : Arith) (packet : Bytes) : Outcome String ProxyPacket :=
  if packet.length < 8 then .err "packet too short for proxy header"
  else do
    let header ← .slice packet 0 8
    let idLen := leNat header
    if idLen = 0 then .err "proxy machine id must not be empty"
    else do
      if packet.length < (← .add64 arith 8 idLen) then
        .err "packet too short for proxy machine id"
      else do
        match fromUtf8 (← .slice packet 8 (← .add64 arith 8 idLen)) with
        | none => .err "proxy machine id not utf-8"
        | some machineId =>
          let payload ← .sliceFrom packet (← .add64 arith 8 idLen)
          if payload.isEmpty then .err "proxy packet payload must not be empty"
          else .ok ⟨machineId, payload⟩

/-- The length field of a packet that has one. -/
def idLen (packet : Bytes) : Nat := leNat (packet.take 8)

theorem header_eq {packet : Bytes} (hlen : 8 ≤ packet.length) :
    (.slice packet 0 8 : Outcome String Bytes) = .ok (packet.take 8) := by
  rw [Outcome.slice_of_le (Nat.zero_le 8) hlen, List.drop_zero]

/-- With a length field that leaves room for the header, every addition and every slice
    succeeds. -/
theorem decodeProxyPacket_of_fits (arith : Arith) {packet : Bytes} (hlen : 8 ≤ packet.length)
    (hfit : 8 + idLen packet < 2 ^ 64) :
    decodeProxyPacket arith packet =
      if idLen packet = 0 then .err "proxy machine id must not be empty"
      else if packet.length < 8 + idLen packet then .err "packet too short for proxy machine id"
      else
        match fromUtf8 ((packet.take (8 + idLen packet)).drop 8) with
        | none => .err "proxy machine id not utf-8"
        | some machineId =>
          if (packet.drop (8 + idLen packet)).isEmpty then
            .err "proxy packet payload must not be empty"
          else .ok ⟨machineId, packet.drop (8 + idLen packet)⟩ := by
  have hadd : (.add64 arith 8 (idLen packet) : Outcome String Nat) = .ok (8 + idLen packet) :=
    Outcome.add64_of_lt hfit
  unfold decodeProxyPacket
  rw [if_neg (Nat.not_lt.mpr hlen), header_eq hlen]
  simp only [bind, Outcome.ok_bind]
  rw [show leNat (packet.take 8) = idLen packet from rfl, hadd]
  simp only [Outcome.ok_bind]
  by_cases hshort : packet.length < 8 + idLen packet
  · rw [if_pos hshort, if_pos hshort]
  · rw [if_neg hshort, if_neg hshort, Outcome.slice_of_le (by omega) (by omega),
      Outcome.ok_bind, Outcome.sliceFrom_of_le (by omega)]
    rfl

theorem decodeProxyPacket_safe (arith : Arith) {packet : Bytes} (hlen : 8 ≤ packet.length)
    (hfit : 8 + idLen packet < 2 ^ 64) : (decodeProxyPacket arith packet).Safe := by
  rw [decodeProxyPacket_of_fits arith hlen hfit]
  split
  · exact Outcome.safe_err _
  · split
    · exact Outcome.safe_err _
    · split
      · exact Outcome.safe_err _
      · split
        · exact Outcome.safe_err _
        · exact Outcome.safe_ok _

/-- Otherwise the addition panics, or it wraps below 8 and the first slice does. -/
theorem decodeProxyPacket_panic (arith : Arith) {packet : Bytes} (hlen : 8 ≤ packet.length)
    (hover : 2 ^ 64 ≤ 8 + idLen packet) : ∃ p, decodeProxyPacket arith packet = .panic p := by
  have hlt : idLen packet < 2 ^ 64 := by
    have h := leNat_lt (packet.take 8)
    rw [List.length_take, Nat.min_eq_left hlen] at h
    exact h
  unfold decodeProxyPacket
  rw [if_neg (Nat.not_lt.mpr hlen), header_eq hlen]
  simp only [bind, Outcome.ok_bind]
  rw [show leNat (packet.take 8) = idLen packet from rfl, if_neg (by omega)]
  cases arith with
  | trap =>
      rw [Outcome.add64_trap hover]
      exact ⟨.overflow, rfl⟩
  | wrap =>
      have hwrap : (8 + idLen packet) % 2 ^ 64 = 8 + idLen packet - 2 ^ 64 := by omega
      rw [Outcome.add64_wrap hover]
      simp only [Outcome.ok_bind]
      rw [hwrap, if_neg (by omega), Outcome.slice_of_gt (by omega)]
      exact ⟨.sliceOrder, rfl⟩

/-- Whether a datagram is decoded without a panic. -/
theorem decodeProxyPacket_safe_iff (arith : Arith) (packet : Bytes) :
    (decodeProxyPacket arith packet).Safe ↔ packet.length < 8 ∨ idLen packet < 2 ^ 64 - 8 := by
  by_cases hlen : packet.length < 8
  · have herr : decodeProxyPacket arith packet = .err "packet too short for proxy header" :=
      if_pos hlen
    rw [herr]
    exact ⟨fun _ => .inl hlen, fun _ => Outcome.safe_err _⟩
  · constructor
    · intro hsafe
      refine .inr (Nat.lt_of_not_le fun hover => ?_)
      obtain ⟨p, hp⟩ := decodeProxyPacket_panic arith (Nat.le_of_not_lt hlen) (by omega)
      exact hsafe p hp
    · intro h
      exact decodeProxyPacket_safe arith (Nat.le_of_not_lt hlen) (by omega)

/-! ## The loop of the proxy -/

/-- What `run_proxy` does with a datagram: drop it, drop it after asking for the machine to be
    started, or send the payload to the machine's backend. -/
inductive Action (β : Type)
  | invalid (error : String)
  | notReady (machineId : String)
  | forward (backend : β) (payload : Bytes)

variable {β : Type}

/-- One round of `run_proxy`, with the machine map as it is at that moment. -/
def handleDatagram (arith : Arith) (received : (String → Option β) × Bytes) :
    Outcome String (Action β) :=
  match decodeProxyPacket arith received.2 with
  | .err error => .ok (.invalid error)
  | .panic p => .panic p
  | .ok decoded =>
    match received.1 decoded.machineId with
    | none => .ok (.notReady decoded.machineId)
    | some backend => .ok (.forward backend decoded.payload)

/-- `run_proxy` on the datagrams it receives. -/
def runProxy (arith : Arith) (received : List ((String → Option β) × Bytes)) :
    Outcome String (List (Action β)) := Outcome.traverse (handleDatagram arith) received

theorem handleDatagram_safe_iff (arith : Arith) (received : (String → Option β) × Bytes) :
    (handleDatagram arith received).Safe ↔ (decodeProxyPacket arith received.2).Safe := by
  unfold handleDatagram
  cases decodeProxyPacket arith received.2 with
  | err error => exact ⟨fun _ => Outcome.safe_err _, fun _ => Outcome.safe_ok _⟩
  | panic p => exact ⟨fun h => absurd h (Outcome.not_safe_panic p),
      fun h => absurd h (Outcome.not_safe_panic p)⟩
  | ok decoded =>
      refine ⟨fun _ => Outcome.safe_ok _, fun _ => ?_⟩
      dsimp only
      split <;> exact Outcome.safe_ok _

theorem handleDatagram_ne_err (arith : Arith) (received : (String → Option β) × Bytes)
    (error : String) : handleDatagram arith received ≠ .err error := by
  unfold handleDatagram
  split
  · simp
  · simp
  · split <;> simp

/-- Decoding, with either arithmetic, panics exactly on a packet with a length field of at
    least 2^64 - 8, and the proxy goes down exactly when it receives one. -/
theorem proxy_safe_iff (arith : Arith) :
    (∀ packet, (decodeProxyPacket arith packet).Safe ↔
      packet.length < 8 ∨ idLen packet < 2 ^ 64 - 8) ∧
    ∀ received : List ((String → Option β) × Bytes), (runProxy arith received).Safe ↔
      ∀ r ∈ received, r.2.length < 8 ∨ idLen r.2 < 2 ^ 64 - 8 := by
  refine ⟨decodeProxyPacket_safe_iff arith, fun received => ?_⟩
  rw [runProxy, Outcome.safe_traverse (handleDatagram_ne_err arith)]
  refine forall_congr' fun r => imp_congr_right fun _ => ?_
  rw [handleDatagram_safe_iff, decodeProxyPacket_safe_iff]

/-- Eight bytes bring the proxy down in either build. -/
theorem decodeProxyPacket_eight_bytes :
    decodeProxyPacket .trap [0xF8, 0xFF, 0xFF, 0xFF, 0xFF, 0xFF, 0xFF, 0xFF] = .panic .overflow ∧
    decodeProxyPacket .wrap [0xF8, 0xFF, 0xFF, 0xFF, 0xFF, 0xFF, 0xFF, 0xFF] =
      .panic .sliceOrder := by
  decide

end FlyVault.Protocol
