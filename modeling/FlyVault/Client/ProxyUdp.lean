/-
  The sending side of the UDP proxy (`crates/client/src/proxy_udp.rs`, and
  `encode_proxy_machine_header` of `crates/protocol/src/lib.rs`).

  `ProxyUdpSocket` stands between QUIC and the real socket and puts the header of its machine
  in front of every datagram: the length of the machine id, eight bytes little-endian, and the
  id. `decodeProxyPacket_eq_ok` says exactly what the receiving side accepts, with either
  arithmetic: the header of a machine id that is not empty, and a payload that is not empty.
  A length field near 2^64, on which the decoder panics, belongs to no string.
-/
import FlyVault.Protocol.ControlCodec
import FlyVault.Protocol.ProxyPacket

namespace FlyVault.Protocol

open FlyVault.Lib

/-- `encode_proxy_machine_header`. -/
def encodeProxyMachineHeader (machineId : String) : Except String Bytes :=
  if machineId = "" then .error "machine_id must not be empty"
  else .ok (leBytes 8 (utf8 machineId).length ++ utf8 machineId)

theorem encodeProxyMachineHeader_of_ne {machineId : String} (h : machineId ≠ "") :
    encodeProxyMachineHeader machineId =
      .ok (leBytes 8 (utf8 machineId).length ++ utf8 machineId) := if_neg h

theorem utf8_eq_nil {s : String} : utf8 s = [] ↔ s = "" :=
  ⟨fun h => utf8_inj h, fun h => by rw [h]; rfl⟩

/-- What the decoder cuts out of a packet that is a header and a payload. -/
theorem idLen_append {machineId : String} {rest : Bytes}
    (hfit : 8 + (utf8 machineId).length < 2 ^ 64) :
    idLen (leBytes 8 (utf8 machineId).length ++ rest) = (utf8 machineId).length := by
  rw [idLen, List.take_left' (length_leBytes 8 _)]
  exact leNat_leBytes 8 _ (by omega)

theorem header_of_decodeProxyPacket {arith : Arith} {packet payload : Bytes} {machineId : String}
    (h : decodeProxyPacket arith packet = .ok ⟨machineId, payload⟩) :
    machineId ≠ "" ∧ payload ≠ [] ∧ 8 + (utf8 machineId).length < 2 ^ 64 ∧
      packet = leBytes 8 (utf8 machineId).length ++ utf8 machineId ++ payload := by
  have hlen : 8 ≤ packet.length := by
    by_contra hshort
    rw [decodeProxyPacket, if_pos (by omega)] at h
    cases h
  have hfit : 8 + idLen packet < 2 ^ 64 := by
    by_contra hover
    obtain ⟨p, hp⟩ := decodeProxyPacket_panic arith hlen (by omega)
    rw [hp] at h
    cases h
  rw [decodeProxyPacket_of_fits arith hlen hfit, Outcome.ite_err_eq_ok,
    Outcome.ite_err_eq_ok] at h
  obtain ⟨hpos, hroom, h⟩ := h
  split at h
  · cases h
  · next id hid =>
      rw [Outcome.ite_err_eq_ok, List.isEmpty_iff] at h
      obtain ⟨hpayload, h⟩ := h
      cases h
      have hbytes := fromUtf8_eq_some.mp hid
      have hidLen : (utf8 machineId).length = idLen packet := by
        rw [hbytes, List.length_drop, List.length_take]
        omega
      have hheader : leBytes 8 (idLen packet) = packet.take 8 := by
        have hback := leBytes_leNat (packet.take 8)
        rwa [List.length_take, Nat.min_eq_left hlen] at hback
      refine ⟨?_, hpayload, by omega, ?_⟩
      · intro hempty
        rw [hempty] at hidLen
        exact hpos hidLen.symm
      · have hfirst : (packet.take (8 + idLen packet)).take 8 = packet.take 8 := by
          rw [List.take_take, Nat.min_eq_left (by omega)]
        rw [hidLen, hheader, hbytes, ← hfirst, List.take_append_drop, List.take_append_drop]

theorem decodeProxyPacket_header {arith : Arith} {packet payload : Bytes} {machineId : String}
    (hid : machineId ≠ "") (hpayload : payload ≠ []) (hfit : 8 + (utf8 machineId).length < 2 ^ 64)
    (hpacket : packet = leBytes 8 (utf8 machineId).length ++ utf8 machineId ++ payload) :
    decodeProxyPacket arith packet = .ok ⟨machineId, payload⟩ := by
  have hidLen : idLen packet = (utf8 machineId).length := by
    rw [hpacket, List.append_assoc]
    exact idLen_append hfit
  have hpos : (utf8 machineId).length ≠ 0 := by
    intro hzero
    exact hid (utf8_eq_nil.mp (List.length_eq_zero_iff.mp hzero))
  have hheader : (leBytes 8 (utf8 machineId).length ++ utf8 machineId).length =
      8 + (utf8 machineId).length := by
    rw [List.length_append, length_leBytes]
  have htake : (packet.take (8 + idLen packet)).drop 8 = utf8 machineId := by
    rw [hidLen, hpacket, List.take_left' hheader]
    exact List.drop_left' (length_leBytes 8 _)
  have hdrop : packet.drop (8 + idLen packet) = payload := by
    rw [hidLen, hpacket, List.drop_left' hheader]
  have hroom : 8 + idLen packet ≤ packet.length := by
    rw [hidLen, hpacket, List.length_append, hheader]
    omega
  rw [decodeProxyPacket_of_fits arith (by omega) (by omega), if_neg (by omega),
    if_neg (by omega), htake, hdrop, fromUtf8_eq_some.mpr rfl]
  dsimp only
  rw [if_neg (by rwa [List.isEmpty_iff])]

/-- `decode_proxy_packet` accepts a header and a payload, neither empty, and nothing else. -/
theorem decodeProxyPacket_eq_ok {arith : Arith} {packet payload : Bytes} {machineId : String} :
    decodeProxyPacket arith packet = .ok ⟨machineId, payload⟩ ↔
      machineId ≠ "" ∧ payload ≠ [] ∧ 8 + (utf8 machineId).length < 2 ^ 64 ∧
        packet = leBytes 8 (utf8 machineId).length ++ utf8 machineId ++ payload :=
  ⟨header_of_decodeProxyPacket,
    fun h => decodeProxyPacket_header h.1 h.2.1 h.2.2.1 h.2.2.2⟩

end FlyVault.Protocol

namespace FlyVault.Client

open FlyVault.Lib FlyVault.Protocol

/-- A string a program can hold: no allocation is larger than `isize::MAX` bytes. -/
structure Str where
  text : String
  fits : (utf8 text).length ≤ 2 ^ 63 - 1

/-- `io::ErrorKind`, as far as it is used. -/
inductive ErrorKind
  | invalidInput
  | other
  deriving DecidableEq, Repr

/-- `io::Error`. -/
structure IoError where
  kind : ErrorKind
  message : String
  deriving DecidableEq, Repr

/-- `Transmit`: a datagram with its addresses, or several of `segment_size` bytes each. -/
structure Transmit (Addr Ecn Ip : Type) where
  destination : Addr
  ecn : Option Ecn
  contents : Bytes
  segmentSize : Option Nat
  srcIp : Option Ip

/-- `ProxyUdpSocket`, without the socket inside. -/
structure ProxyUdpSocket where
  machineHeader : Bytes

/-- `ProxyUdpSocket::new`. -/
def ProxyUdpSocket.new (machineId : Str) : Except IoError ProxyUdpSocket :=
  if machineId.text = "" then .error ⟨.invalidInput, "machine_id must not be empty"⟩
  else
    match encodeProxyMachineHeader machineId.text with
    | .error message => .error ⟨.other, message⟩
    | .ok machineHeader => .ok ⟨machineHeader⟩

/-- `prepend_machine_header`. -/
def ProxyUdpSocket.prependMachineHeader (socket : ProxyUdpSocket) (payload : Bytes) : Bytes :=
  socket.machineHeader ++ payload

variable {Addr Ecn Ip β : Type}

/-- `try_send`, up to the call of the socket inside: what that is asked to send. -/
def ProxyUdpSocket.trySend (socket : ProxyUdpSocket) (transmit : Transmit Addr Ecn Ip) :
    Except IoError (Transmit Addr Ecn Ip) :=
  if transmit.segmentSize.isSome then
    .error ⟨.invalidInput, "segmented transmits are unsupported in proxy mode"⟩
  else .ok {
    destination := transmit.destination
    ecn := transmit.ecn
    contents := socket.prependMachineHeader transmit.contents
    segmentSize := none
    srcIp := transmit.srcIp }

theorem decodeProxyPacket_header (arith : Arith) {machineId : Str} {header payload : Bytes}
    (hheader : encodeProxyMachineHeader machineId.text = .ok header) (hpayload : payload ≠ []) :
    decodeProxyPacket arith (header ++ payload) = .ok ⟨machineId.text, payload⟩ := by
  unfold encodeProxyMachineHeader at hheader
  split at hheader
  · cases hheader
  · next hid =>
      cases hheader
      have hfits := machineId.fits
      exact decodeProxyPacket_eq_ok.mpr ⟨hid, hpayload, by omega, rfl⟩

theorem ProxyUdpSocket.new_eq_ok {machineId : Str} {socket : ProxyUdpSocket} :
    ProxyUdpSocket.new machineId = .ok socket ↔
      encodeProxyMachineHeader machineId.text = .ok socket.machineHeader := by
  obtain ⟨machineHeader⟩ := socket
  by_cases hid : machineId.text = ""
  · rw [ProxyUdpSocket.new, if_pos hid, encodeProxyMachineHeader, if_pos hid]
    exact iff_of_false (by simp) (by simp)
  · rw [ProxyUdpSocket.new, if_neg hid, encodeProxyMachineHeader_of_ne hid]
    simp

theorem ProxyUdpSocket.trySend_eq_ok {socket : ProxyUdpSocket}
    {transmit sent : Transmit Addr Ecn Ip} :
    socket.trySend transmit = .ok sent ↔ transmit.segmentSize = none ∧
      sent = { transmit with contents := socket.machineHeader ++ transmit.contents } := by
  obtain ⟨destination, ecn, contents, segmentSize, srcIp⟩ := transmit
  cases segmentSize with
  | none => simp [ProxyUdpSocket.trySend, ProxyUdpSocket.prependMachineHeader, eq_comm]
  | some size => simp [ProxyUdpSocket.trySend]

/-- A datagram sent through the socket of a machine is decoded to that machine and its own
    contents. -/
theorem trySend_decodes (arith : Arith) {machineId : Str} {socket : ProxyUdpSocket}
    {transmit sent : Transmit Addr Ecn Ip} (hsocket : ProxyUdpSocket.new machineId = .ok socket)
    (hsent : socket.trySend transmit = .ok sent) (hcontents : transmit.contents ≠ []) :
    decodeProxyPacket arith sent.contents = .ok ⟨machineId.text, transmit.contents⟩ := by
  obtain ⟨-, rfl⟩ := ProxyUdpSocket.trySend_eq_ok.mp hsent
  exact decodeProxyPacket_header arith (ProxyUdpSocket.new_eq_ok.mp hsocket) hcontents

/-- The proxy passes it on to the backend of that machine. -/
theorem trySend_forwarded (arith : Arith) {machineId : Str} {socket : ProxyUdpSocket}
    {transmit sent : Transmit Addr Ecn Ip} {machines : String → Option β} {backend : β}
    (hsocket : ProxyUdpSocket.new machineId = .ok socket)
    (hsent : socket.trySend transmit = .ok sent) (hcontents : transmit.contents ≠ [])
    (hbackend : machines machineId.text = some backend) :
    handleDatagram arith (machines, sent.contents) = .ok (.forward backend transmit.contents) := by
  rw [handleDatagram, trySend_decodes arith hsocket hsent hcontents]
  dsimp only
  rw [hbackend]

/-- The framing is exact: what is sent for a machine is decoded to that machine and the same
    payload, whatever is decoded is a header and a payload, and no two pairs of a machine and a
    payload share a packet. -/
theorem proxy_framing_exact (arith : Arith) :
    (∀ (machineId : Str) (transmit : Transmit Addr Ecn Ip), machineId.text ≠ "" →
      transmit.contents ≠ [] → transmit.segmentSize = none →
      ∃ header socket, encodeProxyMachineHeader machineId.text = .ok header ∧
        ProxyUdpSocket.new machineId = .ok socket ∧
        socket.trySend transmit = .ok { transmit with contents := header ++ transmit.contents } ∧
        decodeProxyPacket arith (header ++ transmit.contents) =
          .ok ⟨machineId.text, transmit.contents⟩) ∧
    (∀ packet decoded, decodeProxyPacket arith packet = .ok decoded →
      decoded.machineId ≠ "" ∧ decoded.payload ≠ [] ∧
        ∃ header, encodeProxyMachineHeader decoded.machineId = .ok header ∧
          packet = header ++ decoded.payload) ∧
    ∀ (m₁ m₂ : Str) (d₁ d₂ h₁ h₂ : Bytes), d₁ ≠ [] → d₂ ≠ [] →
      encodeProxyMachineHeader m₁.text = .ok h₁ → encodeProxyMachineHeader m₂.text = .ok h₂ →
      h₁ ++ d₁ = h₂ ++ d₂ → m₁.text = m₂.text ∧ d₁ = d₂ := by
  refine ⟨?_, ?_, ?_⟩
  · intro machineId transmit hid hcontents hsegment
    obtain ⟨header, hheader⟩ : ∃ header, encodeProxyMachineHeader machineId.text = .ok header :=
      ⟨_, encodeProxyMachineHeader_of_ne hid⟩
    refine ⟨header, ⟨header⟩, hheader, ProxyUdpSocket.new_eq_ok.mpr hheader, ?_, ?_⟩
    · exact ProxyUdpSocket.trySend_eq_ok.mpr ⟨hsegment, rfl⟩
    · exact decodeProxyPacket_header arith hheader hcontents
  · intro packet decoded hdecoded
    obtain ⟨hid, hpayload, -, hpacket⟩ := decodeProxyPacket_eq_ok.mp hdecoded
    exact ⟨hid, hpayload, _, encodeProxyMachineHeader_of_ne hid, hpacket⟩
  · intro m₁ m₂ d₁ d₂ h₁ h₂ hd₁ hd₂ he₁ he₂ hsame
    have hdecoded := decodeProxyPacket_header arith he₁ hd₁
    rw [hsame, decodeProxyPacket_header arith he₂ hd₂, Outcome.ok.injEq,
      ProxyPacket.mk.injEq] at hdecoded
    exact ⟨hdecoded.1.symm, hdecoded.2.symm⟩

/-- Two bytes sent to the machine "m1". -/
theorem proxy_framing_exact_m1 :
    decodeProxyPacket .wrap [2, 0, 0, 0, 0, 0, 0, 0, 109, 49, 7, 8] = .ok ⟨"m1", [7, 8]⟩ := by
  obtain ⟨hsends, -⟩ := @proxy_framing_exact Unit Unit Unit .wrap
  obtain ⟨header, _, hheader, -, -, hdecodes⟩ :=
    hsends ⟨"m1", by decide⟩ ⟨(), none, [7, 8], none, none⟩ (by decide) (by decide) rfl
  cases hheader
  exact hdecodes

end FlyVault.Client
