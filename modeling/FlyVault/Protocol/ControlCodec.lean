/-
  The control messages and their frames (`crates/protocol/src/lib.rs`) determine each other.

  For every decoder there is one lemma that says exactly what it accepts: the encoding of a
  value whose length-prefixed fields are shorter than 2^32 bytes, and nothing else. The
  decoders of nested parts read from the front of a cursor (`Reads`) and leave the rest to
  their caller; the decoders of whole payloads check that nothing is left. From these lemmas,
  `fromFrame_eq_ok` says the same of `ControlMessage::from_frame`.
-/
import FlyVault.Lib.Codec
import FlyVault.Protocol.Control

namespace FlyVault.Protocol

open FlyVault.Lib

/-- The length fits into a 32-bit prefix. -/
def Short (bytes : Bytes) : Prop := bytes.length < 2 ^ 32

/-! ## Cursors -/

theorem fromUtf8_eq_some {bytes : Bytes} {s : String} :
    fromUtf8 bytes = some s ↔ utf8 s = bytes := by
  have hbytes : utf8 s = bytes ↔ s.toByteArray = ⟨bytes.toArray⟩ := by
    rw [ByteArray.ext_iff, ← Array.toList_inj]
    rfl
  rw [hbytes, fromUtf8, String.fromUTF8?]
  split
  · rw [Option.some.injEq, ← String.toByteArray_inj]
    exact eq_comm
  · next h =>
      refine iff_of_false (by simp) fun heq => h ?_
      rw [← heq]
      exact s.isValidUTF8

theorem utf8_inj {s t : String} (h : utf8 s = utf8 t) : s = t := by
  have hs := fromUtf8_eq_some.mpr (rfl : utf8 s = utf8 s)
  have ht := fromUtf8_eq_some.mpr (rfl : utf8 t = utf8 t)
  rw [h, ht] at hs
  exact (Option.some.inj hs).symm

theorem fromUtf8Or_eq_ok {context : String} {bytes : Bytes} {s : String} :
    fromUtf8Or context bytes = .ok s ↔ utf8 s = bytes := by
  rw [← fromUtf8_eq_some, fromUtf8Or]
  split
  · next t h => simp [h]
  · next h => simp [h]

/-- The next `k` bytes spell a number below `256 ^ k`. -/
theorem getBe_eq_ok {k n : Nat} {bytes rest : Bytes} :
    getBe k bytes = .ok (n, rest) ↔ n < 256 ^ k ∧ bytes = beBytes k n ++ rest := by
  rw [getBe, Outcome.cut_eq_ok]
  constructor
  · intro h
    obtain ⟨head, hlen, hbytes, hn⟩ := h
    subst hlen hn hbytes
    exact ⟨beNat_lt head, by rw [beBytes_beNat]⟩
  · intro h
    obtain ⟨hn, hbytes⟩ := h
    exact ⟨beBytes k n, length_beBytes k n, hbytes, beNat_beBytes k n hn⟩

theorem beBytes_one (b : UInt8) : beBytes 1 b.toNat = [b] := by
  simp [beBytes, leBytes]

theorem getBe_one_cons (b : UInt8) (tail : Bytes) : getBe 1 (b :: tail) = .ok (b.toNat, tail) :=
  getBe_eq_ok.mpr ⟨b.toNat_lt, by rw [beBytes_one]; rfl⟩

theorem takeLenPrefixed_eq_ok {label : String} {bytes payload rest : Bytes} :
    takeLenPrefixed bytes label = .ok (payload, rest) ↔
      Short payload ∧ bytes = lenPrefixed payload ++ rest := by
  rw [takeLenPrefixed, Outcome.ite_err_eq_ok, Outcome.bind_eq_ok]
  constructor
  · intro h
    obtain ⟨_, ⟨len, tail⟩, hlen, htail⟩ := h
    rw [Outcome.ite_err_eq_ok, Outcome.cut_eq_ok (f := fun head => head)] at htail
    obtain ⟨hlt, hbytes⟩ := getBe_eq_ok.mp hlen
    obtain ⟨_, head, hhead, htail, hpayload⟩ := htail
    subst hpayload hhead htail hbytes
    exact ⟨hlt, by simp [lenPrefixed]⟩
  · intro h
    obtain ⟨hshort, hbytes⟩ := h
    rw [lenPrefixed, List.append_assoc] at hbytes
    refine ⟨?_, (payload.length, payload ++ rest), ?_, ?_⟩
    · rw [hbytes]
      simp
    · exact getBe_eq_ok.mpr ⟨hshort, hbytes⟩
    · rw [Outcome.ite_err_eq_ok, Outcome.cut_eq_ok (f := fun head => head)]
      exact ⟨by simp, payload, rfl, rfl, rfl⟩

theorem reads_lenPrefixed : Reads (takeLenPrefixed · "payload") lenPrefixed Short :=
  fun _ _ _ => takeLenPrefixed_eq_ok

/-! ## Payloads -/

theorem VmState.fromU8_eq_ok {n : Nat} {state : VmState} :
    VmState.fromU8 n = .ok state ↔ n = state.toU8.toNat := by
  constructor
  · intro h
    unfold VmState.fromU8 at h
    split at h <;> cases h <;> rfl
  · intro h
    subst h
    cases state <;> rfl

theorem RuntimeStatus.fromU8_eq_ok {n : Nat} {status : RuntimeStatus} :
    RuntimeStatus.fromU8 n = .ok status ↔ n = status.toU8.toNat := by
  constructor
  · intro h
    unfold RuntimeStatus.fromU8 at h
    split at h <;> cases h <;> rfl
  · intro h
    subst h
    cases status <;> rfl

theorem AttestationPayload.fromBytes_eq_ok {bytes : Bytes} {p : AttestationPayload} :
    AttestationPayload.fromBytes bytes = .ok p ↔ Short (utf8 p.jwt) ∧ bytes = p.toBytes := by
  simp only [AttestationPayload.fromBytes, Outcome.ite_err_eq_ok, Outcome.bind_eq_ok, Prod.exists,
    getBe_eq_ok, VmState.fromU8_eq_ok, RuntimeStatus.fromU8_eq_ok, fromUtf8Or_eq_ok,
    Outcome.pure_eq_ok]
  constructor
  · intro h
    obtain ⟨_, version, b₁, ⟨hversion, h₁⟩, n, b₂, ⟨_, h₂⟩, state, hstate, k, b₃, ⟨_, h₃⟩, status,
      hstatus, len, b₄, ⟨hlen, h₄⟩, heq, jwt, hjwt, hp⟩ := h
    subst hp h₁ h₂ h₃ h₄ hstate hstatus hjwt
    have hexact : (utf8 jwt).length = len := Classical.not_not.mp heq
    have hword : (UInt16.ofNat version).toNat = version := by
      rw [UInt16.toNat_ofNat']
      exact Nat.mod_eq_of_lt hversion
    subst hexact
    refine ⟨hlen, ?_⟩
    simp [AttestationPayload.toBytes, hword, beBytes_one, lenPrefixed]
  · intro h
    obtain ⟨hshort, hbytes⟩ := h
    have hstate := beBytes_one p.state.toU8
    have hstatus := beBytes_one p.runtimeStatus.toU8
    subst hbytes
    refine ⟨?_, p.protocolVersion.toNat, _, ⟨p.protocolVersion.toNat_lt, ?_⟩,
      p.state.toU8.toNat, p.runtimeStatus.toU8 :: lenPrefixed (utf8 p.jwt),
      ⟨p.state.toU8.toNat_lt, rfl⟩, p.state, rfl, p.runtimeStatus.toU8.toNat, _,
      ⟨p.runtimeStatus.toU8.toNat_lt, ?_⟩, p.runtimeStatus, rfl, (utf8 p.jwt).length, utf8 p.jwt,
      ⟨hshort, rfl⟩, fun hne => hne rfl, p.jwt, rfl, ?_⟩
    · simp only [AttestationPayload.toBytes, lenPrefixed, List.length_append, length_beBytes,
        List.length_cons, List.length_nil]
      omega
    · rw [hstate]
      simp [AttestationPayload.toBytes]
    · rw [hstatus]
      rfl
    · rw [UInt16.ofNat_toNat]

/-- The length-prefixed fields fit. -/
def RootfsSource.Fits : RootfsSource → Prop
  | .none => True
  | .inline data => Short data
  | .url address => Short (utf8 address)

theorem RootfsSource.decode_eq_ok {bytes rest : Bytes} {source : RootfsSource} :
    RootfsSource.decode bytes = .ok (source, rest) ↔
      source.Fits ∧ bytes = source.encode ++ rest := by
  rw [RootfsSource.decode, Outcome.ite_err_eq_ok, Outcome.bind_eq_ok, Prod.exists]
  constructor
  · intro h
    obtain ⟨_, kind, tail, hkind, h⟩ := h
    obtain ⟨_, hbytes⟩ := getBe_eq_ok.mp hkind
    subst hbytes
    dsimp only at h
    split at h
    · cases h
      exact ⟨trivial, rfl⟩
    · simp only [Outcome.bind_eq_ok, Prod.exists, takeLenPrefixed_eq_ok, Outcome.pure_eq_ok,
        Prod.mk.injEq] at h
      obtain ⟨payload, rest', ⟨hshort, htail⟩, hsource, hrest⟩ := h
      subst hsource hrest htail
      exact ⟨hshort, rfl⟩
    · simp only [Outcome.bind_eq_ok, Prod.exists, takeLenPrefixed_eq_ok, fromUtf8Or_eq_ok,
        Outcome.pure_eq_ok, Prod.mk.injEq] at h
      obtain ⟨payload, rest', ⟨hshort, htail⟩, url, hurl, hsource, hrest⟩ := h
      subst hsource hrest htail hurl
      exact ⟨hshort, rfl⟩
    · cases h
  · intro h
    obtain ⟨hfits, hbytes⟩ := h
    subst hbytes
    cases source with
    | none => exact ⟨Bool.false_ne_true, _, _, getBe_one_cons 0x00 rest, rfl⟩
    | inline data =>
        refine ⟨Bool.false_ne_true, _, _, getBe_one_cons 0x01 (lenPrefixed data ++ rest), ?_⟩
        show (takeLenPrefixed (lenPrefixed data ++ rest) "inline rootfs" >>= _) = _
        rw [takeLenPrefixed_eq_ok.mpr ⟨hfits, rfl⟩]
        rfl
    | url address =>
        refine ⟨Bool.false_ne_true, _, _,
          getBe_one_cons 0x02 (lenPrefixed (utf8 address) ++ rest), ?_⟩
        show (takeLenPrefixed (lenPrefixed (utf8 address) ++ rest) "rootfs url" >>= _) = _
        rw [takeLenPrefixed_eq_ok.mpr ⟨hfits, rfl⟩]
        show (fromUtf8Or "rootfs url not utf-8" (utf8 address) >>= _) = _
        rw [fromUtf8Or_eq_ok.mpr rfl]
        rfl

/-- The length-prefixed fields fit. -/
def SetupRequest.Fits (request : SetupRequest) : Prop :=
  Short (utf8 request.accessToken) ∧ request.rootfs.Fits

theorem SetupRequest.fromBytes_eq_ok {bytes : Bytes} {request : SetupRequest} :
    SetupRequest.fromBytes bytes = .ok request ↔ request.Fits ∧ bytes = request.toBytes := by
  simp only [SetupRequest.fromBytes, Outcome.bind_eq_ok, Prod.exists, takeLenPrefixed_eq_ok,
    fromUtf8Or_eq_ok, RootfsSource.decode_eq_ok, Outcome.ite_err_eq_ok, Outcome.pure_eq_ok,
    Classical.not_not, List.isEmpty_iff]
  constructor
  · intro h
    obtain ⟨token, b₁, ⟨htoken, h₁⟩, accessToken, hutf8, rootfs, b₂, ⟨hrootfs, h₂⟩, hend, heq⟩ := h
    subst heq h₁ h₂ hend hutf8
    exact ⟨⟨htoken, hrootfs⟩, by simp [SetupRequest.toBytes]⟩
  · intro h
    obtain ⟨⟨htoken, hrootfs⟩, hbytes⟩ := h
    exact ⟨_, _, ⟨htoken, hbytes⟩, _, rfl, _, [], ⟨hrootfs, (List.append_nil _).symm⟩, rfl, rfl⟩

/-! ## Messages -/

/-- The length-prefixed fields of the payload fit. -/
def ControlMessage.Fits : ControlMessage → Prop
  | .attestation payload => Short (utf8 payload.jwt)
  | .setupRequest request => request.Fits
  | .requestAttestation | .setupComplete | .error _ => True

/-- `from_frame` accepts exactly the frames of the messages that fit. -/
theorem ControlMessage.fromFrame_eq_ok {frame : ControlFrame} {message : ControlMessage} :
    ControlMessage.fromFrame frame = .ok message ↔ message.Fits ∧ message.toFrame = frame := by
  obtain ⟨ty, payload⟩ := frame
  constructor
  · intro h
    unfold ControlMessage.fromFrame at h
    dsimp only at h
    split at h
    · next hty =>
        split at h
        · next hempty =>
            cases h
            rw [hty, List.isEmpty_iff.mp hempty]
            exact ⟨trivial, rfl⟩
        · cases h
    · split at h
      · next hty =>
          simp only [Outcome.bind_eq_ok, AttestationPayload.fromBytes_eq_ok,
            Outcome.pure_eq_ok] at h
          obtain ⟨attestation, ⟨hshort, hpayload⟩, hmessage⟩ := h
          subst hmessage hpayload hty
          exact ⟨hshort, rfl⟩
      · split at h
        · next hty =>
            simp only [Outcome.bind_eq_ok, SetupRequest.fromBytes_eq_ok, Outcome.pure_eq_ok] at h
            obtain ⟨request, ⟨hfits, hpayload⟩, hmessage⟩ := h
            subst hmessage hpayload hty
            exact ⟨hfits, rfl⟩
        · split at h
          · next hty =>
              split at h
              · next hempty =>
                  cases h
                  rw [hty, List.isEmpty_iff.mp hempty]
                  exact ⟨trivial, rfl⟩
              · cases h
          · split at h
            · next hty =>
                simp only [Outcome.bind_eq_ok, fromUtf8Or_eq_ok, Outcome.pure_eq_ok] at h
                obtain ⟨text, hpayload, hmessage⟩ := h
                subst hmessage hpayload hty
                exact ⟨trivial, rfl⟩
            · cases h
  · intro h
    obtain ⟨hfits, hframe⟩ := h
    rw [← hframe]
    cases message with
    | requestAttestation => rfl
    | setupComplete => rfl
    | attestation payload =>
        show (AttestationPayload.fromBytes payload.toBytes >>= _) = _
        rw [AttestationPayload.fromBytes_eq_ok.mpr ⟨hfits, rfl⟩]
        rfl
    | setupRequest request =>
        show (SetupRequest.fromBytes request.toBytes >>= _) = _
        rw [SetupRequest.fromBytes_eq_ok.mpr ⟨hfits, rfl⟩]
        rfl
    | error text =>
        show (fromUtf8Or "control error not utf-8" (utf8 text) >>= _) = _
        rw [fromUtf8Or_eq_ok.mpr rfl]
        rfl

/-- The codec is a bijection between the messages whose length-prefixed fields are shorter
    than 2^32 bytes and their frames: decoding undoes encoding, every accepted frame is the
    one frame of its message, and what is accepted is what some message is encoded to. -/
theorem fromFrame_toFrame :
    (∀ message : ControlMessage, message.Fits →
      ControlMessage.fromFrame message.toFrame = .ok message) ∧
    (∀ frame message, ControlMessage.fromFrame frame = .ok message → message.toFrame = frame) ∧
    (∀ frame, (∃ message, ControlMessage.fromFrame frame = .ok message) ↔
      ∃ message : ControlMessage, message.Fits ∧ message.toFrame = frame) := by
  refine ⟨fun message hfits => ?_, fun frame message h => ?_, fun frame => ?_⟩
  · exact ControlMessage.fromFrame_eq_ok.mpr ⟨hfits, rfl⟩
  · exact (ControlMessage.fromFrame_eq_ok.mp h).2
  · simp only [ControlMessage.fromFrame_eq_ok]

example : ControlMessage.fromFrame
    (ControlMessage.setupRequest ⟨"t", .inline [1, 2]⟩).toFrame =
      .ok (.setupRequest ⟨"t", .inline [1, 2]⟩) := by
  decide

end FlyVault.Protocol
