/-
  Frames on a stream (`ControlFrame` and `ConsoleFrame`, `crates/protocol/src/lib.rs`).

  Both kinds of frame are a type byte and a length-prefixed payload and are read in three
  parts; `readParts` is that reader with the contexts of its three errors. It returns a frame
  exactly when all its bytes are there (`readParts_eq_ok`), and on a stream that has ended it
  otherwise fails, in the part in which the bytes run out (`readParts_ended`).

  So a stream of frames cut at an arbitrary byte gives the frames that lie in it as a whole,
  and then an error (`frames_of_cut_stream`): a frame that was received in part is never
  returned, and a count of received payload bytes never includes one.
-/
import FlyVault.Lib.Codec
import FlyVault.Protocol.ControlCodec

namespace FlyVault.Protocol

open FlyVault.Lib

/-- Read a frame in its three parts. -/
def readParts {φ : Type} (ty len payload : String) (f : UInt8 → Bytes → φ) (recv : Recv) :
    Outcome ReadStop (φ × Recv) := do
  let (ty, recv) ← recv.readU8 ty
  let (len, recv) ← recv.readExact 4 len
  let (payload, recv) ← recv.readExact (beNat len) payload
  pure (f ty payload, recv)

/-- `ConsoleFrame::read_from`. -/
def ConsoleFrame.readFrom (recv : Recv) : Outcome ReadStop (ConsoleFrame × Recv) :=
  readParts "read console type" "read console payload length" "read console payload"
    ConsoleFrame.mk recv

/-- The bytes `ConsoleFrame::write_to` writes. -/
def ConsoleFrame.toBytes (frame : ConsoleFrame) : Bytes := frame.ty :: lenPrefixed frame.payload

theorem ControlFrame.readFrom_eq (recv : Recv) :
    ControlFrame.readFrom recv =
      readParts "read control type" "read control payload length" "read control payload"
        ControlFrame.mk recv := rfl

/-! ## One frame -/

theorem Recv.readExact_eq_ok {recv rest : Recv} {n : Nat} {context : String} {bytes : Bytes} :
    recv.readExact n context = .ok (bytes, rest) ↔
      bytes.length = n ∧ recv = ⟨bytes ++ rest.bytes, rest.ended⟩ := by
  obtain ⟨all, ended⟩ := recv
  unfold Recv.readExact
  constructor
  · intro h
    split at h
    · next hle =>
        cases h
        exact ⟨List.length_take_of_le hle, by rw [List.take_append_drop]⟩
    · split at h <;> cases h
  · intro h
    obtain ⟨hlen, hrecv⟩ := h
    cases hrecv
    subst hlen
    rw [if_pos (by simp)]
    simp

/-- On a stream that has ended, a read returns or fails with its context. -/
theorem Recv.readExact_ended (bytes : Bytes) (n : Nat) (context : String) :
    (∃ head rest, (⟨bytes, true⟩ : Recv).readExact n context = .ok (head, ⟨rest, true⟩)) ∨
      (⟨bytes, true⟩ : Recv).readExact n context = .err (.error context) := by
  unfold Recv.readExact
  split
  · exact .inl ⟨_, _, rfl⟩
  · exact .inr rfl

theorem Recv.readU8_ended (bytes : Bytes) (context : String) :
    (∃ b rest, (⟨bytes, true⟩ : Recv).readU8 context = .ok (b, ⟨rest, true⟩)) ∨
      (⟨bytes, true⟩ : Recv).readU8 context = .err (.error context) := by
  unfold Recv.readU8
  rcases Recv.readExact_ended bytes 1 context with ⟨head, rest, h⟩ | h
  · exact .inl ⟨_, _, by rw [h]; rfl⟩
  · exact .inr (by rw [h]; rfl)

theorem Recv.readU8_eq_ok {recv rest : Recv} {context : String} {b : UInt8} :
    recv.readU8 context = .ok (b, rest) ↔ recv = ⟨b :: rest.bytes, rest.ended⟩ := by
  simp only [Recv.readU8, Outcome.bind_eq_ok, Prod.exists, Recv.readExact_eq_ok,
    Outcome.pure_eq_ok, Prod.mk.injEq]
  constructor
  · intro h
    obtain ⟨bytes, rest', ⟨hlen, hrecv⟩, hb, hrest⟩ := h
    obtain ⟨c, rfl⟩ := List.length_eq_one_iff.mp hlen
    subst hb hrest
    rw [hrecv]
    simp [beNat, leNat]
  · intro hrecv
    exact ⟨[b], rest, ⟨rfl, hrecv⟩, by simp [beNat, leNat], rfl⟩

section Parts

variable {φ : Type} {ty len payload : String} {f : UInt8 → Bytes → φ}

/-- A frame is returned exactly when all its bytes are there. -/
theorem readParts_eq_ok {recv rest : Recv} {frame : φ} :
    readParts ty len payload f recv = .ok (frame, rest) ↔
      ∃ t p, frame = f t p ∧ Short p ∧
        recv = ⟨t :: lenPrefixed p ++ rest.bytes, rest.ended⟩ := by
  simp only [readParts, Outcome.bind_eq_ok, Prod.exists, Recv.readExact_eq_ok, Recv.readU8_eq_ok,
    Outcome.pure_eq_ok, Prod.mk.injEq]
  constructor
  · intro h
    obtain ⟨t, r₁, h₁, l, r₂, ⟨hl, h₂⟩, p, r₃, ⟨hp, h₃⟩, hframe, hrest⟩ := h
    subst hrest h₁ h₂ h₃ hframe
    have hlt : beNat l < 256 ^ l.length := beNat_lt l
    have hprefix : beBytes 4 p.length = l := by rw [hp, ← hl, beBytes_beNat]
    refine ⟨t, p, rfl, ?_, ?_⟩
    · rw [hl] at hlt
      rw [Short, hp]
      exact hlt
    · simp [lenPrefixed, hprefix]
  · intro h
    obtain ⟨t, p, hframe, hshort, hrecv⟩ := h
    have hlen : beNat (beBytes 4 p.length) = p.length := beNat_beBytes 4 _ hshort
    refine ⟨t, ⟨lenPrefixed p ++ rest.bytes, rest.ended⟩, ?_, beBytes 4 p.length,
      ⟨p ++ rest.bytes, rest.ended⟩, ⟨length_beBytes 4 _, ?_⟩, p, rest, ⟨hlen.symm, rfl⟩,
      hframe.symm, rfl⟩
    · rw [hrecv]
      rfl
    · simp [lenPrefixed]

/-- On a stream that has ended, a frame is returned or the read fails with an error. -/
theorem readParts_ended (ty len payload : String) (f : UInt8 → Bytes → φ) (bytes : Bytes) :
    (∃ x, readParts ty len payload f ⟨bytes, true⟩ = .ok x) ∨
      ∃ context, readParts ty len payload f ⟨bytes, true⟩ = .err (.error context) := by
  unfold readParts
  rcases Recv.readU8_ended bytes ty with ⟨t, r₁, h₁⟩ | h₁
  · rcases Recv.readExact_ended r₁ 4 len with ⟨l, r₂, h₂⟩ | h₂
    · rcases Recv.readExact_ended r₂ (beNat l) payload with ⟨p, r₃, h₃⟩ | h₃
      · exact .inl ⟨(f t p, ⟨r₃, true⟩), by simp [h₁, h₂, h₃]⟩
      · exact .inr ⟨payload, by simp [h₁, h₂, h₃]⟩
    · exact .inr ⟨len, by simp [h₁, h₂]⟩
  · exact .inr ⟨ty, by simp [h₁]⟩

/-- The encoding of a frame without its last bytes is not read as a frame. -/
theorem readParts_cut {t : UInt8} {p bytes : Bytes} (hshort : Short p)
    (hpre : bytes <+: t :: lenPrefixed p) (hlen : bytes.length < (t :: lenPrefixed p).length) :
    ∃ context, readParts ty len payload f ⟨bytes, true⟩ = .err (.error context) := by
  rcases readParts_ended ty len payload f bytes with ⟨⟨frame, rest⟩, hok⟩ | herr
  · exfalso
    obtain ⟨t', p', _, hshort', hrecv⟩ := readParts_eq_ok.mp hok
    obtain ⟨cut, hcut⟩ := hpre
    have hbytes : bytes = t' :: lenPrefixed p' ++ rest.bytes := congrArg Recv.bytes hrecv
    -- both frames start the same stream
    have heq : lenPrefixed p ++ [] = lenPrefixed p' ++ (rest.bytes ++ cut) := by
      rw [hbytes] at hcut
      simpa using (List.cons.inj hcut).2.symm
    have hnil := (reads_lenPrefixed.append_inj hshort hshort' heq).2
    have : bytes.length = (t :: lenPrefixed p).length := by
      rw [← hcut, (List.append_eq_nil_iff.mp hnil.symm).2, List.append_nil]
    omega
  · exact herr

end Parts

/-! ## Streams of frames -/

/-- What the two kinds of frames share: a cut stream gives its whole frames and an error. -/
theorem readAll_readParts {φ : Type} (ty len payload : String) (f : UInt8 → Bytes → φ)
    (encode : φ → Bytes) (parts : φ → UInt8 × Bytes)
    (hparts : ∀ frame, f (parts frame).1 (parts frame).2 = frame)
    (hencode : ∀ frame, encode frame = (parts frame).1 :: lenPrefixed (parts frame).2)
    (frames : List φ) (hframes : ∀ frame ∈ frames, Short (parts frame).2) (bytes : Bytes)
    (hbytes : bytes <+: frames.flatMap encode) :
    ∃ context, ∀ got stop, ReadAll (readParts ty len payload f) ⟨bytes, true⟩ got stop ↔
      got = wholeIn encode frames bytes.length ∧ stop = .error context := by
  have hwhole : ∀ frame rest, Short (parts frame).2 →
      readParts ty len payload f ⟨encode frame ++ rest, true⟩ = .ok (frame, ⟨rest, true⟩) := by
    intro frame rest hshort
    exact readParts_eq_ok.mpr ⟨_, _, (hparts frame).symm, hshort, by rw [hencode]⟩
  have hcut : ∀ frame bytes, Short (parts frame).2 → bytes <+: encode frame →
      bytes.length < (encode frame).length → ∃ e, (∃ context, e = ReadStop.error context) ∧
        readParts ty len payload f ⟨bytes, true⟩ = .err e := by
    intro frame bytes hshort hpre hlen
    rw [hencode] at hpre hlen
    obtain ⟨context, h⟩ := readParts_cut hshort hpre hlen
    exact ⟨_, ⟨context, rfl⟩, h⟩
  obtain ⟨e, ⟨context, rfl⟩, hall⟩ := readAll_cut (fun bytes => (⟨bytes, true⟩ : Recv)) _
    hwhole hcut ⟨_, ⟨ty, rfl⟩, rfl⟩ frames hframes bytes hbytes
  refine ⟨context, fun got stop => ⟨fun h => h.unique hall, ?_⟩⟩
  intro h
  obtain ⟨hgot, hstop⟩ := h
  rw [hgot, hstop]
  exact hall

/-- From every prefix of a stream of frames, reading again and again gives exactly the frames
    that lie in it as a whole, in order, and then the error of a stream that has ended. -/
theorem frames_of_cut_stream :
    (∀ frames : List ControlFrame, (∀ frame ∈ frames, Short frame.payload) →
      ∀ bytes, bytes <+: frames.flatMap ControlFrame.toBytes →
        ∃ context, ∀ got stop, ReadAll ControlFrame.readFrom ⟨bytes, true⟩ got stop ↔
          got = wholeIn ControlFrame.toBytes frames bytes.length ∧ stop = .error context) ∧
    (∀ frames : List ConsoleFrame, (∀ frame ∈ frames, Short frame.payload) →
      ∀ bytes, bytes <+: frames.flatMap ConsoleFrame.toBytes →
        ∃ context, ∀ got stop, ReadAll ConsoleFrame.readFrom ⟨bytes, true⟩ got stop ↔
          got = wholeIn ConsoleFrame.toBytes frames bytes.length ∧ stop = .error context) := by
  constructor
  · intro frames hframes bytes hbytes
    exact readAll_readParts _ _ _ ControlFrame.mk ControlFrame.toBytes
      (fun frame => (frame.ty, frame.payload)) (fun _ => rfl) (fun _ => rfl) frames hframes bytes
      hbytes
  · intro frames hframes bytes hbytes
    exact readAll_readParts _ _ _ ConsoleFrame.mk ConsoleFrame.toBytes
      (fun frame => (frame.ty, frame.payload)) (fun _ => rfl) (fun _ => rfl) frames hframes bytes
      hbytes

end FlyVault.Protocol
