/-
  Control messages with lengths of 2^32 bytes or more.

  Every length on the wire is a `u32` obtained with `as u32`, for the payload of the frame and
  for the fields inside it. A length prefix therefore announces the length modulo 2^32:
  `wrap` is the part of a field it announces, and `lost` is what then follows as if it were
  the next field or the next frame (`lenPrefixed_wrap`). The two levels wrap independently.

  `ControlMessage.Wraps` says when the cut-off parts fit together to a message again.
  `never_altered_iff`: what `write_to` writes is read as a different message exactly then. A
  `SetupRequest` whose inline rootfs is 2^32 bytes long is one of these messages
  (`inline_rootfs_cut`).
-/
import FlyVault.Protocol.ControlCodec
import FlyVault.Protocol.FrameStream

namespace FlyVault.Protocol

open FlyVault.Lib

/-! ## What a length prefix announces -/

/-- The part of a field that its length prefix announces. -/
def wrap (bytes : Bytes) : Bytes := bytes.take (bytes.length % 2 ^ 32)

/-- The part of a field beyond it. -/
def lost (bytes : Bytes) : Bytes := bytes.drop (bytes.length % 2 ^ 32)

theorem wrap_append_lost (bytes : Bytes) : wrap bytes ++ lost bytes = bytes :=
  List.take_append_drop _ bytes

theorem length_wrap (bytes : Bytes) : (wrap bytes).length = bytes.length % 2 ^ 32 :=
  List.length_take_of_le (Nat.mod_le _ _)

theorem short_wrap (bytes : Bytes) : Short (wrap bytes) := by
  rw [Short, length_wrap]
  exact Nat.mod_lt _ (by decide)

theorem dvd_length_lost (bytes : Bytes) : 2 ^ 32 ∣ (lost bytes).length := by
  rw [lost, List.length_drop]
  exact Nat.dvd_sub_mod bytes.length

theorem wrap_of_short {bytes : Bytes} (h : Short bytes) : wrap bytes = bytes := by
  rw [wrap, Nat.mod_eq_of_lt h, List.take_length]

theorem lost_of_short {bytes : Bytes} (h : Short bytes) : lost bytes = [] := by
  rw [lost, Nat.mod_eq_of_lt h, List.drop_length]

theorem length_mod_append {head rest : Bytes} (hshort : Short head)
    (hdvd : 2 ^ 32 ∣ rest.length) : (head ++ rest).length % 2 ^ 32 = head.length := by
  obtain ⟨k, hk⟩ := hdvd
  rw [List.length_append, hk, Nat.add_mul_mod_self_left]
  exact Nat.mod_eq_of_lt hshort

theorem lost_append {head rest : Bytes} (hshort : Short head) (hdvd : 2 ^ 32 ∣ rest.length) :
    lost (head ++ rest) = rest := by
  rw [lost, length_mod_append hshort hdvd, List.drop_left]

/-- A cut at a multiple of 2^32 bytes from the end that leaves less than 2^32 bytes. -/
theorem wrap_eq_iff {bytes head : Bytes} :
    wrap bytes = head ↔ Short head ∧ ∃ rest, bytes = head ++ rest ∧ 2 ^ 32 ∣ rest.length := by
  constructor
  · intro h
    subst h
    exact ⟨short_wrap bytes, lost bytes, (wrap_append_lost bytes).symm, dvd_length_lost bytes⟩
  · intro h
    obtain ⟨hshort, rest, hbytes, hdvd⟩ := h
    rw [hbytes, wrap, length_mod_append hshort hdvd, List.take_left]

/-- A length prefix and its field, as the reader sees them. -/
theorem lenPrefixed_wrap (bytes : Bytes) :
    lenPrefixed bytes = lenPrefixed (wrap bytes) ++ lost bytes := by
  have hlen : beBytes 4 (wrap bytes).length = beBytes 4 bytes.length := by
    rw [length_wrap]
    exact beBytes_mod 4 bytes.length
  rw [lenPrefixed, lenPrefixed, hlen, List.append_assoc, wrap_append_lost]

/-- The bytes spell a string. -/
def IsText (bytes : Bytes) : Prop := ∃ text, utf8 text = bytes

/-! ## Messages that wrap into others -/

/-- The source wraps into a shorter one, behind `before` bytes of the payload. -/
def RootfsSource.Wraps (before : Nat) : RootfsSource → Prop
  | .none => False
  | .inline data => ¬ Short data ∧ before + 5 + data.length % 2 ^ 32 < 2 ^ 32
  | .url address =>
      ¬ Short (utf8 address) ∧ before + 5 + (utf8 address).length % 2 ^ 32 < 2 ^ 32 ∧
        IsText (wrap (utf8 address))

/-- With a short token, the source wraps. With a long one, the bytes of the token beyond the
    announced part, and what follows them, begin with a source. -/
def SetupRequest.Wraps (request : SetupRequest) : Prop :=
  (Short (utf8 request.accessToken) ∧
    request.rootfs.Wraps (4 + (utf8 request.accessToken).length)) ∨
  (¬ Short (utf8 request.accessToken) ∧ IsText (wrap (utf8 request.accessToken)) ∧
    ∃ source : RootfsSource, source.Fits ∧
      Short (lenPrefixed (wrap (utf8 request.accessToken)) ++ source.encode) ∧
      ∃ rest, lost (utf8 request.accessToken) ++ request.rootfs.encode = source.encode ++ rest ∧
        2 ^ 32 ∣ rest.length)

/-- The announced parts of an oversized message fit together to a message. -/
def ControlMessage.Wraps : ControlMessage → Prop
  | .requestAttestation | .setupComplete => False
  | .attestation payload =>
      ¬ Short (utf8 payload.jwt) ∧ 8 + (utf8 payload.jwt).length % 2 ^ 32 < 2 ^ 32 ∧
        IsText (wrap (utf8 payload.jwt))
  | .setupRequest request => request.Wraps
  | .error text => ¬ Short (utf8 text) ∧ IsText (wrap (utf8 text))

/-! ## Exactly these are altered -/

theorem long_of_wrap_ne {bytes : Bytes} (h : wrap bytes ≠ bytes) : ¬ Short bytes :=
  fun hshort => h (wrap_of_short hshort)

theorem wrap_ne_of_long {bytes : Bytes} (h : ¬ Short bytes) : wrap bytes ≠ bytes :=
  fun heq => h (heq ▸ short_wrap bytes)

theorem length_lenPrefixed (bytes : Bytes) : (lenPrefixed bytes).length = 4 + bytes.length := by
  simp [lenPrefixed]

/-- The announced part of an attestation: the same header, and the announced part of the jwt. -/
theorem AttestationPayload.wrap_toBytes_iff {p q : AttestationPayload}
    (hq : Short (utf8 q.jwt)) :
    wrap p.toBytes = q.toBytes ↔
      8 + (utf8 p.jwt).length % 2 ^ 32 < 2 ^ 32 ∧ q = { p with jwt := q.jwt } ∧
        utf8 q.jwt = wrap (utf8 p.jwt) := by
  have hlen : q.toBytes.length = 8 + (utf8 q.jwt).length := by
    simp only [AttestationPayload.toBytes, List.length_append, length_beBytes, List.length_cons,
      List.length_nil, length_lenPrefixed]
    omega
  rw [wrap_eq_iff, Short, hlen]
  constructor
  · intro h
    obtain ⟨hshort, rest, hbytes, _⟩ := h
    rw [AttestationPayload.toBytes, AttestationPayload.toBytes, lenPrefixed_wrap,
      List.append_assoc _ (lenPrefixed (utf8 q.jwt)) rest] at hbytes
    obtain ⟨hheader, htail⟩ := List.append_inj hbytes (by simp)
    have hjwt := (reads_lenPrefixed.append_inj (short_wrap _) hq htail).1
    have hsame : q.toBytes = { p with jwt := q.jwt : AttestationPayload }.toBytes := by
      rw [AttestationPayload.toBytes, AttestationPayload.toBytes, hheader]
    have hdecode := AttestationPayload.fromBytes_eq_ok.mpr ⟨hq, rfl⟩
    have hdecode' := AttestationPayload.fromBytes_eq_ok.mpr
      (⟨hq, hsame⟩ : Short (utf8 { p with jwt := q.jwt : AttestationPayload }.jwt) ∧ _)
    rw [hdecode, Outcome.ok.injEq] at hdecode'
    refine ⟨?_, hdecode', hjwt.symm⟩
    rw [← hjwt, length_wrap] at hshort
    exact hshort
  · intro h
    obtain ⟨hshort, hsame, hjwt⟩ := h
    refine ⟨by rw [hjwt, length_wrap]; exact hshort, lost (utf8 p.jwt), ?_, dvd_length_lost _⟩
    rw [AttestationPayload.toBytes, lenPrefixed_wrap, ← hjwt, hsame]
    simp [AttestationPayload.toBytes]

/-- The announced part of a setup request: the announced part of the token, and a source that
    what follows begins with. -/
theorem SetupRequest.wrap_toBytes_iff {r q : SetupRequest} (hq : q.Fits) :
    wrap r.toBytes = q.toBytes ↔
      Short q.toBytes ∧ utf8 q.accessToken = wrap (utf8 r.accessToken) ∧
        ∃ rest, lost (utf8 r.accessToken) ++ r.rootfs.encode = q.rootfs.encode ++ rest ∧
          2 ^ 32 ∣ rest.length := by
  rw [wrap_eq_iff]
  refine and_congr_right fun hshort => ?_
  rw [SetupRequest.toBytes, SetupRequest.toBytes, lenPrefixed_wrap]
  simp only [List.append_assoc]
  constructor
  · intro h
    obtain ⟨rest, hbytes, hdvd⟩ := h
    obtain ⟨htoken, hrest⟩ := reads_lenPrefixed.append_inj (short_wrap _) hq.1 hbytes
    exact ⟨htoken.symm, rest, hrest, hdvd⟩
  · intro h
    obtain ⟨htoken, rest, hrest, hdvd⟩ := h
    exact ⟨rest, by rw [htoken, hrest], hdvd⟩

/-- A source that another one begins with is its announced part. -/
theorem RootfsSource.encode_eq_append_iff {source part : RootfsSource} {rest : Bytes}
    (hfits : part.Fits) :
    source.encode = part.encode ++ rest ↔
      match source with
      | .none => part = .none ∧ rest = []
      | .inline data => part = .inline (wrap data) ∧ rest = lost data
      | .url address =>
          ∃ text, part = .url text ∧ utf8 text = wrap (utf8 address) ∧
            rest = lost (utf8 address) := by
  cases source with
  | none => cases part <;> simp [RootfsSource.encode]
  | inline data =>
      cases part with
      | none => simp [RootfsSource.encode]
      | url text => simp [RootfsSource.encode]
      | inline d =>
          rw [RootfsSource.encode, RootfsSource.encode, lenPrefixed_wrap, List.cons_append,
            List.cons.injEq]
          constructor
          · intro h
            obtain ⟨_, h⟩ := h
            obtain ⟨hd, hrest⟩ := reads_lenPrefixed.append_inj (short_wrap _) hfits h
            exact ⟨by rw [hd], hrest.symm⟩
          · intro h'
            obtain ⟨hd, hrest⟩ := h'
            cases hd
            exact ⟨rfl, by rw [hrest]⟩
  | url address =>
      cases part with
      | none => simp [RootfsSource.encode]
      | inline d => simp [RootfsSource.encode]
      | url text =>
          rw [RootfsSource.encode, RootfsSource.encode, lenPrefixed_wrap, List.cons_append,
            List.cons.injEq]
          constructor
          · intro h
            obtain ⟨_, h⟩ := h
            obtain ⟨ht, hrest⟩ := reads_lenPrefixed.append_inj (short_wrap _) hfits h
            exact ⟨text, rfl, ht.symm, hrest.symm⟩
          · intro h
            obtain ⟨t, hpart, ht, hrest⟩ := h
            cases hpart
            exact ⟨rfl, by rw [ht, hrest]⟩

theorem SetupRequest.length_toBytes (r : SetupRequest) :
    r.toBytes.length = 4 + (utf8 r.accessToken).length + r.rootfs.encode.length := by
  rw [SetupRequest.toBytes, List.length_append, length_lenPrefixed]

/-- With a short token, only the source can lose bytes. -/
theorem SetupRequest.wrap_toBytes_iff_of_short {r q : SetupRequest}
    (htoken : Short (utf8 r.accessToken)) (hq : q.Fits) :
    wrap r.toBytes = q.toBytes ↔ Short q.toBytes ∧ q.accessToken = r.accessToken ∧
      ∃ rest, r.rootfs.encode = q.rootfs.encode ++ rest ∧ 2 ^ 32 ∣ rest.length := by
  rw [SetupRequest.wrap_toBytes_iff hq, wrap_of_short htoken, lost_of_short htoken,
    List.nil_append]
  refine and_congr_right fun _ => and_congr_left fun _ => ?_
  exact ⟨utf8_inj, congrArg utf8⟩

theorem SetupRequest.wraps_of_altered {r q : SetupRequest} (htoken : Short (utf8 r.accessToken))
    (hq : q.Fits) (hwrap : wrap r.toBytes = q.toBytes) (hne : q ≠ r) :
    r.rootfs.Wraps (4 + (utf8 r.accessToken).length) := by
  obtain ⟨hshort, htoken', rest, hrest, _⟩ := (wrap_toBytes_iff_of_short htoken hq).mp hwrap
  obtain ⟨token, rootfs⟩ := r
  obtain ⟨token', part⟩ := q
  dsimp only at htoken' hrest
  subst htoken'
  rw [Short, SetupRequest.length_toBytes] at hshort
  dsimp only at hshort
  rw [RootfsSource.encode_eq_append_iff hq.2] at hrest
  cases rootfs with
  | none =>
      obtain ⟨rfl, -⟩ := hrest
      exact absurd rfl hne
  | inline data =>
      obtain ⟨rfl, -⟩ := hrest
      refine ⟨long_of_wrap_ne fun heq => hne (by rw [heq]), ?_⟩
      rw [RootfsSource.encode, List.length_cons, length_lenPrefixed, length_wrap] at hshort
      dsimp only
      omega
  | url address =>
      obtain ⟨text, rfl, htext, -⟩ := hrest
      refine ⟨long_of_wrap_ne fun heq => hne ?_, ?_, text, htext⟩
      · rw [utf8_inj (htext.trans heq)]
      · rw [RootfsSource.encode, List.length_cons, length_lenPrefixed, htext,
          length_wrap] at hshort
        dsimp only
        omega

/-- A shorter source that the encoding begins with is what the reader gets. -/
theorem SetupRequest.altered_of_part {token : String} {rootfs part : RootfsSource} {rest : Bytes}
    (htoken : Short (utf8 token)) (hfits : part.Fits)
    (hlen : 4 + (utf8 token).length + part.encode.length < 2 ^ 32)
    (hrest : rootfs.encode = part.encode ++ rest) (hdvd : 2 ^ 32 ∣ rest.length)
    (hne : part ≠ rootfs) :
    ∃ q : SetupRequest, q.Fits ∧ wrap (SetupRequest.mk token rootfs).toBytes = q.toBytes ∧
      q ≠ ⟨token, rootfs⟩ := by
  have hq : (SetupRequest.mk token part).Fits := ⟨htoken, hfits⟩
  refine ⟨⟨token, part⟩, hq,
    (wrap_toBytes_iff_of_short htoken hq).mpr ⟨?_, rfl, rest, hrest, hdvd⟩, ?_⟩
  · rw [Short, SetupRequest.length_toBytes]
    exact hlen
  · exact fun heq => hne (congrArg SetupRequest.rootfs heq)

theorem SetupRequest.altered_of_wraps {token : String} {rootfs : RootfsSource}
    (htoken : Short (utf8 token)) (h : rootfs.Wraps (4 + (utf8 token).length)) :
    ∃ q : SetupRequest, q.Fits ∧ wrap (SetupRequest.mk token rootfs).toBytes = q.toBytes ∧
      q ≠ ⟨token, rootfs⟩ := by
  cases rootfs with
  | none => exact h.elim
  | inline data =>
      obtain ⟨hlong, hfit⟩ := h
      have hshort : (RootfsSource.inline (wrap data)).Fits := short_wrap data
      refine altered_of_part htoken hshort ?_
        ((RootfsSource.encode_eq_append_iff hshort).mpr ⟨rfl, rfl⟩) (dvd_length_lost data) ?_
      · rw [RootfsSource.encode, List.length_cons, length_lenPrefixed, length_wrap]
        omega
      · exact fun heq => wrap_ne_of_long hlong (RootfsSource.inline.inj heq)
  | url address =>
      obtain ⟨hlong, hfit, text, htext⟩ := h
      have hshort : (RootfsSource.url text).Fits := by
        rw [RootfsSource.Fits, htext]
        exact short_wrap _
      refine altered_of_part htoken hshort ?_
        ((RootfsSource.encode_eq_append_iff hshort).mpr ⟨text, rfl, htext, rfl⟩)
        (dvd_length_lost _) ?_
      · rw [RootfsSource.encode, List.length_cons, length_lenPrefixed, htext, length_wrap]
        omega
      · intro heq
        rw [RootfsSource.url.inj heq] at htext
        exact wrap_ne_of_long hlong htext.symm

/-- With a short token, a setup request is altered when its source is. -/
theorem SetupRequest.altered_of_short {r : SetupRequest} (htoken : Short (utf8 r.accessToken)) :
    (∃ q : SetupRequest, q.Fits ∧ wrap r.toBytes = q.toBytes ∧ q ≠ r) ↔
      r.rootfs.Wraps (4 + (utf8 r.accessToken).length) := by
  constructor
  · intro h
    obtain ⟨q, hq, hwrap, hne⟩ := h
    exact wraps_of_altered htoken hq hwrap hne
  · exact altered_of_wraps htoken

theorem SetupRequest.altered_iff (r : SetupRequest) :
    (∃ q : SetupRequest, q.Fits ∧ wrap r.toBytes = q.toBytes ∧ q ≠ r) ↔ r.Wraps := by
  by_cases htoken : Short (utf8 r.accessToken)
  · rw [SetupRequest.altered_of_short htoken, SetupRequest.Wraps]
    simp [htoken]
  · have hright : r.Wraps ↔ IsText (wrap (utf8 r.accessToken)) ∧ ∃ source : RootfsSource,
        source.Fits ∧ Short (lenPrefixed (wrap (utf8 r.accessToken)) ++ source.encode) ∧
        ∃ rest, lost (utf8 r.accessToken) ++ r.rootfs.encode = source.encode ++ rest ∧
          2 ^ 32 ∣ rest.length := by
      rw [SetupRequest.Wraps]
      simp [htoken]
    rw [hright]
    constructor
    · intro h
      obtain ⟨q, hq, hwrap, _⟩ := h
      obtain ⟨hshort, htext, hrest⟩ := (SetupRequest.wrap_toBytes_iff hq).mp hwrap
      rw [SetupRequest.toBytes, htext] at hshort
      exact ⟨⟨q.accessToken, htext⟩, q.rootfs, hq.2, hshort, hrest⟩
    · intro h
      obtain ⟨⟨text, htext⟩, source, hsource, hshort, hrest⟩ := h
      have hq : (SetupRequest.mk text source).Fits := by
        refine ⟨?_, hsource⟩
        rw [htext]
        exact short_wrap _
      refine ⟨⟨text, source⟩, hq, (SetupRequest.wrap_toBytes_iff hq).mpr ⟨?_, htext, hrest⟩, ?_⟩
      · rw [SetupRequest.toBytes, htext]
        exact hshort
      · intro heq
        rw [← congrArg SetupRequest.accessToken heq] at htoken
        exact htoken hq.1

section Types

variable {m : ControlMessage} {payload : Bytes}

/-- The type byte of a frame tells the kind of its message. -/
theorem eq_of_ty_requestAttestation (h : m.toFrame = ⟨controlRequestAttestation, payload⟩) :
    m = .requestAttestation := by
  have hty := congrArg ControlFrame.ty h
  cases m <;> first | rfl | cases hty

theorem eq_of_ty_setupComplete (h : m.toFrame = ⟨controlSetupComplete, payload⟩) :
    m = .setupComplete := by
  have hty := congrArg ControlFrame.ty h
  cases m <;> first | rfl | cases hty

theorem eq_of_ty_attestation (h : m.toFrame = ⟨controlAttestation, payload⟩) :
    ∃ p, m = .attestation p ∧ p.toBytes = payload := by
  have hty := congrArg ControlFrame.ty h
  have hpayload := congrArg ControlFrame.payload h
  cases m <;> first | exact ⟨_, rfl, hpayload⟩ | cases hty

theorem eq_of_ty_setupRequest (h : m.toFrame = ⟨controlSetupRequest, payload⟩) :
    ∃ r, m = .setupRequest r ∧ r.toBytes = payload := by
  have hty := congrArg ControlFrame.ty h
  have hpayload := congrArg ControlFrame.payload h
  cases m <;> first | exact ⟨_, rfl, hpayload⟩ | cases hty

theorem eq_of_ty_error (h : m.toFrame = ⟨controlError, payload⟩) :
    ∃ text, m = .error text ∧ utf8 text = payload := by
  have hty := congrArg ControlFrame.ty h
  have hpayload := congrArg ControlFrame.payload h
  cases m <;> first | exact ⟨_, rfl, hpayload⟩ | cases hty

end Types

/-- A message is altered exactly when it wraps into another one. -/
theorem ControlMessage.altered_iff (m : ControlMessage) :
    (∃ m' : ControlMessage, m'.Fits ∧
      m'.toFrame = ⟨m.toFrame.ty, wrap m.toFrame.payload⟩ ∧ m' ≠ m) ↔ m.Wraps := by
  cases m with
  | requestAttestation =>
      refine iff_of_false ?_ id
      intro h
      obtain ⟨m', _, hframe, hne⟩ := h
      exact hne (eq_of_ty_requestAttestation hframe)
  | setupComplete =>
      refine iff_of_false ?_ id
      intro h
      obtain ⟨m', _, hframe, hne⟩ := h
      exact hne (eq_of_ty_setupComplete hframe)
  | error text =>
      constructor
      · intro h
        obtain ⟨m', _, hframe, hne⟩ := h
        obtain ⟨t, rfl, ht⟩ := eq_of_ty_error hframe
        refine ⟨long_of_wrap_ne fun heq => hne ?_, t, ht⟩
        rw [utf8_inj (ht.trans heq)]
      · intro h
        obtain ⟨hlong, t, ht⟩ := h
        refine ⟨.error t, trivial, by rw [ControlMessage.toFrame, ht]; rfl, ?_⟩
        intro heq
        rw [ControlMessage.error.inj heq] at ht
        exact wrap_ne_of_long hlong ht.symm
  | attestation p =>
      constructor
      · intro h
        obtain ⟨m', hfits, hframe, hne⟩ := h
        obtain ⟨q, rfl, hq⟩ := eq_of_ty_attestation hframe
        obtain ⟨hlen, hsame, hjwt⟩ := (AttestationPayload.wrap_toBytes_iff hfits).mp hq.symm
        refine ⟨long_of_wrap_ne fun heq => hne ?_, hlen, q.jwt, hjwt⟩
        rw [hsame, utf8_inj (hjwt.trans heq)]
      · intro h
        obtain ⟨hlong, hlen, t, ht⟩ := h
        have hshort : Short (utf8 { p with jwt := t : AttestationPayload }.jwt) := by
          rw [ht]
          exact short_wrap _
        have hwrap := (AttestationPayload.wrap_toBytes_iff (p := p) hshort).mpr ⟨hlen, rfl, ht⟩
        refine ⟨.attestation { p with jwt := t }, hshort, ?_, ?_⟩
        · rw [ControlMessage.toFrame, ControlMessage.toFrame, hwrap]
        · intro heq
          have hjwt : t = p.jwt :=
            congrArg AttestationPayload.jwt (ControlMessage.attestation.inj heq)
          rw [hjwt] at ht
          exact wrap_ne_of_long hlong ht.symm
  | setupRequest r =>
      refine Iff.trans ?_ (SetupRequest.altered_iff r)
      constructor
      · intro h
        obtain ⟨m', hfits, hframe, hne⟩ := h
        obtain ⟨q, rfl, hq⟩ := eq_of_ty_setupRequest hframe
        exact ⟨q, hfits, hq.symm, fun heq => hne (by rw [heq])⟩
      · intro h
        obtain ⟨q, hfits, hwrap, hne⟩ := h
        refine ⟨.setupRequest q, hfits, ?_, fun heq => hne (ControlMessage.setupRequest.inj heq)⟩
        rw [ControlMessage.toFrame, ControlMessage.toFrame, hwrap]

/-! ## On the wire -/

/-- Reading what was written for `m`: the frame with the announced part of the payload; the
    rest is left on the stream. -/
theorem readFrom_toBytes_iff (m m' : ControlMessage) (later : Bytes) (ended : Bool)
    (recv : Recv) :
    ControlMessage.readFrom ⟨m.toBytes ++ later, ended⟩ = .ok (m', recv) ↔
      (m'.Fits ∧ m'.toFrame = ⟨m.toFrame.ty, wrap m.toFrame.payload⟩) ∧
        recv = ⟨lost m.toFrame.payload ++ later, ended⟩ := by
  have hframe : ControlFrame.readFrom ⟨m.toBytes ++ later, ended⟩ =
      .ok (⟨m.toFrame.ty, wrap m.toFrame.payload⟩, ⟨lost m.toFrame.payload ++ later, ended⟩) := by
    rw [ControlFrame.readFrom_eq]
    refine readParts_eq_ok.mpr ⟨_, _, rfl, short_wrap _, ?_⟩
    rw [ControlMessage.toBytes, ControlFrame.toBytes, lenPrefixed_wrap]
    simp
  rw [ControlMessage.readFrom, hframe, Outcome.ok_bind_do, ← ControlMessage.fromFrame_eq_ok]
  dsimp only
  split
  · next message h => rw [h]; simp [eq_comm]
  · next e h => rw [h]; simp
  · next p h => rw [h]; simp

/-- What `write_to` writes for a message, whatever follows on the stream, is never read as a
    different message, exactly if the message does not wrap into one. -/
theorem never_altered_iff (m : ControlMessage) (later : Bytes) (ended : Bool) :
    (∀ m' recv, ControlMessage.readFrom ⟨m.toBytes ++ later, ended⟩ = .ok (m', recv) → m' = m) ↔
      ¬ m.Wraps := by
  rw [← ControlMessage.altered_iff]
  constructor
  · intro h h
    obtain ⟨m', hfits, hframe, hne⟩ := h
    exact hne (h m' _ ((readFrom_toBytes_iff m m' later ended _).mpr ⟨⟨hfits, hframe⟩, rfl⟩))
  · intro h m' recv hread
    by_contra hne
    obtain ⟨⟨hfits, hframe⟩, _⟩ := (readFrom_toBytes_iff m m' later ended recv).mp hread
    exact h ⟨m', hfits, hframe, hne⟩

/-- A rootfs of 2^32 bytes. -/
def bigRootfs : Bytes := List.replicate (2 ^ 32) 0

/-- A setup request with an inline rootfs of 2^32 bytes is read as one with an empty rootfs,
    and the rootfs is left on the stream as if it were further frames. -/
theorem inline_rootfs_cut :
    ControlMessage.readFrom
        ⟨(ControlMessage.setupRequest ⟨"", .inline bigRootfs⟩).toBytes, true⟩ =
      .ok (.setupRequest ⟨"", .inline []⟩, ⟨bigRootfs, true⟩) := by
  have hlen : bigRootfs.length = 2 ^ 32 := List.length_replicate
  have hdvd : 2 ^ 32 ∣ bigRootfs.length := hlen ▸ Nat.dvd_refl _
  have hmod : bigRootfs.length % 2 ^ 32 = 0 := Nat.mod_eq_zero_of_dvd hdvd
  have hfield : lenPrefixed bigRootfs = lenPrefixed [] ++ bigRootfs := by
    rw [lenPrefixed_wrap, wrap, lost, hmod, List.take_zero, List.drop_zero]
  have hpayload : (SetupRequest.mk "" (.inline bigRootfs)).toBytes =
      (SetupRequest.mk "" (.inline [])).toBytes ++ bigRootfs := by
    simp [SetupRequest.toBytes, RootfsSource.encode, hfield]
  have hshort : Short (SetupRequest.mk "" (.inline [])).toBytes := by
    rw [Short]
    decide
  rw [← List.append_nil (ControlMessage.toBytes _), readFrom_toBytes_iff, List.append_nil,
    ControlMessage.toFrame, ControlMessage.toFrame, hpayload, lost_append hshort hdvd,
    wrap_eq_iff.mpr ⟨hshort, bigRootfs, rfl, hdvd⟩]
  exact ⟨⟨⟨by rw [Short]; decide, by rw [RootfsSource.Fits, Short]; decide⟩, rfl⟩, rfl⟩

end FlyVault.Protocol
