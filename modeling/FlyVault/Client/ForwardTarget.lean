/-
  The target of a port forward, from the command line or the control socket to the server:
  `parse_forward` and the header that `bridge_one` writes (`crates/client/src/forward.rs`), and
  `read_target_addr` (`crates/init/src/forward.rs`).

  The header is the target and a zero byte. The server reads it byte by byte, up to the first
  zero byte and 1024 bytes at most. `parse_forward` takes any host, so a target can have a zero
  byte in it or be longer than that.

  `target_agreed_iff` says for which specs the server reads the target that was parsed, with
  exactly the local data after it. `target_cut_at_nul` is a spec for which it reads another one.
-/
import FlyVault.Protocol.ControlCodec

namespace FlyVault.Client.ForwardTarget

open FlyVault.Lib FlyVault.Protocol

/-! ## The client -/

inductive ParseIntError
  | empty
  | invalidDigit
  | posOverflow
  deriving DecidableEq, Repr

/-- The digits of `u16::from_str`, after those that make `result`. -/
def parseDigits : List Char → Nat → Except ParseIntError Nat
  | [], result => .ok result
  | c :: rest, result =>
      if c.isDigit then
        let next := result * 10 + (c.toNat - 48)
        if next < 65536 then parseDigits rest next else .error .posOverflow
      else .error .invalidDigit

/-- `u16::from_str`. A sign alone is no number. -/
def parseU16 : List Char → Except ParseIntError UInt16
  | [] => .error .empty
  | ['+'] => .error .invalidDigit
  | '+' :: rest => (parseDigits rest 0).map UInt16.ofNat
  | chars => (parseDigits chars 0).map UInt16.ofNat

/-- An `anyhow` error: its outermost text, and what it is the context of. -/
structure SpecError where
  text : String
  cause : Option ParseIntError
  deriving DecidableEq, Repr

def parseForward (spec : String) : Except SpecError (UInt16 × String) :=
  match List.splitOn ':' spec.toList with
  | [localPart, host, targetPart] =>
      match parseU16 localPart with
      | .error e => .error ⟨s!"invalid local port in {spec}", some e⟩
      | .ok localPort =>
          match parseU16 targetPart with
          | .error e => .error ⟨s!"invalid target port in {spec}", some e⟩
          | .ok targetPort => .ok (localPort, String.ofList host ++ ":" ++ toString targetPort)
  | _ => .error
      ⟨s!"invalid --forward spec {spec}; expected <local_port>:<target_host>:<target_port>", none⟩

/-- What `bridge_one` writes between the stream tag and the local data. -/
def targetHeader (target : String) : Bytes := utf8 target ++ [0]

/-! ## The server -/

/-- What a read into a buffer of one byte gives. After the last one the stream has ended. -/
inductive ReadResult
  | byte (b : UInt8)
  | nothing
  | failed
  deriving DecidableEq, Repr

/-- The loop of `read_target_addr`: the header, and what is left on the stream. -/
def readHeader : List ReadResult → Bytes → Except String (Bytes × List ReadResult)
  | [], _ => .error "unexpected EOF while reading target header"
  | .failed :: _, _ => .error "read target header byte"
  | .nothing :: rest, bytes => readHeader rest bytes
  | .byte b :: rest, bytes =>
      if b = 0 then .ok (bytes, rest)
      else if (bytes ++ [b]).length > 1024 then .error "target address header too long"
      else readHeader rest (bytes ++ [b])

def readTargetAddr (reads : List ReadResult) : Except String (String × List ReadResult) :=
  match readHeader reads [] with
  | .error e => .error e
  | .ok (bytes, rest) =>
      match fromUtf8 bytes with
      | some target => .ok (target, rest)
      | none => .error "target address not utf-8"

def ReadResult.toByte : ReadResult → Option UInt8
  | .byte b => some b
  | _ => none

/-- The stream brings these bytes, and no read fails. -/
structure Delivers (reads : List ReadResult) (bytes : Bytes) : Prop where
  bytes_eq : reads.filterMap ReadResult.toByte = bytes
  healthy : .failed ∉ reads

/-! ## The loop -/

theorem Delivers.tail {r : ReadResult} {reads : List ReadResult} {bytes : Bytes}
    (h : Delivers (r :: reads) bytes) :
    Delivers reads (reads.filterMap ReadResult.toByte) :=
  ⟨rfl, fun hmem => h.healthy (List.mem_cons_of_mem r hmem)⟩

/-- A header without a zero byte that is not too long is read, and nothing after it. -/
theorem readHeader_of_delivers {reads : List ReadResult} {acc header data : Bytes}
    (h : Delivers reads (header ++ 0 :: data)) (hzero : 0 ∉ header)
    (hlen : acc.length + header.length ≤ 1024) :
    ∃ rest, readHeader reads acc = .ok (acc ++ header, rest) ∧ Delivers rest data := by
  induction reads generalizing acc header with
  | nil =>
      have hnil := h.bytes_eq
      simp at hnil
  | cons r reads ih =>
      have hbytes := h.bytes_eq
      cases r with
      | failed => exact absurd List.mem_cons_self h.healthy
      | nothing =>
          have hrest : Delivers reads (header ++ 0 :: data) := ⟨hbytes, h.tail.healthy⟩
          exact ih hrest hzero hlen
      | byte b =>
          have hb : ReadResult.toByte (.byte b) = some b := rfl
          rw [List.filterMap_cons_some hb] at hbytes
          cases header with
          | nil =>
              rw [List.nil_append, List.cons.injEq] at hbytes
              obtain ⟨rfl, hdata⟩ := hbytes
              rw [List.append_nil]
              exact ⟨reads, if_pos rfl, hdata, h.tail.healthy⟩
          | cons c header =>
              rw [List.cons_append, List.cons.injEq] at hbytes
              obtain ⟨rfl, hrest⟩ := hbytes
              obtain ⟨hb, hzero⟩ := not_or.mp (mt List.mem_cons.mpr hzero)
              rw [List.length_cons] at hlen
              have hshort : ¬ (acc ++ [b]).length > 1024 := by
                rw [List.length_append, List.length_singleton]
                omega
              have hlen' : (acc ++ [b]).length + header.length ≤ 1024 := by
                rw [List.length_append, List.length_singleton]
                omega
              obtain ⟨rest, hread, hdata⟩ := ih ⟨hrest, h.tail.healthy⟩ hzero hlen'
              refine ⟨rest, ?_, hdata⟩
              rw [readHeader, if_neg (Ne.symm hb), if_neg hshort, hread, List.append_assoc]
              rfl

/-- What is read has no zero byte and is not too long. -/
theorem header_of_readHeader {reads rest : List ReadResult} {acc bytes : Bytes}
    (h : readHeader reads acc = .ok (bytes, rest)) (hacc : acc.length ≤ 1024)
    (hzero : 0 ∉ acc) : 0 ∉ bytes ∧ bytes.length ≤ 1024 := by
  induction reads generalizing acc with
  | nil => cases h
  | cons r reads ih =>
      cases r with
      | failed => cases h
      | nothing => exact ih h hacc hzero
      | byte b =>
          rw [readHeader] at h
          split at h
          · cases h
            exact ⟨hzero, hacc⟩
          · next hb =>
              split at h
              · cases h
              · next hlen =>
                  refine ih h (Nat.le_of_not_gt hlen) ?_
                  rw [List.mem_append, List.mem_singleton, not_or]
                  exact ⟨hzero, Ne.symm hb⟩

theorem readTargetAddr_eq_ok {reads rest : List ReadResult} {target : String} :
    readTargetAddr reads = .ok (target, rest) ↔ readHeader reads [] = .ok (utf8 target, rest) := by
  unfold readTargetAddr
  split
  · next e he => simp [he]
  · next bytes rest' hread =>
      rw [hread]
      split
      · next s hs =>
          rw [fromUtf8_eq_some] at hs
          subst hs
          constructor
          · intro h
            cases h
            rfl
          · intro h
            rw [Except.ok.injEq, Prod.mk.injEq] at h
            rw [utf8_inj h.1, h.2]
      · next hnone =>
          refine iff_of_false (by simp) fun h => ?_
          rw [Except.ok.injEq, Prod.mk.injEq] at h
          rw [fromUtf8_eq_some.mpr h.1.symm] at hnone
          cases hnone

/-! ## Zero bytes -/

theorem zero_mem_utf8EncodeChar {c : Char} : 0 ∈ String.utf8EncodeChar c ↔ c = '\x00' := by
  have hbyte : ∀ n, n < 256 → (0 = UInt8.ofNat n ↔ n = 0) := by
    intro n hn
    rw [← UInt8.toNat_inj, UInt8.toNat_ofNat_of_lt' hn]
    exact eq_comm
  have hchar : c = '\x00' ↔ c.val.toNat = 0 := by
    rw [Char.ext_iff, ← UInt32.toNat_inj]
    rfl
  rw [hchar]
  unfold String.utf8EncodeChar
  generalize c.val.toNat = v
  dsimp only
  split
  · rw [List.mem_singleton, hbyte v (by omega)]
  · split
    · simp only [List.mem_cons, List.not_mem_nil, or_false]
      rw [hbyte _ (by omega), hbyte _ (by omega)]
      omega
    · split
      · simp only [List.mem_cons, List.not_mem_nil, or_false]
        rw [hbyte _ (by omega), hbyte _ (by omega), hbyte _ (by omega)]
        omega
      · simp only [List.mem_cons, List.not_mem_nil, or_false]
        rw [hbyte _ (by omega), hbyte _ (by omega), hbyte _ (by omega), hbyte _ (by omega)]
        omega

theorem utf8_ofList (chars : List Char) :
    utf8 (String.ofList chars) = chars.flatMap String.utf8EncodeChar := by
  rw [utf8, String.toByteArray_ofList, List.utf8Encode]
  simp

theorem zero_mem_utf8 {s : String} : 0 ∈ utf8 s ↔ '\x00' ∈ s.toList := by
  rw [← String.ofList_toList (s := s), utf8_ofList, List.mem_flatMap, String.toList_ofList]
  simp [zero_mem_utf8EncodeChar]

/-! ## The parsed target -/

theorem isDigit_of_parseDigits {chars : List Char} {result n : Nat}
    (h : parseDigits chars result = .ok n) : ∀ c ∈ chars, c.isDigit = true := by
  induction chars generalizing result with
  | nil => simp
  | cons c rest ih =>
      rw [parseDigits] at h
      split at h
      · next hdigit =>
          dsimp only at h
          split at h
          · exact List.forall_mem_cons.mpr ⟨hdigit, ih h⟩
          · cases h
      · cases h

theorem nul_notMem_of_parseU16 {chars : List Char} {n : UInt16} (h : parseU16 chars = .ok n) :
    '\x00' ∉ chars := by
  have hdigits : ∀ {cs : List Char}, (parseDigits cs 0).map UInt16.ofNat = .ok n →
      '\x00' ∉ cs := by
    intro cs hcs hmem
    cases hparse : parseDigits cs 0 with
    | error e =>
        rw [hparse] at hcs
        cases hcs
    | ok m => exact absurd (isDigit_of_parseDigits hparse _ hmem) (by decide)
  unfold parseU16 at h
  split at h
  · cases h
  · cases h
  · rw [List.mem_cons, not_or]
    exact ⟨by decide, hdigits h⟩
  · exact hdigits h

theorem nul_notMem_toString (n : UInt16) : '\x00' ∉ (toString n).toList := by
  intro hmem
  rw [show toString n = toString n.toNat from rfl, Nat.toString_eq_ofList_toDigits,
    String.toList_ofList] at hmem
  exact absurd (Nat.isDigit_of_mem_toDigits (by decide) (by decide) hmem) (by decide)

/-- An accepted spec has three parts. -/
theorem parseForward_eq_ok {spec target : String} {localPort : UInt16}
    (h : parseForward spec = .ok (localPort, target)) :
    ∃ localPart host targetPart targetPort,
      List.splitOn ':' spec.toList = [localPart, host, targetPart] ∧
      parseU16 localPart = .ok localPort ∧ parseU16 targetPart = .ok targetPort ∧
      target = String.ofList host ++ ":" ++ toString targetPort := by
  unfold parseForward at h
  split at h
  · next localPart host targetPart hsplit =>
      split at h
      · cases h
      · next hlocal =>
          split at h
          · cases h
          · next targetPort htarget =>
              cases h
              exact ⟨localPart, host, targetPart, targetPort, hsplit, hlocal, htarget, rfl⟩
  · cases h

/-- The ports are digits, so a zero character can only be in the host. -/
theorem nul_mem_target_iff {spec target : String} {localPort : UInt16}
    (h : parseForward spec = .ok (localPort, target)) :
    '\x00' ∈ target.toList ↔ '\x00' ∈ spec.toList := by
  obtain ⟨localPart, host, targetPart, targetPort, hsplit, hlocal, htarget, rfl⟩ :=
    parseForward_eq_ok h
  have hspec : spec.toList = localPart ++ ':' :: (host ++ ':' :: targetPart) := by
    have hjoin : [':'].intercalate (List.splitOn ':' spec.toList) = spec.toList :=
      List.intercalate_splitOn ':'
    rw [← hjoin, hsplit]
    simp [List.intercalate]
  rw [hspec]
  simp [nul_notMem_of_parseU16 hlocal, nul_notMem_of_parseU16 htarget, nul_notMem_toString]

/-- The server reads the parsed target, and then exactly the local data, if and only if the spec
    has no zero character and the target is at most 1024 bytes long. -/
theorem target_agreed_iff (spec target : String) (localPort : UInt16) (data : Bytes)
    (reads : List ReadResult) (hparse : parseForward spec = .ok (localPort, target))
    (hreads : Delivers reads (targetHeader target ++ data)) :
    (∃ rest, readTargetAddr reads = .ok (target, rest) ∧ Delivers rest data) ↔
      '\x00' ∉ spec.toList ∧ (utf8 target).length ≤ 1024 := by
  rw [← nul_mem_target_iff hparse, ← zero_mem_utf8]
  constructor
  · intro h
    obtain ⟨rest, hread, -⟩ := h
    exact header_of_readHeader (readTargetAddr_eq_ok.mp hread) (Nat.zero_le _) List.not_mem_nil
  · intro h
    obtain ⟨hzero, hlen⟩ := h
    rw [targetHeader, List.append_assoc] at hreads
    have hlen' : ([] : Bytes).length + (utf8 target).length ≤ 1024 := by
      rw [List.length_nil, Nat.zero_add]
      exact hlen
    obtain ⟨rest, hread, hdata⟩ := readHeader_of_delivers hreads hzero hlen'
    exact ⟨rest, readTargetAddr_eq_ok.mpr hread, hdata⟩

/-- A read that brings nothing does no harm. -/
theorem target_agreed_db : ∃ reads rest,
    Delivers reads (targetHeader "db:5432" ++ [1, 2]) ∧
    readTargetAddr reads = .ok ("db:5432", rest) ∧ Delivers rest [1, 2] := by
  have hparse : parseForward "80:db:05432" = .ok (80, "db:5432") := by rfl
  have hreads : Delivers (.nothing :: (targetHeader "db:5432" ++ [1, 2]).map .byte)
      (targetHeader "db:5432" ++ [1, 2]) := by
    refine ⟨?_, ?_⟩
    · decide
    · decide
  obtain ⟨rest, hread, hrest⟩ :=
    (target_agreed_iff "80:db:05432" "db:5432" 80 [1, 2] _ hparse hreads).mpr
      ⟨by decide, by decide⟩
  exact ⟨_, rest, hreads, hread, hrest⟩

/-- The server takes the host up to its zero character for the target, and the rest of the
    header for data. -/
theorem target_cut_at_nul :
    parseForward "80:a\x00b:22" = .ok (80, "a\x00b:22") ∧
    readTargetAddr ((targetHeader "a\x00b:22").map .byte) =
      .ok ("a", (targetHeader "b:22").map .byte) := by
  constructor
  · rfl
  · rw [readTargetAddr_eq_ok]
    rfl

end FlyVault.Client.ForwardTarget
