/-
  The decoders of the wire formats (`crates/protocol/src/lib.rs`) on arbitrary bytes.

  Every read of a decoder panics when too few bytes are left: `get_u8` to `get_u64`, `advance`,
  an index and a slice. Which reads a decoder makes depends on the flags, counts and lengths in
  its input, and the sender chooses these, before and after it has authenticated itself.

  `wire_decoders_safe`: whatever the bytes, no read of the eight decoders is reached with too
  few of them, so each decoder returns a value or an error. The loops run over announced counts
  of up to 2^32 - 1 elements and leave with an error when the input ends before. The vectors
  reserved for these counts are not modelled: no allocation fails.
-/
import FlyVault.Protocol.ExecFormats

namespace FlyVault.Protocol

open FlyVault.Lib

/-! ## Payloads of a fixed length -/

/-- `data[i]`. -/
def byteAt (data : Bytes) (i : Nat) : Outcome String UInt8 :=
  match data[i]? with
  | some byte => .ok byte
  | none => .panic .sliceEnd

/-- `decode_resize`, index by index. -/
def decodeResizeAt (data : Bytes) : Outcome String (UInt16 × UInt16) :=
  if data.length ≠ 4 then .err s!"invalid resize payload length: {data.length}"
  else do
    let rows := beNat [← byteAt data 0, ← byteAt data 1]
    let cols := beNat [← byteAt data 2, ← byteAt data 3]
    pure (UInt16.ofNat rows, UInt16.ofNat cols)

/-- `decode_exit`, index by index. -/
def decodeExitAt (data : Bytes) : Outcome String UInt32 :=
  if data.length ≠ 4 then .err s!"invalid exit payload length: {data.length}"
  else do
    let code := beNat [← byteAt data 0, ← byteAt data 1, ← byteAt data 2, ← byteAt data 3]
    pure (UInt32.ofNat code)

/-- `SharedConsoleRequest`. -/
structure SharedConsoleRequest where
  renderedBytes : UInt64
  deriving DecidableEq, Repr

/-- `SharedConsoleRequest::to_bytes`. -/
def SharedConsoleRequest.toBytes (request : SharedConsoleRequest) : Bytes :=
  beBytes 8 request.renderedBytes.toNat

/-- `try_into().unwrap()` to an array of `n` bytes. -/
def unwrapArray (n : Nat) (data : Bytes) : Outcome String Bytes :=
  if data.length = n then .ok data else .panic .sliceEnd

/-- `SharedConsoleRequest::from_bytes`. -/
def SharedConsoleRequest.fromBytes (data : Bytes) : Outcome String SharedConsoleRequest :=
  match data.length with
  | 0 => pure ⟨0⟩
  | 8 => do
      let array ← unwrapArray 8 data
      pure ⟨UInt64.ofNat (beNat array)⟩
  | len => .err s!"invalid shared console payload length: {len}"

theorem eq_of_length_four {data : Bytes} (h : data.length = 4) :
    ∃ a b c d, data = [a, b, c, d] := by
  obtain ⟨a, data, rfl⟩ := List.exists_cons_of_length_eq_add_one h
  obtain ⟨b, c, d, rfl⟩ := List.length_eq_three.mp (Nat.succ.inj h)
  exact ⟨a, b, c, d, rfl⟩

/-- The four indices are there, and the decoder is the one that reads two slices. -/
theorem decodeResizeAt_eq (data : Bytes) :
    decodeResizeAt data = Outcome.ofExcept (decodeResize data) := by
  unfold decodeResizeAt decodeResize
  by_cases hlen : data.length = 4
  · rw [if_neg (not_not.mpr hlen), if_neg (not_not.mpr hlen)]
    obtain ⟨a, b, c, d, rfl⟩ := eq_of_length_four hlen
    rfl
  · rw [if_pos hlen, if_pos hlen]
    rfl

theorem decodeExitAt_eq (data : Bytes) :
    decodeExitAt data = Outcome.ofExcept (decodeExit data) := by
  unfold decodeExitAt decodeExit
  by_cases hlen : data.length = 4
  · rw [if_neg (not_not.mpr hlen), if_neg (not_not.mpr hlen)]
    obtain ⟨a, b, c, d, rfl⟩ := eq_of_length_four hlen
    rfl
  · rw [if_pos hlen, if_pos hlen]
    rfl

theorem SharedConsoleRequest.safe_fromBytes (data : Bytes) :
    (SharedConsoleRequest.fromBytes data).Safe := by
  unfold SharedConsoleRequest.fromBytes
  split
  · exact Outcome.safe_ok _
  · next hlen =>
      rw [unwrapArray, if_pos hlen]
      exact Outcome.safe_ok _
  · exact Outcome.safe_err _

/-! ## Cursors -/

/-- A read with enough bytes left does not panic, and neither does what follows it. -/
theorem safe_getBe {α : Type} {k : Nat} {bytes : Bytes} {f : Nat × Bytes → Outcome String α}
    (hk : k ≤ bytes.length) (hf : ∀ n, (f (n, bytes.drop k)).Safe) :
    (getBe k bytes >>= f).Safe := by
  have hread : getBe k bytes = .ok (beNat (bytes.take k), bytes.drop k) := by
    rw [getBe, Outcome.slice_of_le (Nat.zero_le k) hk, Outcome.sliceFrom_of_le hk]
    rfl
  rw [hread]
  exact hf _

theorem safe_fromUtf8Or (context : String) (bytes : Bytes) : (fromUtf8Or context bytes).Safe := by
  unfold fromUtf8Or
  split
  · exact Outcome.safe_ok _
  · exact Outcome.safe_err _

theorem safe_takeLenPrefixed (bytes : Bytes) (label : String) :
    (takeLenPrefixed bytes label).Safe := by
  refine Outcome.safe_ite_err fun hprefix => safe_getBe (by omega) fun len => ?_
  refine Outcome.safe_ite_err fun hlen => ?_
  rw [Outcome.slice_of_le (Nat.zero_le len) (by omega), Outcome.sliceFrom_of_le (by omega)]
  exact Outcome.safe_ok _

theorem one_le_length {bytes : Bytes} (h : ¬ bytes.isEmpty) : 1 ≤ bytes.length := by
  cases bytes with
  | nil => exact absurd rfl h
  | cons b bytes => simp

/-! ## Control messages -/

theorem VmState.safe_fromU8 (value : Nat) : (VmState.fromU8 value).Safe := by
  unfold VmState.fromU8
  split
  · exact Outcome.safe_ok _
  · exact Outcome.safe_ok _
  · exact Outcome.safe_err _

theorem RuntimeStatus.safe_fromU8 (value : Nat) : (RuntimeStatus.fromU8 value).Safe := by
  unfold RuntimeStatus.fromU8
  split
  · exact Outcome.safe_ok _
  · exact Outcome.safe_ok _
  · exact Outcome.safe_ok _
  · exact Outcome.safe_err _

/-- One check covers the four reads of the fixed part. -/
theorem AttestationPayload.safe_fromBytes (bytes : Bytes) :
    (AttestationPayload.fromBytes bytes).Safe := by
  refine Outcome.safe_ite_err fun hlen => ?_
  refine safe_getBe (by omega) fun _ => ?_
  refine safe_getBe (by rw [List.length_drop]; omega) fun state => ?_
  refine Outcome.safe_bind_do (VmState.safe_fromU8 state) fun _ _ => ?_
  refine safe_getBe (by simp only [List.length_drop]; omega) fun status => ?_
  refine Outcome.safe_bind_do (RuntimeStatus.safe_fromU8 status) fun _ _ => ?_
  refine safe_getBe (by simp only [List.length_drop]; omega) fun _ => ?_
  refine Outcome.safe_ite_err fun _ => ?_
  exact Outcome.safe_bind_do (safe_fromUtf8Or _ _) fun _ _ => Outcome.safe_ok _

theorem RootfsSource.safe_decode (bytes : Bytes) : (RootfsSource.decode bytes).Safe := by
  refine Outcome.safe_ite_err fun hsome => safe_getBe (one_le_length hsome) fun kind => ?_
  dsimp only
  split
  · exact Outcome.safe_ok _
  · exact Outcome.safe_bind_do (safe_takeLenPrefixed _ _) fun _ _ => Outcome.safe_ok _
  · refine Outcome.safe_bind_do (safe_takeLenPrefixed _ _) fun _ _ => ?_
    exact Outcome.safe_bind_do (safe_fromUtf8Or _ _) fun _ _ => Outcome.safe_ok _
  · exact Outcome.safe_err _

theorem SetupRequest.safe_fromBytes (bytes : Bytes) : (SetupRequest.fromBytes bytes).Safe := by
  refine Outcome.safe_bind_do (safe_takeLenPrefixed _ _) fun _ _ => ?_
  refine Outcome.safe_bind_do (safe_fromUtf8Or _ _) fun _ _ => ?_
  refine Outcome.safe_bind_do (RootfsSource.safe_decode _) fun _ _ => ?_
  exact Outcome.safe_ite_err fun _ => Outcome.safe_ok _

/-! ## Exec sessions -/

/-- The step of the loop. -/
theorem safe_takeExecArg (data : Bytes) : (takeExecArg data).Safe := by
  refine Outcome.safe_ite_err fun hprefix => safe_getBe (by omega) fun len => ?_
  refine Outcome.safe_ite_err fun hlen => ?_
  rw [Outcome.slice_of_le (Nat.zero_le len) (by omega), Outcome.sliceFrom_of_le (by omega),
    Outcome.ok_bind_do]
  exact Outcome.safe_bind_do (safe_fromUtf8Or _ _) fun _ _ => Outcome.safe_ok _

theorem safe_decodeExecArgv (data : Bytes) : (decodeExecArgv data).Safe := by
  refine Outcome.safe_ite_err fun hcount => safe_getBe (by omega) fun argc => ?_
  refine Outcome.safe_bind_do (safe_times safe_takeExecArg argc _) fun _ _ => ?_
  exact Outcome.safe_ite_err fun _ => Outcome.safe_ok _

/-- An optional field is read safely when its flag is there and what is behind it is decoded
    safely. -/
theorem safe_takeOptional {α : Type} {flagError : Nat → String} {label : String}
    {decode : Bytes → Outcome String α} {data : Bytes} (hdecode : ∀ field, (decode field).Safe)
    (hflag : ¬ data.isEmpty) : (takeOptional flagError label decode data).Safe := by
  refine safe_getBe (one_le_length hflag) fun flag => ?_
  dsimp only
  split
  · exact Outcome.safe_ok _
  · refine Outcome.safe_bind_do (safe_takeLenPrefixed _ _) fun field _ => ?_
    exact Outcome.safe_bind_do (hdecode field.1) fun _ _ => Outcome.safe_ok _
  · exact Outcome.safe_err _

theorem safe_takeRenderedBytes (data : Bytes) : (takeRenderedBytes data).Safe := by
  unfold takeRenderedBytes
  split
  · exact Outcome.safe_ok _
  · next hlen => exact safe_getBe (by omega) fun _ => Outcome.safe_ok _
  · exact Outcome.safe_err _

theorem ExecSessionRequest.safe_fromBytes (data : Bytes) :
    (ExecSessionRequest.fromBytes data).Safe := by
  refine Outcome.safe_bind_do (safe_takeLenPrefixed _ _) fun _ _ => ?_
  refine Outcome.safe_bind_do (safe_fromUtf8Or _ _) fun _ _ => ?_
  refine Outcome.safe_ite_err fun _ => Outcome.safe_ite_err fun hargv => ?_
  refine Outcome.safe_bind_do (safe_takeOptional safe_decodeExecArgv hargv) fun rest _ => ?_
  dsimp only
  split
  · exact Outcome.safe_ok _
  · next hcontext =>
      refine Outcome.safe_bind_do (safe_takeOptional (safe_fromUtf8Or _) hcontext) fun _ _ => ?_
      exact Outcome.safe_bind_do (safe_takeRenderedBytes _) fun _ _ => Outcome.safe_ok _

/-- The two flags of a session stand behind one check. -/
theorem safe_takeAttached {α : Type} {data : Bytes} {f : Bool × Bytes → Outcome String α}
    (hlen : 2 ≤ data.length)
    (hf : ∀ attached rest, 1 ≤ rest.length → (f (attached, rest)).Safe) :
    (takeAttached data >>= f).Safe := by
  refine Outcome.safe_bind_do ?_ fun x hx => ?_
  · refine safe_getBe (by omega) fun flag => ?_
    dsimp only
    split
    · exact Outcome.safe_ok _
    · exact Outcome.safe_ok _
    · exact Outcome.safe_err _
  · obtain ⟨attached, rest⟩ := x
    have hdata := takeAttached_eq_ok.mp hx
    rw [hdata, List.length_cons] at hlen
    exact hf attached rest (by omega)

theorem safe_takeExitCode {data : Bytes} (hlen : 1 ≤ data.length) : (takeExitCode data).Safe := by
  refine safe_getBe hlen fun flag => ?_
  dsimp only
  split
  · exact Outcome.safe_ok _
  · exact Outcome.safe_ite_err fun hcode => safe_getBe (by omega) fun _ => Outcome.safe_ok _
  · exact Outcome.safe_err _

theorem ExecSessionInfo.safe_decode (data : Bytes) : (ExecSessionInfo.decode data).Safe := by
  refine Outcome.safe_bind_do (safe_takeLenPrefixed _ _) fun _ _ => ?_
  refine Outcome.safe_bind_do (safe_fromUtf8Or _ _) fun _ _ => ?_
  refine Outcome.safe_ite_err fun _ => Outcome.safe_ite_err fun hflags => ?_
  refine safe_takeAttached (by omega) fun _ rest hrest => ?_
  refine Outcome.safe_bind_do (safe_takeExitCode hrest) fun _ _ => ?_
  refine Outcome.safe_bind_do (safe_takeLenPrefixed _ _) fun _ _ => ?_
  refine Outcome.safe_bind_do (safe_decodeExecArgv _) fun _ _ => ?_
  dsimp only
  split
  · exact Outcome.safe_ok _
  · next hcontext =>
      refine Outcome.safe_bind_do (safe_takeOptional (safe_fromUtf8Or _) hcontext) fun _ _ => ?_
      exact Outcome.safe_ok _

theorem ExecSessionList.safe_fromBytes (data : Bytes) : (ExecSessionList.fromBytes data).Safe := by
  refine Outcome.safe_ite_err fun hcount => safe_getBe (by omega) fun count => ?_
  refine Outcome.safe_bind_do (safe_times ExecSessionInfo.safe_decode count _) fun _ _ => ?_
  exact Outcome.safe_ite_err fun _ => Outcome.safe_ok _

/-- No decoder of a wire format panics. -/
theorem wire_decoders_safe (data : Bytes) :
    (AttestationPayload.fromBytes data).Safe ∧ (SetupRequest.fromBytes data).Safe ∧
      (decodeExecArgv data).Safe ∧ (SharedConsoleRequest.fromBytes data).Safe ∧
      (ExecSessionRequest.fromBytes data).Safe ∧ (ExecSessionList.fromBytes data).Safe ∧
      (decodeResizeAt data).Safe ∧ (decodeExitAt data).Safe := by
  refine ⟨AttestationPayload.safe_fromBytes data, SetupRequest.safe_fromBytes data,
    safe_decodeExecArgv data, SharedConsoleRequest.safe_fromBytes data,
    ExecSessionRequest.safe_fromBytes data, ExecSessionList.safe_fromBytes data, ?_, ?_⟩
  · rw [decodeResizeAt_eq]
    exact Outcome.safe_ofExcept _
  · rw [decodeExitAt_eq]
    exact Outcome.safe_ofExcept _

end FlyVault.Protocol
