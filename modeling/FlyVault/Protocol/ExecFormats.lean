/-
  The formats of exec sessions (`crates/protocol/src/lib.rs`): the argument vector, the
  request that opens an exec stream, and the list of sessions.

  Two fields were added to these formats later and may be missing. A request may lack its
  last eight bytes, the count of rendered bytes, or these and the context flag before them. In
  a list the last session may lack its context flag; a session before it cannot, since the
  decoder would take the first byte of the next session for it.

  As for the control messages there is one lemma for each decoder that says exactly what it
  accepts. `request_and_list_formats` puts together what follows for the two formats. The
  vectors reserved for an announced number of elements are not modelled: no allocation fails.
-/
import FlyVault.Lib.Codec
import FlyVault.Protocol.ControlCodec

namespace FlyVault.Protocol

open FlyVault.Lib

/-! ## Argument vectors -/

/-- `encode_exec_argv`. -/
def encodeExecArgv (argv : List String) : Bytes :=
  beBytes 4 argv.length ++ argv.flatMap fun arg => lenPrefixed (utf8 arg)

/-- One turn of the loop of `decode_exec_argv`. -/
def takeExecArg (data : Bytes) : Outcome String (String × Bytes) :=
  if data.length < 4 then .err "exec argv length prefix truncated"
  else do
    let (len, data) ← getBe 4 data
    if data.length < len then .err "exec argv element truncated"
    else do
      let bytes ← .slice data 0 len
      let arg ← fromUtf8Or "exec argv not utf-8" bytes
      let data ← .sliceFrom data len
      pure (arg, data)

/-- `decode_exec_argv`. -/
def decodeExecArgv (data : Bytes) : Outcome String (List String) :=
  if data.length < 4 then .err "exec argv payload too short"
  else do
    let (argc, data) ← getBe 4 data
    let (argv, data) ← times takeExecArg argc data
    if ¬ data.isEmpty then .err "exec argv payload has trailing bytes"
    else pure argv

/-- The counts and lengths of an argument vector fit into 32 bits. -/
structure ArgvFits (argv : List String) : Prop where
  count : argv.length < 2 ^ 32
  args : ∀ arg ∈ argv, Short (utf8 arg)
  block : Short (encodeExecArgv argv)

theorem takeExecArg_eq_ok {data rest : Bytes} {arg : String} :
    takeExecArg data = .ok (arg, rest) ↔
      Short (utf8 arg) ∧ data = lenPrefixed (utf8 arg) ++ rest := by
  simp only [takeExecArg, Outcome.ite_err_eq_ok, Outcome.bind_eq_ok, Prod.exists, getBe_eq_ok,
    fromUtf8Or_eq_ok, Outcome.pure_eq_ok, Prod.mk.injEq]
  constructor
  · intro h
    obtain ⟨_, len, tail, ⟨hlen, hdata⟩, _, bytes, hbytes, text, htext, rest', hrest, harg,
      heq⟩ := h
    subst harg heq htext
    obtain ⟨hlen', htail⟩ := Outcome.split_eq_ok.mp ⟨hbytes, hrest⟩
    subst hlen' htail hdata
    exact ⟨hlen, by simp [lenPrefixed]⟩
  · intro h
    obtain ⟨hshort, hdata⟩ := h
    rw [lenPrefixed, List.append_assoc] at hdata
    obtain ⟨hbytes, hrest⟩ := Outcome.split_eq_ok.mpr
      (⟨rfl, rfl⟩ : (utf8 arg).length = _ ∧ utf8 arg ++ rest = _)
    exact ⟨by rw [hdata]; simp, (utf8 arg).length, _, ⟨hshort, hdata⟩, by simp, utf8 arg, hbytes,
      arg, rfl, rest, hrest, rfl, rfl⟩

theorem decodeExecArgv_eq_ok {data : Bytes} {argv : List String} :
    decodeExecArgv data = .ok argv ↔
      (argv.length < 2 ^ 32 ∧ ∀ arg ∈ argv, Short (utf8 arg)) ∧ data = encodeExecArgv argv := by
  have htimes : ∀ n, Reads (times takeExecArg n) _ _ := fun n =>
    Reads.times (fun _ _ _ => takeExecArg_eq_ok) n
  simp only [decodeExecArgv, Outcome.ite_err_eq_ok, Outcome.bind_eq_ok, Prod.exists, getBe_eq_ok,
    Outcome.pure_eq_ok, Classical.not_not, List.isEmpty_iff]
  constructor
  · intro h
    obtain ⟨_, argc, tail, ⟨hargc, hdata⟩, args, rest, hargs, hrest, hargv⟩ := h
    obtain ⟨⟨hlen, hshort⟩, htail⟩ := (htimes argc _ _ _).mp hargs
    subst hargv hrest hlen hdata htail
    exact ⟨⟨hargc, hshort⟩, by simp [encodeExecArgv]⟩
  · intro h
    obtain ⟨⟨hcount, hshort⟩, hdata⟩ := h
    subst hdata
    refine ⟨by simp [encodeExecArgv], argv.length, _, ⟨hcount, rfl⟩, argv, [], ?_, rfl, rfl⟩
    exact (htimes _ _ _ _).mpr ⟨⟨rfl, hshort⟩, (List.append_nil _).symm⟩

/-! ## Optional fields -/

/-- A flag, and the field behind a set one. -/
def encodeOptional {α : Type} (encode : α → Bytes) : Option α → Bytes
  | some a => 1 :: lenPrefixed (encode a)
  | none => [0]

/-- Read a flag and the field behind a set one. -/
def takeOptional {α : Type} (flagError : Nat → String) (label : String)
    (decode : Bytes → Outcome String α) (data : Bytes) : Outcome String (Option α × Bytes) := do
  let (flag, data) ← getBe 1 data
  match flag with
  | 0 => pure (none, data)
  | 1 => do
      let (field, data) ← takeLenPrefixed data label
      let value ← decode field
      pure (some value, data)
  | other => .err (flagError other)

/-- The optional arguments of a request. -/
def takeArgv (data : Bytes) : Outcome String (Option (List String) × Bytes) :=
  takeOptional (fun other => s!"invalid exec session argv flag: {other}") "exec session argv"
    decodeExecArgv data

/-- The optional context of a request or a session. -/
def takeContext (data : Bytes) : Outcome String (Option String × Bytes) :=
  takeOptional (fun other => s!"invalid exec session context flag: {other}")
    "exec session context" (fromUtf8Or "exec session context not utf-8") data

/-- An optional field is read exactly from its encoding. -/
theorem takeOptional_eq_ok {α : Type} {flagError : Nat → String} {label : String}
    {decode : Bytes → Outcome String α} {encode : α → Bytes} {Fits : α → Prop}
    (hdecode : ∀ field value, decode field = .ok value ↔ Fits value ∧ field = encode value)
    {data rest : Bytes} {value : Option α} :
    takeOptional flagError label decode data = .ok (value, rest) ↔
      (∀ v ∈ value, Fits v ∧ Short (encode v)) ∧ data = encodeOptional encode value ++ rest := by
  rw [takeOptional, Outcome.bind_eq_ok, Prod.exists]
  constructor
  · intro h
    obtain ⟨flag, tail, hflag, h⟩ := h
    obtain ⟨_, hdata⟩ := getBe_eq_ok.mp hflag
    subst hdata
    dsimp only at h
    split at h
    · cases h
      exact ⟨(by simp), rfl⟩
    · simp only [Outcome.bind_eq_ok, Prod.exists, takeLenPrefixed_eq_ok, hdecode,
        Outcome.pure_eq_ok, Prod.mk.injEq] at h
      obtain ⟨field, rest', ⟨hshort, htail⟩, v, ⟨hfits, hfield⟩, hvalue, hrest⟩ := h
      subst hvalue hrest htail hfield
      refine ⟨?_, rfl⟩
      intro w hw
      cases hw
      exact ⟨hfits, hshort⟩
    · cases h
  · intro h
    obtain ⟨hfits, hdata⟩ := h
    subst hdata
    cases value with
    | none => exact ⟨_, _, getBe_one_cons 0 rest, rfl⟩
    | some v =>
        obtain ⟨hv, hshort⟩ := hfits v rfl
        refine ⟨_, _, getBe_one_cons 1 (lenPrefixed (encode v) ++ rest), ?_⟩
        show (takeLenPrefixed (lenPrefixed (encode v) ++ rest) label >>= _) = _
        rw [takeLenPrefixed_eq_ok.mpr ⟨hshort, rfl⟩]
        show (decode (encode v) >>= _) = _
        rw [(hdecode _ v).mpr ⟨hv, rfl⟩]
        rfl

theorem takeArgv_eq_ok {data rest : Bytes} {argv : Option (List String)} :
    takeArgv data = .ok (argv, rest) ↔
      (∀ args ∈ argv, ArgvFits args) ∧ data = encodeOptional encodeExecArgv argv ++ rest := by
  rw [takeArgv, takeOptional_eq_ok (fun _ _ => decodeExecArgv_eq_ok)]
  refine and_congr_left fun _ => forall₂_congr fun args _ => ?_
  exact ⟨fun ⟨h, hblock⟩ => ⟨h.1, h.2, hblock⟩, fun h => ⟨⟨h.count, h.args⟩, h.block⟩⟩

theorem takeContext_eq_ok {data rest : Bytes} {context : Option String} :
    takeContext data = .ok (context, rest) ↔
      (∀ text ∈ context, Short (utf8 text)) ∧ data = encodeOptional utf8 context ++ rest := by
  have htext : ∀ field text, fromUtf8Or "exec session context not utf-8" field = .ok text ↔
      True ∧ field = utf8 text := by
    intro field text
    rw [fromUtf8Or_eq_ok, true_and]
    exact eq_comm
  rw [takeContext, takeOptional_eq_ok htext]
  simp only [true_and]

/-! ## Requests -/

/-- `ExecSessionRequest::to_bytes`. -/
def ExecSessionRequest.toBytes (request : ExecSessionRequest) : Bytes :=
  lenPrefixed (utf8 request.sessionId) ++ encodeOptional encodeExecArgv request.argv ++
    encodeOptional utf8 request.context ++ beBytes 8 request.renderedBytes.toNat

/-- The end of a request: the count of rendered bytes, or nothing. -/
def takeRenderedBytes (data : Bytes) : Outcome String UInt64 :=
  match data.length with
  | 0 => pure 0
  | 8 => do
      let (renderedBytes, _) ← getBe 8 data
      pure (UInt64.ofNat renderedBytes)
  | other => .err s!"exec session payload has invalid rendered byte length: {other}"

/-- `ExecSessionRequest::from_bytes`. -/
def ExecSessionRequest.fromBytes (data : Bytes) : Outcome String ExecSessionRequest := do
  let (sessionId, data) ← takeLenPrefixed data "exec session id"
  let sessionId ← fromUtf8Or "exec session id not utf-8" sessionId
  if sessionId = "" then .err "exec session id must not be empty"
  else if data.isEmpty then .err "exec session payload missing argv flag"
  else do
    let (argv, data) ← takeArgv data
    if data.isEmpty then pure ⟨sessionId, argv, none, 0⟩
    else do
      let (context, data) ← takeContext data
      let renderedBytes ← takeRenderedBytes data
      pure ⟨sessionId, argv, context, renderedBytes⟩

/-- A session id, and lengths that fit into 32 bits. -/
structure ExecSessionRequest.Fits (request : ExecSessionRequest) : Prop where
  nonempty : request.sessionId ≠ ""
  sessionId : Short (utf8 request.sessionId)
  argv : ∀ args ∈ request.argv, ArgvFits args
  context : ∀ text ∈ request.context, Short (utf8 text)

theorem takeRenderedBytes_eq_ok {data : Bytes} {n : UInt64} :
    takeRenderedBytes data = .ok n ↔ data = beBytes 8 n.toNat ∨ data = [] ∧ n = 0 := by
  have hlength : data = beBytes 8 n.toNat → data.length = 8 := by
    intro h
    rw [h, length_beBytes]
  unfold takeRenderedBytes
  split
  · next hlen =>
      have hnil : data = [] := List.length_eq_zero_iff.mp hlen
      rw [Outcome.pure_eq_ok]
      constructor
      · intro h
        exact .inr ⟨hnil, h.symm⟩
      · intro h
        rcases h with h | ⟨_, h⟩
        · have := hlength h
          omega
        · exact h.symm
  · next hlen =>
      simp only [Outcome.bind_eq_ok, Prod.exists, getBe_eq_ok, Outcome.pure_eq_ok]
      constructor
      · intro h'
        obtain ⟨k, rest, ⟨hk, hdata⟩, hn⟩ := h'
        have hrest : rest = [] := by
          rw [hdata, List.length_append, length_beBytes] at hlen
          exact List.length_eq_zero_iff.mp (by omega)
        have hword : (UInt64.ofNat k).toNat = k := by
          rw [UInt64.toNat_ofNat']
          exact Nat.mod_eq_of_lt hk
        rw [← hn, hword, hdata, hrest, List.append_nil]
        exact .inl rfl
      · intro h
        rcases h with h | ⟨h, _⟩
        · exact ⟨n.toNat, [], ⟨n.toNat_lt, by rw [h, List.append_nil]⟩, UInt64.ofNat_toNat⟩
        · rw [h] at hlen
          cases hlen
  · next h₀ h₈ =>
      refine iff_of_false (by simp) fun h => ?_
      rcases h with h | ⟨h, _⟩
      · exact h₈ (hlength h)
      · exact h₀ (by rw [h]; rfl)

/-- Without the last `n` bytes. -/
def dropEnd (n : Nat) (bytes : Bytes) : Bytes := bytes.take (bytes.length - n)

theorem dropEnd_append {n : Nat} {bytes tail : Bytes} (h : tail.length = n) :
    dropEnd n (bytes ++ tail) = bytes := by
  rw [dropEnd, List.length_append, h, Nat.add_sub_cancel, List.take_left]

/-- The context flag and the count of a request without them. -/
theorem ExecSessionRequest.dropEnd_toBytes (request : ExecSessionRequest) :
    dropEnd 8 request.toBytes = lenPrefixed (utf8 request.sessionId) ++
        encodeOptional encodeExecArgv request.argv ++ encodeOptional utf8 request.context ∧
      (request.context = none → dropEnd 9 request.toBytes =
        lenPrefixed (utf8 request.sessionId) ++ encodeOptional encodeExecArgv request.argv) := by
  constructor
  · exact dropEnd_append (length_beBytes 8 _)
  · intro hnone
    rw [ExecSessionRequest.toBytes, List.append_assoc _ (encodeOptional utf8 _), hnone]
    exact dropEnd_append (by simp [encodeOptional])

/-- `from_bytes` accepts the encoding of a request, also without its last eight or nine bytes
    when these say nothing. -/
theorem ExecSessionRequest.fromBytes_eq_ok {data : Bytes} {request : ExecSessionRequest} :
    ExecSessionRequest.fromBytes data = .ok request ↔
      request.Fits ∧ (data = request.toBytes ∨
        data = dropEnd 8 request.toBytes ∧ request.renderedBytes = 0 ∨
        data = dropEnd 9 request.toBytes ∧ request.renderedBytes = 0 ∧ request.context = none) := by
  obtain ⟨h8, h9⟩ := request.dropEnd_toBytes
  simp only [ExecSessionRequest.fromBytes, Outcome.bind_eq_ok, Prod.exists, takeLenPrefixed_eq_ok,
    fromUtf8Or_eq_ok, Outcome.ite_err_eq_ok, takeArgv_eq_ok, List.isEmpty_iff]
  constructor
  · intro h
    obtain ⟨idBytes, d₁, ⟨hid, hdata⟩, sessionId, htext, hne, _, argv, d₂, ⟨hargv, h₁⟩, h⟩ := h
    subst htext hdata h₁
    split at h
    · next hend =>
        cases h
        refine ⟨⟨hne, hid, hargv, (by simp)⟩, .inr (.inr ⟨?_, rfl, rfl⟩)⟩
        rw [h9 rfl, hend, List.append_nil]
    · simp only [Outcome.bind_eq_ok, Prod.exists, takeContext_eq_ok, takeRenderedBytes_eq_ok,
        Outcome.pure_eq_ok] at h
      obtain ⟨context, d₃, ⟨hcontext, h₂⟩, renderedBytes, hcount, hrequest⟩ := h
      subst hrequest h₂
      refine ⟨⟨hne, hid, hargv, hcontext⟩, ?_⟩
      rcases hcount with hcount | ⟨hcount, hzero⟩
      · exact .inl (by rw [hcount]; simp [ExecSessionRequest.toBytes])
      · exact .inr (.inl ⟨by rw [h8, hcount]; simp, hzero⟩)
  · intro h
    obtain ⟨hfits, hdata⟩ := h
    have hargv : encodeOptional encodeExecArgv request.argv ≠ [] := by
      cases request.argv <;> simp [encodeOptional]
    have hcontext : encodeOptional utf8 request.context ≠ [] := by
      cases request.context <;> simp [encodeOptional]
    -- what follows the arguments, in each of the three forms
    obtain ⟨tail, htail, hrest⟩ : ∃ tail, data = lenPrefixed (utf8 request.sessionId) ++
        (encodeOptional encodeExecArgv request.argv ++ tail) ∧
        ((tail = [] ∧ request.renderedBytes = 0 ∧ request.context = none) ∨
          ∃ count, tail = encodeOptional utf8 request.context ++ count ∧
            (count = beBytes 8 request.renderedBytes.toNat ∨
              count = [] ∧ request.renderedBytes = 0)) := by
      rcases hdata with hdata | ⟨hdata, hzero⟩ | ⟨hdata, hzero, hnone⟩
      · exact ⟨_, by rw [hdata, ExecSessionRequest.toBytes]; simp only [List.append_assoc],
          .inr ⟨_, rfl, .inl rfl⟩⟩
      · exact ⟨_, by rw [hdata, h8, List.append_assoc], .inr ⟨[], (List.append_nil _).symm,
          .inr ⟨rfl, hzero⟩⟩⟩
      · exact ⟨[], by rw [hdata, h9 hnone, List.append_nil], .inl ⟨rfl, hzero, hnone⟩⟩
    refine ⟨_, _, ⟨hfits.sessionId, htail⟩, _, rfl, hfits.nonempty, ?_, _, tail,
      ⟨hfits.argv, rfl⟩, ?_⟩
    · simp [hargv]
    · rcases hrest with ⟨hend, hzero, hnone⟩ | ⟨count, htail, hcount⟩
      · rw [if_pos hend, ← hzero, ← hnone]
        rfl
      · rw [if_neg (by simp [htail, hcontext])]
        simp only [Outcome.bind_eq_ok, Prod.exists, takeContext_eq_ok, takeRenderedBytes_eq_ok,
          Outcome.pure_eq_ok]
        exact ⟨_, count, ⟨hfits.context, htail⟩, _, hcount, rfl⟩

/-! ## Sessions -/

/-- `ExecSessionInfo`. -/
structure ExecSessionInfo where
  sessionId : String
  argv : List String
  context : Option String
  attached : Bool
  exitCode : Option UInt32
  deriving DecidableEq, Repr

/-- The exit flag, and the code behind a set one. -/
def encodeExitCode : Option UInt32 → Bytes
  | some code => 1 :: encodeExit code
  | none => [0]

/-- The encoding of a session without its context. -/
def ExecSessionInfo.encodeBase (info : ExecSessionInfo) : Bytes :=
  lenPrefixed (utf8 info.sessionId) ++ [if info.attached then 1 else 0] ++
    encodeExitCode info.exitCode ++ lenPrefixed (encodeExecArgv info.argv)

/-- `ExecSessionInfo::encode`. -/
def ExecSessionInfo.encode (info : ExecSessionInfo) : Bytes :=
  info.encodeBase ++ encodeOptional utf8 info.context

def takeAttached (data : Bytes) : Outcome String (Bool × Bytes) := do
  let (flag, data) ← getBe 1 data
  match flag with
  | 0 => pure (false, data)
  | 1 => pure (true, data)
  | other => .err s!"invalid exec session attached flag: {other}"

def takeExitCode (data : Bytes) : Outcome String (Option UInt32 × Bytes) := do
  let (flag, data) ← getBe 1 data
  match flag with
  | 0 => pure (none, data)
  | 1 =>
      if data.length < 4 then .err "exec session exit code truncated"
      else do
        let (code, data) ← getBe 4 data
        pure (some (UInt32.ofNat code), data)
  | other => .err s!"invalid exec session exit flag: {other}"

/-- `ExecSessionInfo::decode`. -/
def ExecSessionInfo.decode (data : Bytes) : Outcome String (ExecSessionInfo × Bytes) := do
  let (sessionId, data) ← takeLenPrefixed data "exec session info id"
  let sessionId ← fromUtf8Or "exec session info id not utf-8" sessionId
  if sessionId = "" then .err "exec session info id must not be empty"
  else if data.length < 2 then .err "exec session info payload too short"
  else do
    let (attached, data) ← takeAttached data
    let (exitCode, data) ← takeExitCode data
    let (argv, data) ← takeLenPrefixed data "exec session argv"
    let argv ← decodeExecArgv argv
    if data.isEmpty then pure (⟨sessionId, argv, none, attached, exitCode⟩, data)
    else do
      let (context, data) ← takeContext data
      pure (⟨sessionId, argv, context, attached, exitCode⟩, data)

/-- A session id, and lengths that fit into 32 bits. -/
structure ExecSessionInfo.Fits (info : ExecSessionInfo) : Prop where
  nonempty : info.sessionId ≠ ""
  sessionId : Short (utf8 info.sessionId)
  argv : ArgvFits info.argv
  context : ∀ text ∈ info.context, Short (utf8 text)

theorem takeAttached_eq_ok {data rest : Bytes} {attached : Bool} :
    takeAttached data = .ok (attached, rest) ↔ data = (if attached then 1 else 0) :: rest := by
  rw [takeAttached, Outcome.bind_eq_ok, Prod.exists]
  constructor
  · intro h
    obtain ⟨flag, tail, hflag, h⟩ := h
    obtain ⟨_, hdata⟩ := getBe_eq_ok.mp hflag
    subst hdata
    dsimp only at h
    split at h <;> cases h <;> rfl
  · intro hdata
    subst hdata
    cases attached with
    | false => exact ⟨_, _, getBe_one_cons 0 rest, rfl⟩
    | true => exact ⟨_, _, getBe_one_cons 1 rest, rfl⟩

theorem takeExitCode_eq_ok {data rest : Bytes} {exitCode : Option UInt32} :
    takeExitCode data = .ok (exitCode, rest) ↔ data = encodeExitCode exitCode ++ rest := by
  rw [takeExitCode, Outcome.bind_eq_ok, Prod.exists]
  constructor
  · intro h
    obtain ⟨flag, tail, hflag, h⟩ := h
    obtain ⟨_, hdata⟩ := getBe_eq_ok.mp hflag
    subst hdata
    dsimp only at h
    split at h
    · cases h
      rfl
    · simp only [Outcome.ite_err_eq_ok, Outcome.bind_eq_ok, Prod.exists, getBe_eq_ok,
        Outcome.pure_eq_ok, Prod.mk.injEq] at h
      obtain ⟨_, code, rest', ⟨hcode, htail⟩, hexit, hrest⟩ := h
      have hword : (UInt32.ofNat code).toNat = code := by
        rw [UInt32.toNat_ofNat']
        exact Nat.mod_eq_of_lt hcode
      subst hexit hrest htail
      rw [encodeExitCode, encodeExit, hword]
      rfl
    · cases h
  · intro hdata
    subst hdata
    cases exitCode with
    | none => exact ⟨_, _, getBe_one_cons 0 rest, rfl⟩
    | some code =>
        refine ⟨_, _, getBe_one_cons 1 (encodeExit code ++ rest), ?_⟩
        show (if (encodeExit code ++ rest).length < 4 then Outcome.err _ else _) = _
        rw [Outcome.ite_err_eq_ok, Outcome.bind_eq_ok]
        refine ⟨by simp [encodeExit], (code.toNat, rest), ?_, ?_⟩
        · exact getBe_eq_ok.mpr ⟨code.toNat_lt, rfl⟩
        · dsimp only
          rw [UInt32.ofNat_toNat]
          rfl

/-- A session without a context may end the input without its context flag. -/
def ExecSessionInfo.short (info : ExecSessionInfo) : Option Bytes :=
  if info.context = none then some info.encodeBase else none

theorem ExecSessionInfo.short_eq_some {info : ExecSessionInfo} {bytes : Bytes} :
    info.short = some bytes ↔ info.context = none ∧ info.encodeBase = bytes := by
  rw [ExecSessionInfo.short, Option.ite_none_right_eq_some, Option.some.injEq]

theorem ExecSessionInfo.readsEnd_decode :
    ReadsEnd ExecSessionInfo.decode ExecSessionInfo.encode ExecSessionInfo.short
      ExecSessionInfo.Fits := by
  intro data info rest
  rw [ExecSessionInfo.short_eq_some]
  simp only [ExecSessionInfo.decode, Outcome.bind_eq_ok, Prod.exists, takeLenPrefixed_eq_ok,
    fromUtf8Or_eq_ok, Outcome.ite_err_eq_ok, takeAttached_eq_ok, takeExitCode_eq_ok,
    decodeExecArgv_eq_ok, List.isEmpty_iff]
  constructor
  · intro h
    obtain ⟨idBytes, d₁, ⟨hid, hdata⟩, sessionId, htext, hne, _, attached, d₂, h₁, exitCode, d₃, h₂,
      argvBytes, d₄, ⟨hblock, h₃⟩, argv, ⟨⟨hcount, hargs⟩, hargv⟩, h⟩ := h
    subst htext hdata h₁ h₂ h₃ hargv
    split at h
    · next hend =>
        cases h
        refine ⟨⟨hne, hid, ⟨hcount, hargs, hblock⟩, (by simp)⟩, .inr ⟨hend, rfl, ?_⟩⟩
        simp [ExecSessionInfo.encodeBase, hend]
    · simp only [Outcome.bind_eq_ok, Prod.exists, takeContext_eq_ok, Outcome.pure_eq_ok,
        Prod.mk.injEq] at h
      obtain ⟨context, rest', ⟨hcontext, h₄⟩, hinfo, hrest⟩ := h
      subst hinfo hrest h₄
      refine ⟨⟨hne, hid, ⟨hcount, hargs, hblock⟩, hcontext⟩, .inl ?_⟩
      simp [ExecSessionInfo.encode, ExecSessionInfo.encodeBase]
  · intro h
    obtain ⟨hfits, hdata⟩ := h
    obtain ⟨tail, htail, hrest⟩ : ∃ tail, data = info.encodeBase ++ tail ∧
        ((tail = [] ∧ rest = [] ∧ info.context = none) ∨
          tail = encodeOptional utf8 info.context ++ rest) := by
      rcases hdata with hdata | ⟨hend, hnone, hdata⟩
      · exact ⟨_, by rw [hdata, ExecSessionInfo.encode, List.append_assoc], .inr rfl⟩
      · exact ⟨[], by rw [hdata, List.append_nil], .inl ⟨rfl, hend, hnone⟩⟩
    have hcontext : encodeOptional utf8 info.context ≠ [] := by
      cases info.context <;> simp [encodeOptional]
    refine ⟨utf8 info.sessionId, _, ⟨hfits.sessionId, ?_⟩, info.sessionId, rfl, hfits.nonempty, ?_,
      info.attached, _, rfl, info.exitCode, _, rfl, encodeExecArgv info.argv, tail,
      ⟨hfits.argv.block, rfl⟩, info.argv, ⟨⟨hfits.argv.count, hfits.argv.args⟩, rfl⟩, ?_⟩
    · rw [htail, ExecSessionInfo.encodeBase]
      simp
    · simp only [List.length_cons, List.length_append, lenPrefixed, length_beBytes]
      omega
    · rcases hrest with ⟨hend, hrest, hnone⟩ | htail
      · rw [if_pos hend, hend, hrest, ← hnone]
        rfl
      · rw [if_neg (by simp [htail, hcontext])]
        simp only [Outcome.bind_eq_ok, Prod.exists, takeContext_eq_ok, Outcome.pure_eq_ok]
        exact ⟨_, rest, ⟨hfits.context, htail⟩, rfl⟩

/-- `ExecSessionList`. -/
structure ExecSessionList where
  sessions : List ExecSessionInfo
  deriving DecidableEq, Repr

/-- `ExecSessionList::to_bytes`. -/
def ExecSessionList.toBytes (list : ExecSessionList) : Bytes :=
  beBytes 4 list.sessions.length ++ list.sessions.flatMap ExecSessionInfo.encode

/-- `ExecSessionList::from_bytes`. -/
def ExecSessionList.fromBytes (data : Bytes) : Outcome String ExecSessionList :=
  if data.length < 4 then .err "exec session list payload too short"
  else do
    let (count, data) ← getBe 4 data
    let (sessions, data) ← times ExecSessionInfo.decode count data
    if ¬ data.isEmpty then .err "exec session list payload has trailing bytes"
    else pure ⟨sessions⟩

/-- The count and the sessions fit. -/
structure ExecSessionList.Fits (list : ExecSessionList) : Prop where
  count : list.sessions.length < 2 ^ 32
  sessions : ∀ info ∈ list.sessions, info.Fits

theorem ExecSessionInfo.decode_nil (x : ExecSessionInfo × Bytes) :
    ExecSessionInfo.decode [] ≠ .ok x := by intro h; cases h

theorem ExecSessionList.dropEnd_toBytes {init : List ExecSessionInfo} {last : ExecSessionInfo}
    (hnone : last.context = none) :
    dropEnd 1 (ExecSessionList.mk (init ++ [last])).toBytes =
      beBytes 4 (init ++ [last]).length ++ (init.flatMap ExecSessionInfo.encode ++
        last.encodeBase) := by
  have hbytes : (ExecSessionList.mk (init ++ [last])).toBytes =
      beBytes 4 (init ++ [last]).length ++ (init.flatMap ExecSessionInfo.encode ++
        last.encodeBase) ++ [0] := by
    simp [ExecSessionList.toBytes, ExecSessionInfo.encode, hnone, encodeOptional]
  rw [hbytes]
  exact dropEnd_append rfl

/-- `from_bytes` accepts the encoding of a list, also without the context flag of its last
    session when that has no context. -/
theorem ExecSessionList.fromBytes_eq_ok {data : Bytes} {list : ExecSessionList} :
    ExecSessionList.fromBytes data = .ok list ↔
      list.Fits ∧ (data = list.toBytes ∨ data = dropEnd 1 list.toBytes ∧
        ∃ last, list.sessions.getLast? = some last ∧ last.context = none) := by
  have hdecode := ExecSessionInfo.readsEnd_decode.times ExecSessionInfo.decode_nil
  obtain ⟨sessions⟩ := list
  simp only [ExecSessionList.fromBytes, Outcome.ite_err_eq_ok, Outcome.bind_eq_ok, Prod.exists,
    getBe_eq_ok, hdecode, Outcome.pure_eq_ok, Classical.not_not, List.isEmpty_iff,
    ExecSessionInfo.short_eq_some, ExecSessionList.mk.injEq]
  constructor
  · intro h
    obtain ⟨_, count, tail, ⟨hcount, hdata⟩, infos, rest, ⟨⟨hlen, hinfos⟩, htail⟩, hrest,
      hlist⟩ := h
    subst hlist hrest hlen hdata
    refine ⟨⟨hcount, hinfos⟩, ?_⟩
    rcases htail with htail | ⟨_, init, last, bytes, hsplit, ⟨hnone, hbytes⟩, htail⟩
    · exact .inl (by rw [htail, List.append_nil]; rfl)
    · refine .inr ⟨?_, last, by simp [hsplit], hnone⟩
      rw [hsplit, ExecSessionList.dropEnd_toBytes hnone, htail, hbytes]
  · intro h
    obtain ⟨hfits, hdata⟩ := h
    obtain ⟨tail, hsplit, htail⟩ : ∃ tail, data = beBytes 4 sessions.length ++ tail ∧
        (tail = sessions.flatMap ExecSessionInfo.encode ++ [] ∨
          ([] : Bytes) = [] ∧ ∃ init last bytes, sessions = init ++ [last] ∧
            (last.context = none ∧ last.encodeBase = bytes) ∧
              tail = init.flatMap ExecSessionInfo.encode ++ bytes) := by
      rcases hdata with hdata | ⟨hdata, last, hlast, hnone⟩
      · exact ⟨_, hdata, .inl (List.append_nil _).symm⟩
      · obtain ⟨init, hinit⟩ := List.getLast?_eq_some_iff.mp hlast
        subst hinit
        rw [ExecSessionList.dropEnd_toBytes hnone] at hdata
        exact ⟨_, hdata, .inr ⟨rfl, init, last, _, rfl, ⟨hnone, rfl⟩, rfl⟩⟩
    have hlen : ¬ data.length < 4 := by
      rw [hsplit, List.length_append, length_beBytes]
      omega
    exact ⟨hlen, sessions.length, tail, ⟨hfits.count, hsplit⟩, sessions, [],
      ⟨⟨rfl, hfits.sessions⟩, htail⟩, rfl, rfl⟩

/-- The two formats: what an encoder writes is read back, and whatever a decoder accepts was
    written by the encoder, except that the fields added later may be missing. -/
theorem request_and_list_formats :
    (∀ request : ExecSessionRequest, request.Fits →
      ExecSessionRequest.fromBytes request.toBytes = .ok request) ∧
    (∀ (data : Bytes) (request : ExecSessionRequest),
      ExecSessionRequest.fromBytes data = .ok request →
        data = request.toBytes ∨
        data = dropEnd 8 request.toBytes ∧ request.renderedBytes = 0 ∨
        data = dropEnd 9 request.toBytes ∧ request.renderedBytes = 0 ∧ request.context = none) ∧
    (∀ list : ExecSessionList, list.Fits → ExecSessionList.fromBytes list.toBytes = .ok list) ∧
    (∀ (data : Bytes) (list : ExecSessionList), ExecSessionList.fromBytes data = .ok list →
      data = list.toBytes ∨ data = dropEnd 1 list.toBytes ∧
        ∃ last, list.sessions.getLast? = some last ∧ last.context = none) := by
  refine ⟨?_, ?_, ?_, ?_⟩
  · intro request hfits
    exact ExecSessionRequest.fromBytes_eq_ok.mpr ⟨hfits, .inl rfl⟩
  · intro data request h
    exact (ExecSessionRequest.fromBytes_eq_ok.mp h).2
  · intro list hfits
    exact ExecSessionList.fromBytes_eq_ok.mpr ⟨hfits, .inl rfl⟩
  · intro data list h
    exact (ExecSessionList.fromBytes_eq_ok.mp h).2

end FlyVault.Protocol
