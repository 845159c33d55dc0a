/-
  The control stream of init (`handle_control_stream` and what it calls,
  `crates/init/src/quic.rs`).

  The peer's bytes are read message by message; everything the handler calls and does not
  define (the TLS exporter, the token service, the setup manager, the network, the sending side
  of the stream) is a `Host`: an arbitrary state and arbitrary functions on it, so that any
  result, any failure and any interference of other connections between two calls is covered.
  The loop of the source makes at most two passes, one in each phase, and is written out.

  The log keeps the messages in the order in which they were read, among the operations that
  touch a rootfs. `handleControlStream_spec` is what every run of the handler satisfies, and
  `tokenMatchesConstantTime_iff` says that the token comparison is equality.
-/
import Mathlib.Data.Nat.Bitwise
import FlyVault.Lib.Prog
import FlyVault.Protocol.Control

namespace FlyVault.Init.Control

open FlyVault.Lib FlyVault.Protocol
open Prog (wp wp_bind wp_pure wp_throw wp_tryCatch wp_mono)

/-- What the handler reads of `Args` and of the shared state. -/
structure Config where
  testMode : Bool
  accessToken : Option String
  deriving DecidableEq, Repr

def Call (σ α : Type) := σ → Except String α × σ

/-- What the handler calls. `debug` is the derived `Debug` text of a message. -/
structure Host (σ : Type) where
  exportKeyingMaterial : Call σ Bytes
  fetchOidcToken : String → Call σ String
  detectState : Call σ VmState
  ensureLiveInnerInitPid : Call σ Nat
  runtimeStatus : Call σ RuntimeStatus
  vmState : σ → VmState × σ
  setVmState : VmState → σ → σ
  downloadRootfsTarball : String → Call σ Bytes
  setupAndPrepare : Option Bytes → Call σ Unit
  write : Bytes → Call σ Unit
  debug : ControlMessage → String

/-- Why the handler does not return: an error, a read that waits, a panic. -/
inductive Stop
  | error (message : String)
  | pending
  | panicked
  deriving DecidableEq, Repr

inductive Event
  /-- A message was read. -/
  | received (message : ControlMessage)
  /-- `resolve_rootfs_source` is called. -/
  | resolve (source : RootfsSource)
  /-- `setup_and_prepare`, which stages and activates the rootfs, is called. -/
  | prepare (rootfsTarball : Option Bytes)
  deriving DecidableEq, Repr

structure World (σ : Type) where
  host : σ
  log : List Event

abbrev M (σ α : Type) := Prog (World σ) Stop α

variable {σ α : Type}

def call (c : Call σ α) : M σ α :=
  .prim fun w =>
    match c w.host with
    | (.ok a, h) => (.ok a, { w with host := h })
    | (.error e, h) => (.error (.error e), { w with host := h })

/-- An access to the shared state that cannot fail. -/
def access (f : σ → α × σ) : M σ α :=
  .prim fun w => (.ok (f w.host).1, { w with host := (f w.host).2 })

def record (e : Event) : M σ Unit :=
  .prim fun w => (.ok (), { w with log := w.log ++ [e] })

/-- A result that the caller looks at; a wait or a panic goes through. -/
def attempt (x : M σ α) : M σ (Except String α) :=
  tryCatch (do let a ← x; pure (.ok a)) fun
    | .error e => pure (.error e)
    | stop => throw stop

/-- `map_err` on the text of an error, such as `context`. -/
def mapErr (f : String → String) (x : M σ α) : M σ α :=
  tryCatch x fun
    | .error e => throw (.error (f e))
    | stop => throw stop

/-! ## The handler -/

/-- `hex::encode`. -/
def hexEncode (bytes : Bytes) : String :=
  String.ofList (bytes.flatMap fun b =>
    [Nat.digitChar (b.toNat / 16), Nat.digitChar (b.toNat % 16)])

/-- The comparison of `token_matches_constant_time`: `diff` collects the differing bits. -/
def tokenDiff (expected provided : Bytes) : Nat :=
  expected.zipIdx.foldl
    (fun diff (expectedByte, idx) =>
      diff ||| (expectedByte ^^^ (provided[idx]?).getD 0).toNat)
    (expected.length ^^^ provided.length)

/-- `token_matches_constant_time`. -/
def tokenMatchesConstantTime (expected provided : String) : Bool :=
  tokenDiff (utf8 expected) (utf8 provided) = 0

/-- `verify_access_token`. -/
def verifyAccessToken (expected : Option String) (provided : String) : Except String Unit :=
  match expected with
  | some expected =>
      if tokenMatchesConstantTime expected provided then .ok ()
      else .error "access token verification failed"
  | none => .error "no ACCESS_TOKEN configured on this machine"

/-- `validate_rootfs_request`. -/
def validateRootfsRequest (state : VmState) (rootfsTarball : Option Bytes) :
    Except String Unit :=
  if state = .cold ∧ rootfsTarball = none then .error "cold boot requires a rootfs payload"
  else .ok ()

/-- `?` on a pure result. -/
def lift : Except String α → M σ α
  | .ok a => pure a
  | .error e => throw (.error e)

section Handler

variable (host : Host σ) (cfg : Config)

/-- `send_error`. -/
def sendError (msg : String) : M σ Unit :=
  call (host.write (ControlMessage.error msg).toBytes)

/-- `resolve_rootfs_source`. -/
def resolveRootfsSource (source : RootfsSource) : M σ (Option Bytes) := do
  record (.resolve source)
  match source with
  | .none => pure none
  | .inline data => pure (some data)
  | .url url => do
      let data ← call (host.downloadRootfsTarball url)
      pure (some data)

/-- The token of `build_attestation`. -/
def attestationJwt (aud : String) : M σ String :=
  if cfg.testMode then pure ("test-mode-jwt:" ++ aud) else call (host.fetchOidcToken aud)

/-- `vm_state` as `build_attestation` brings it up to date. -/
def refreshVmState : M σ VmState := do
  let state ← call host.detectState
  access fun s => ((), host.setVmState state s)
  if state = .ready then do
    let _ ← mapErr ("ensure live runtime before attestation: " ++ ·)
      (call host.ensureLiveInnerInitPid)
    let state ← call host.detectState
    access fun s => ((), host.setVmState state s)
    pure state
  else pure state

/-- `build_attestation`. -/
def buildAttestation : M σ AttestationPayload := do
  let ekm ← mapErr (fun _ => "export tls keying material failed")
    (call host.exportKeyingMaterial)
  let jwt ← attestationJwt host cfg (hexEncode ekm)
  let state ← refreshVmState host
  let runtimeStatus ← call host.runtimeStatus
  pure ⟨protocolVersion, state, runtimeStatus, jwt⟩

/-- `apply_setup_request`. -/
def applySetupRequest (state : VmState) (request : SetupRequest) : M σ Unit := do
  lift (verifyAccessToken cfg.accessToken request.accessToken)
  let rootfsTarball ← resolveRootfsSource host request.rootfs
  lift (validateRootfsRequest state rootfsTarball)
  record (.prepare rootfsTarball)
  call (host.setupAndPrepare rootfsTarball)
  let vmState ← call host.detectState
  access fun s => ((), host.setVmState vmState s)
  let _ ← call host.runtimeStatus
  pure ()

/-- A message in the phase `AwaitAttestation`: the state for the next phase, or the end. -/
def onAwaitAttestation : ControlMessage → M σ (Option VmState)
  | .requestAttestation => do
      let payload ← buildAttestation host cfg
      call (host.write (ControlMessage.attestation payload).toBytes)
      let state ← access host.vmState
      pure (some state)
  | other => do
      sendError host ("expected attestation request, got " ++ host.debug other)
      pure none

/-- A message in the phase `AwaitSetupRequest`. -/
def onAwaitSetupRequest (state : VmState) : ControlMessage → M σ Bool
  | .setupRequest request => do
      match ← attempt (applySetupRequest host cfg state request) with
      | .ok () => do
          call (host.write ControlMessage.setupComplete.toBytes)
          pure true
      | .error err => do
          sendError host ("setup failed: " ++ err)
          pure false
  | other => do
      sendError host ("expected setup request, got " ++ host.debug other)
      pure false

/-- Read the next message and go on with it. A read error ends the stream with `false`, even
    when the peer cannot be told. -/
def nextMessage (recv : Recv) (next : ControlMessage → Recv → M σ Bool) : M σ Bool :=
  match ControlMessage.readFrom recv with
  | .ok (message, recv) => do
      record (.received message)
      next message recv
  | .err (.error err) => do
      let _ ← attempt (sendError host ("control stream read error: " ++ err))
      pure false
  | .err .pending => throw .pending
  | .panic _ => throw .panicked

/-- `handle_control_stream`. -/
def handleControlStream (recv : Recv) : M σ Bool :=
  nextMessage host recv fun message recv => do
    match ← onAwaitAttestation host cfg message with
    | none => pure false
    | some state =>
        nextMessage host recv fun message _ => onAwaitSetupRequest host cfg state message

end Handler

/-! ## The token comparison -/

theorem foldl_or_eq_zero {ι : Type} (f : ι → Nat) (l : List ι) (d : Nat) :
    l.foldl (fun d x => d ||| f x) d = 0 ↔ d = 0 ∧ ∀ x ∈ l, f x = 0 := by
  induction l generalizing d with
  | nil => simp
  | cons x l ih =>
      rw [List.foldl_cons, ih, Nat.or_eq_zero_iff, List.forall_mem_cons, and_assoc]

theorem tokenDiff_eq_zero_iff (expected provided : Bytes) :
    tokenDiff expected provided = 0 ↔ expected = provided := by
  unfold tokenDiff
  rw [foldl_or_eq_zero, Nat.xor_eq_zero_iff]
  constructor
  · rintro ⟨hlen, h⟩
    refine List.ext_getElem hlen fun i h₁ h₂ => ?_
    have hi := h (expected[i], i) (List.mk_mem_zipIdx_iff_getElem?.mpr (by simp [h₁]))
    simp only [List.getElem?_eq_getElem h₂, Option.getD_some] at hi
    exact UInt8.xor_eq_zero_iff.mp (UInt8.toNat_inj.mp hi)
  · rintro rfl
    refine ⟨rfl, fun x hx => ?_⟩
    obtain ⟨b, i⟩ := x
    rw [List.mk_mem_zipIdx_iff_getElem?] at hx
    simp [hx]

theorem tokenMatchesConstantTime_iff_utf8 (expected provided : String) :
    tokenMatchesConstantTime expected provided = true ↔ utf8 expected = utf8 provided := by
  unfold tokenMatchesConstantTime
  rw [decide_eq_true_iff, tokenDiff_eq_zero_iff]

theorem tokenMatchesConstantTime_of_length {expected provided : String}
    (h : (utf8 provided).length ≠ (utf8 expected).length) :
    tokenMatchesConstantTime expected provided = false := by
  rw [Bool.eq_false_iff, ne_eq, tokenMatchesConstantTime_iff_utf8]
  intro heq
  exact h (congrArg List.length heq.symm)

/-- The comparison is byte-for-byte equality. A provided token of another length is rejected, and
    with it a proper prefix of the expected one and the expected one with anything after it, zero
    bytes included. -/
theorem token_comparison_exact (expected provided : String) :
    (tokenMatchesConstantTime expected provided = true ↔ utf8 expected = utf8 provided) ∧
    ((utf8 provided).length ≠ (utf8 expected).length →
      tokenMatchesConstantTime expected provided = false) ∧
    ∀ extra, extra ≠ [] →
      utf8 expected = utf8 provided ++ extra ∨ utf8 provided = utf8 expected ++ extra →
        tokenMatchesConstantTime expected provided = false := by
  refine ⟨tokenMatchesConstantTime_iff_utf8 expected provided,
    tokenMatchesConstantTime_of_length, ?_⟩
  intro extra hextra hlonger
  have hpos := List.length_pos_iff.mpr hextra
  apply tokenMatchesConstantTime_of_length
  obtain hexpected | hprovided := hlonger
  · rw [hexpected, List.length_append]
    omega
  · rw [hprovided, List.length_append]
    omega

example : tokenMatchesConstantTime "ab" "ab\x00" = false := by decide

/-- The comparison is equality of the two tokens. -/
theorem tokenMatchesConstantTime_iff (expected provided : String) :
    tokenMatchesConstantTime expected provided = true ↔ expected = provided := by
  rw [tokenMatchesConstantTime_iff_utf8]
  constructor
  · intro h
    apply String.toByteArray_inj.mp
    exact ByteArray.ext (Array.toList_inj.mp h)
  · rintro rfl
    rfl

theorem verifyAccessToken_ok_iff (expected : Option String) (provided : String) :
    verifyAccessToken expected provided = .ok () ↔ expected = some provided := by
  unfold verifyAccessToken
  cases expected with
  | none => simp
  | some token =>
      simp only [Option.some.injEq]
      rw [← tokenMatchesConstantTime_iff]
      split
      · next h => simp [h]
      · next h => simp [h]

/-! ## Rules for the operations -/

section Rules

variable {Q : α → World σ → Prop} {E : Stop → World σ → Prop} {w : World σ}

theorem wp_call {c : Call σ α}
    (hQ : ∀ a h, c w.host = (.ok a, h) → Q a { w with host := h })
    (hE : ∀ e h, c w.host = (.error e, h) → E (.error e) { w with host := h }) :
    wp (call c) Q E w := by
  unfold wp call
  simp only [Prog.exec_prim]
  cases hc : c w.host with
  | mk r h =>
      cases r with
      | ok a => exact hQ a h hc
      | error e => exact hE e h hc

theorem wp_access {f : σ → α × σ} :
    wp (access f) Q E w ↔ Q (f w.host).1 { w with host := (f w.host).2 } := Iff.rfl

theorem wp_record {e : Event} {Q : Unit → World σ → Prop} :
    wp (record e) Q E w ↔ Q () { w with log := w.log ++ [e] } := Iff.rfl

theorem wp_lift {x : Except String α} (hQ : ∀ a, x = .ok a → Q a w)
    (hE : ∀ e, E (.error e) w) : wp (lift x) Q E w := by
  cases x with
  | ok a => exact hQ a rfl
  | error e => exact hE e

theorem wp_attempt {x : M σ α} {Q : Except String α → World σ → Prop}
    (h : wp x (fun a => Q (.ok a)) (fun _ w' => (∀ e, Q (.error e) w') ∧ ∀ e, E e w') w) :
    wp (attempt x) Q E w := by
  unfold attempt
  rw [wp_tryCatch, wp_bind]
  refine wp_mono h (fun _ _ hq => hq) fun stop w' he => ?_
  cases stop with
  | error e => exact he.1 e
  | pending => exact he.2 _
  | panicked => exact he.2 _

theorem wp_mapErr {f : String → String} {x : M σ α}
    (h : wp x Q (fun _ w' => ∀ e, E e w') w) : wp (mapErr f x) Q E w := by
  unfold mapErr
  rw [wp_tryCatch]
  refine wp_mono h (fun _ _ hq => hq) fun stop w' he => ?_
  cases stop with
  | error e => exact he _
  | pending => exact he _
  | panicked => exact he _

end Rules

/-! ## What a control stream does -/

/-- Every operation on a rootfs comes after a setup request with the configured token. -/
def Authorized (cfg : Config) (log : List Event) : Prop :=
  ∀ (i : Nat) (event : Event), log[i]? = some event → (∀ message, event ≠ .received message) →
    ∃ j < i, ∃ request, log[j]? = some (.received (.setupRequest request)) ∧
      cfg.accessToken = some request.accessToken

theorem authorized_nil (cfg : Config) : Authorized cfg [] := fun i event h => by simp at h

theorem Authorized.append {cfg : Config} {log : List Event} (h : Authorized cfg log)
    {event : Event} (hnew : (∀ message, event ≠ .received message) →
      ∃ request, .received (.setupRequest request) ∈ log ∧
        cfg.accessToken = some request.accessToken) :
    Authorized cfg (log ++ [event]) := by
  intro i e hi hne
  have hold : ∀ {k x}, log[k]? = some x → (log ++ [event])[k]? = some x := fun hk => by
    rw [List.getElem?_append_left (List.getElem?_eq_some_iff.mp hk).1, hk]
  by_cases hlt : i < log.length
  · rw [List.getElem?_append_left hlt] at hi
    obtain ⟨j, hj, request, hreq, htok⟩ := h i e hi hne
    exact ⟨j, hj, request, hold hreq, htok⟩
  · rw [List.getElem?_append_right (Nat.not_lt.mp hlt), List.getElem?_singleton] at hi
    split at hi
    · cases hi
      obtain ⟨request, hmem, htok⟩ := hnew hne
      obtain ⟨j, hj, hreq⟩ := List.mem_iff_getElem.mp hmem
      exact ⟨j, by omega, request, hold (List.getElem?_eq_some_iff.mpr ⟨hj, hreq⟩), htok⟩
    · cases hi

theorem Authorized.received {cfg : Config} {log : List Event} (h : Authorized cfg log)
    (message : ControlMessage) : Authorized cfg (log ++ [.received message]) :=
  h.append fun hne => absurd rfl (hne message)

/-- The setup of a successful stream. -/
def SetUp (host : Host σ) (log : List Event) : Prop :=
  ∃ rootfsTarball s s', .prepare rootfsTarball ∈ log ∧
    host.setupAndPrepare rootfsTarball s = (.ok (), s')

/-- The log is left alone, however the program ends. -/
def Quiet (x : M σ α) : Prop :=
  ∀ w, wp x (fun _ w' => w'.log = w.log) (fun _ w' => w'.log = w.log) w

theorem quiet_call (c : Call σ α) : Quiet (call c) :=
  fun _ => wp_call (fun _ _ _ => rfl) fun _ _ _ => rfl

theorem quiet_access (f : σ → α × σ) : Quiet (access f) := fun _ => wp_access.mpr rfl

theorem quiet_pure (a : α) : Quiet (pure a : M σ α) := fun _ => rfl

theorem Quiet.bind {β : Type} {x : M σ α} {f : α → M σ β} (hx : Quiet x)
    (hf : ∀ a, Quiet (f a)) : Quiet (x >>= f) := by
  intro w
  rw [wp_bind]
  refine wp_mono (hx w) (fun a w' h => ?_) fun _ _ h => h
  refine wp_mono (hf a w') (fun _ _ h' => h'.trans h) fun _ _ h' => h'.trans h

theorem Quiet.mapErr {f : String → String} {x : M σ α} (hx : Quiet x) :
    Quiet (mapErr f x) :=
  fun w => wp_mapErr (wp_mono (hx w) (fun _ _ h => h) fun _ _ h _ => h)

theorem quiet_buildAttestation (host : Host σ) (cfg : Config) :
    Quiet (buildAttestation host cfg) := by
  unfold buildAttestation
  refine (quiet_call _).mapErr.bind fun ekm => Quiet.bind ?_ fun jwt => Quiet.bind ?_ fun _ =>
    (quiet_call _).bind fun _ => quiet_pure _
  · unfold attestationJwt
    split
    · exact quiet_pure _
    · exact quiet_call _
  · refine (quiet_call _).bind fun state => (quiet_access _).bind fun _ => ?_
    split
    · exact (quiet_call _).mapErr.bind fun _ => (quiet_call _).bind fun _ =>
        (quiet_access _).bind fun _ => quiet_pure _
    · exact quiet_pure _

section Streams

variable (host : Host σ) (cfg : Config)

theorem resolveRootfsSource_spec (source : RootfsSource) (w : World σ) :
    wp (resolveRootfsSource host source) (fun _ w' => w'.log = w.log ++ [.resolve source])
      (fun _ w' => w'.log = w.log ++ [.resolve source]) w := by
  unfold resolveRootfsSource
  rw [wp_bind, wp_record]
  cases source with
  | none => exact quiet_pure _ _
  | inline data => exact quiet_pure _ _
  | url url => exact (quiet_call _).bind (fun _ => quiet_pure _) _

/-- Setup goes ahead only with the configured token, and only a successful setup returns. -/
theorem applySetupRequest_spec {state : VmState} {request : SetupRequest} {w : World σ}
    (hlog : Authorized cfg w.log) (hreq : .received (.setupRequest request) ∈ w.log) :
    wp (applySetupRequest host cfg state request)
      (fun _ w' => Authorized cfg w'.log ∧ cfg.accessToken = some request.accessToken ∧
        SetUp host w'.log)
      (fun _ w' => Authorized cfg w'.log) w := by
  unfold applySetupRequest
  rw [wp_bind]
  refine wp_lift (fun _ hok => ?_) fun _ => hlog
  have htok := (verifyAccessToken_ok_iff _ _).mp hok
  have hresolved : Authorized cfg (w.log ++ [.resolve request.rootfs]) :=
    hlog.append fun _ => ⟨request, hreq, htok⟩
  rw [wp_bind]
  refine wp_mono (resolveRootfsSource_spec host request.rootfs w) (fun tarball w₁ h₁ => ?_)
    fun _ w₁ h₁ => by rw [h₁]; exact hresolved
  rw [← h₁] at hresolved
  have hreq₁ : .received (.setupRequest request) ∈ w₁.log := by
    rw [h₁]; exact List.mem_append_left _ hreq
  rw [wp_bind]
  refine wp_lift (fun _ _ => ?_) fun _ => hresolved
  rw [wp_bind, wp_record, wp_bind]
  have hprepared : Authorized cfg (w₁.log ++ [.prepare tarball]) :=
    hresolved.append fun _ => ⟨request, hreq₁, htok⟩
  refine wp_call (fun _ s' hsetup => ?_) fun _ _ _ => hprepared
  -- what follows leaves the log alone
  have hrest : Quiet (do
      let vmState ← call host.detectState
      access fun s => ((), host.setVmState vmState s)
      let _ ← call host.runtimeStatus
      pure ()) :=
    (quiet_call _).bind fun _ => (quiet_access _).bind fun _ => (quiet_call _).bind fun _ =>
      quiet_pure _
  refine wp_mono (hrest _) (fun _ w₂ h₂ => ?_) fun _ w₂ h₂ => by rw [h₂]; exact hprepared
  rw [h₂]
  exact ⟨hprepared, htok, tarball, _, s', by simp, hsetup⟩

theorem onAwaitAttestation_spec (message : ControlMessage) (w : World σ) :
    wp (onAwaitAttestation host cfg message)
      (fun state w' => w'.log = w.log ∧ (state ≠ none → message = .requestAttestation))
      (fun _ w' => w'.log = w.log) w := by
  have hreject : ∀ text : String, wp (do sendError host text; pure (none : Option VmState))
      (fun state w' => w'.log = w.log ∧ (state ≠ none → message = .requestAttestation))
      (fun _ w' => w'.log = w.log) w := by
    intro text
    rw [wp_bind]
    exact wp_mono (quiet_call _ w) (fun _ _ h => ⟨h, fun hne => absurd rfl hne⟩) fun _ _ h => h
  cases message with
  | requestAttestation =>
      have hquiet : Quiet (onAwaitAttestation host cfg .requestAttestation) :=
        (quiet_buildAttestation host cfg).bind fun _ => (quiet_call _).bind fun _ =>
          (quiet_access _).bind fun _ => quiet_pure _
      exact wp_mono (hquiet w) (fun _ _ h => ⟨h, fun _ => rfl⟩) fun _ _ h => h
  | _ => exact hreject _

/-- The second phase returns `true` only for a setup request that was carried out. -/
theorem onAwaitSetupRequest_spec {state : VmState} {message : ControlMessage} {w : World σ}
    (hlog : Authorized cfg w.log) (hreq : .received message ∈ w.log) :
    wp (onAwaitSetupRequest host cfg state message)
      (fun result w' => Authorized cfg w'.log ∧ (result = true → ∃ request,
        message = .setupRequest request ∧ cfg.accessToken = some request.accessToken ∧
        SetUp host w'.log))
      (fun _ w' => Authorized cfg w'.log) w := by
  have hreject : ∀ (text : String) (w : World σ), Authorized cfg w.log →
      wp (do sendError host text; pure false)
        (fun result w' => Authorized cfg w'.log ∧ (result = true → ∃ request,
          message = .setupRequest request ∧ cfg.accessToken = some request.accessToken ∧
          SetUp host w'.log))
        (fun _ w' => Authorized cfg w'.log) w := by
    intro text w hw
    rw [wp_bind]
    exact wp_mono (quiet_call _ w) (fun _ w' h => ⟨h ▸ hw, fun hf => (by cases hf)⟩)
      fun _ w' h => h ▸ hw
  cases message with
  | setupRequest request =>
      unfold onAwaitSetupRequest
      rw [wp_bind]
      refine wp_attempt (wp_mono (applySetupRequest_spec host cfg hlog hreq) ?_ ?_)
      · rintro _ w₁ ⟨hauth, htok, hsetup⟩
        rw [wp_bind]
        refine wp_mono (quiet_call _ w₁) (fun _ w₂ h => ?_) fun _ w₂ h => by rw [h]; exact hauth
        rw [wp_pure, h]
        exact ⟨hauth, fun _ => ⟨request, rfl, htok, hsetup⟩⟩
      · exact fun _ w₁ hauth => ⟨fun e => hreject _ w₁ hauth, fun _ => hauth⟩
  | _ => exact hreject _ w hlog

theorem nextMessage_spec {recv : Recv} {next : ControlMessage → Recv → M σ Bool} {w : World σ}
    {P : Bool → World σ → Prop} (hlog : Authorized cfg w.log)
    (hstop : ∀ w', w'.log = w.log → P false w')
    (hnext : ∀ message recv', ControlMessage.readFrom recv = .ok (message, recv') →
      wp (next message recv') P (fun _ w' => Authorized cfg w'.log)
        { w with log := w.log ++ [.received message] }) :
    wp (nextMessage host recv next) P (fun _ w' => Authorized cfg w'.log) w := by
  unfold nextMessage
  split
  · next message recv' hread =>
      rw [wp_bind, wp_record]
      exact hnext message recv' hread
  · rw [wp_bind]
    refine wp_attempt (wp_mono (quiet_call _ w) (fun _ w' h => hstop w' h) fun _ w' h =>
      ⟨fun _ => hstop w' h, fun _ => h ▸ hlog⟩)
  · exact hlog
  · exact hlog

/-- What every run of `handle_control_stream` satisfies: nothing is done with a rootfs before a
    request with the configured token, and `true` means that the peer sent a request for the
    attestation and then such a request, and that its setup succeeded. -/
theorem handleControlStream_spec (recv : Recv) (s : σ) :
    wp (handleControlStream host cfg recv)
      (fun result w => Authorized cfg w.log ∧ (result = true → ∃ recv₁ recv₂ request,
        ControlMessage.readFrom recv = .ok (.requestAttestation, recv₁) ∧
        ControlMessage.readFrom recv₁ = .ok (.setupRequest request, recv₂) ∧
        cfg.accessToken = some request.accessToken ∧ SetUp host w.log))
      (fun _ w => Authorized cfg w.log) ⟨s, []⟩ := by
  have hfalse : ∀ {w : World σ} {P : Prop}, Authorized cfg w.log →
      Authorized cfg w.log ∧ (false = true → P) := fun h => ⟨h, fun hf => (by cases hf)⟩
  refine nextMessage_spec host cfg (authorized_nil cfg)
    (fun w h => hfalse (h ▸ authorized_nil cfg)) fun message₁ recv₁ hread₁ => ?_
  have hlog := (authorized_nil cfg).received message₁
  rw [wp_bind]
  refine wp_mono (onAwaitAttestation_spec host cfg message₁ _) (fun state w₁ h₁ => ?_)
    fun _ w₁ h₁ => by rw [h₁]; exact hlog
  have hlog₁ : Authorized cfg w₁.log := by rw [h₁.1]; exact hlog
  cases state with
  | none => exact hfalse hlog₁
  | some state =>
      obtain rfl := h₁.2 (by simp)
      refine nextMessage_spec host cfg hlog₁ (fun w h => hfalse (h ▸ hlog₁))
        fun message₂ recv₂ hread₂ => ?_
      refine wp_mono (onAwaitSetupRequest_spec host cfg (hlog₁.received message₂) (by simp))
        (fun result w h => ⟨h.1, fun ht => ?_⟩) fun _ _ h => h
      obtain ⟨request, rfl, htok, hsetup⟩ := h.2 ht
      exact ⟨recv₁, recv₂, request, hread₁, hread₂, htok, hsetup⟩

end Streams

end FlyVault.Init.Control
