/-
  Clients, vaults and outsiders on one network.

  Any number of client processes on one machine run `connectReady` beside each other. They share
  the attestation cache, so the checks they wait for are those of `ValidateAttestation`, and what
  a check accepts as verified went through `verifyAttestationJwt`. The server end of a connection
  is a vault, which runs `handleControlStream`, or an outsider, which sends what it likes; what a
  client reads is arbitrary. Every step of every party may come at any time.

  Three things are assumed, as conditions on the steps (`Allowed`). Two connections never share
  their keying material. What `decode` accepts is a token that was issued to the machine it names,
  for the audience it names. A machine of a vault app gets tokens only through its control
  streams. Nothing is assumed about certificates: `NoVerifier` accepts every signature, so the
  server end may show a certificate that is not its own. `Certified` says what would hold if it
  did not.

  The runs below are those of one process: through the answers it waits for (`run_answers`), a
  check that finds its entry (`run_hit`) and one that verifies a token (`run_verified`).
-/
import FlyVault.Client.Attest
import FlyVault.Client.ConnectReady
import FlyVault.Init.TokenAudience

namespace FlyVault.Client.TokenRelease

open FlyVault.Lib FlyVault.Lib.Script FlyVault.Protocol
open FlyVault.Client.Attest FlyVault.Client.ConnectReady
open FlyVault.Client.ValidateAttestation (AttestationClaims Args Phase Action Verification
  assertClaims assertClaims_ok issuer)
open FlyVault.Init.ColdBoots (Local)
open FlyVault.Init.Control (hexEncode Host handleControlStream)

/-! ## The system -/

/-- The server end of a connection: the machine with these claims, or anybody. -/
inductive Party
  | vault (claims : AttestationClaims)
  | outsider
  deriving DecidableEq

/-- A connection, with the process that has opened it. -/
structure Conn where
  client : Nat
  server : Party
  exporter : Bytes
  identity : Option Identity
  deriving DecidableEq

/-- The fingerprint of the certificate that the server end shows. -/
def Conn.fingerprint (digest : Bytes → Bytes) (conn : Conn) : Option String := do
  let identity ← conn.identity
  (serverCertFingerprintFromIdentity digest identity).toOption

/-- A token of the issuer. -/
structure Token where
  jwt : String
  claims : AttestationClaims
  aud : String
  deriving DecidableEq

/-- A client process, with what it still has to do. -/
structure Proc where
  here : Local
  cfg : Settings
  reprovision : Bool
  rest : Ready (Except String Nat)

/-- A setup request on its way. -/
structure Sent where
  process : Nat
  conn : Nat
  request : SetupRequest
  deriving DecidableEq

structure World where
  checks : ValidateAttestation.Sys
  conns : List Conn
  tokens : List Token
  procs : Nat → Option Proc
  sent : List Sent

inductive Label
  /-- A client process starts. -/
  | launch (p : Nat) (here : Local) (cfg : Settings) (reprovision : Bool)
  /-- A handshake completes. -/
  | connect (conn : Conn)
  /-- The vault at the end of a connection serves a control stream, as far as it comes. -/
  | serve (n : Nat) (host : Host (List Token)) (cfg : Init.Control.Config) (recv : Recv)
  /-- A machine that is no vault gets a token. -/
  | issue (token : Token)
  /-- A call of a process is answered. -/
  | answer (p : Nat) (e : ReadyEvent)
  /-- A process enters `validate_attestation`. -/
  | validate (p : Nat)
  /-- A step of `validate_attestation`. -/
  | check (p : Nat) (a : Action)

/-- The setup requests that an event lets out; a write that fails may have sent its bytes. -/
def released (p : Nat) : ReadyEvent → List Sent
  | ⟨.write conn (.setupRequest request), _⟩ => [⟨p, conn, request⟩]
  | _ => []

/-- The check that a process asks for. -/
def checkOf : Ready (Except String Nat) → Option ValidateAttestation.Call
  | .call (.validateAttestation args cache) _ => some ⟨args, cache, .checking⟩
  | _ => none

section

variable (digest : Bytes → Bytes) (debug : ControlMessage → String)

def step (w : World) : Label → Option World
  | .launch p here cfg reprovision =>
      if (w.procs p).isNone then
        some { w with
          procs := Function.update w.procs p (some ⟨here, cfg, reprovision,
            (connectReady digest here debug cfg reprovision).run⟩) }
      else none
  | .connect conn => some { w with conns := w.conns ++ [conn] }
  | .serve _ host cfg recv =>
      some { w with
        tokens := ((handleControlStream host cfg recv).exec ⟨w.tokens, []⟩).2.host }
  | .issue token => some { w with tokens := w.tokens ++ [token] }
  | .answer p e => do
      let proc ← w.procs p
      let rest ← proc.rest.resume e
      some { w with
        procs := Function.update w.procs p (some { proc with rest := rest })
        sent := w.sent ++ released p e }
  | .validate p => do
      let proc ← w.procs p
      let call ← checkOf proc.rest
      if (w.checks.calls p).isNone then
        some { w with
          checks := { w.checks with calls := Function.update w.checks.calls p (some call) } }
      else none
  | .check p a => do
      let checks ← ValidateAttestation.step w.checks (.act p a)
      some { w with checks := checks }

end

/-- The host of the vault with these claims, on this connection: its token service issues tokens
    for its own claims, and nothing else makes a token. -/
structure Serves (conn : Conn) (claims : AttestationClaims) (host : Host (List Token)) : Prop where
  exportKeyingMaterial : ∀ s, (host.exportKeyingMaterial s).2 = s
  exported : ∀ s ekm, (host.exportKeyingMaterial s).1 = .ok ekm → ekm = conn.exporter
  fetchOidcToken : ∀ aud s, (host.fetchOidcToken aud s).2 = s ∨
    ∃ jwt, (host.fetchOidcToken aud s).2 = s ++ [⟨jwt, claims, aud⟩]
  detectState : ∀ s, (host.detectState s).2 = s
  ensureLiveInnerInitPid : ∀ s, (host.ensureLiveInnerInitPid s).2 = s
  runtimeStatus : ∀ s, (host.runtimeStatus s).2 = s
  vmState : ∀ s, (host.vmState s).2 = s
  setVmState : ∀ state s, host.setVmState state s = s
  downloadRootfsTarball : ∀ url s, (host.downloadRootfsTarball url s).2 = s
  setupAndPrepare : ∀ rootfsTarball s, (host.setupAndPrepare rootfsTarball s).2 = s
  write : ∀ bytes s, (host.write bytes s).2 = s

/-- What `decode` accepts was issued, by an issuer and for an audience of the validation. -/
def Decodes (tokens : List Token) : Event AttestCall AttestAnswer → Prop
  | ⟨.decode jwt _ validation, .ok claims⟩ => ∃ token ∈ tokens, token.jwt = jwt ∧
      token.claims = claims ∧ claims.iss ∈ validation.issuers ∧
      token.aud ∈ validation.audiences
  | _ => True

/-- The answers a process can get. -/
def Answers (w : World) (p : Nat) : ReadyEvent → Prop
  | ⟨.awaitConnect, .ok n⟩ => ∃ conn, w.conns[n]? = some conn ∧ conn.client = p
  | ⟨.peerIdentity n, identity⟩ => ∃ conn, w.conns[n]? = some conn ∧ conn.identity = identity
  | ⟨.exportKeyingMaterial n, .ok ekm⟩ => ∃ conn, w.conns[n]? = some conn ∧ conn.exporter = ekm
  | ⟨.loadAttestationCache, cache⟩ =>
      ∃ readError, cache = loadAttestationCache w.checks.dir.file readError
  | ⟨.validateAttestation args _, .ok ()⟩ => ∃ call hit, w.checks.calls p = some call ∧
      call.args = args ∧ call.phase = .accepted hit
  | ⟨.validateAttestation args _, .error e⟩ => ∃ call, w.checks.calls p = some call ∧
      call.args = args ∧ call.phase = .rejected e
  | _ => True

/-- The steps that can happen, where `vaults` are the claims of the machines of a vault app. -/
def Allowed (vaults : AttestationClaims → Prop) (w : World) : Label → Prop
  | .connect conn => ∀ other ∈ w.conns, other.exporter ≠ conn.exporter
  | .serve n host _ _ => ∃ conn claims, w.conns[n]? = some conn ∧
      conn.server = .vault claims ∧ Serves conn claims host
  | .issue token => ¬ vaults token.claims
  | .answer p e => Answers w p e
  | .check p (.verify (.ok claims)) => ∃ call t, w.checks.calls p = some call ∧
      Exec (verifyAttestationJwt call.args.attestation.jwt call.args.cfg.org
        call.args.aud).run t (some (.ok claims)) ∧ ∀ e ∈ t, Decodes w.tokens e
  | .launch _ _ _ _ | .validate _ | .check _ _ => True

/-- A handshake only completes with the party that the certificate belongs to. -/
def Certified (digest : Bytes → Bytes) (w : World) : Label → Prop
  | .connect conn => ∀ other ∈ w.conns, other.fingerprint digest = conn.fingerprint digest →
      (conn.fingerprint digest).isSome → other.server = conn.server
  | _ => True

/-- Nothing has happened, and the cache directory has no entries. -/
def start (dir : ValidateAttestation.Dir) : World :=
  ⟨ValidateAttestation.init dir, [], [], fun _ => none, []⟩

/-! ## Runs -/

section

variable {digest : Bytes → Bytes} {debug : ControlMessage → String}
  {vaults : AttestationClaims → Prop} {w w' : World} {p : Nat}

theorem answers_congr {e : ReadyEvent} (hconns : w'.conns = w.conns)
    (hchecks : w'.checks = w.checks) (h : Answers w p e) : Answers w' p e := by
  unfold Answers at h ⊢
  rw [hconns, hchecks]
  exact h

/-- A process goes on by itself while its answers do not depend on others. -/
theorem run_answers (digest : Bytes → Bytes) (debug : ControlMessage → String) {proc : Proc}
    {t : List ReadyEvent} {q rest : Ready (Except String Nat)}
    {ok : World → Label → Prop} (hok : ∀ w e, Answers w p e → ok w (.answer p e))
    (h : After q t rest) (hq : proc.rest = q) (hproc : w.procs p = some proc)
    (hanswers : ∀ e ∈ t, Answers w p e) :
    ∃ w', Run (step digest debug) ok w (t.map (.answer p)) w' ∧
      w'.procs p = some { proc with rest := rest } ∧ w'.conns = w.conns ∧
      w'.tokens = w.tokens ∧ w'.checks = w.checks ∧
      w'.sent = w.sent ++ t.flatMap (released p) := by
  induction h generalizing w proc with
  | nil q =>
      subst hq
      exact ⟨w, .nil w, hproc, rfl, rfl, rfl, (List.append_nil _).symm⟩
  | @cons c k r t q h ih =>
      obtain ⟨hanswer, hanswers⟩ := List.forall_mem_cons.mp hanswers
      have hresume : proc.rest.resume ⟨c, r⟩ = some (k r) := by
        rw [hq]
        exact resume_call ⟨c, r⟩ k
      have hstep : step digest debug w (.answer p ⟨c, r⟩) = some { w with
          procs := Function.update w.procs p (some { proc with rest := k r })
          sent := w.sent ++ released p ⟨c, r⟩ } := by
        simp [step, hproc, hresume]
      have hproc' : (Function.update w.procs p (some { proc with rest := k r })) p =
          some { proc with rest := k r } := Function.update_self ..
      obtain ⟨w', hrun, hproc', hconns, htokens, hchecks, hsent⟩ :=
        ih (w := { w with
            procs := Function.update w.procs p (some { proc with rest := k r })
            sent := w.sent ++ released p ⟨c, r⟩ }) rfl hproc'
          fun e he => answers_congr rfl rfl (hanswers e he)
      refine ⟨w', .cons (hok _ _ hanswer) hstep hrun, hproc', hconns, htokens, hchecks, ?_⟩
      rw [hsent, List.flatMap_cons, List.append_assoc]

/-- What is left of a call of `connect_ready` after `dialTrace`. -/
def dialled (digest : Bytes → Bytes) (debug : ControlMessage → String) (here : Local)
    (cfg : Settings) (n : Nat) (cert : Bytes) (cache : AttestationCache) (ekm : Bytes) : Proc :=
  ⟨here, cfg, false, (setUp here debug cfg false n cache (hexEncode ekm)
    (hexEncode (digest cert)) readyAttestation).run⟩

/-- A new process connects and gets an attestation. -/
theorem run_dialled (digest : Bytes → Bytes) (debug : ControlMessage → String) (here : Local)
    (cfg : Settings) (server : Party) (cert : Bytes) (chain : List Bytes) (ekm : Bytes)
    {ok : World → Label → Prop} (hanswer : ∀ w e, Answers w p e → ok w (.answer p e))
    (hlaunch : ok w (.launch p here cfg false)) (hproc : w.procs p = none)
    (hconnect : ∀ w' : World, w'.conns = w.conns →
      ok w' (.connect ⟨p, server, ekm, some (.certificates (cert :: chain))⟩)) :
    ∃ as w', Run (step digest debug) ok w as w' ∧
      w'.procs p = some (dialled digest debug here cfg w.conns.length cert
        (loadAttestationCache w.checks.dir.file false) ekm) ∧
      w'.conns = w.conns ++ [⟨p, server, ekm, some (.certificates (cert :: chain))⟩] ∧
      w'.tokens = w.tokens ∧ w'.checks = w.checks := by
  let conn : Conn := ⟨p, server, ekm, some (.certificates (cert :: chain))⟩
  let proc : Proc := ⟨here, cfg, false, (connectReady digest here debug cfg false).run⟩
  let w₁ : World := { w with procs := Function.update w.procs p (some proc) }
  let w₂ : World := { w₁ with conns := w.conns ++ [conn] }
  let cache := loadAttestationCache w.checks.dir.file false
  have hlaunched : step digest debug w (.launch p here cfg false) = some w₁ := by
    simp [step, hproc, w₁, proc]
  have hconn : w₂.conns[w.conns.length]? = some conn := by simp [w₂]
  have hafter : After (connectReady digest here debug cfg false).run
      (dialTrace cfg w.conns.length (cert :: chain) cache ekm)
      (dialled digest debug here cfg w.conns.length cert cache ekm).rest := by
    repeat apply After.cons
    exact .nil _
  have hanswers : ∀ e ∈ dialTrace cfg w.conns.length (cert :: chain) cache ekm,
      Answers w₂ p e := by
    simp only [dialTrace, List.forall_mem_cons]
    refine ⟨trivial, trivial, trivial, trivial, ⟨conn, hconn, rfl⟩, ⟨conn, hconn, rfl⟩,
      ⟨false, rfl⟩, ⟨conn, hconn, rfl⟩, trivial, trivial, trivial, trivial, ?_⟩
    intro e he
    cases he
  have hproc₂ : w₂.procs p = some proc := Function.update_self ..
  obtain ⟨w₃, hrun, hproc₃, hconns, htokens, hchecks, -⟩ :=
    run_answers digest debug hanswer hafter rfl hproc₂ hanswers
  exact ⟨_, w₃, .cons hlaunch hlaunched (.cons (hconnect w₁ rfl) rfl hrun), hproc₃, hconns,
    htokens, hchecks⟩

/-- Once its check is accepted, it sends its access token. -/
theorem run_released (digest : Bytes → Bytes) (debug : ControlMessage → String) {here : Local}
    {cfg : Settings} {n : Nat} {cert ekm : Bytes} {cache : AttestationCache} {token : String}
    {hit : Option CacheEntry} {ok : World → Label → Prop}
    (hanswer : ∀ w e, Answers w p e → ok w (.answer p e))
    (htoken : cfg.client.accessToken = some token)
    (hproc : w.procs p = some (dialled digest debug here cfg n cert cache ekm))
    (hcall : w.checks.calls p =
      some ⟨dialArgs cfg ekm (hexEncode (digest cert)), cache, .accepted hit⟩) :
    ∃ as w', Run (step digest debug) ok w as w' ∧ w'.conns = w.conns ∧
      ⟨p, n, ⟨token, .none⟩⟩ ∈ w'.sent := by
  obtain ⟨rest, hafter⟩ : ∃ rest, After (dialled digest debug here cfg n cert cache ekm).rest
      [⟨.validateAttestation (dialArgs cfg ekm (hexEncode (digest cert))) cache, Except.ok ()⟩,
        ⟨.write n (.setupRequest ⟨token, .none⟩), Except.ok ()⟩] rest := by
    obtain ⟨address, vault, rootfs, rootfsUrl, accessToken⟩ := cfg
    obtain rfl : accessToken = some token := htoken
    exact ⟨_, .cons (.cons (.nil _))⟩
  obtain ⟨w', hrun, -, hconns, -, -, hsent⟩ := run_answers digest debug hanswer hafter rfl hproc
    (by
      simp only [List.forall_mem_cons]
      refine ⟨⟨_, hit, hcall, rfl, rfl⟩, trivial, fun e he => ?_⟩
      cases he)
  refine ⟨_, w', hrun, hconns, ?_⟩
  rw [hsent]
  exact List.mem_append_right _ List.mem_cons_self

theorem step_check {a : Action} {call call' : ValidateAttestation.Call}
    {dir : ValidateAttestation.Dir} {new : List Verification}
    (hcall : w.checks.calls p = some call)
    (hact : ValidateAttestation.act p w.checks.dir call a = some (dir, call', new)) :
    step digest debug w (.check p a) = some { w with checks := ⟨dir,
      Function.update w.checks.calls p (some call'), w.checks.verifications ++ new⟩ } := by
  simp [step, ValidateAttestation.step, hcall, hact]

theorem step_validate {proc : Proc} {call : ValidateAttestation.Call}
    (hproc : w.procs p = some proc) (hcheck : checkOf proc.rest = some call)
    (hnone : w.checks.calls p = none) :
    step digest debug w (.validate p) = some { w with checks := { w.checks with
      calls := Function.update w.checks.calls p (some call) } } := by
  simp [step, hproc, hcheck, hnone]

/-- The check of a process that finds its entry. -/
theorem run_hit (digest : Bytes → Bytes) (debug : ControlMessage → String)
    (vaults : AttestationClaims → Prop) {proc : Proc} {args : Args} {cache : AttestationCache}
    {entry : CacheEntry}
    (hproc : w.procs p = some proc) (hrest : checkOf proc.rest = some ⟨args, cache, .checking⟩)
    (hcall : w.checks.calls p = none)
    (hversion : ValidateAttestation.assertProtocolVersion args.attestation = .ok ())
    (hentry : cache.lookup args.cfg args.transport args.tlsFingerprint = some entry) :
    ∃ w', Run (step digest debug) (Allowed vaults) w
        [.validate p, .check p .check, .check p (.touch none)] w' ∧
      w'.procs = w.procs ∧ w'.conns = w.conns ∧ w'.sent = w.sent ∧
      w'.checks.calls p = some ⟨args, cache, .accepted (some entry)⟩ := by
  have hlookup : ValidateAttestation.act p w.checks.dir ⟨args, cache, .checking⟩ .check =
      some (w.checks.dir, ⟨args, cache, .touching entry⟩, []) := by
    simp [ValidateAttestation.act, hversion, hentry]
  refine ⟨_, .cons trivial (step_validate hproc hrest hcall)
    (.cons trivial (step_check (Function.update_self ..) hlookup)
      (.cons trivial (step_check (Function.update_self ..) rfl) (.nil _))), rfl, rfl, rfl, ?_⟩
  exact Function.update_self ..

/-- The check of a process that finds none and verifies the token. -/
theorem run_verified (digest : Bytes → Bytes) (debug : ControlMessage → String)
    {ok : World → Label → Prop}
    (hok : ∀ w a, Allowed vaults w (.check p a) → ok w (.check p a))
    (hvalidate : ∀ w, ok w (.validate p)) {proc : Proc} {args : Args} {cache : AttestationCache}
    {claims : AttestationClaims} {t : List (Event AttestCall AttestAnswer)}
    (hproc : w.procs p = some proc) (hrest : checkOf proc.rest = some ⟨args, cache, .checking⟩)
    (hcall : w.checks.calls p = none)
    (hversion : ValidateAttestation.assertProtocolVersion args.attestation = .ok ())
    (hentry : cache.lookup args.cfg args.transport args.tlsFingerprint = none)
    (hexec : Exec (verifyAttestationJwt args.attestation.jwt args.cfg.org args.aud).run t
      (some (.ok claims))) (hdecodes : ∀ e ∈ t, Decodes w.tokens e)
    (hclaims : assertClaims claims args = .ok ()) :
    ∃ as w', Run (step digest debug) ok w as w' ∧ w'.procs = w.procs ∧
      w'.checks.calls p = some ⟨args, cache, .accepted none⟩ := by
  have hlookup : ValidateAttestation.act p w.checks.dir ⟨args, cache, .checking⟩ .check =
      some (w.checks.dir, ⟨args, cache, .verifying⟩, []) := by
    simp [ValidateAttestation.act, hversion, hentry]
  have hrecord : ValidateAttestation.act p w.checks.dir ⟨args, cache, .verified claims⟩
      (.record none) = some (w.checks.dir, ⟨args, cache, .accepted none⟩, []) := by
    simp [ValidateAttestation.act, hclaims]
  refine ⟨[.validate p, .check p .check, .check p (.verify (.ok claims)), .check p (.record none)],
    _, .cons (hvalidate _) (step_validate hproc hrest hcall)
      (.cons (hok _ _ trivial) (step_check (Function.update_self ..) hlookup)
        (.cons (hok _ _ ⟨_, t, Function.update_self .., hexec, hdecodes⟩)
            (step_check (Function.update_self ..) rfl)
          (.cons (hok _ _ trivial) (step_check (Function.update_self ..) hrecord)
            (.nil _)))), rfl, ?_⟩
  exact Function.update_self ..

end

/-- A machine of the app that `plainSettings` names. -/
def appClaims : AttestationClaims := ⟨issuer "org", "app", "m1"⟩

/-- The connection of a client to it. -/
def vaultConn : Conn := ⟨0, .vault appClaims, [9], some (.certificates [[7]])⟩

/-- It is ready, and its token service answers. -/
def vaultHost : Host (List Token) where
  exportKeyingMaterial s := (.ok [9], s)
  fetchOidcToken aud s := (.ok "jwt", s ++ [⟨"jwt", appClaims, aud⟩])
  detectState s := (.ok .ready, s)
  ensureLiveInnerInitPid s := (.ok 1, s)
  runtimeStatus s := (.ok .systemInit, s)
  vmState s := (.ready, s)
  setVmState _ s := s
  downloadRootfsTarball _ s := (.error "unreachable", s)
  setupAndPrepare _ s := (.ok (), s)
  write _ s := (.ok (), s)
  debug _ := "message"

theorem serves_vaultHost : Serves vaultConn appClaims vaultHost := by
  refine ⟨fun _ => rfl, ?_, fun aud s => .inr ⟨"jwt", rfl⟩, fun _ => rfl, fun _ => rfl,
    fun _ => rfl, fun _ => rfl, fun _ _ => rfl, fun _ _ => rfl, fun _ _ => rfl, fun _ _ => rfl⟩
  intro s ekm hekm
  cases hekm
  rfl

/-- The verification of its token. -/
def jwtTrace : List (Event AttestCall AttestAnswer) :=
  [⟨.discovery "https://oidc.fly.io/org/.well-known/openid-configuration",
      Fetched.parsed "keys"⟩,
    ⟨.jwks "keys", Fetched.parsed [⟨some "kid", some 0⟩]⟩,
    ⟨.decodeHeader "jwt", Except.ok (some "kid")⟩,
    ⟨.decode "jwt" 0 (validationFor (issuer "org") (hexEncode [9])), Except.ok appClaims⟩]

theorem jwtTrace_exec :
    Exec (verifyAttestationJwt "jwt" "org" (hexEncode [9])).run jwtTrace
      (some (.ok appClaims)) := by
  repeat apply Exec.call
  exact .done _

/-- The vault is asked for its attestation. -/
def attestationAsked : Recv := ⟨ControlMessage.requestAttestation.toBytes, false⟩

/-- A client finds no entry, verifies the token of the vault and sends its access token. -/
theorem verified_run : ∃ as w,
    Run (step id fun _ => "") (fun w a => Allowed (fun _ => True) w a ∧ Certified id w a)
      (start ⟨.absent, false⟩) as w ∧ (⟨0, 0, ⟨"token", .none⟩⟩ : Sent) ∈ w.sent := by
  let ok : World → Label → Prop := fun w a => Allowed (fun _ => True) w a ∧ Certified id w a
  have hanswer : ∀ w e, Answers w 0 e → ok w (.answer 0 e) := fun _ _ h => ⟨h, trivial⟩
  have hcheck : ∀ w a, Allowed (fun _ => True) w (.check 0 a) → ok w (.check 0 a) :=
    fun _ _ h => ⟨h, trivial⟩
  obtain ⟨as₁, w₁, hrun₁, hproc₁, hconns₁, htokens₁, hchecks₁⟩ : ∃ as w₁,
      Run (step id fun _ => "") ok (start ⟨.absent, false⟩) as w₁ ∧
      w₁.procs 0 = some (dialled id (fun _ => "") plainLocal plainSettings 0 [7] ⟨true, []⟩ [9]) ∧
      w₁.conns = [vaultConn] ∧ w₁.tokens = [] ∧
      w₁.checks = ValidateAttestation.init ⟨.absent, false⟩ := by
    refine run_dialled id (fun _ => "") plainLocal plainSettings (.vault appClaims) [7] [] [9]
      hanswer ⟨trivial, trivial⟩ rfl fun w' hconns => ?_
    have hnone : ∀ conn, conn ∉ w'.conns := by
      intro conn hconn
      rw [hconns] at hconn
      cases hconn
    exact ⟨fun other hother => absurd hother (hnone other),
      fun other hother => absurd hother (hnone other)⟩
  have hconn : w₁.conns[0]? = some vaultConn := by rw [hconns₁]; rfl
  obtain ⟨w₂, hserve, hw₂⟩ : ∃ w₂,
      step id (fun _ => "") w₁ (.serve 0 vaultHost ⟨false, none⟩ attestationAsked) = some w₂ ∧
      w₂ = { w₁ with tokens := [⟨"jwt", appClaims, hexEncode [9]⟩] } := by
    refine ⟨_, rfl, ?_⟩
    rw [htokens₁]
    rfl
  have hdecodes : ∀ e ∈ jwtTrace, Decodes w₂.tokens e := by
    rw [hw₂]
    simp only [jwtTrace, List.forall_mem_cons]
    refine ⟨trivial, trivial, trivial, ⟨_, List.mem_cons_self, rfl, rfl, List.mem_cons_self,
      List.mem_cons_self⟩, fun e he => ?_⟩
    cases he
  have hproc₂ : w₂.procs 0 = w₁.procs 0 := by rw [hw₂]
  have hnone : w₂.checks.calls 0 = none := by
    rw [hw₂, hchecks₁]
    rfl
  have hasks : checkOf (dialled id (fun _ => "") plainLocal plainSettings 0 [7] ⟨true, []⟩ [9]).rest
      = some ⟨dialArgs plainSettings [9] (hexEncode [7]), ⟨true, []⟩, .checking⟩ := rfl
  obtain ⟨as₃, w₃, hrun₃, hprocs₃, hcall₃⟩ := run_verified id (fun _ => "") hcheck
    (fun _ => ⟨trivial, trivial⟩) (hproc₂.trans hproc₁) hasks hnone rfl rfl jwtTrace_exec hdecodes
    rfl
  obtain ⟨as₄, w₄, hrun₄, -, hsent₄⟩ := run_released id (fun _ => "") hanswer rfl
    (hprocs₃ ▸ hproc₂.trans hproc₁) hcall₃
  have hserves : ok w₁ (.serve 0 vaultHost ⟨false, none⟩ attestationAsked) :=
    ⟨⟨vaultConn, appClaims, hconn, rfl, serves_vaultHost⟩, trivial⟩
  exact ⟨_, w₄, hrun₁.append (.cons hserves hserve (hrun₃.append hrun₄)), hsent₄⟩

end FlyVault.Client.TokenRelease
