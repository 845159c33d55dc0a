/-
  `connect_ready` (`crates/client/src/quic.rs`): from the address of a vault to a connection on
  which it is set up, with `resolve_addr`, `export_attestation_audience` and
  `server_cert_fingerprint`.

  The program is a script: what it asks of the QUIC endpoint, of the streams and of the attestation
  check is a call, and the answers are arbitrary. `setupRequest` and `validate_attestation` are
  those of `ColdBoots` and `ValidateAttestation`. An error is its outermost text; `debug` is the
  derived `Debug` text of a message and `digest` is SHA-256.

  `Known.May` says which calls are permitted after which answers, and `token_withheld` that in
  every run, whatever the peer answers, all calls are. So the setup request, which carries the
  access token, is sent at most once, after the attestation that came over the same connection was
  accepted for the keying material and the certificate of this connection.
-/
import FlyVault.Client.ValidateAttestation
import FlyVault.Init.ColdBoots
import FlyVault.Lib.Monitor

namespace FlyVault.Client.ConnectReady

open FlyVault.Lib FlyVault.Lib.Script FlyVault.Protocol
open FlyVault.Client.ValidateAttestation (Args)
open FlyVault.Init.ColdBoots (Local ClientConfig setupRequest)
open FlyVault.Init.Control (hexEncode)

/-! ## The program -/

/-- The fields of `VaultConfig` that `connect_ready` reads. -/
structure Settings where
  address : String
  vault : VaultConfig
  client : ClientConfig
  deriving DecidableEq, Repr

/-- What `peer_identity` returns: a chain of certificates, or something else. -/
inductive Identity
  | certificates (chain : List Bytes)
  | other
  deriving DecidableEq, Repr

/-- `server_cert_fingerprint_from_identity`. -/
def serverCertFingerprintFromIdentity (digest : Bytes → Bytes) : Identity → Except String String
  | .other => .error "unexpected peer identity type"
  | .certificates [] => .error "peer identity did not include a certificate"
  | .certificates (cert :: _) => .ok (hexEncode (digest cert))

/-- The calls; a connection and its control stream are the number of the connection. -/
inductive ReadyCall
  | buildClientEndpoint (transport : TransportConfig)
  | insecureClientConfig
  | toSocketAddrs (addr : String)
  | connect (remote : String)
  | awaitConnect
  | peerIdentity (conn : Nat)
  | loadAttestationCache
  | exportKeyingMaterial (conn : Nat)
  | openBi (conn : Nat)
  | writeTag (conn : Nat)
  | write (conn : Nat) (message : ControlMessage)
  | read (conn : Nat)
  | validateAttestation (args : Args) (cache : AttestationCache)
  deriving DecidableEq

def ReadyAnswer : ReadyCall → Type
  | .toSocketAddrs _ => Except String (List String)
  | .awaitConnect => Except String Nat
  | .peerIdentity _ => Option Identity
  | .loadAttestationCache => AttestationCache
  | .exportKeyingMaterial _ => Except String Bytes
  | .read _ => Except String ControlMessage
  | .buildClientEndpoint _ | .insecureClientConfig | .connect _ | .openBi _ | .writeTag _
  | .write _ _ | .validateAttestation _ _ => Except String Unit

abbrev Ready := Script ReadyCall ReadyAnswer

abbrev ReadyEvent := Event ReadyCall ReadyAnswer

abbrev Fallible (α : Type) := ExceptT String Ready α

variable {α : Type}

/-- `context` on a result. -/
def context (text : String) (x : Ready (Except String α)) : Fallible α :=
  ExceptT.mk (Except.mapError (fun _ => text) <$> x)

/-- `?` on a result that is there. -/
def result : Except String α → Fallible α
  | .ok a => pure a
  | .error e => throw e

/-- `resolve_addr`. -/
def resolveAddr (addr : String) : Fallible String := do
  match ← context ("resolve address " ++ addr) (ask (ReadyCall.toSocketAddrs addr)) with
  | remote :: _ => pure remote
  | [] => throw ("address resolution returned no results for " ++ addr)

/-- `export_attestation_audience`. -/
def exportAttestationAudience (conn : Nat) : Fallible String := do
  let ekm ← context "export keying material failed" (ask (ReadyCall.exportKeyingMaterial conn))
  pure (hexEncode ekm)

/-- `server_cert_fingerprint`. -/
def serverCertFingerprint (digest : Bytes → Bytes) (conn : Nat) : Fallible String := do
  match ← liftM (ask (ReadyCall.peerIdentity conn) : Ready (Option Identity)) with
  | none => throw "missing peer identity"
  | some identity => result (serverCertFingerprintFromIdentity digest identity)

/-- The first answer of the server. -/
def expectAttestation (debug : ControlMessage → String) : ControlMessage →
    Except String AttestationPayload
  | .attestation payload => .ok payload
  | other => .error ("expected attestation frame, got " ++ debug other)

/-- The second answer of the server. -/
def expectComplete (debug : ControlMessage → String) : ControlMessage → Except String Unit
  | .setupComplete => .ok ()
  | .error message => .error ("server setup error: " ++ message)
  | other => .error ("expected setup response, got " ++ debug other)

section

variable (digest : Bytes → Bytes) (here : Local) (debug : ControlMessage → String)
  (cfg : Settings) (reprovision : Bool)

/-- Up to the connection. -/
def dial : Fallible Nat := do
  ExceptT.mk (ask (ReadyCall.buildClientEndpoint cfg.vault.transport))
  ExceptT.mk (ask ReadyCall.insecureClientConfig)
  let remote ← resolveAddr cfg.address
  context "connect quic" (ask (ReadyCall.connect remote))
  context "await quic connect" (ask ReadyCall.awaitConnect)

/-- The control stream, up to the attestation. -/
def requestAttestation (conn : Nat) : Fallible AttestationPayload := do
  context "open control stream" (ask (ReadyCall.openBi conn))
  context "write control stream tag" (ask (ReadyCall.writeTag conn))
  context "request attestation" (ask (ReadyCall.write conn .requestAttestation))
  let answer ← ExceptT.mk (ask (ReadyCall.read conn))
  result (expectAttestation debug answer)

/-- From the attestation on. -/
def setUp (conn : Nat) (cache : AttestationCache) (aud tlsFingerprint : String)
    (attestation : AttestationPayload) : Fallible Nat := do
  ExceptT.mk (ask (ReadyCall.validateAttestation
    ⟨cfg.vault, cfg.vault.transport, attestation, aud, tlsFingerprint⟩ cache))
  let request ← result (setupRequest here cfg.client attestation.state reprovision)
  context "send setup request" (ask (ReadyCall.write conn (.setupRequest request)))
  let answer ← ExceptT.mk (ask (ReadyCall.read conn))
  result (expectComplete debug answer)
  pure conn

/-- `connect_ready`. -/
def connectReady : Fallible Nat := do
  let conn ← dial cfg
  let tlsFingerprint ← serverCertFingerprint digest conn
  let cache ← liftM (ask ReadyCall.loadAttestationCache : Ready AttestationCache)
  let aud ← exportAttestationAudience conn
  let attestation ← requestAttestation debug conn
  setUp here debug cfg reprovision conn cache aud tlsFingerprint attestation

end

/-! ## The order of the calls -/

/-- What the answers have told. -/
structure Known where
  conn : Option Nat
  identity : Option Identity
  cache : Option AttestationCache
  ekm : Option Bytes
  attestation : Option AttestationPayload
  /-- The attestation was accepted. -/
  validated : Bool
  /-- The setup request was written. -/
  sent : Bool
  /-- After that the peer has answered that the setup is complete. -/
  complete : Bool
  deriving DecidableEq

def Known.nothing : Known := ⟨none, none, none, none, none, false, false, false⟩

def Known.learn (k : Known) : ReadyEvent → Known
  | ⟨.awaitConnect, .ok conn⟩ => { k with conn := some conn }
  | ⟨.peerIdentity _, identity⟩ => { k with identity := identity }
  | ⟨.loadAttestationCache, cache⟩ => { k with cache := some cache }
  | ⟨.exportKeyingMaterial _, .ok ekm⟩ => { k with ekm := some ekm }
  | ⟨.read _, .ok (.attestation payload)⟩ =>
      if k.validated then k else { k with attestation := some payload }
  | ⟨.read _, .ok .setupComplete⟩ => { k with complete := true }
  | ⟨.validateAttestation _ _, .ok ()⟩ => { k with validated := true }
  | ⟨.write _ (.setupRequest _), _⟩ => { k with sent := true, complete := false }
  | _ => k

/-- The arguments for `validate_attestation`: those of this connection. -/
def Known.args (digest : Bytes → Bytes) (cfg : Settings) (k : Known) : Option Args := do
  let ekm ← k.ekm
  let attestation ← k.attestation
  let identity ← k.identity
  let tlsFingerprint ← (serverCertFingerprintFromIdentity digest identity).toOption
  some ⟨cfg.vault, cfg.vault.transport, attestation, hexEncode ekm, tlsFingerprint⟩

section

variable (digest : Bytes → Bytes) (here : Local) (cfg : Settings) (reprovision : Bool)

/-- The request is that of the configuration, for the state in the attestation. -/
def Known.Requests (k : Known) (request : SetupRequest) : Prop :=
  ∃ attestation, k.attestation = some attestation ∧
    setupRequest here cfg.client attestation.state reprovision = .ok request

/-- Which calls are permitted. -/
def Known.May (k : Known) : ReadyCall → Prop
  | .awaitConnect => k.conn = none
  | .peerIdentity conn | .exportKeyingMaterial conn => k.conn = some conn ∧ k.validated = false
  | .openBi conn | .writeTag conn | .read conn => k.conn = some conn
  | .write conn message => k.conn = some conn ∧ ∀ request, message = .setupRequest request →
      k.validated = true ∧ k.sent = false ∧ k.Requests here cfg reprovision request
  | .validateAttestation args cache =>
      k.args digest cfg = some args ∧ k.cache = some cache ∧ k.validated = false
  | .loadAttestationCache => k.validated = false
  | .buildClientEndpoint _ | .insecureClientConfig | .toSocketAddrs _ | .connect _ => True

def monitor : Monitor ReadyCall ReadyAnswer Known :=
  ⟨Known.learn, Known.May digest here cfg reprovision⟩

/-- At the end the setup is complete. -/
def Completed (k : Known) (conn : Nat) : Prop :=
  k.conn = some conn ∧ k.sent = true ∧ k.complete = true

end

section

variable {digest : Bytes → Bytes} {here : Local} {debug : ControlMessage → String}
  {cfg : Settings} {reprovision : Bool}

theorem dial_obeys :
    Obeys (monitor digest here cfg reprovision)
      (OnResult (fun k conn => k = { Known.nothing with conn := some conn }) fun _ _ => True)
      Known.nothing (dial cfg).run := by
  refine ⟨trivial, fun endpoint => ?_⟩
  cases endpoint with
  | error e => trivial
  | ok =>
  refine ⟨trivial, fun config => ?_⟩
  cases config with
  | error e => trivial
  | ok =>
  refine ⟨trivial, fun resolved => ?_⟩
  cases resolved with
  | error e => trivial
  | ok addrs =>
  cases addrs with
  | nil => trivial
  | cons remote others =>
  refine ⟨trivial, fun connecting => ?_⟩
  cases connecting with
  | error e => trivial
  | ok =>
  refine ⟨rfl, fun connected => ?_⟩
  cases connected with
  | error e => trivial
  | ok conn => rfl

theorem serverCertFingerprint_obeys {k : Known} {conn : Nat} (hconn : k.conn = some conn)
    (hvalidated : k.validated = false) :
    Obeys (monitor digest here cfg reprovision)
      (OnResult (fun k' tlsFingerprint => ∃ identity, k' = { k with identity := some identity } ∧
        serverCertFingerprintFromIdentity digest identity = .ok tlsFingerprint) fun _ _ => True)
      k (serverCertFingerprint digest conn).run := by
  refine ⟨⟨hconn, hvalidated⟩, fun identity => ?_⟩
  cases identity with
  | none => trivial
  | some identity =>
  show Obeys _ _ _ (result (serverCertFingerprintFromIdentity digest identity)).run
  cases hfingerprint : serverCertFingerprintFromIdentity digest identity with
  | error e => trivial
  | ok tlsFingerprint => exact ⟨identity, rfl, hfingerprint⟩

theorem exportAttestationAudience_obeys {k : Known} {conn : Nat} (hconn : k.conn = some conn)
    (hvalidated : k.validated = false) :
    Obeys (monitor digest here cfg reprovision)
      (OnResult (fun k' aud => ∃ ekm, k' = { k with ekm := some ekm } ∧ aud = hexEncode ekm)
        fun _ _ => True) k (exportAttestationAudience conn).run := by
  refine ⟨⟨hconn, hvalidated⟩, fun exported => ?_⟩
  cases exported with
  | error e => trivial
  | ok ekm => exact ⟨ekm, rfl, rfl⟩

theorem requestAttestation_obeys {k : Known} {conn : Nat} (hconn : k.conn = some conn)
    (hvalidated : k.validated = false) :
    Obeys (monitor digest here cfg reprovision)
      (OnResult (fun k' attestation => k' = { k with attestation := some attestation })
        fun _ _ => True) k (requestAttestation debug conn).run := by
  refine ⟨hconn, fun opened => ?_⟩
  cases opened with
  | error e => trivial
  | ok =>
  refine ⟨hconn, fun tagged => ?_⟩
  cases tagged with
  | error e => trivial
  | ok =>
  refine ⟨⟨hconn, fun request h => by cases h⟩, fun requested => ?_⟩
  cases requested with
  | error e => trivial
  | ok =>
  refine ⟨hconn, fun answer => ?_⟩
  cases answer with
  | error e => trivial
  | ok message =>
  cases message with
  | attestation payload =>
      show Known.learn k ⟨ReadyCall.read conn, Except.ok (ControlMessage.attestation payload)⟩ = _
      exact if_neg (ne_true_of_eq_false hvalidated)
  | requestAttestation | setupRequest request | setupComplete | error message => trivial

theorem setUp_obeys {conn : Nat} {cache : AttestationCache} {ekm : Bytes} {identity : Identity}
    {tlsFingerprint : String} {attestation : AttestationPayload}
    (hidentity : serverCertFingerprintFromIdentity digest identity = .ok tlsFingerprint) :
    Obeys (monitor digest here cfg reprovision) (OnResult Completed fun _ _ => True)
      ⟨some conn, some identity, some cache, some ekm, some attestation, false, false, false⟩
      (setUp here debug cfg reprovision conn cache (hexEncode ekm) tlsFingerprint
        attestation).run := by
  refine ⟨⟨?_, rfl, rfl⟩, fun valid => ?_⟩
  · simp [Known.args, hidentity, Except.toOption]
  cases valid with
  | error e => trivial
  | ok =>
  cases hrequest : setupRequest here cfg.client attestation.state reprovision with
  | error e => trivial
  | ok request =>
  refine ⟨⟨rfl, ?_⟩, fun written => ?_⟩
  · intro request' hmessage
    cases hmessage
    exact ⟨rfl, rfl, attestation, rfl, hrequest⟩
  cases written with
  | error e => trivial
  | ok =>
  refine ⟨rfl, fun answer => ?_⟩
  cases answer with
  | error e => trivial
  | ok message =>
  cases message with
  | setupComplete => exact ⟨rfl, rfl, rfl⟩
  | requestAttestation | attestation payload | setupRequest request | error message => trivial

theorem connectReady_obeys :
    Obeys (monitor digest here cfg reprovision) (OnResult Completed fun _ _ => True)
      Known.nothing (connectReady digest here debug cfg reprovision).run := by
  refine dial_obeys.run_bind fun k conn hk => ?_
  subst hk
  refine (serverCertFingerprint_obeys rfl rfl).run_bind fun k tlsFingerprint hk => ?_
  obtain ⟨identity, rfl, hidentity⟩ := hk
  refine ⟨rfl, fun cache => ?_⟩
  refine (exportAttestationAudience_obeys rfl rfl).run_bind fun k aud hk => ?_
  obtain ⟨ekm, rfl, rfl⟩ := hk
  refine (requestAttestation_obeys rfl rfl).run_bind fun k attestation hk => ?_
  subst hk
  exact setUp_obeys hidentity

theorem Known.args_eq_some {k : Known} {args : Args} (h : k.args digest cfg = some args) :
    ∃ ekm attestation identity tlsFingerprint, k.ekm = some ekm ∧
      k.attestation = some attestation ∧ k.identity = some identity ∧
      serverCertFingerprintFromIdentity digest identity = .ok tlsFingerprint ∧
      args = ⟨cfg.vault, cfg.vault.transport, attestation, hexEncode ekm, tlsFingerprint⟩ := by
  unfold Known.args at h
  obtain ⟨ekm, hekm, h⟩ := Option.bind_eq_some_iff.mp h
  obtain ⟨attestation, hattestation, h⟩ := Option.bind_eq_some_iff.mp h
  obtain ⟨identity, hidentity, h⟩ := Option.bind_eq_some_iff.mp h
  obtain ⟨tlsFingerprint, hfingerprint, h⟩ := Option.bind_eq_some_iff.mp h
  refine ⟨ekm, attestation, identity, tlsFingerprint, hekm, hattestation, hidentity, ?_,
    (Option.some.inj h).symm⟩
  cases hresult : serverCertFingerprintFromIdentity digest identity with
  | error e =>
      rw [hresult] at hfingerprint
      cases hfingerprint
  | ok fingerprint =>
      rw [hresult] at hfingerprint
      cases hfingerprint
      rfl

/-! ## The runs -/

/-- What the answers to the calls of `t` have told. -/
def learnt (t : List ReadyEvent) : Known := t.foldl Known.learn Known.nothing

/-- Whatever the peer and the network answer, every call of a run is permitted by the answers
    before it: there is one connection, the check is about its keying material, its certificate and
    the attestation that came over it, and the setup request, which carries the access token, goes
    to it only after the check has accepted, and once. The connection is handed on only after the
    peer has answered the request. -/
theorem token_withheld {t : List ReadyEvent} {o : Option (Except String Nat)}
    (hexec : Exec (connectReady digest here debug cfg reprovision).run t o) :
    (∀ before e after, t = before ++ e :: after →
      (learnt before).May digest here cfg reprovision e.1) ∧
    ∀ conn, o = some (.ok conn) → Completed (learnt t) conn := by
  constructor
  · intro before e after ht
    subst ht
    exact connectReady_obeys.permits hexec
  · intro conn ho
    subst ho
    exact connectReady_obeys.returns hexec

end

/-- A client of a vault without a proxy, with an access token. -/
def plainSettings : Settings := ⟨"vault:4433", ⟨"org", "app", none⟩, ⟨none, none, some "token"⟩⟩

/-- It reads no file and no url. -/
def plainLocal : Local :=
  ⟨fun _ => .error "no file", fun _ => .error "no file", fun _ => .error "no url"⟩

def readyAttestation : AttestationPayload := ⟨1, .ready, .systemInit, "jwt"⟩

/-- The call of `connect_ready` up to the check, with a peer that shows `chain` and says that it
    is ready. -/
def dialTrace (cfg : Settings) (n : Nat) (chain : List Bytes) (cache : AttestationCache)
    (ekm : Bytes) : List ReadyEvent :=
  [⟨.buildClientEndpoint cfg.vault.transport, Except.ok ()⟩,
    ⟨.insecureClientConfig, Except.ok ()⟩, ⟨.toSocketAddrs cfg.address, Except.ok ["remote"]⟩,
    ⟨.connect "remote", Except.ok ()⟩, ⟨.awaitConnect, Except.ok n⟩,
    ⟨.peerIdentity n, some (.certificates chain)⟩, ⟨.loadAttestationCache, cache⟩,
    ⟨.exportKeyingMaterial n, Except.ok ekm⟩, ⟨.openBi n, Except.ok ()⟩,
    ⟨.writeTag n, Except.ok ()⟩, ⟨.write n .requestAttestation, Except.ok ()⟩,
    ⟨.read n, Except.ok (.attestation readyAttestation)⟩]

/-- The check it asks for. -/
def dialArgs (cfg : Settings) (ekm : Bytes) (tlsFingerprint : String) : Args :=
  ⟨cfg.vault, cfg.vault.transport, readyAttestation, hexEncode ekm, tlsFingerprint⟩

/-- The run against a vault that is ready. -/
def readyTrace : List ReadyEvent :=
  dialTrace plainSettings 0 [[7]] .default [9] ++
    [⟨.validateAttestation (dialArgs plainSettings [9] (hexEncode [7])) .default, Except.ok ()⟩,
      ⟨.write 0 (.setupRequest ⟨"token", .none⟩), Except.ok ()⟩,
      ⟨.read 0, Except.ok .setupComplete⟩]

theorem readyTrace_exec :
    Exec (connectReady id plainLocal (fun _ => "") plainSettings false).run readyTrace
      (some (.ok 0)) := by
  repeat apply Exec.call
  exact .done _

theorem token_withheld_readyTrace :
    Exec (connectReady id plainLocal (fun _ => "") plainSettings false).run readyTrace
        (some (.ok 0)) ∧ Completed (learnt readyTrace) 0 :=
  ⟨readyTrace_exec, (token_withheld readyTrace_exec).2 0 rfl⟩

end FlyVault.Client.ConnectReady
