/-
  The invariant of `TokenSystem`.

  `Sound` says where everything in a state comes from: a token of a vault from one of its
  connections, a verification from a token, a cache entry from a verification, what a process
  knows from its connection, and a setup request from a process whose check was accepted. No step
  takes back what another part of the state rests on (`Grows`), and every step keeps `Sound`
  (`sound_step`).
-/
import Mathlib.Data.List.Nodup
import FlyVault.Client.TokenSystem

namespace FlyVault.Client.TokenRelease

open FlyVault.Lib FlyVault.Lib.Script FlyVault.Protocol
open FlyVault.Client.Attest FlyVault.Client.ConnectReady
open FlyVault.Client.ValidateAttestation (AttestationClaims Args Phase Action Verification
  assertClaims assertClaims_ok issuer)
open FlyVault.Init.ColdBoots (Local)
open FlyVault.Init.Control (hexEncode Host handleControlStream)

/-! ## What holds in every state -/

/-- The check is about this connection: its keying material and its certificate. -/
def Shows (digest : Bytes → Bytes) (conn : Conn) (args : Args) : Prop :=
  args.aud = hexEncode conn.exporter ∧ conn.fingerprint digest = some args.tlsFingerprint

/-- Past the check of the claims, without a hit. -/
def passed : Phase → Bool
  | .persisting none _ | .accepted none => true
  | _ => false

/-- A call that has passed has verified a token. -/
def Verified (vs : List Verification) (args : Args) (phase : Phase) : Prop :=
  passed phase = true → ∃ v ∈ vs, v.args = args ∧ assertClaims v.claims args = .ok ()

/-- What a process knows is true. -/
structure Knows (digest : Bytes → Bytes) (w : World) (p : Nat) (cfg : Settings) (k : Known) :
    Prop where
  conn : ∀ n : Nat, k.conn = some n → ∃ conn, w.conns[n]? = some conn ∧ conn.client = p
  identity : ∀ identity, k.identity = some identity → ∃ (n : Nat) (conn : Conn), k.conn = some n ∧
    w.conns[n]? = some conn ∧ conn.identity = some identity
  ekm : ∀ ekm, k.ekm = some ekm → ∃ (n : Nat) (conn : Conn), k.conn = some n ∧
    w.conns[n]? = some conn ∧ conn.exporter = ekm
  cache : ∀ cache, k.cache = some cache → ∀ entry ∈ cache.entries,
    ValidateAttestation.Attested w.checks.verifications entry
  validated : k.validated = true → ∃ call hit, w.checks.calls p = some call ∧
    k.args digest cfg = some call.args ∧ call.phase = .accepted hit

/-- Where a setup request goes: to the connection that its process has checked. -/
structure Released (digest : Bytes → Bytes) (w : World) (s : Sent) (proc : Proc) (conn : Conn)
    (call : ValidateAttestation.Call) (hit : Option CacheEntry) : Prop where
  running : w.procs s.process = some proc
  connected : w.conns[s.conn]? = some conn
  client : conn.client = s.process
  checked : w.checks.calls s.process = some call
  accepted : call.phase = .accepted hit
  shows : Shows digest conn call.args
  cfg : call.args.cfg = proc.cfg.vault
  transport : call.args.transport = proc.cfg.vault.transport
  token : proc.cfg.client.accessToken = some s.request.accessToken

/-- The invariant. -/
structure Sound (digest : Bytes → Bytes) (vaults : AttestationClaims → Prop) (w : World) :
    Prop where
  checks : ValidateAttestation.Sound w.checks
  verified : ∀ p call, w.checks.calls p = some call →
    Verified w.checks.verifications call.args call.phase
  calls : ∀ p call, w.checks.calls p = some call → ∃ conn ∈ w.conns, Shows digest conn call.args
  shown : ∀ v ∈ w.checks.verifications, ∃ conn ∈ w.conns, Shows digest conn v.args
  issued : ∀ v ∈ w.checks.verifications, ∃ token ∈ w.tokens, token.claims = v.claims ∧
    token.aud = v.args.aud
  tokens : ∀ token ∈ w.tokens, vaults token.claims → ∃ conn ∈ w.conns,
    conn.server = .vault token.claims ∧ token.aud = hexEncode conn.exporter
  exporters : (w.conns.map Conn.exporter).Nodup
  procs : ∀ p proc, w.procs p = some proc → ∃ k,
    Obeys (monitor digest proc.here proc.cfg proc.reprovision) (OnResult Completed fun _ _ => True)
      k proc.rest ∧ Knows digest w p proc.cfg k
  sent : ∀ s ∈ w.sent, ∃ proc conn call hit, Released digest w s proc conn call hit

/-- What no step takes back. -/
structure Grows (w w' : World) : Prop where
  conns : ∀ (n : Nat) conn, w.conns[n]? = some conn → w'.conns[n]? = some conn
  verifications : ∀ v ∈ w.checks.verifications, v ∈ w'.checks.verifications
  accepted : ∀ p call hit, w.checks.calls p = some call → call.phase = .accepted hit →
    w'.checks.calls p = some call
  procs : ∀ p proc, w.procs p = some proc → ∃ rest, w'.procs p = some { proc with rest := rest }

section

variable {digest : Bytes → Bytes} {debug : ControlMessage → String}
  {vaults : AttestationClaims → Prop} {w w' : World} {p : Nat}

theorem Knows.grows {cfg : Settings} {k : Known} (h : Knows digest w p cfg k)
    (hw : Grows w w') : Knows digest w' p cfg k := by
  refine ⟨?_, ?_, ?_, ?_, ?_⟩
  · intro n hn
    obtain ⟨conn, hconn, hclient⟩ := h.conn n hn
    exact ⟨conn, hw.conns n conn hconn, hclient⟩
  · intro identity hidentity
    obtain ⟨n, conn, hn, hconn, hshown⟩ := h.identity identity hidentity
    exact ⟨n, conn, hn, hw.conns n conn hconn, hshown⟩
  · intro ekm hekm
    obtain ⟨n, conn, hn, hconn, hshown⟩ := h.ekm ekm hekm
    exact ⟨n, conn, hn, hw.conns n conn hconn, hshown⟩
  · intro cache hcache entry hentry
    obtain ⟨v, hv, hbacks⟩ := h.cache cache hcache entry hentry
    exact ⟨v, hw.verifications v hv, hbacks⟩
  · intro hvalidated
    obtain ⟨call, hit, hcall, hargs, hphase⟩ := h.validated hvalidated
    exact ⟨call, hit, hw.accepted p call hit hcall hphase, hargs, hphase⟩

theorem Released.grows {s : Sent} {proc : Proc} {conn : Conn} {call : ValidateAttestation.Call}
    {hit : Option CacheEntry} (h : Released digest w s proc conn call hit) (hw : Grows w w') :
    ∃ proc conn call hit, Released digest w' s proc conn call hit := by
  obtain ⟨rest, hproc⟩ := hw.procs s.process proc h.running
  exact ⟨_, conn, call, hit, hproc, hw.conns s.conn conn h.connected, h.client,
    hw.accepted s.process call hit h.checked h.accepted, h.accepted, h.shows, h.cfg, h.transport,
    h.token⟩

theorem Sound.sent_grows (hs : Sound digest vaults w) (hw : Grows w w') :
    ∀ s ∈ w.sent, ∃ proc conn call hit, Released digest w' s proc conn call hit := by
  intro s hmem
  obtain ⟨proc, conn, call, hit, hreleased⟩ := hs.sent s hmem
  exact hreleased.grows hw

theorem Sound.procs_grows (hs : Sound digest vaults w) (hw : Grows w w') {proc : Proc}
    (hproc : w.procs p = some proc) : ∃ k,
      Obeys (monitor digest proc.here proc.cfg proc.reprovision)
        (OnResult Completed fun _ _ => True) k proc.rest ∧ Knows digest w' p proc.cfg k := by
  obtain ⟨k, hobeys, hknows⟩ := hs.procs p proc hproc
  exact ⟨k, hobeys, hknows.grows hw⟩

/-! ## Steps that only add -/

theorem sound_launch (hs : Sound digest vaults w) (hnone : w.procs p = none) (here : Local)
    (cfg : Settings) (reprovision : Bool) :
    Sound digest vaults { w with procs := Function.update w.procs p (some ⟨here, cfg, reprovision,
      (connectReady digest here debug cfg reprovision).run⟩) } := by
  have hw : Grows w { w with procs := Function.update w.procs p (some ⟨here, cfg, reprovision,
      (connectReady digest here debug cfg reprovision).run⟩) } := by
    refine ⟨fun _ _ h => h, fun _ h => h, fun _ _ _ h _ => h, fun q proc hq => ?_⟩
    have hne : q ≠ p := by
      intro heq
      rw [heq, hnone] at hq
      cases hq
    exact ⟨proc.rest, update_some_iff.mpr (.inr ⟨hne, hq⟩)⟩
  refine ⟨hs.checks, hs.verified, hs.calls, hs.shown, hs.issued, hs.tokens, hs.exporters,
    forall_update (fun q proc hq => hs.procs_grows hw hq) ?_, hs.sent_grows hw⟩
  refine ⟨Known.nothing, connectReady_obeys, ?_⟩
  refine ⟨?_, ?_, ?_, ?_, ?_⟩
  · intro n h
    cases h
  · intro identity h
    cases h
  · intro ekm h
    cases h
  · intro cache h
    cases h
  · intro h
    cases h

theorem sound_connect (hs : Sound digest vaults w) {conn : Conn}
    (hfresh : ∀ other ∈ w.conns, other.exporter ≠ conn.exporter) :
    Sound digest vaults { w with conns := w.conns ++ [conn] } := by
  have hw : Grows w { w with conns := w.conns ++ [conn] } := by
    refine ⟨fun n other h => ?_, fun _ h => h, fun _ _ _ h _ => h, fun _ proc h => ⟨_, h⟩⟩
    rw [List.getElem?_append_left (List.getElem?_eq_some_iff.mp h).1]
    exact h
  have hmem : ∀ other ∈ w.conns, other ∈ w.conns ++ [conn] := fun _ => List.mem_append_left _
  refine ⟨hs.checks, hs.verified, ?_, ?_, hs.issued, ?_, ?_,
    fun q proc hq => hs.procs_grows hw hq, hs.sent_grows hw⟩
  · intro q call hq
    obtain ⟨other, hother, hshows⟩ := hs.calls q call hq
    exact ⟨other, hmem other hother, hshows⟩
  · intro v hv
    obtain ⟨other, hother, hshows⟩ := hs.shown v hv
    exact ⟨other, hmem other hother, hshows⟩
  · intro token htoken hvault
    obtain ⟨other, hother, hserver⟩ := hs.tokens token htoken hvault
    exact ⟨other, hmem other hother, hserver⟩
  · rw [List.map_append, List.nodup_append]
    refine ⟨hs.exporters, List.nodup_singleton _, ?_⟩
    intro e he e' he' heq
    obtain ⟨other, hother, rfl⟩ := List.mem_map.mp he
    rw [List.map_singleton, List.mem_singleton] at he'
    exact hfresh other hother (heq.trans he')

/-- More tokens: those of vaults have to be for one of their connections. -/
theorem sound_tokens (hs : Sound digest vaults w) {tokens : List Token}
    (hold : ∀ token ∈ w.tokens, token ∈ tokens)
    (hnew : ∀ token ∈ tokens, token ∈ w.tokens ∨ (vaults token.claims → ∃ conn ∈ w.conns,
      conn.server = .vault token.claims ∧ token.aud = hexEncode conn.exporter)) :
    Sound digest vaults { w with tokens := tokens } := by
  have hw : Grows w { w with tokens := tokens } :=
    ⟨fun _ _ h => h, fun _ h => h, fun _ _ _ h _ => h, fun _ _ h => ⟨_, h⟩⟩
  refine ⟨hs.checks, hs.verified, hs.calls, hs.shown, ?_, ?_, hs.exporters,
    fun q proc hq => hs.procs_grows hw hq, hs.sent_grows hw⟩
  · intro v hv
    obtain ⟨token, htoken, hissued⟩ := hs.issued v hv
    exact ⟨token, hold token htoken, hissued⟩
  · intro token htoken hvault
    obtain hmem | hconn := hnew token htoken
    · exact hs.tokens token hmem hvault
    · exact hconn hvault

/-- The tokens that a control stream can add. -/
theorem serve_tokens {conn : Conn} {claims : AttestationClaims} {host : Host (List Token)}
    (h : Serves conn claims host) (cfg : Init.Control.Config) (recv : Recv)
    (tokens : List Token) :
    (∀ token ∈ tokens,
      token ∈ ((handleControlStream host cfg recv).exec ⟨tokens, []⟩).2.host) ∧
    ∀ token ∈ ((handleControlStream host cfg recv).exec ⟨tokens, []⟩).2.host,
      token ∈ tokens ∨ token.claims = claims ∧ token.aud = hexEncode conn.exporter := by
  let I : List Token → Prop := fun s => (∀ token ∈ tokens, token ∈ s) ∧ ∀ token ∈ s,
    token ∈ tokens ∨ token.claims = claims ∧ token.aud = hexEncode conn.exporter
  have hhost : host.Keeps conn.exporter I := by
    refine ⟨fun s hs => ?_, h.exported, fun s hs => ?_, fun s hs => ?_, fun s hs => ?_,
      fun s hs => ?_, fun s hs => ?_, fun state s hs => ?_, fun url s hs => ?_,
      fun tarball s hs => ?_, fun bytes s hs => ?_⟩
    · exact (h.exportKeyingMaterial s).symm ▸ hs
    · obtain hsame | ⟨jwt, hissued⟩ := h.fetchOidcToken (hexEncode conn.exporter) s
      · exact hsame.symm ▸ hs
      · rw [hissued]
        refine ⟨fun token htoken => List.mem_append_left _ (hs.1 token htoken), ?_⟩
        intro token htoken
        obtain htoken | htoken := List.mem_append.mp htoken
        · exact hs.2 token htoken
        · rw [List.mem_singleton.mp htoken]
          exact .inr ⟨rfl, rfl⟩
    · exact (h.detectState s).symm ▸ hs
    · exact (h.ensureLiveInnerInitPid s).symm ▸ hs
    · exact (h.runtimeStatus s).symm ▸ hs
    · exact (h.vmState s).symm ▸ hs
    · exact (h.setVmState state s).symm ▸ hs
    · exact (h.downloadRootfsTarball url s).symm ▸ hs
    · exact (h.setupAndPrepare tarball s).symm ▸ hs
    · exact (h.write bytes s).symm ▸ hs
  exact (Init.Control.handleControlStream_keeps hhost cfg recv).exec ⟨tokens, []⟩
    ⟨fun _ htoken => htoken, fun _ htoken => .inl htoken⟩

/-! ## The checks -/

theorem passed_persisting (hit : Option CacheEntry) (stage : ValidateAttestation.Stage) :
    passed (.persisting hit stage) = passed (.accepted hit) := by
  cases hit with
  | none | some entry => rfl

theorem passed_beginPersist (cache : AttestationCache) (hit : Option CacheEntry) :
    passed (ValidateAttestation.beginPersist cache hit) = passed (.accepted hit) := by
  unfold ValidateAttestation.beginPersist
  split
  · exact passed_persisting hit _
  · rfl

theorem passed_persistStep (dir : ValidateAttestation.Dir) (cache : AttestationCache)
    (hit : Option CacheEntry) (stage : ValidateAttestation.Stage) (success : Bool) :
    passed (ValidateAttestation.persistStep dir cache hit stage success).2 =
      passed (.accepted hit) := by
  unfold ValidateAttestation.persistStep
  split
  · exact passed_persisting hit _
  · rfl
  · split
    · split
      · exact passed_persisting hit _
      · rfl
    · exact passed_persisting hit _
  · rfl
  · exact passed_persisting hit _
  · exact passed_persisting hit _
  · exact passed_persisting hit _
  · exact passed_persisting hit _
  · rfl
  · rfl

theorem Verified.append {vs : List Verification} {args : Args} {phase : Phase}
    (h : Verified vs args phase) (new : List Verification) : Verified (vs ++ new) args phase := by
  intro hpassed
  obtain ⟨v, hv, hok⟩ := h hpassed
  exact ⟨v, List.mem_append_left new hv, hok⟩

theorem verified_of_not_passed {vs : List Verification} {args : Args} {phase : Phase}
    (h : passed phase = false) : Verified vs args phase :=
  fun hpassed => absurd hpassed (ne_true_of_eq_false h)

/-- What a step of a check does, beside keeping `ValidateAttestation.Sound`. -/
structure Checked (vs : List Verification) (call : ValidateAttestation.Call) (a : Action)
    (r : ValidateAttestation.Dir × ValidateAttestation.Call × List Verification) : Prop where
  args : r.2.1.args = call.args
  verified : Verified (vs ++ r.2.2) call.args r.2.1.phase
  new : ∀ v ∈ r.2.2, v.args = call.args ∧ a = .verify (.ok v.claims)
  running : ∀ hit, call.phase ≠ .accepted hit

theorem checked_nil {vs : List Verification} {dir : ValidateAttestation.Dir} {args : Args}
    {cache cache' : AttestationCache} {phase phase' : Phase} {a : Action}
    (hrunning : ∀ hit, phase ≠ .accepted hit) (h : Verified vs args phase') :
    Checked vs ⟨args, cache, phase⟩ a (dir, ⟨args, cache', phase'⟩, []) := by
  refine ⟨rfl, ?_, ?_, hrunning⟩
  · rw [List.append_nil]
    exact h
  · intro v hv
    cases hv

theorem act_checked {vs : List Verification} {dir : ValidateAttestation.Dir}
    {call : ValidateAttestation.Call} {a : Action}
    {r : ValidateAttestation.Dir × ValidateAttestation.Call × List Verification}
    (h : ValidateAttestation.act p dir call a = some r)
    (hcall : ValidateAttestation.CallSound vs p call) (hv : Verified vs call.args call.phase) :
    Checked vs call a r := by
  obtain ⟨args, cache, phase⟩ := call
  cases a with
  | load readError =>
      simp only [ValidateAttestation.act, Option.ite_none_right_eq_some, Option.some.injEq] at h
      obtain ⟨rfl, rfl⟩ := h
      exact checked_nil (fun hit h => by cases h) (verified_of_not_passed rfl)
  | check =>
      simp only [ValidateAttestation.act, Option.ite_none_right_eq_some] at h
      obtain ⟨rfl, h⟩ := h
      split at h
      · cases h
        exact checked_nil (fun hit h => by cases h) (verified_of_not_passed rfl)
      · split at h
        · cases h
          exact checked_nil (fun hit h => by cases h) (verified_of_not_passed rfl)
        · cases h
          exact checked_nil (fun hit h => by cases h) (verified_of_not_passed rfl)
  | touch now =>
      simp only [ValidateAttestation.act] at h
      split at h
      · cases h
        exact checked_nil (fun hit h => by cases h)
          (verified_of_not_passed (passed_beginPersist _ (some _)))
      · cases h
        exact checked_nil (fun hit h => by cases h) (verified_of_not_passed rfl)
      · cases h
  | verify result =>
      simp only [ValidateAttestation.act, Option.ite_none_right_eq_some] at h
      obtain ⟨rfl, h⟩ := h
      split at h
      · cases h
        exact checked_nil (fun hit h => by cases h) (verified_of_not_passed rfl)
      · cases h
        refine ⟨rfl, verified_of_not_passed rfl, ?_, fun hit h => by cases h⟩
        intro v hv
        rw [List.mem_singleton.mp hv]
        exact ⟨rfl, rfl⟩
  | record now =>
      simp only [ValidateAttestation.act] at h
      split at h
      · next claims =>
          obtain ⟨v, hmem, rfl, rfl⟩ : ∃ v ∈ vs, v.args = args ∧ v.claims = claims := hcall.phase
          split at h
          · cases h
            exact checked_nil (fun hit h => by cases h) (verified_of_not_passed rfl)
          · next hok =>
              cases h
              exact checked_nil (fun hit h => by cases h) fun _ => ⟨v, hmem, rfl, hok⟩
          · next hok =>
              cases h
              exact checked_nil (fun hit h => by cases h) fun _ => ⟨v, hmem, rfl, hok⟩
      · cases h
  | persist success =>
      simp only [ValidateAttestation.act] at h
      split at h
      · next hit stage =>
          cases h
          refine checked_nil (fun hit h => by cases h) fun hpassed => hv ?_
          rw [passed_persisting, ← passed_persistStep dir cache hit stage success]
          exact hpassed
      · cases h

theorem sound_check (hs : Sound digest vaults w) {a : Action} {checks : ValidateAttestation.Sys}
    (hstep : ValidateAttestation.step w.checks (.act p a) = some checks)
    (hok : Allowed vaults w (.check p a)) : Sound digest vaults { w with checks := checks } := by
  have hsound := ValidateAttestation.sound_step hs.checks hstep
  obtain ⟨call, hcall, hstep⟩ := Option.bind_eq_some_iff.mp hstep
  obtain ⟨⟨dir, call', new⟩, hact, hstep⟩ := Option.bind_eq_some_iff.mp hstep
  cases hstep
  have hchecked := act_checked hact (hs.checks.calls p call hcall) (hs.verified p call hcall)
  have hargs : call'.args = call.args := hchecked.args
  have hw : Grows w { w with checks := ⟨dir, Function.update w.checks.calls p (some call'),
      w.checks.verifications ++ new⟩ } := by
    refine ⟨fun _ _ h => h, fun _ => List.mem_append_left new, ?_, fun _ _ h => ⟨_, h⟩⟩
    intro q other hit hq hphase
    have hne : q ≠ p := by
      intro heq
      subst heq
      rw [hcall] at hq
      cases hq
      exact hchecked.running hit hphase
    exact update_some_iff.mpr (.inr ⟨hne, hq⟩)
  refine ⟨hsound, forall_update ?_ ?_, forall_update hs.calls ?_, ?_, ?_, hs.tokens, hs.exporters,
    fun q proc hq => hs.procs_grows hw hq, hs.sent_grows hw⟩
  · intro q other hq
    exact (hs.verified q other hq).append new
  · rw [hargs]
    exact hchecked.verified
  · rw [hargs]
    exact hs.calls p call hcall
  · intro v hv
    obtain hv | hv := List.mem_append.mp hv
    · exact hs.shown v hv
    · rw [(hchecked.new v hv).1]
      exact hs.calls p call hcall
  · intro v hv
    obtain hv | hv := List.mem_append.mp hv
    · exact hs.issued v hv
    · obtain ⟨hvargs, rfl⟩ := hchecked.new v hv
      obtain ⟨other, t, hother, hexec, hdecodes⟩ := hok
      obtain rfl := Option.some.inj (hcall.symm.trans hother)
      obtain ⟨key, hdecoded⟩ := verifyAttestationJwt_decoded hexec
      obtain ⟨token, htoken, -, hclaims, -, haud⟩ := hdecodes _ hdecoded
      refine ⟨token, htoken, hclaims, ?_⟩
      rw [hvargs]
      exact List.mem_singleton.mp haud

/-! ## The processes -/

/-- The arguments of a check are those of the connection. -/
theorem Knows.shows {cfg : Settings} {k : Known} {args : Args} (h : Knows digest w p cfg k)
    (hargs : k.args digest cfg = some args) : ∃ (n : Nat) (conn : Conn), k.conn = some n ∧
      w.conns[n]? = some conn ∧ conn.client = p ∧ Shows digest conn args ∧
      args.cfg = cfg.vault ∧ args.transport = cfg.vault.transport := by
  obtain ⟨ekm, attestation, identity, tlsFingerprint, hekm, -, hidentity, hfingerprint, rfl⟩ :=
    Known.args_eq_some hargs
  obtain ⟨n, conn, hn, hconn, hexporter⟩ := h.ekm ekm hekm
  obtain ⟨n', conn', hn', hconn', hshown⟩ := h.identity identity hidentity
  obtain rfl := Option.some.inj (hn.symm.trans hn')
  obtain rfl := Option.some.inj (hconn.symm.trans hconn')
  obtain ⟨conn', hconn', hclient⟩ := h.conn n hn
  obtain rfl := Option.some.inj (hconn.symm.trans hconn')
  refine ⟨n, conn, hn, hconn, hclient, ⟨?_, ?_⟩, rfl, rfl⟩
  · rw [hexporter]
  · simp [Conn.fingerprint, hshown, hfingerprint, Except.toOption]

theorem sound_validate (hs : Sound digest vaults w) {proc : Proc}
    {call : ValidateAttestation.Call} (hproc : w.procs p = some proc)
    (hcall : checkOf proc.rest = some call) (hnone : w.checks.calls p = none) :
    Sound digest vaults { w with
      checks := { w.checks with calls := Function.update w.checks.calls p (some call) } } := by
  obtain ⟨k, hobeys, hknows⟩ := hs.procs p proc hproc
  unfold checkOf at hcall
  split at hcall
  · next args cache _ hrest =>
      cases hcall
      rw [hrest] at hobeys
      obtain ⟨hargs, hcache, -⟩ := hobeys.1
      obtain ⟨n, conn, -, hconn, -, hshows, -⟩ := hknows.shows hargs
      have hnot : ValidateAttestation.NotBy w.checks.verifications p :=
        fun v hv he => hs.checks.known v hv (he ▸ hnone)
      have hw : Grows w { w with checks := { w.checks with
          calls := Function.update w.checks.calls p (some ⟨args, cache, .checking⟩) } } := by
        refine ⟨fun _ _ h => h, fun _ h => h, ?_, fun _ _ h => ⟨_, h⟩⟩
        intro q other hit hq _
        have hne : q ≠ p := by
          intro heq
          rw [heq, hnone] at hq
          cases hq
        exact update_some_iff.mpr (.inr ⟨hne, hq⟩)
      refine ⟨⟨hs.checks.file, forall_update hs.checks.calls ?_, fun v hv => ?_⟩,
        forall_update hs.verified (verified_of_not_passed rfl), forall_update hs.calls ?_,
        hs.shown, hs.issued, hs.tokens, hs.exporters, fun q proc hq => hs.procs_grows hw hq,
        hs.sent_grows hw⟩
      · exact ⟨hknows.cache cache hcache, hnot⟩
      · exact update_ne_none (.inr (hs.checks.known v hv))
      · exact ⟨conn, List.mem_of_getElem? hconn, hshows⟩
  · cases hcall

theorem Knows.learn {here : Local} {cfg : Settings} {reprovision : Bool} {k : Known}
    {e : ReadyEvent} (h : Knows digest w p cfg k)
    (hfile : ∀ entry ∈ w.checks.dir.file.entries,
      ValidateAttestation.Attested w.checks.verifications entry)
    (hmay : k.May digest here cfg reprovision e.1) (hanswers : Answers w p e) :
    Knows digest w p cfg (k.learn e) := by
  obtain ⟨c, r⟩ := e
  cases c with
  | buildClientEndpoint transport | insecureClientConfig | toSocketAddrs addr | connect remote
  | openBi conn | writeTag conn => exact h
  | awaitConnect =>
      cases r with
      | error e => exact h
      | ok n =>
          have hnone : k.conn = none := hmay
          refine ⟨?_, ?_, ?_, h.cache, h.validated⟩
          · intro n' hn
            cases hn
            exact hanswers
          · intro identity hidentity
            obtain ⟨n', -, hn, -⟩ := h.identity identity hidentity
            rw [hnone] at hn
            cases hn
          · intro ekm hekm
            obtain ⟨n', -, hn, -⟩ := h.ekm ekm hekm
            rw [hnone] at hn
            cases hn
  | peerIdentity n =>
      obtain ⟨hconn, hvalidated⟩ := hmay
      obtain ⟨conn, hn, rfl⟩ := hanswers
      refine ⟨h.conn, ?_, h.ekm, h.cache, ?_⟩
      · intro identity hidentity
        exact ⟨n, conn, hconn, hn, hidentity⟩
      · intro h'
        exact absurd h' (ne_true_of_eq_false hvalidated)
  | loadAttestationCache =>
      obtain ⟨readError, rfl⟩ := hanswers
      refine ⟨h.conn, h.identity, h.ekm, ?_, h.validated⟩
      intro cache hcache entry hentry
      cases hcache
      exact hfile entry (mem_load hentry)
  | exportKeyingMaterial n =>
      obtain ⟨hconn, hvalidated⟩ := hmay
      cases r with
      | error e => exact h
      | ok ekm =>
          obtain ⟨conn, hn, hexporter⟩ := hanswers
          refine ⟨h.conn, h.identity, ?_, h.cache, ?_⟩
          · intro ekm' hekm
            cases hekm
            exact ⟨n, conn, hconn, hn, hexporter⟩
          · intro h'
            exact absurd h' (ne_true_of_eq_false hvalidated)
  | read n =>
      cases r with
      | error e => exact h
      | ok message =>
      cases message with
      | requestAttestation | setupRequest request | error message => exact h
      | setupComplete => exact ⟨h.conn, h.identity, h.ekm, h.cache, h.validated⟩
      | attestation payload =>
          by_cases hvalidated : k.validated = true
          · have hsame : k.learn ⟨.read n, Except.ok (.attestation payload)⟩ = k :=
              if_pos hvalidated
            rw [hsame]
            exact h
          · have hlearnt : k.learn ⟨.read n, Except.ok (.attestation payload)⟩ =
                { k with attestation := some payload } := if_neg hvalidated
            rw [hlearnt]
            exact ⟨h.conn, h.identity, h.ekm, h.cache, fun h' => absurd h' hvalidated⟩
  | validateAttestation args cache =>
      cases r with
      | error e => exact h
      | ok =>
          obtain ⟨call, hit, hcall, rfl, hphase⟩ := hanswers
          exact ⟨h.conn, h.identity, h.ekm, h.cache, fun _ => ⟨call, hit, hcall, hmay.1, hphase⟩⟩
  | write n message =>
      cases message with
      | requestAttestation | attestation payload | setupComplete | error message => exact h
      | setupRequest request => exact ⟨h.conn, h.identity, h.ekm, h.cache, h.validated⟩

theorem setupRequest_token {here : Local} {cfg : Init.ColdBoots.ClientConfig} {state : VmState}
    {reprovision : Bool} {request : SetupRequest}
    (h : Init.ColdBoots.setupRequest here cfg state reprovision = .ok request) :
    cfg.accessToken = some request.accessToken := by
  unfold Init.ColdBoots.setupRequest at h
  split at h
  · cases h
  · next token htoken =>
      cases hsource : Init.ColdBoots.provisioningSource here cfg state reprovision with
      | error e =>
          rw [hsource] at h
          cases h
      | ok rootfs =>
          rw [hsource] at h
          cases h
          exact htoken

/-- A setup request goes out after the check of the connection it goes to. -/
theorem released_sound {proc : Proc} {k : Known} {e : ReadyEvent} {s : Sent}
    (hproc : w.procs p = some proc) (hknows : Knows digest w p proc.cfg k)
    (hmay : k.May digest proc.here proc.cfg proc.reprovision e.1) (hmem : s ∈ released p e) :
    ∃ conn call hit, Released digest w s proc conn call hit := by
  unfold released at hmem
  split at hmem
  · next n request _ =>
      obtain rfl := List.mem_singleton.mp hmem
      obtain ⟨hn, hsetup⟩ := hmay
      obtain ⟨hvalidated, -, attestation, -, hrequest⟩ := hsetup request rfl
      obtain ⟨call, hit, hcall, hargs, hphase⟩ := hknows.validated hvalidated
      obtain ⟨n', conn, hn', hconn, hclient, hshows, hcfg, htransport⟩ := hknows.shows hargs
      obtain rfl := Option.some.inj (hn.symm.trans hn')
      exact ⟨conn, call, hit, hproc, hconn, hclient, hcall, hphase, hshows, hcfg, htransport,
        setupRequest_token hrequest⟩
  · cases hmem

theorem sound_answer (hs : Sound digest vaults w) {proc : Proc} {e : ReadyEvent}
    {rest : Ready (Except String Nat)} (hproc : w.procs p = some proc)
    (hrest : proc.rest.resume e = some rest) (hanswers : Answers w p e) :
    Sound digest vaults { w with
      procs := Function.update w.procs p (some { proc with rest := rest })
      sent := w.sent ++ released p e } := by
  have hw : Grows w { w with
      procs := Function.update w.procs p (some { proc with rest := rest })
      sent := w.sent ++ released p e } := by
    refine ⟨fun _ _ h => h, fun _ h => h, fun _ _ _ h _ => h, fun q other hq => ?_⟩
    by_cases hqp : q = p
    · subst hqp
      obtain rfl := Option.some.inj (hproc.symm.trans hq)
      exact ⟨rest, update_some_iff.mpr (.inl ⟨rfl, rfl⟩)⟩
    · exact ⟨other.rest, update_some_iff.mpr (.inr ⟨hqp, hq⟩)⟩
  obtain ⟨k, hobeys, hknows⟩ := hs.procs p proc hproc
  obtain ⟨hmay, hobeys⟩ := hobeys.resume hrest
  refine ⟨hs.checks, hs.verified, hs.calls, hs.shown, hs.issued, hs.tokens, hs.exporters,
    forall_update (fun q other hq => hs.procs_grows hw hq) ?_, ?_⟩
  · exact ⟨k.learn e, hobeys, (hknows.learn hs.checks.file hmay hanswers).grows hw⟩
  · intro s hmem
    obtain hmem | hmem := List.mem_append.mp hmem
    · exact hs.sent_grows hw s hmem
    · obtain ⟨conn, call, hit, hreleased⟩ := released_sound hproc hknows hmay hmem
      exact hreleased.grows hw

theorem sound_step {a : Label} (hs : Sound digest vaults w) (hok : Allowed vaults w a)
    (hstep : step digest debug w a = some w') : Sound digest vaults w' := by
  cases a with
  | launch q here cfg reprovision =>
      simp only [step, Option.ite_none_right_eq_some, Option.some.injEq] at hstep
      obtain ⟨hnone, rfl⟩ := hstep
      exact sound_launch hs (Option.isNone_iff_eq_none.mp hnone) here cfg reprovision
  | connect conn =>
      cases hstep
      exact sound_connect hs hok
  | serve n host cfg recv =>
      cases hstep
      obtain ⟨conn, claims, hconn, hserver, hserves⟩ := hok
      obtain ⟨hold, hnew⟩ := serve_tokens hserves cfg recv w.tokens
      refine sound_tokens hs hold fun token htoken => ?_
      obtain hmem | ⟨hclaims, haud⟩ := hnew token htoken
      · exact .inl hmem
      · refine .inr fun _ => ⟨conn, List.mem_of_getElem? hconn, ?_, haud⟩
        rw [hserver, hclaims]
  | issue token =>
      cases hstep
      refine sound_tokens hs (fun _ => List.mem_append_left _) fun other hother => ?_
      obtain hmem | hmem := List.mem_append.mp hother
      · exact .inl hmem
      · rw [List.mem_singleton.mp hmem]
        exact .inr fun hvault => absurd hvault hok
  | answer q e =>
      obtain ⟨proc, hproc, hstep⟩ := Option.bind_eq_some_iff.mp hstep
      obtain ⟨rest, hrest, hstep⟩ := Option.bind_eq_some_iff.mp hstep
      cases hstep
      exact sound_answer hs hproc hrest hok
  | validate q =>
      obtain ⟨proc, hproc, hstep⟩ := Option.bind_eq_some_iff.mp hstep
      obtain ⟨call, hcall, hstep⟩ := Option.bind_eq_some_iff.mp hstep
      simp only [Option.ite_none_right_eq_some, Option.some.injEq] at hstep
      obtain ⟨hnone, rfl⟩ := hstep
      exact sound_validate hs hproc hcall (Option.isNone_iff_eq_none.mp hnone)
  | check q a =>
      obtain ⟨checks, hchecks, hstep⟩ := Option.bind_eq_some_iff.mp hstep
      cases hstep
      exact sound_check hs hchecks hok

theorem sound_start {dir : ValidateAttestation.Dir} (hempty : dir.file.entries = []) :
    Sound digest vaults (start dir) := by
  refine ⟨⟨?_, ?_, ?_⟩, ?_, ?_, ?_, ?_, ?_, List.nodup_nil, ?_, ?_⟩
  · intro entry hentry
    rw [show (start dir).checks.dir.file.entries = [] from hempty] at hentry
    cases hentry
  · intro q call h
    cases h
  · intro v hv
    cases hv
  · intro q call h
    cases h
  · intro q call h
    cases h
  · intro v hv
    cases hv
  · intro v hv
    cases hv
  · intro token htoken
    cases htoken
  · intro q proc h
    cases h
  · intro s hmem
    cases hmem

end

end FlyVault.Client.TokenRelease
