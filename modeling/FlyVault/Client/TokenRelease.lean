/-
  Who gets the access token, in every run of `TokenSystem`.

  * `token_reaches_vault`: a client that has verified a token itself sends the access token to a
    vault of the configured organisation and app, and to the configured machine behind a proxy.
    After a cache hit it is only known that some connection to such a vault had a certificate with
    the same fingerprint.
  * `token_kept_by_certificates`: that is enough where a certificate tells who shows it.
  * `certificate_replayed`: without that an outsider that shows the certificate gets the token.
-/
import FlyVault.Client.TokenInvariant
import FlyVault.Lib.Except

namespace FlyVault.Client.TokenRelease

open FlyVault.Lib FlyVault.Lib.Script FlyVault.Protocol
open FlyVault.Client.Attest FlyVault.Client.ConnectReady
open FlyVault.Client.ValidateAttestation (AttestationClaims Args Phase Action Verification
  assertClaims assertClaims_ok issuer)
open FlyVault.Init.ColdBoots (Local)
open FlyVault.Init.Control (hexEncode Host handleControlStream)

section

variable {digest : Bytes → Bytes} {debug : ControlMessage → String}
  {vaults : AttestationClaims → Prop} {w w' : World} {p : Nat}

/-! ## Who gets the token -/

/-- The claims of a machine of the configured vault. -/
def Meets (cfg : VaultConfig) (claims : AttestationClaims) : Prop :=
  claims.iss = issuer cfg.org ∧ claims.appName = cfg.app ∧
    ∀ machineId, cfg.transport = .proxy machineId → claims.machineId = machineId

/-- All machines of the configured app are vaults. -/
def VaultApp (vaults : AttestationClaims → Prop) (cfg : VaultConfig) : Prop :=
  ∀ claims : AttestationClaims, claims.iss = issuer cfg.org → claims.appName = cfg.app →
    vaults claims

/-- A verified token was issued to the server end of the connection it was verified for. -/
theorem Sound.server_of_verification (hs : Sound digest vaults w) {v : Verification}
    (hv : v ∈ w.checks.verifications) (hvault : vaults v.claims) {conn : Conn}
    (hconn : conn ∈ w.conns) (hshows : Shows digest conn v.args) :
    conn.server = .vault v.claims := by
  obtain ⟨token, htoken, hclaims, haud⟩ := hs.issued v hv
  rw [← hclaims] at hvault ⊢
  obtain ⟨other, hother, hserver, hexporter⟩ := hs.tokens token htoken hvault
  have hhex : hexEncode other.exporter = hexEncode conn.exporter := by
    rw [← hexporter, haud, hshows.1]
  have hsame : other = conn := List.inj_on_of_nodup_map hs.exporters hother hconn
    (Init.Control.hexEncode_inj hhex)
  rw [← hsame]
  exact hserver

theorem assertClaims_machine {claims : AttestationClaims} {args : Args}
    (h : assertClaims claims args = .ok ()) :
    ∀ machineId, args.transport = .proxy machineId → claims.machineId = machineId := by
  intro machineId htransport
  unfold assertClaims at h
  rw [htransport] at h
  obtain ⟨-, -, hmachine⟩ := except_bind_eq_ok.mp h
  by_contra hother
  have herror : ValidateAttestation.assertMachineId claims.machineId (.proxy machineId) =
      .error _ := if_pos hother
  rw [herror] at hmachine
  cases hmachine

/-- The connection that a setup request goes to, or one that a cached entry was verified on, has a
    vault at its end. -/
theorem Sound.vault_of_released (hs : Sound digest vaults w) {s : Sent} {proc : Proc} {conn : Conn}
    {call : ValidateAttestation.Call} {hit : Option CacheEntry}
    (h : Released digest w s proc conn call hit) (happ : VaultApp vaults proc.cfg.vault) :
    (∃ claims, conn.server = .vault claims ∧ Meets proc.cfg.vault claims) ∨
      ∃ entry other claims, hit = some entry ∧ other ∈ w.conns ∧ other.server = .vault claims ∧
        Meets proc.cfg.vault claims ∧ other.fingerprint digest = conn.fingerprint digest := by
  have hverified := hs.verified s.process call h.checked
  have hsound := (hs.checks.calls s.process call h.checked).phase
  rw [h.accepted] at hverified hsound
  cases hit with
  | none =>
      obtain ⟨v, hv, hargs, hclaims⟩ := hverified rfl
      obtain ⟨hiss, hname⟩ := assertClaims_ok hclaims
      have hmachine := assertClaims_machine hclaims
      rw [h.cfg] at hiss hname
      rw [h.transport] at hmachine
      refine .inl ⟨v.claims, ?_, hiss, hname, hmachine⟩
      exact hs.server_of_verification hv (happ _ hiss hname) (List.mem_of_getElem? h.connected)
        (hargs ▸ h.shows)
  | some entry =>
      obtain ⟨-, ⟨v, hv, horg, hiss, hname, hmachine, hfp⟩, hmatch⟩ := hsound entry rfl
      obtain ⟨h₁, h₂, h₃, h₄⟩ := cacheEntryMatches_iff.mp hmatch
      rw [h.cfg] at h₁ h₂
      rw [h.transport] at h₄
      rw [h₁] at hiss
      rw [h₂] at hname
      obtain ⟨other, hother, hshows⟩ := hs.shown v hv
      refine .inr ⟨entry, other, v.claims, rfl, hother, ?_, ⟨hiss, hname, ?_⟩, ?_⟩
      · exact hs.server_of_verification hv (happ _ hiss hname) hother hshows
      · intro machineId htransport
        rw [hmachine, h₄ machineId htransport]
      · rw [hshows.2, h.shows.2, hfp, h₃]

theorem sound_of_run {dir : ValidateAttestation.Dir} (hempty : dir.file.entries = [])
    {as : List Label} (hrun : Run (step digest debug) (Allowed vaults) (start dir) as w) :
    Sound digest vaults w :=
  hrun.inv (Sound digest vaults) (fun _ _ _ hs hok hstep => sound_step hs hok hstep)
    (sound_start hempty)

/-- In every run: a client sends its access token on a connection of its own that its check has
    accepted, for the keying material and the certificate of this connection. It goes to a vault of
    the configured organisation and app, and to the configured machine behind a proxy, unless the
    client has relied on a cache entry; then such a vault has, on some connection, shown a
    certificate with the same fingerprint. -/
theorem token_reaches_vault {dir : ValidateAttestation.Dir} (hempty : dir.file.entries = [])
    {as : List Label} (hrun : Run (step digest debug) (Allowed vaults) (start dir) as w)
    {s : Sent} (hsent : s ∈ w.sent) :
    ∃ proc conn call hit, w.procs s.process = some proc ∧ w.conns[s.conn]? = some conn ∧
      conn.client = s.process ∧ w.checks.calls s.process = some call ∧
      call.phase = .accepted hit ∧ Shows digest conn call.args ∧
      proc.cfg.client.accessToken = some s.request.accessToken ∧
      (VaultApp vaults proc.cfg.vault →
        (∃ claims, conn.server = .vault claims ∧ Meets proc.cfg.vault claims) ∨
        ∃ entry other claims, hit = some entry ∧ other ∈ w.conns ∧
          other.server = .vault claims ∧ Meets proc.cfg.vault claims ∧
          other.fingerprint digest = conn.fingerprint digest) := by
  have hs := sound_of_run hempty hrun
  obtain ⟨proc, conn, call, hit, h⟩ := hs.sent s hsent
  exact ⟨proc, conn, call, hit, h.running, h.connected, h.client, h.checked, h.accepted, h.shows,
    h.token, fun happ => hs.vault_of_released h happ⟩

theorem token_reaches_vault_verified : ∃ as w s,
    Run (step id fun _ => "") (Allowed fun _ => True) (start ⟨.absent, false⟩) as w ∧
      s ∈ w.sent ∧ ∃ conn claims, w.conns[s.conn]? = some conn ∧
        (conn.server = .vault claims ∨
          ∃ other ∈ w.conns, other.server = .vault claims ∧
            other.fingerprint id = conn.fingerprint id) := by
  obtain ⟨as, w, hrun, hsent⟩ := verified_run
  have hrun' := hrun.mono fun _ _ h => h.1
  obtain ⟨proc, conn, call, hit, -, hconn, -, -, -, -, -, happ⟩ :=
    token_reaches_vault rfl hrun' hsent
  obtain ⟨claims, hserver, -⟩ | ⟨-, other, claims, -, hother, hserver, -, hsame⟩ :=
    happ fun _ _ _ => trivial
  · exact ⟨as, w, _, hrun', hsent, conn, claims, hconn, .inl hserver⟩
  · exact ⟨as, w, _, hrun', hsent, conn, claims, hconn, .inr ⟨other, hother, hserver, hsame⟩⟩

/-! ## Certificates that tell who shows them -/

/-- One certificate, one party. -/
def Distinct (digest : Bytes → Bytes) (w : World) : Prop :=
  ∀ conn ∈ w.conns, ∀ other ∈ w.conns, other.fingerprint digest = conn.fingerprint digest →
    (conn.fingerprint digest).isSome → other.server = conn.server

theorem distinct_step {a : Label} (hw : Distinct digest w) (hok : Certified digest w a)
    (hstep : step digest debug w a = some w') : Distinct digest w' := by
  cases a with
  | launch q here cfg reprovision =>
      simp only [step, Option.ite_none_right_eq_some, Option.some.injEq] at hstep
      obtain ⟨-, rfl⟩ := hstep
      exact hw
  | connect conn =>
      cases hstep
      intro c hc d hd hsame hsome
      obtain hold | hnew := List.mem_append.mp hc
      · obtain hold' | hnew' := List.mem_append.mp hd
        · exact hw c hold d hold' hsame hsome
        · obtain rfl := List.mem_singleton.mp hnew'
          exact (hok c hold hsame.symm (hsame ▸ hsome)).symm
      · obtain rfl := List.mem_singleton.mp hnew
        obtain hold' | hnew' := List.mem_append.mp hd
        · exact hok d hold' hsame hsome
        · rw [List.mem_singleton.mp hnew']
  | serve n host cfg recv | issue token =>
      cases hstep
      exact hw
  | answer q e =>
      obtain ⟨proc, -, hstep⟩ := Option.bind_eq_some_iff.mp hstep
      obtain ⟨rest, -, hstep⟩ := Option.bind_eq_some_iff.mp hstep
      cases hstep
      exact hw
  | validate q =>
      obtain ⟨proc, -, hstep⟩ := Option.bind_eq_some_iff.mp hstep
      obtain ⟨call, -, hstep⟩ := Option.bind_eq_some_iff.mp hstep
      simp only [Option.ite_none_right_eq_some, Option.some.injEq] at hstep
      obtain ⟨-, rfl⟩ := hstep
      exact hw
  | check q a =>
      obtain ⟨checks, -, hstep⟩ := Option.bind_eq_some_iff.mp hstep
      cases hstep
      exact hw

/-- Where a certificate tells who shows it, every access token goes to a vault of the configured
    organisation and app, cache or no cache. -/
theorem token_kept_by_certificates {dir : ValidateAttestation.Dir}
    (hempty : dir.file.entries = []) {as : List Label}
    (hrun : Run (step digest debug) (fun w a => Allowed vaults w a ∧ Certified digest w a)
      (start dir) as w) {s : Sent} (hsent : s ∈ w.sent) :
    ∃ proc conn, w.procs s.process = some proc ∧ w.conns[s.conn]? = some conn ∧
      (VaultApp vaults proc.cfg.vault →
        ∃ claims, conn.server = .vault claims ∧ Meets proc.cfg.vault claims) := by
  have hs : Sound digest vaults w := sound_of_run hempty (hrun.mono fun _ _ h => h.1)
  have hdistinct : Distinct digest w := by
    refine hrun.inv (Distinct digest) (fun _ _ _ hw hok hstep => distinct_step hw hok.2 hstep) ?_
    intro conn hconn
    cases hconn
  obtain ⟨proc, conn, call, hit, h⟩ := hs.sent s hsent
  refine ⟨proc, conn, h.running, h.connected, fun happ => ?_⟩
  obtain hvault | ⟨-, other, claims, -, hother, hserver, hmeets, hsame⟩ :=
    hs.vault_of_released h happ
  · exact hvault
  · have hsome : (conn.fingerprint digest).isSome := by rw [h.shows.2]; rfl
    have hparty := hdistinct conn (List.mem_of_getElem? h.connected) other hother hsame hsome
    exact ⟨claims, hparty ▸ hserver, hmeets⟩

theorem token_kept_by_certificates_verified : ∃ as w s,
    Run (step id fun _ => "") (fun w a => Allowed (fun _ => True) w a ∧ Certified id w a)
      (start ⟨.absent, false⟩) as w ∧ s ∈ w.sent ∧
      ∃ conn claims, w.conns[s.conn]? = some conn ∧ conn.server = .vault claims := by
  obtain ⟨as, w, hrun, hsent⟩ := verified_run
  obtain ⟨proc, conn, -, hconn, happ⟩ := token_kept_by_certificates rfl hrun hsent
  obtain ⟨claims, hserver, -⟩ := happ fun _ _ _ => trivial
  exact ⟨as, w, _, hrun, hsent, conn, claims, hconn, hserver⟩

/-! ## Certificates that anybody can show -/

/-- From every state: once a matching entry is in the cache file, an outsider that shows the
    certificate of that entry to a new client process gets its access token. -/
theorem certificate_replayed (here : Local) (cfg : Settings) {token : String}
    (htoken : cfg.client.accessToken = some token) (hproc : w.procs p = none)
    (hcall : w.checks.calls p = none) {cert : Bytes} (chain : List Bytes) {entry : CacheEntry}
    (hentry : (loadAttestationCache w.checks.dir.file false).lookup cfg.vault cfg.vault.transport
      (hexEncode (digest cert)) = some entry)
    {ekm : Bytes} (hfresh : ∀ conn ∈ w.conns, conn.exporter ≠ ekm) :
    ∃ as w', Run (step digest debug) (Allowed vaults) w as w' ∧
      w'.conns = w.conns ++ [⟨p, .outsider, ekm, some (.certificates (cert :: chain))⟩] ∧
      ⟨p, w.conns.length, ⟨token, .none⟩⟩ ∈ w'.sent := by
  have hanswer : ∀ w e, Answers w p e → Allowed vaults w (.answer p e) := fun _ _ h => h
  obtain ⟨as₁, w₁, hrun₁, hproc₁, hconns₁, -, hchecks₁⟩ := run_dialled digest debug here
    cfg .outsider cert chain ekm hanswer trivial hproc
    fun w' hconns other hother => hfresh other (hconns ▸ hother)
  obtain ⟨w₂, hrun₂, hprocs₂, hconns₂, -, hcall₂⟩ := run_hit digest debug vaults hproc₁ rfl
    (hchecks₁ ▸ hcall) rfl hentry
  obtain ⟨as₃, w₃, hrun₃, hconns₃, hsent₃⟩ := run_released digest debug hanswer htoken
    (hprocs₂ ▸ hproc₁) hcall₂
  refine ⟨_, w₃, hrun₁.append (hrun₂.append hrun₃), ?_, hsent₃⟩
  rw [hconns₃, hconns₂, hconns₁]

theorem certificate_replayed_stored : ∃ as w',
    Run (step id fun _ => "") (Allowed fun _ => True)
        (start ⟨.stored [⟨"org", "app", "m1", hexEncode [7], 1, 1⟩], false⟩) as w' ∧
      w'.conns = [⟨0, .outsider, [9], some (.certificates [[7]])⟩] ∧
      ⟨0, 0, ⟨"token", .none⟩⟩ ∈ w'.sent :=
  certificate_replayed plainLocal plainSettings rfl rfl rfl [] rfl fun _ hconn => by cases hconn

end

end FlyVault.Client.TokenRelease
