/-
  `validate_attestation` (`crates/client/src/quic.rs`) in any number of client processes that
  share one cache file.

  A call loads the cache, checks the protocol version and looks its fingerprint up. On a hit
  it renews the timestamp and accepts; on a miss it verifies the token, compares the claims
  with the configuration, records the entry and accepts. Both write the cache back through
  `persist`: directory, lock file with at most 100 attempts, temporary file, rename, unlock.
  Every one of these steps may fail and the steps of different calls interleave freely; a
  process that dies is one that takes no further step. What `verify_attestation_jwt` returns
  is part of the label, and every success is written down in `verifications`.

  * `hit_was_verified`: a call that accepts through a hit was preceded by a verification, in
    another call, of the same issuer, app and fingerprint, and of the configured machine
    when the transport is a proxy.
-/
import FlyVault.Lib.Run
import FlyVault.Lib.Update
import FlyVault.Protocol.Control
import FlyVault.Client.AttestationCache

namespace FlyVault.Client.ValidateAttestation

open FlyVault.Lib FlyVault.Protocol

/-- `AttestationClaims`. -/
structure AttestationClaims where
  iss : String
  appName : String
  machineId : String
  deriving DecidableEq, Repr

/-- The arguments of a call. -/
structure Args where
  cfg : VaultConfig
  transport : TransportConfig
  attestation : AttestationPayload
  aud : String
  tlsFingerprint : String
  deriving DecidableEq, Repr

/-- `assert_protocol_version`. -/
def assertProtocolVersion (attestation : AttestationPayload) : Except String Unit :=
  if attestation.protocolVersion ≠ protocolVersion then
    .error ("protocol version mismatch: server=" ++ toString attestation.protocolVersion ++
      " client=" ++ toString protocolVersion)
  else .ok ()

/-- The issuer of an organisation's tokens. -/
def issuer (org : String) : String := "https://oidc.fly.io/" ++ org

/-- `assert_org_and_app`. -/
def assertOrgAndApp (iss appName : String) (cfg : VaultConfig) : Except String Unit :=
  if iss ≠ issuer cfg.org then
    .error ("attestation org mismatch: issuer=" ++ iss ++ " expected=" ++ issuer cfg.org)
  else if appName ≠ cfg.app then
    .error ("attestation app mismatch: app_name=" ++ appName ++ " expected=" ++ cfg.app)
  else .ok ()

/-- `assert_machine_id`. -/
def assertMachineId (attestedMachineId : String) : TransportConfig → Except String Unit
  | .direct => .ok ()
  | .proxy machineId =>
      if attestedMachineId ≠ machineId then
        .error ("attestation machine mismatch: machine_id=" ++ attestedMachineId ++
          " expected=" ++ machineId)
      else .ok ()

/-- The two checks on verified claims. -/
def assertClaims (claims : AttestationClaims) (args : Args) : Except String Unit := do
  assertOrgAndApp claims.iss claims.appName args.cfg
  assertMachineId claims.machineId args.transport

/-- `LOCK_RETRY_ATTEMPTS`. -/
def lockRetryAttempts : Nat := 100

/-- The operations of `persist`; `rename` carries the temporary file. -/
inductive Stage
  | createDir
  | lock (attempts : Nat)
  | write
  | rename (temp : List CacheEntry)
  | unlock
  deriving DecidableEq, Repr

/-- Where a call is. From the lookup on, `hit` is the entry it accepts through. -/
inductive Phase
  | loading
  | checking
  | touching (hit : CacheEntry)
  | verifying
  | verified (claims : AttestationClaims)
  | persisting (hit : Option CacheEntry) (stage : Stage)
  | accepted (hit : Option CacheEntry)
  | rejected (error : String)
  deriving DecidableEq, Repr

structure Call where
  args : Args
  cache : AttestationCache
  phase : Phase
  deriving DecidableEq, Repr

/-- A success of `verify_attestation_jwt`. -/
structure Verification where
  call : Nat
  args : Args
  claims : AttestationClaims
  deriving DecidableEq, Repr

/-- The cache directory: the cache file, and whether the lock file exists. -/
structure Dir where
  file : CacheFile
  locked : Bool
  deriving DecidableEq, Repr

structure Sys where
  dir : Dir
  calls : Nat → Option Call
  verifications : List Verification

/-- No call yet. -/
def init (dir : Dir) : Sys := ⟨dir, fun _ => none, []⟩

/-- A step of a call, with what its environment answers. -/
inductive Action
  /-- `load_attestation_cache`; `readError` is an error other than a missing file. -/
  | load (readError : Bool)
  /-- The protocol version and the lookup. -/
  | check
  /-- `record_cache_hit` up to `persist`; no time if the clock is before the epoch. -/
  | touch (now : Option Nat)
  /-- `verify_attestation_jwt` returns. -/
  | verify (result : Except String AttestationClaims)
  /-- The claims are checked, then `record_verified` up to `persist`. -/
  | record (now : Option Nat)
  /-- The next operation of `persist`. -/
  | persist (success : Bool)

inductive Label
  | start (p : Nat) (args : Args)
  | act (p : Nat) (a : Action)

/-- `persist` returns at once for a cache without a path. A failure of `persist` is only
    logged, so every way out of it is `accepted`. -/
def beginPersist (cache : AttestationCache) (hit : Option CacheEntry) : Phase :=
  if cache.hasPath then .persisting hit .createDir else .accepted hit

/-- One operation of `persist`. -/
def persistStep (dir : Dir) (cache : AttestationCache) (hit : Option CacheEntry) :
    Stage → Bool → Dir × Phase
  | .createDir, true => (dir, .persisting hit (.lock 0))
  | .createDir, false => (dir, .accepted hit)
  | .lock attempts, true =>
      if dir.locked then
        -- `AlreadyExists`
        if attempts + 1 < lockRetryAttempts then (dir, .persisting hit (.lock (attempts + 1)))
        else (dir, .accepted hit)
      else ({ dir with locked := true }, .persisting hit .write)
  | .lock _, false => (dir, .accepted hit)
  | .write, true => (dir, .persisting hit (.rename cache.entries))
  -- the guard is dropped on the way out of a failure
  | .write, false => (dir, .persisting hit .unlock)
  | .rename temp, true => ({ dir with file := .stored temp }, .persisting hit .unlock)
  | .rename _, false => (dir, .persisting hit .unlock)
  | .unlock, true => ({ dir with locked := false }, .accepted hit)
  | .unlock, false => (dir, .accepted hit)

/-- One step of call `p`: the directory, the call and the verifications it adds. -/
def act (p : Nat) (dir : Dir) (c : Call) : Action → Option (Dir × Call × List Verification)
  | .load readError =>
      if c.phase = .loading then
        some (dir, { c with cache := loadAttestationCache dir.file readError,
                            phase := .checking }, [])
      else none
  | .check =>
      if c.phase = .checking then
        match assertProtocolVersion c.args.attestation with
        | .error e => some (dir, { c with phase := .rejected e }, [])
        | .ok () =>
            match c.cache.lookup c.args.cfg c.args.transport c.args.tlsFingerprint with
            | some entry => some (dir, { c with phase := .touching entry }, [])
            | none => some (dir, { c with phase := .verifying }, [])
      else none
  | .touch now =>
      match c.phase, now with
      | .touching hit, some now =>
          let cache := c.cache.recordCacheHit c.args.cfg c.args.transport
            c.args.tlsFingerprint now
          some (dir, { c with cache := cache, phase := beginPersist cache (some hit) }, [])
      | .touching hit, none => some (dir, { c with phase := .accepted (some hit) }, [])
      | _, _ => none
  | .verify result =>
      if c.phase = .verifying then
        match result with
        | .error e => some (dir, { c with phase := .rejected e }, [])
        | .ok claims => some (dir, { c with phase := .verified claims }, [⟨p, c.args, claims⟩])
      else none
  | .record now =>
      match c.phase with
      | .verified claims =>
          match assertClaims claims c.args, now with
          | .error e, _ => some (dir, { c with phase := .rejected e }, [])
          | .ok (), none => some (dir, { c with phase := .accepted none }, [])
          | .ok (), some now =>
              let cache := c.cache.recordVerified c.args.cfg claims.machineId
                c.args.tlsFingerprint now
              some (dir, { c with cache := cache, phase := beginPersist cache none }, [])
      | _ => none
  | .persist success =>
      match c.phase with
      | .persisting hit stage =>
          let (dir', phase) := persistStep dir c.cache hit stage success
          some (dir', { c with phase := phase }, [])
      | _ => none

def step (s : Sys) : Label → Option Sys
  | .start p args =>
      if s.calls p = none then
        some { s with calls := Function.update s.calls p (some ⟨args, .default, .loading⟩) }
      else none
  | .act p a => do
      let c ← s.calls p
      let (dir, c', new) ← act p s.dir c a
      some ⟨dir, Function.update s.calls p (some c'), s.verifications ++ new⟩

/-! ## Every entry was verified -/

/-- The verification that stands behind an entry. -/
def Backs (v : Verification) (entry : CacheEntry) : Prop :=
  v.args.cfg.org = entry.org ∧ v.claims.iss = issuer entry.org ∧
    v.claims.appName = entry.app ∧ v.claims.machineId = entry.machineId ∧
    v.args.tlsFingerprint = entry.fingerprint

def Attested (vs : List Verification) (entry : CacheEntry) : Prop := ∃ v ∈ vs, Backs v entry

/-- Call `p` has not verified anything itself. -/
def NotBy (vs : List Verification) (p : Nat) : Prop := ∀ v ∈ vs, v.call ≠ p

/-- What is known once the lookup has returned `hit`. -/
def HitSound (vs : List Verification) (p : Nat) (args : Args) (hit : Option CacheEntry) : Prop :=
  ∀ entry, hit = some entry → NotBy vs p ∧ Attested vs entry ∧
    cacheEntryMatches entry args.cfg args.transport args.tlsFingerprint = true

def PhaseSound (vs : List Verification) (p : Nat) (args : Args) : Phase → Prop
  | .loading | .checking | .verifying => NotBy vs p
  | .touching hit => HitSound vs p args (some hit)
  | .verified claims => ∃ v ∈ vs, v.args = args ∧ v.claims = claims
  | .persisting hit (.rename temp) =>
      HitSound vs p args hit ∧ ∀ entry ∈ temp, Attested vs entry
  | .persisting hit _ => HitSound vs p args hit
  | .accepted hit => HitSound vs p args hit
  | .rejected _ => True

structure CallSound (vs : List Verification) (p : Nat) (c : Call) : Prop where
  cache : ∀ entry ∈ c.cache.entries, Attested vs entry
  phase : PhaseSound vs p c.args c.phase

/-- The invariant over the file, all caches in memory and the verifications. -/
structure Sound (s : Sys) : Prop where
  file : ∀ entry ∈ s.dir.file.entries, Attested s.verifications entry
  calls : ∀ p c, s.calls p = some c → CallSound s.verifications p c
  known : ∀ v ∈ s.verifications, s.calls v.call ≠ none

theorem Attested.sameSubject {vs : List Verification} {entry old : CacheEntry}
    (h : Attested vs old) (hsame : entry.sameSubject old) : Attested vs entry := by
  obtain ⟨v, hv, horg, hiss, happ, hmachine, hfp⟩ := h
  obtain ⟨h₁, h₂, h₃, h₄⟩ := hsame
  exact ⟨v, hv, by rw [h₁, horg], by rw [h₁, hiss], by rw [h₂, happ], by rw [h₃, hmachine],
    by rw [h₄, hfp]⟩

theorem hitSound_none (vs : List Verification) (p : Nat) (args : Args) :
    HitSound vs p args none := fun _ h => (by cases h)

/-! ### More verifications, of another call -/

theorem Attested.append {vs : List Verification} {entry : CacheEntry} (h : Attested vs entry)
    (new : List Verification) : Attested (vs ++ new) entry := by
  obtain ⟨v, hv, hb⟩ := h
  exact ⟨v, List.mem_append_left new hv, hb⟩

theorem NotBy.append {vs new : List Verification} {p : Nat} (h : NotBy vs p)
    (hnew : NotBy new p) : NotBy (vs ++ new) p := by
  intro v hv
  rcases List.mem_append.mp hv with hv | hv
  · exact h v hv
  · exact hnew v hv

theorem HitSound.append {vs new : List Verification} {p : Nat} {args : Args}
    {hit : Option CacheEntry} (h : HitSound vs p args hit) (hnew : NotBy new p) :
    HitSound (vs ++ new) p args hit := by
  intro entry he
  obtain ⟨hnot, hatt, hmatch⟩ := h entry he
  exact ⟨hnot.append hnew, hatt.append new, hmatch⟩

theorem PhaseSound.append {vs new : List Verification} {p : Nat} {args : Args} {phase : Phase}
    (h : PhaseSound vs p args phase) (hnew : NotBy new p) :
    PhaseSound (vs ++ new) p args phase := by
  cases phase with
  | loading => exact NotBy.append h hnew
  | checking => exact NotBy.append h hnew
  | verifying => exact NotBy.append h hnew
  | touching hit => exact HitSound.append h hnew
  | verified claims =>
      obtain ⟨v, hv, hargs⟩ := h
      exact ⟨v, List.mem_append_left new hv, hargs⟩
  | persisting hit stage =>
      cases stage with
      | rename temp => exact ⟨h.1.append hnew, fun entry he => (h.2 entry he).append new⟩
      | _ => exact HitSound.append h hnew
  | accepted hit => exact HitSound.append h hnew
  | rejected e => trivial

theorem CallSound.append {vs new : List Verification} {p : Nat} {c : Call}
    (h : CallSound vs p c) (hnew : NotBy new p) : CallSound (vs ++ new) p c :=
  ⟨fun entry he => (h.cache entry he).append new, h.phase.append hnew⟩

/-! ### One step -/

/-- The outcome of a step of call `p` is sound. -/
def StepSound (vs : List Verification) (p : Nat) (r : Dir × Call × List Verification) : Prop :=
  (∀ entry ∈ r.1.file.entries, Attested (vs ++ r.2.2) entry) ∧
    CallSound (vs ++ r.2.2) p r.2.1 ∧ ∀ v ∈ r.2.2, v.call = p

/-- Steps that verify nothing. -/
theorem stepSound_nil {vs : List Verification} {p : Nat} {dir : Dir} {c : Call}
    (hfile : ∀ entry ∈ dir.file.entries, Attested vs entry) (hc : CallSound vs p c) :
    StepSound vs p (dir, c, []) := by
  unfold StepSound
  rw [List.append_nil]
  exact ⟨hfile, hc, fun _ h => (by cases h)⟩

theorem HitSound.persisting {vs : List Verification} {p : Nat} {args : Args}
    {hit : Option CacheEntry} (h : HitSound vs p args hit) {cache : AttestationCache}
    (hcache : ∀ entry ∈ cache.entries, Attested vs entry) :
    CallSound vs p ⟨args, cache, beginPersist cache hit⟩ := by
  refine ⟨hcache, ?_⟩
  unfold beginPersist
  split
  · exact h
  · exact h

theorem PhaseSound.hitSound {vs : List Verification} {p : Nat} {args : Args}
    {hit : Option CacheEntry} {stage : Stage}
    (h : PhaseSound vs p args (.persisting hit stage)) : HitSound vs p args hit := by
  cases stage with
  | rename temp => exact h.1
  | _ => exact h

/-- An operation of `persist` writes nothing to the file but the entries of the cache. -/
theorem persistStep_sound {vs : List Verification} {p : Nat} {dir : Dir} {args : Args}
    {cache : AttestationCache} {hit : Option CacheEntry} {stage : Stage}
    (hfile : ∀ entry ∈ dir.file.entries, Attested vs entry)
    (hcache : ∀ entry ∈ cache.entries, Attested vs entry)
    (h : PhaseSound vs p args (.persisting hit stage)) (success : Bool) :
    (∀ entry ∈ (persistStep dir cache hit stage success).1.file.entries, Attested vs entry) ∧
      PhaseSound vs p args (persistStep dir cache hit stage success).2 := by
  have hhit := h.hitSound
  cases stage with
  | lock attempts =>
      cases success with
      | false => exact ⟨hfile, hhit⟩
      | true =>
          simp only [persistStep]
          split
          · split
            · exact ⟨hfile, hhit⟩
            · exact ⟨hfile, hhit⟩
          · exact ⟨hfile, hhit⟩
  | write =>
      cases success with
      | false => exact ⟨hfile, hhit⟩
      | true => exact ⟨hfile, hhit, hcache⟩
  | rename temp =>
      cases success with
      | false => exact ⟨hfile, hhit⟩
      | true => exact ⟨h.2, hhit⟩
  | _ => cases success <;> exact ⟨hfile, hhit⟩

theorem assertClaims_ok {claims : AttestationClaims} {args : Args}
    (h : assertClaims claims args = .ok ()) :
    claims.iss = issuer args.cfg.org ∧ claims.appName = args.cfg.app := by
  unfold assertClaims assertOrgAndApp at h
  split at h
  · cases h
  · next hiss =>
      split at h
      · cases h
      · next happ => exact ⟨not_not.mp hiss, not_not.mp happ⟩

/-- A lookup returns an entry of the cache that matches. -/
theorem hitSound_of_lookup {vs : List Verification} {p : Nat} {c : Call} {entry : CacheEntry}
    (hcache : ∀ entry ∈ c.cache.entries, Attested vs entry) (hnot : NotBy vs p)
    (h : c.cache.lookup c.args.cfg c.args.transport c.args.tlsFingerprint = some entry) :
    HitSound vs p c.args (some entry) := by
  intro e he
  cases he
  unfold AttestationCache.lookup at h
  have hmatch := List.find?_some h
  exact ⟨hnot, hcache entry (List.mem_of_find?_eq_some h), hmatch⟩

/-- A recorded verification is that of this very call. -/
theorem attested_recordVerified {vs : List Verification} {p : Nat} {args : Args}
    {claims : AttestationClaims} {cache : AttestationCache}
    (hcache : ∀ entry ∈ cache.entries, Attested vs entry)
    (hphase : PhaseSound vs p args (.verified claims)) (hok : assertClaims claims args = .ok ())
    (now : Nat) : ∀ entry ∈ (cache.recordVerified args.cfg claims.machineId args.tlsFingerprint
      now).entries, Attested vs entry := by
  intro entry he
  obtain ⟨old, hold, hsame⟩ | rfl := mem_recordVerified he
  · exact (hcache old hold).sameSubject hsame
  · obtain ⟨v, hv, rfl, rfl⟩ := hphase
    obtain ⟨hiss, happ⟩ := assertClaims_ok hok
    exact ⟨v, hv, rfl, hiss, happ, rfl, rfl⟩

theorem act_sound {vs : List Verification} {p : Nat} {dir : Dir} {c : Call} {a : Action}
    {r : Dir × Call × List Verification} (h : act p dir c a = some r)
    (hfile : ∀ entry ∈ dir.file.entries, Attested vs entry) (hc : CallSound vs p c) :
    StepSound vs p r := by
  obtain ⟨args, cache, phase⟩ := c
  obtain ⟨hcache, hphase⟩ := hc
  cases a with
  | load readError =>
      simp only [act, Option.ite_none_right_eq_some, Option.some.injEq] at h
      obtain ⟨rfl, rfl⟩ := h
      exact stepSound_nil hfile ⟨fun entry he => hfile entry (mem_load he), hphase⟩
  | check =>
      simp only [act, Option.ite_none_right_eq_some] at h
      obtain ⟨rfl, h⟩ := h
      split at h
      · cases h
        exact stepSound_nil hfile ⟨hcache, trivial⟩
      · split at h
        · next entry hlookup =>
            cases h
            exact stepSound_nil hfile ⟨hcache, hitSound_of_lookup hcache hphase hlookup⟩
        · cases h
          exact stepSound_nil hfile ⟨hcache, hphase⟩
  | touch now =>
      simp only [act] at h
      split at h
      · next hit now _ =>
          cases h
          refine stepSound_nil hfile (HitSound.persisting hphase fun entry he => ?_)
          obtain ⟨old, hold, hsame⟩ := mem_recordCacheHit he
          exact (hcache old hold).sameSubject hsame
      · next hit _ =>
          cases h
          exact stepSound_nil hfile ⟨hcache, hphase⟩
      · cases h
  | verify result =>
      simp only [act, Option.ite_none_right_eq_some] at h
      obtain ⟨rfl, h⟩ := h
      split at h
      · cases h
        exact stepSound_nil hfile ⟨hcache, trivial⟩
      · next claims =>
          cases h
          refine ⟨fun entry he => (hfile entry he).append _, ⟨fun entry he =>
            (hcache entry he).append _, ?_⟩, ?_⟩
          · exact ⟨_, List.mem_append_right vs List.mem_cons_self, rfl, rfl⟩
          · intro v hv
            rw [List.mem_singleton.mp hv]
  | record now =>
      simp only [act] at h
      split at h
      · next claims _ =>
          split at h
          · cases h
            exact stepSound_nil hfile ⟨hcache, trivial⟩
          · cases h
            exact stepSound_nil hfile ⟨hcache, hitSound_none vs p args⟩
          · next now hok =>
              cases h
              exact stepSound_nil hfile ((hitSound_none vs p args).persisting
                (attested_recordVerified hcache hphase hok now))
      · cases h
  | persist success =>
      simp only [act] at h
      split at h
      · next hit stage _ =>
          cases h
          obtain ⟨hfile', hphase'⟩ := persistStep_sound hfile hcache hphase success
          exact stepSound_nil hfile' ⟨hcache, hphase'⟩
      · cases h

theorem sound_step {s s' : Sys} {a : Label} (hs : Sound s) (h : step s a = some s') :
    Sound s' := by
  cases a with
  | start p args =>
      simp only [step, Option.ite_none_right_eq_some, Option.some.injEq] at h
      obtain ⟨hnone, rfl⟩ := h
      have hnot : NotBy s.verifications p := fun v hv he => hs.known v hv (he ▸ hnone)
      exact ⟨hs.file, forall_update hs.calls ⟨fun _ h => (by cases h), hnot⟩,
        fun v hv => update_ne_none (.inr (hs.known v hv))⟩
  | act p a =>
      obtain ⟨c, hc, h⟩ := Option.bind_eq_some_iff.mp h
      obtain ⟨⟨dir, c', new⟩, hact, h⟩ := Option.bind_eq_some_iff.mp h
      cases h
      obtain ⟨hfile, hcall, hnew⟩ := act_sound hact hs.file (hs.calls p c hc)
      refine ⟨hfile, ?_, ?_⟩
      · intro q d hq
        rcases update_some_iff.mp hq with ⟨rfl, rfl⟩ | ⟨hne, hq⟩
        · exact hcall
        · exact (hs.calls q d hq).append fun v hv he => hne (he ▸ hnew v hv)
      · intro v hv
        rcases List.mem_append.mp hv with hv | hv
        · exact update_ne_none (.inr (hs.known v hv))
        · exact update_ne_none (.inl (hnew v hv))

/-! ## The result -/

/-- The entry a call accepts through, from the moment the lookup has returned it. -/
def Phase.hit : Phase → Option CacheEntry
  | .touching entry => some entry
  | .persisting hit _ => hit
  | .accepted hit => hit
  | _ => none

/-- In every interleaving of any number of calls, from a directory without entries: a call
    that goes through a cache hit finds an earlier verification, made by another call on a
    connection with the same fingerprint, of a token of the organisation's issuer for the
    configured app, and for the configured machine when the transport is a proxy. The
    verification is there as soon as the lookup returns. -/
theorem hit_was_verified {dir : Dir} (hempty : dir.file.entries = []) {as : List Label}
    {s : Sys} (hrun : Run step Any (init dir) as s) {p : Nat} {c : Call}
    (hc : s.calls p = some c) {entry : CacheEntry} (hhit : c.phase.hit = some entry) :
    ∃ v ∈ s.verifications, v.call ≠ p ∧ v.args.cfg.org = c.args.cfg.org ∧
      v.claims.iss = "https://oidc.fly.io/" ++ c.args.cfg.org ∧
      v.claims.appName = c.args.cfg.app ∧ v.args.tlsFingerprint = c.args.tlsFingerprint ∧
      ∀ machineId, c.args.transport = .proxy machineId → v.claims.machineId = machineId := by
  have hinit : Sound (init dir) := by
    refine ⟨fun entry he => ?_, fun _ _ h => (by cases h), fun _ h => (by cases h)⟩
    rw [show (init dir).dir.file.entries = [] from hempty] at he
    cases he
  have hs : Sound s := hrun.inv Sound (fun s a s' hi _ hst => sound_step hi hst) hinit
  have hphase := (hs.calls p c hc).phase
  have hhs : HitSound s.verifications p c.args (some entry) := by
    rw [← hhit]
    cases hp : c.phase with
    | touching e => rw [hp] at hphase; exact hphase
    | persisting h stage => rw [hp] at hphase; exact hphase.hitSound
    | accepted h => rw [hp] at hphase; exact hphase
    | _ => exact hitSound_none _ _ _
  obtain ⟨hnot, ⟨v, hv, horg, hiss, happ, hmachine, hfp⟩, hmatch⟩ := hhs entry rfl
  obtain ⟨h₁, h₂, h₃, h₄⟩ := cacheEntryMatches_iff.mp hmatch
  refine ⟨v, hv, hnot v hv, by rw [horg, h₁], by rw [hiss, h₁]; rfl, by rw [happ, h₂],
    by rw [hfp, h₃], fun machineId ht => ?_⟩
  rw [hmachine, h₄ machineId ht]

/-- The arguments of two connections to one machine through the proxy. -/
def proxied : Args :=
  ⟨⟨"my-org", "my-app", some "m1"⟩, .proxy "m1", ⟨1, .ready, .systemInit, "jwt"⟩, "aud", "f1"⟩

/-- The first connection verifies and stores the entry, the second one loads it. -/
def verifyThenHit : List Label :=
  [.start 0 proxied, .act 0 (.load false), .act 0 .check,
    .act 0 (.verify (.ok ⟨"https://oidc.fly.io/my-org", "my-app", "m1"⟩)),
    .act 0 (.record (some 7)), .act 0 (.persist true), .act 0 (.persist true),
    .act 0 (.persist true), .act 0 (.persist true), .act 0 (.persist true),
    .start 1 proxied, .act 1 (.load false), .act 1 .check, .act 1 (.touch none)]

theorem hit_was_verified_verifyThenHit :
    ∃ (s : Sys) (c : Call) (v : Verification),
      Run step Any (init ⟨.absent, false⟩) verifyThenHit s ∧ s.calls 1 = some c ∧
      c.phase = .accepted (some ⟨"my-org", "my-app", "m1", "f1", 7, 7⟩) ∧
      v ∈ s.verifications ∧ v.call ≠ 1 ∧ v.claims.machineId = "m1" := by
  have hrun : Run step Any (init ⟨.absent, false⟩) verifyThenHit _ := run_of_exec rfl
  obtain ⟨v, hv, hne, -, -, -, -, hmachine⟩ := hit_was_verified rfl hrun (p := 1) rfl rfl
  exact ⟨_, _, v, hrun, rfl, rfl, hv, hne, hmachine "m1" rfl⟩

end FlyVault.Client.ValidateAttestation
