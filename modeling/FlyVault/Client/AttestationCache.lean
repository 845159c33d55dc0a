/-
  The client's attestation cache (`crates/client/src/cache.rs`): its entries, the matching
  rules of direct and proxied connections, and what `record_verified`, `record_cache_hit`
  and `load_from` do to the entries. Writing the file is cut into steps in
  `ValidateAttestation`; the json text is modelled by the entries it stores, since
  serialising and parsing them is a round trip.

  The facts below say where the entries of a cache can come from: from the file it was loaded
  from, or from a verification (`mem_recordVerified`, `mem_recordCacheHit`, `mem_load`); and that
  an update loses none of them (`updateFirst_keeps`, `recordVerified_keeps`).
-/
import Mathlib.Data.List.Basic

namespace FlyVault.Client

/-- The fields of `VaultConfig` that name a vault. -/
structure VaultConfig where
  org : String
  app : String
  machineId : Option String
  deriving DecidableEq, Repr

/-- `TransportConfig`. -/
inductive TransportConfig
  | direct
  | proxy (machineId : String)
  deriving DecidableEq, Repr

/-- `VaultConfig::transport`. -/
def VaultConfig.transport (cfg : VaultConfig) : TransportConfig :=
  match cfg.machineId with
  | some machineId => .proxy machineId
  | none => .direct

/-- `CacheEntry`. -/
structure CacheEntry where
  org : String
  app : String
  machineId : String
  fingerprint : String
  verifiedAt : Nat
  lastSeenAt : Nat
  deriving DecidableEq, Repr

/-- `AttestationCache`; `hasPath` says that it is backed by the cache file. -/
structure AttestationCache where
  hasPath : Bool
  entries : List CacheEntry
  deriving DecidableEq, Repr

/-- `AttestationCache::default`. -/
def AttestationCache.default : AttestationCache := ⟨false, []⟩

/-- The cache file. -/
inductive CacheFile
  | absent
  | stored (entries : List CacheEntry)
  | unparsable
  deriving DecidableEq, Repr

/-- The entries the file holds. -/
def CacheFile.entries : CacheFile → List CacheEntry
  | .stored entries => entries
  | _ => []

/-- `load_attestation_cache` on a file that can be read, or on a read error. -/
def loadAttestationCache (file : CacheFile) (readError : Bool) : AttestationCache :=
  if readError then .default
  else
    match file with
    | .absent => ⟨true, []⟩
    | .stored entries => ⟨true, entries⟩
    | .unparsable => .default

/-- `cache_entry_matches`. -/
def cacheEntryMatches (entry : CacheEntry) (cfg : VaultConfig) (transport : TransportConfig)
    (fingerprint : String) : Bool :=
  if entry.org ≠ cfg.org ∨ entry.app ≠ cfg.app ∨ entry.fingerprint ≠ fingerprint then false
  else
    match transport with
    | .direct => true
    | .proxy machineId => entry.machineId = machineId

/-- `iter_mut().find(p)` followed by a change of the entry found. -/
def updateFirst (p : CacheEntry → Bool) (f : CacheEntry → CacheEntry) :
    List CacheEntry → List CacheEntry
  | [] => []
  | entry :: entries =>
      if p entry then f entry :: entries else entry :: updateFirst p f entries

namespace AttestationCache

/-- `AttestationCache::lookup`. -/
def lookup (cache : AttestationCache) (cfg : VaultConfig) (transport : TransportConfig)
    (fingerprint : String) : Option CacheEntry :=
  cache.entries.find? fun entry => cacheEntryMatches entry cfg transport fingerprint

/-- The entry `record_verified` looks for. -/
def isEntryOf (cfg : VaultConfig) (machineId fingerprint : String) (entry : CacheEntry) : Bool :=
  entry.org = cfg.org ∧ entry.app = cfg.app ∧ entry.machineId = machineId ∧
    entry.fingerprint = fingerprint

/-- `record_verified` before it persists. -/
def recordVerified (cache : AttestationCache) (cfg : VaultConfig)
    (machineId fingerprint : String) (now : Nat) : AttestationCache :=
  if cache.entries.any (isEntryOf cfg machineId fingerprint) then
    { cache with
      entries := updateFirst (isEntryOf cfg machineId fingerprint)
        (fun entry => { entry with verifiedAt := now, lastSeenAt := now }) cache.entries }
  else
    { cache with
      entries := cache.entries ++ [⟨cfg.org, cfg.app, machineId, fingerprint, now, now⟩] }

/-- `record_cache_hit` before it persists; it changes nothing without a match. -/
def recordCacheHit (cache : AttestationCache) (cfg : VaultConfig) (transport : TransportConfig)
    (fingerprint : String) (now : Nat) : AttestationCache :=
  { cache with
    entries := updateFirst (fun entry => cacheEntryMatches entry cfg transport fingerprint)
      (fun entry => { entry with lastSeenAt := now }) cache.entries }

end AttestationCache

/-! ## Where entries come from -/

/-- Two entries that differ at most in their timestamps. -/
def CacheEntry.sameSubject (a b : CacheEntry) : Prop :=
  a.org = b.org ∧ a.app = b.app ∧ a.machineId = b.machineId ∧ a.fingerprint = b.fingerprint

theorem mem_updateFirst {p : CacheEntry → Bool} {f : CacheEntry → CacheEntry}
    {entries : List CacheEntry} {entry : CacheEntry} (h : entry ∈ updateFirst p f entries)
    (hf : ∀ entry, (f entry).sameSubject entry) : ∃ old ∈ entries, entry.sameSubject old := by
  induction entries with
  | nil => cases h
  | cons e es ih =>
      unfold updateFirst at h
      split at h
      · rcases List.mem_cons.mp h with rfl | h
        · exact ⟨e, List.mem_cons_self, hf e⟩
        · exact ⟨entry, List.mem_cons_of_mem e h, rfl, rfl, rfl, rfl⟩
      · rcases List.mem_cons.mp h with rfl | h
        · exact ⟨entry, List.mem_cons_self, rfl, rfl, rfl, rfl⟩
        · obtain ⟨old, hold, hsame⟩ := ih h
          exact ⟨old, List.mem_cons_of_mem e hold, hsame⟩

/-- A change of one entry loses none; an entry that is not looked for stays as it is. -/
theorem updateFirst_keeps {p : CacheEntry → Bool} {f : CacheEntry → CacheEntry}
    {entries : List CacheEntry} {old : CacheEntry} (h : old ∈ entries)
    (hf : ∀ entry, (f entry).sameSubject entry) :
    ∃ entry ∈ updateFirst p f entries, entry.sameSubject old ∧ (p old = false → entry = old) := by
  induction entries with
  | nil => cases h
  | cons e es ih =>
      unfold updateFirst
      rcases List.mem_cons.mp h with rfl | h
      · split
        · next hp => exact ⟨f old, List.mem_cons_self, hf old, fun hn => by simp [hp] at hn⟩
        · exact ⟨old, List.mem_cons_self, ⟨rfl, rfl, rfl, rfl⟩, fun _ => rfl⟩
      · split
        · exact ⟨old, List.mem_cons_of_mem _ h, ⟨rfl, rfl, rfl, rfl⟩, fun _ => rfl⟩
        · obtain ⟨entry, hentry, hsame⟩ := ih h
          exact ⟨entry, List.mem_cons_of_mem e hentry, hsame⟩

theorem updateFirst_found {p : CacheEntry → Bool} {f : CacheEntry → CacheEntry}
    {entries : List CacheEntry} (h : entries.any p = true) :
    ∃ old, p old = true ∧ f old ∈ updateFirst p f entries := by
  induction entries with
  | nil => cases h
  | cons e es ih =>
      unfold updateFirst
      split
      · next hp => exact ⟨e, hp, List.mem_cons_self⟩
      · next hp =>
          rw [List.any_cons, Bool.or_eq_true] at h
          obtain ⟨old, hold, hmem⟩ := ih (h.resolve_left hp)
          exact ⟨old, hold, List.mem_cons_of_mem e hmem⟩

theorem recordVerified_keeps {cache : AttestationCache} {cfg : VaultConfig}
    {machineId fingerprint : String} {now : Nat} {old : CacheEntry} (h : old ∈ cache.entries) :
    ∃ entry ∈ (cache.recordVerified cfg machineId fingerprint now).entries,
      entry.sameSubject old ∧
        (AttestationCache.isEntryOf cfg machineId fingerprint old = false → entry = old) := by
  unfold AttestationCache.recordVerified
  split
  · exact updateFirst_keeps h fun _ => ⟨rfl, rfl, rfl, rfl⟩
  · exact ⟨old, List.mem_append_left _ h, ⟨rfl, rfl, rfl, rfl⟩, fun _ => rfl⟩

/-- The entry `record_verified` makes, or the one it renews. -/
theorem recordVerified_self (cache : AttestationCache) (cfg : VaultConfig)
    (machineId fingerprint : String) (now : Nat) :
    ⟨cfg.org, cfg.app, machineId, fingerprint, now, now⟩ ∈
      (cache.recordVerified cfg machineId fingerprint now).entries := by
  unfold AttestationCache.recordVerified
  split
  · next hany =>
      obtain ⟨old, hold, hmem⟩ := updateFirst_found
        (f := fun entry => { entry with verifiedAt := now, lastSeenAt := now }) hany
      unfold AttestationCache.isEntryOf at hold
      obtain ⟨horg, happ, hmachine, hfp⟩ := of_decide_eq_true hold
      rw [horg, happ, hmachine, hfp] at hmem
      exact hmem
  · exact List.mem_append_right _ (List.mem_singleton.mpr rfl)

theorem mem_recordVerified {cache : AttestationCache} {cfg : VaultConfig}
    {machineId fingerprint : String} {now : Nat} {entry : CacheEntry}
    (h : entry ∈ (cache.recordVerified cfg machineId fingerprint now).entries) :
    (∃ old ∈ cache.entries, entry.sameSubject old) ∨
      entry = ⟨cfg.org, cfg.app, machineId, fingerprint, now, now⟩ := by
  unfold AttestationCache.recordVerified at h
  split at h
  · exact .inl (mem_updateFirst h (fun _ => ⟨rfl, rfl, rfl, rfl⟩))
  · rcases List.mem_append.mp h with h | h
    · exact .inl ⟨entry, h, rfl, rfl, rfl, rfl⟩
    · exact .inr (List.mem_singleton.mp h)

theorem mem_recordCacheHit {cache : AttestationCache} {cfg : VaultConfig}
    {transport : TransportConfig} {fingerprint : String} {now : Nat} {entry : CacheEntry}
    (h : entry ∈ (cache.recordCacheHit cfg transport fingerprint now).entries) :
    ∃ old ∈ cache.entries, entry.sameSubject old :=
  mem_updateFirst h fun _ => ⟨rfl, rfl, rfl, rfl⟩

theorem mem_load {file : CacheFile} {readError : Bool} {entry : CacheEntry}
    (h : entry ∈ (loadAttestationCache file readError).entries) : entry ∈ file.entries := by
  unfold loadAttestationCache at h
  split at h
  · cases h
  · cases file with
    | stored entries => exact h
    | _ => cases h

/-- What a match says about the entry. -/
theorem cacheEntryMatches_iff {entry : CacheEntry} {cfg : VaultConfig}
    {transport : TransportConfig} {fingerprint : String} :
    cacheEntryMatches entry cfg transport fingerprint = true ↔
      entry.org = cfg.org ∧ entry.app = cfg.app ∧ entry.fingerprint = fingerprint ∧
        ∀ machineId, transport = .proxy machineId → entry.machineId = machineId := by
  unfold cacheEntryMatches
  cases transport with
  | direct => simp
  | proxy machineId => simp; tauto

end FlyVault.Client
