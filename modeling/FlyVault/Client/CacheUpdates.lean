/-
  Updates of the attestation cache by any number of client processes
  (`crates/client/src/cache.rs`).

  A process loads the cache file, records a verification or a hit in its copy and writes the
  copy back through `persist`. The operations of `persist` are those of `ValidateAttestation`:
  the lock file exists from before the temporary file is written until after the rename, so it
  does not cover the load. Any of them may fail, and the operations of different processes
  interleave freely. `written` lists the updates in the order of their renames; `loadedAt` is its
  length when a process loads.

  * `file_eq_replay`: if no process replaces the file between the load and the rename of
    another one, the file holds what the updates make of it one after the other.
  * `updates_kept`: then no entry is lost, neither an old one nor that of a process.
-/
import FlyVault.Client.ValidateAttestation

namespace FlyVault.Client.CacheUpdates

open FlyVault.Lib
open ValidateAttestation (Dir Stage persistStep)

/-! ## Updates -/

/-- What a process records, with the time. -/
inductive Update
  /-- `record_verified`. -/
  | verified (cfg : VaultConfig) (machineId fingerprint : String) (now : Nat)
  /-- `record_cache_hit`. -/
  | hit (cfg : VaultConfig) (transport : TransportConfig) (fingerprint : String) (now : Nat)
  deriving DecidableEq, Repr

namespace Update

/-- The update up to `persist`. -/
def apply : Update → AttestationCache → AttestationCache
  | .verified cfg machineId fingerprint now, cache =>
      cache.recordVerified cfg machineId fingerprint now
  | .hit cfg transport fingerprint now, cache =>
      cache.recordCacheHit cfg transport fingerprint now

/-- `record_cache_hit` finds no entry and returns without a change. -/
def misses : Update → AttestationCache → Bool
  | .verified _ _ _ _, _ => false
  | .hit cfg transport fingerprint _, cache => (cache.lookup cfg transport fingerprint).isNone

/-- The entries the update looks for. -/
def concerns : Update → CacheEntry → Bool
  | .verified cfg machineId fingerprint _, entry =>
      AttestationCache.isEntryOf cfg machineId fingerprint entry
  | .hit cfg transport fingerprint _, entry => cacheEntryMatches entry cfg transport fingerprint

end Update

/-- The updates one after the other. -/
def replay (cache : AttestationCache) (updates : List Update) : AttestationCache :=
  updates.foldl (fun cache u => u.apply cache) cache

/-! ## Processes -/

/-- `AttestationCache::load_from`; `readError` is an error other than a missing file. -/
def loadFrom (file : CacheFile) (readError : Bool) : Option AttestationCache :=
  if readError then none
  else
    match file with
    | .absent => some ⟨true, []⟩
    | .stored entries => some ⟨true, entries⟩
    | .unparsable => none

/-- `load_attestation_cache` goes on without a cache when `load_from` fails. -/
theorem loadAttestationCache_eq (file : CacheFile) (readError : Bool) :
    loadAttestationCache file readError = (loadFrom file readError).getD .default := by
  unfold loadAttestationCache loadFrom
  split
  · rfl
  · cases file <;> rfl

inductive Phase
  | loading
  | loaded
  | persisting (stage : Stage)
  | returned (ok : Bool)
  deriving DecidableEq, Repr

structure Proc where
  phase : Phase
  cache : AttestationCache
  loadedAt : Nat
  update : Option Update
  renamed : Bool
  deriving DecidableEq, Repr

structure Sys where
  dir : Dir
  procs : Nat → Option Proc
  written : List (Nat × Update)

/-- No process yet. -/
def init (dir : Dir) : Sys := ⟨dir, fun _ => none, []⟩

inductive Action
  | load (readError : Bool)
  | record (update : Update)
  /-- The clock is before the epoch when the update asks for the time. -/
  | clockError
  /-- The next operation of `persist`. -/
  | persist (success : Bool)
  deriving DecidableEq, Repr

inductive Label
  | start (p : Nat)
  | act (p : Nat) (a : Action)
  deriving DecidableEq, Repr

/-- The operation of `persist` that replaces the cache file. -/
def renames : Stage → Bool → Bool
  | .rename _, true => true
  | _, _ => false

/-- `persist` returns `Ok` if the rename was done; how the guard removes the lock file does not
    matter. -/
def Phase.ofPersist (renamed : Bool) : ValidateAttestation.Phase → Phase
  | .persisting _ stage => .persisting stage
  | _ => .returned renamed

/-- One step of a process: the directory, the process and the update it has written. -/
def act (writes : Nat) (dir : Dir) (c : Proc) : Action → Option (Dir × Proc × Option Update)
  | .load readError =>
      if c.phase = .loading then
        match loadFrom dir.file readError with
        | some cache =>
            some (dir, { c with phase := .loaded, cache := cache, loadedAt := writes }, none)
        | none => some (dir, { c with phase := .returned false }, none)
      else none
  | .record u =>
      if c.phase = .loaded then
        if u.misses c.cache then some (dir, { c with phase := .returned true }, none)
        else
          -- a cache that was loaded has a path
          some (dir, { c with
            phase := .persisting .createDir, cache := u.apply c.cache, update := some u }, none)
      else none
  | .clockError =>
      if c.phase = .loaded then some (dir, { c with phase := .returned false }, none) else none
  | .persist success =>
      match c.phase with
      | .persisting stage =>
          let r := persistStep dir c.cache none stage success
          let renamed := renames stage success || c.renamed
          some (r.1, { c with phase := .ofPersist renamed r.2, renamed := renamed },
            if renames stage success then c.update else none)
      | _ => none

def step (s : Sys) : Label → Option Sys
  | .start p =>
      if s.procs p = none then
        some { s with
          procs := Function.update s.procs p (some ⟨.loading, .default, 0, none, false⟩) }
      else none
  | .act p a => do
      let c ← s.procs p
      let (dir, c', new) ← act s.written.length s.dir c a
      some ⟨dir, Function.update s.procs p (some c'), s.written ++ new.toList.map fun u => (p, u)⟩

/-- The step replaces the cache file. -/
def Proc.replaces (c : Proc) : Action → Bool
  | .persist success =>
      match c.phase with
      | .persisting stage => renames stage success
      | _ => false
  | _ => false

/-- A process replaces the file only if it is the one it has loaded: no other process has
    replaced it in between. -/
def Undisturbed (s : Sys) : Label → Prop
  | .start _ => True
  | .act p a => ∀ c ∈ s.procs p, c.replaces a = true → c.loadedAt = s.written.length

instance (s : Sys) (l : Label) : Decidable (Undisturbed s l) := by
  cases l <;> unfold Undisturbed <;> infer_instance

/-! ## One step -/

/-- What a process gets that loads the file now. -/
def current (dir : Dir) : AttestationCache := ⟨true, dir.file.entries⟩

theorem loadFrom_eq {file : CacheFile} {readError : Bool} {cache : AttestationCache}
    (h : loadFrom file readError = some cache) : cache = ⟨true, file.entries⟩ := by
  unfold loadFrom at h
  split at h
  · cases h
  · cases file with
    | unparsable => cases h
    | _ => cases h; rfl

/-- The process's copy, made of `cache` by its update. -/
def Proc.copyOf (c : Proc) (cache : AttestationCache) : AttestationCache :=
  replay cache c.update.toList

/-- As long as the file is the one it has loaded, the process's copy is up to date. -/
structure UpToDate (writes : Nat) (cache : AttestationCache) (c : Proc) : Prop where
  le : c.loadedAt ≤ writes
  eq : c.loadedAt = writes → c.cache = c.copyOf cache
  renamed : c.renamed = false

/-- What holds of a process after `writes` replacements, when the file holds `cache`. -/
def PhaseInv (writes : Nat) (cache : AttestationCache) (c : Proc) : Phase → Prop
  | .loading => c.update = none ∧ c.renamed = false
  | .loaded => c.update = none ∧ UpToDate writes cache c
  | .persisting (.rename temp) =>
      temp = c.cache.entries ∧ c.update ≠ none ∧ UpToDate writes cache c
  | .persisting .unlock => True
  | .persisting _ => c.update ≠ none ∧ UpToDate writes cache c
  | .returned ok => ok = true → c.renamed = true ∨ c.update = none

section Step

variable {n : Nat} {dir dir' : Dir} {c c' : Proc} {new : Option Update}

theorem UpToDate.stale {cache cache' : AttestationCache} (h : UpToDate n cache c) :
    UpToDate (n + 1) cache' c where
  le := Nat.le_succ_of_le h.le
  eq heq := by have := h.le; omega
  renamed := h.renamed

/-- A copy is out of date once another process has replaced the file. -/
theorem PhaseInv.stale {cache cache' : AttestationCache} {phase : Phase}
    (h : PhaseInv n cache c phase) : PhaseInv (n + 1) cache' c phase := by
  cases phase with
  | loading => exact h
  | loaded => exact ⟨h.1, h.2.stale⟩
  | persisting stage =>
      cases stage with
      | rename temp => exact ⟨h.1, h.2.1, h.2.2.stale⟩
      | unlock => trivial
      | createDir => exact ⟨h.1, h.2.stale⟩
      | lock attempts => exact ⟨h.1, h.2.stale⟩
      | write => exact ⟨h.1, h.2.stale⟩
  | returned ok => exact h

/-- The step that replaces the file writes the process's copy. -/
theorem act_replaces {a : Action} (h : PhaseInv n (current dir) c c.phase)
    (hact : act n dir c a = some (dir', c', new)) (hrep : c.replaces a = true) :
    dir'.file = .stored c.cache.entries ∧
      c' = { c with phase := .persisting .unlock, renamed := true } ∧
      (∃ u, c.update = some u ∧ new = some u) ∧ UpToDate n (current dir) c := by
  cases a with
  | persist success =>
      obtain ⟨phase, cache, loadedAt, update, renamed⟩ := c
      cases phase with
      | persisting stage =>
          cases stage with
          | rename temp =>
              cases success with
              | true =>
                  obtain ⟨htemp, hupdate, hup⟩ := h
                  obtain ⟨u, rfl⟩ := Option.ne_none_iff_exists'.mp hupdate
                  cases hact
                  exact ⟨congrArg _ htemp, rfl, ⟨u, rfl, rfl⟩, hup⟩
              | false => cases hrep
          | _ => cases hrep
      | _ => cases hrep
  | _ => cases hrep

/-- The operations of `persist` other than the rename leave the file as it is. -/
theorem act_persist_keeps {stage : Stage} {success : Bool}
    (h : PhaseInv n (current dir) c (.persisting stage)) (hphase : c.phase = .persisting stage)
    (hact : act n dir c (.persist success) = some (dir', c', new))
    (hno : renames stage success = false) :
    dir'.file = dir.file ∧ new = none ∧ PhaseInv n (current dir) c' c'.phase ∧
      c'.renamed = c.renamed ∧ (c.renamed = true → c'.update = c.update) := by
  obtain ⟨phase, cache, loadedAt, update, renamed⟩ := c
  obtain rfl : phase = .persisting stage := hphase
  cases stage with
  | createDir =>
      cases success with
      | true =>
          cases hact
          exact ⟨rfl, rfl, ⟨h.1, h.2.le, h.2.eq, h.2.renamed⟩, rfl, fun _ => rfl⟩
      | false => cases hact; exact ⟨rfl, rfl, .inl, rfl, fun _ => rfl⟩
  | lock attempts =>
      cases success with
      | true =>
          simp only [act, persistStep] at hact
          split at hact
          · split at hact
            · cases hact
              exact ⟨rfl, rfl, ⟨h.1, h.2.le, h.2.eq, h.2.renamed⟩, rfl, fun _ => rfl⟩
            · cases hact; exact ⟨rfl, rfl, .inl, rfl, fun _ => rfl⟩
          · cases hact
            exact ⟨rfl, rfl, ⟨h.1, h.2.le, h.2.eq, h.2.renamed⟩, rfl, fun _ => rfl⟩
      | false => cases hact; exact ⟨rfl, rfl, .inl, rfl, fun _ => rfl⟩
  | write =>
      cases success with
      | true =>
          cases hact
          exact ⟨rfl, rfl, ⟨rfl, h.1, h.2.le, h.2.eq, h.2.renamed⟩, rfl, fun _ => rfl⟩
      | false => cases hact; exact ⟨rfl, rfl, trivial, rfl, fun _ => rfl⟩
  | rename temp =>
      cases success with
      | true => cases hno
      | false => cases hact; exact ⟨rfl, rfl, trivial, rfl, fun _ => rfl⟩
  | unlock =>
      cases success with
      | true => cases hact; exact ⟨rfl, rfl, .inl, rfl, fun _ => rfl⟩
      | false => cases hact; exact ⟨rfl, rfl, .inl, rfl, fun _ => rfl⟩

/-- Every other step leaves the file as it is. -/
theorem act_keeps {a : Action} (h : PhaseInv n (current dir) c c.phase)
    (hact : act n dir c a = some (dir', c', new)) (hrep : c.replaces a = false) :
    dir'.file = dir.file ∧ new = none ∧ PhaseInv n (current dir) c' c'.phase ∧
      c'.renamed = c.renamed ∧ (c.renamed = true → c'.update = c.update) := by
  obtain ⟨phase, cache, loadedAt, update, renamed⟩ := c
  cases a with
  | load readError =>
      simp only [act] at hact
      split at hact
      · next hphase =>
          obtain rfl : phase = .loading := hphase
          obtain ⟨rfl, rfl⟩ : update = none ∧ renamed = false := h
          split at hact
          · next cache' hload =>
              cases hact
              exact ⟨rfl, rfl, ⟨rfl, Nat.le_refl _, fun _ => loadFrom_eq hload, rfl⟩, rfl,
                fun _ => rfl⟩
          · cases hact
            exact ⟨rfl, rfl, (by intro hf; cases hf), rfl, fun _ => rfl⟩
      · cases hact
  | record u =>
      simp only [act] at hact
      split at hact
      · next hphase =>
          obtain rfl : phase = .loaded := hphase
          obtain ⟨rfl, hle, heq, rfl⟩ := h
          split at hact
          · cases hact
            exact ⟨rfl, rfl, fun _ => .inr rfl, rfl, fun _ => rfl⟩
          · cases hact
            refine ⟨rfl, rfl, ⟨by simp, hle, fun hloaded => ?_, rfl⟩, rfl, (by intro hf; cases hf)⟩
            exact congrArg u.apply (heq hloaded)
      · cases hact
  | clockError =>
      simp only [act] at hact
      split at hact
      · cases hact
        exact ⟨rfl, rfl, (by intro hf; cases hf), rfl, fun _ => rfl⟩
      · cases hact
  | persist success =>
      cases phase with
      | persisting stage => exact act_persist_keeps h rfl hact hrep
      | _ => cases hact

end Step

/-! ## Whole runs -/

structure Inv (cache : AttestationCache) (s : Sys) : Prop where
  file : current s.dir = replay cache (s.written.map Prod.snd)
  procs : ∀ p c, s.procs p = some c → PhaseInv s.written.length (current s.dir) c c.phase
  renamed : ∀ p c, s.procs p = some c → c.renamed = true →
    ∃ u, c.update = some u ∧ (p, u) ∈ s.written
  writers : ∀ p u, (p, u) ∈ s.written →
    ∃ c, s.procs p = some c ∧ c.renamed = true ∧ c.update = some u
  once : (s.written.map Prod.fst).Nodup

theorem inv_init (dir : Dir) : Inv (current dir) (init dir) where
  file := rfl
  procs _ _ h := by cases h
  renamed _ _ h := by cases h
  writers _ _ h := by cases h
  once := List.nodup_nil

theorem hasPath_apply (u : Update) (cache : AttestationCache) :
    (u.apply cache).hasPath = cache.hasPath := by
  cases u with
  | verified cfg machineId fingerprint now =>
      simp only [Update.apply, AttestationCache.recordVerified]
      split <;> rfl
  | hit cfg transport fingerprint now => rfl

theorem hasPath_copyOf (c : Proc) (dir : Dir) : (c.copyOf (current dir)).hasPath = true := by
  unfold Proc.copyOf
  cases c.update with
  | none => rfl
  | some u => exact hasPath_apply u _

section Runs

variable {cache : AttestationCache} {s s' : Sys} {p : Nat} {c c' : Proc} {dir : Dir}

/-- A step of a process that does not replace the file. -/
theorem Inv.keeps (h : Inv cache s) (hc : s.procs p = some c) (hfile : dir.file = s.dir.file)
    (hphase : PhaseInv s.written.length (current s.dir) c' c'.phase)
    (hrenamed : c'.renamed = c.renamed) (hupdate : c.renamed = true → c'.update = c.update) :
    Inv cache ⟨dir, Function.update s.procs p (some c'), s.written⟩ := by
  have hcurrent : current dir = current s.dir := by unfold current; rw [hfile]
  refine ⟨hcurrent.trans h.file, ?_, ?_, ?_, h.once⟩
  · refine forall_update (fun q d hd => ?_) ?_
    · rw [hcurrent]; exact h.procs q d hd
    · rw [hcurrent]; exact hphase
  · refine forall_update (fun q d hd => h.renamed q d hd) fun hr => ?_
    rw [hrenamed] at hr
    rw [hupdate hr]
    exact h.renamed p c hc hr
  · intro q u hq
    obtain ⟨d, hd, hr, hu⟩ := h.writers q u hq
    by_cases hqp : q = p
    · subst hqp
      obtain rfl : c = d := Option.some.inj (hc.symm.trans hd)
      exact ⟨c', Function.update_self .., hrenamed.trans hr, (hupdate hr).trans hu⟩
    · exact ⟨d, (Function.update_of_ne hqp ..).trans hd, hr, hu⟩

/-- A process whose copy is up to date replaces the file by the next update. -/
theorem Inv.replaces (h : Inv cache s) (hc : s.procs p = some c) {u : Update}
    (hup : UpToDate s.written.length (current s.dir) c) (hu : c.update = some u)
    (hloaded : c.loadedAt = s.written.length) (hfile : dir.file = .stored c.cache.entries)
    (hc' : c' = { c with phase := .persisting .unlock, renamed := true }) :
    Inv cache ⟨dir, Function.update s.procs p (some c'), s.written ++ [(p, u)]⟩ := by
  have hcopy : c.cache = c.copyOf (current s.dir) := hup.eq hloaded
  have hcurrent : current dir = u.apply (current s.dir) := by
    have hcache : current dir = c.cache := by
      unfold current
      rw [hfile, ← hasPath_copyOf c s.dir, ← hcopy]
      rfl
    rw [hcache, hcopy, Proc.copyOf, hu]
    rfl
  have hnew : ∀ v, (p, v) ∉ s.written := by
    intro v hv
    obtain ⟨d, hd, hr, -⟩ := h.writers p v hv
    obtain rfl : c = d := Option.some.inj (hc.symm.trans hd)
    rw [hup.renamed] at hr
    cases hr
  refine ⟨?_, ?_, ?_, ?_, ?_⟩
  · show current dir = _
    rw [hcurrent, h.file, List.map_append, replay, replay, List.foldl_append]
    rfl
  · rw [List.length_append, List.length_singleton]
    refine forall_update (fun q d hd => (h.procs q d hd).stale) ?_
    rw [hc']
    trivial
  · refine forall_update (fun q d hd hr => ?_) fun _ => ?_
    · obtain ⟨v, hv, hmem⟩ := h.renamed q d hd hr
      exact ⟨v, hv, List.mem_append_left _ hmem⟩
    · rw [hc']
      exact ⟨u, hu, List.mem_append_right _ (List.mem_singleton.mpr rfl)⟩
  · intro q v hq
    rcases List.mem_append.mp hq with hq | hq
    · obtain ⟨d, hd, hr, hv⟩ := h.writers q v hq
      have hqp : q ≠ p := fun heq => hnew v (heq ▸ hq)
      exact ⟨d, (Function.update_of_ne hqp ..).trans hd, hr, hv⟩
    · cases List.mem_singleton.mp hq
      exact ⟨c', Function.update_self .., by rw [hc'], by rw [hc']; exact hu⟩
  · rw [List.map_append, List.nodup_append]
    refine ⟨h.once, by simp, fun q hq r hr heq => ?_⟩
    obtain ⟨⟨q', v⟩, hv, rfl⟩ := List.mem_map.mp hq
    obtain rfl : r = p := List.mem_singleton.mp hr
    subst heq
    exact hnew v hv

theorem inv_step {l : Label} (h : Inv cache s) (hok : Undisturbed s l)
    (hstep : step s l = some s') : Inv cache s' := by
  cases l with
  | start p =>
      simp only [step] at hstep
      split at hstep
      · next hnone =>
          cases hstep
          refine ⟨h.file, forall_update h.procs ⟨rfl, rfl⟩,
            forall_update h.renamed (by intro hf; cases hf), fun q u hq => ?_, h.once⟩
          obtain ⟨d, hd, hdu⟩ := h.writers q u hq
          have hqp : q ≠ p := by
            intro heq
            rw [heq, hnone] at hd
            cases hd
          exact ⟨d, (Function.update_of_ne hqp ..).trans hd, hdu⟩
      · cases hstep
  | act p a =>
      simp only [step, Option.bind_eq_bind, Option.bind_eq_some_iff] at hstep
      obtain ⟨c, hc, ⟨dir, c', new⟩, hact, hs'⟩ := hstep
      cases hs'
      cases hrep : c.replaces a with
      | true =>
          obtain ⟨hfile, hc', ⟨u, hu, rfl⟩, hup⟩ := act_replaces (h.procs p c hc) hact hrep
          exact h.replaces hc hup hu (hok c hc hrep) hfile hc'
      | false =>
          obtain ⟨hfile, rfl, hphase, hrenamed, hupdate⟩ := act_keeps (h.procs p c hc) hact hrep
          have hkeeps := h.keeps hc hfile hphase hrenamed hupdate
          simpa using hkeeps

end Runs

/-- As long as no process replaces the file between the load and the rename of another one, the
    file holds what the updates make of it, one after the other. -/
theorem file_eq_replay {dir : Dir} {labels : List Label} {s : Sys}
    (hrun : Run step Undisturbed (init dir) labels s) :
    current s.dir = replay (current dir) (s.written.map Prod.snd) :=
  (hrun.inv (Inv (current dir)) (fun _ _ _ hs hok hstep => inv_step hs hok hstep)
    (inv_init dir)).file

/-! ## No entry is lost -/

theorem sameSubject_trans {a b c : CacheEntry} (hab : a.sameSubject b) (hbc : b.sameSubject c) :
    a.sameSubject c :=
  ⟨hab.1.trans hbc.1, hab.2.1.trans hbc.2.1, hab.2.2.1.trans hbc.2.2.1,
    hab.2.2.2.trans hbc.2.2.2⟩

theorem apply_keeps (u : Update) {cache : AttestationCache} {old : CacheEntry}
    (h : old ∈ cache.entries) :
    ∃ entry ∈ (u.apply cache).entries, entry.sameSubject old ∧
      (u.concerns old = false → entry = old) := by
  cases u with
  | verified cfg machineId fingerprint now => exact recordVerified_keeps h
  | hit cfg transport fingerprint now => exact updateFirst_keeps h fun _ => ⟨rfl, rfl, rfl, rfl⟩

theorem replay_keeps (updates : List Update) {cache : AttestationCache} {old : CacheEntry}
    (h : old ∈ cache.entries) :
    ∃ entry ∈ (replay cache updates).entries, entry.sameSubject old ∧
      ((∀ u ∈ updates, u.concerns old = false) → entry = old) := by
  induction updates generalizing cache old with
  | nil => exact ⟨old, h, ⟨rfl, rfl, rfl, rfl⟩, fun _ => rfl⟩
  | cons u updates ih =>
      obtain ⟨mid, hmid, hsame, hkept⟩ := apply_keeps u h
      obtain ⟨entry, hentry, hsame', hkept'⟩ := ih hmid
      refine ⟨entry, hentry, sameSubject_trans hsame' hsame, fun hno => ?_⟩
      obtain rfl : mid = old := hkept (hno u List.mem_cons_self)
      exact hkept' fun v hv => hno v (List.mem_cons_of_mem u hv)

/-- The file has an entry of the same subject, and it is this very entry if no process other
    than `p` has an update that looks for it. -/
def Sys.Keeps (s : Sys) (p : Option Nat) (entry : CacheEntry) : Prop :=
  ∃ e ∈ s.dir.file.entries, e.sameSubject entry ∧
    ((∀ q c u, s.procs q = some c → c.update = some u → some q ≠ p → u.concerns entry = false) →
      e = entry)

/-- No update is lost, as long as no process replaces the file between the load and the rename
    of another one: the file has all entries it had before, and the entry of every process whose
    `record_verified` has returned `Ok`. -/
theorem updates_kept {dir : Dir} {labels : List Label} {s : Sys}
    (hrun : Run step Undisturbed (init dir) labels s) :
    (∀ entry ∈ dir.file.entries, s.Keeps none entry) ∧
      ∀ p c cfg machineId fingerprint now, s.procs p = some c → c.phase = .returned true →
        c.update = some (.verified cfg machineId fingerprint now) →
        s.Keeps (some p) ⟨cfg.org, cfg.app, machineId, fingerprint, now, now⟩ := by
  have hinv : Inv (current dir) s := hrun.inv (Inv (current dir))
    (fun _ _ _ hs hok hstep => inv_step hs hok hstep) (inv_init dir)
  have hfile : s.dir.file.entries = (replay (current dir) (s.written.map Prod.snd)).entries :=
    congrArg AttestationCache.entries hinv.file
  constructor
  · intro entry hentry
    have hold : entry ∈ (current dir).entries := hentry
    obtain ⟨e, he, hsame, hkept⟩ := replay_keeps (s.written.map Prod.snd) hold
    refine ⟨e, by rw [hfile]; exact he, hsame, fun hno => hkept fun u hu => ?_⟩
    obtain ⟨⟨q, v⟩, hmem, rfl⟩ := List.mem_map.mp hu
    obtain ⟨c, hc, -, hcu⟩ := hinv.writers q v hmem
    exact hno q c v hc hcu (by simp)
  · intro p c cfg machineId fingerprint now hc hphase hu
    have hreturned := hinv.procs p c hc
    rw [hphase] at hreturned
    have hrenamed : c.renamed = true := (hreturned rfl).resolve_right (by rw [hu]; simp)
    obtain ⟨u, hu', hmem⟩ := hinv.renamed p c hc hrenamed
    obtain rfl : .verified cfg machineId fingerprint now = u := Option.some.inj (hu.symm.trans hu')
    -- the entry is there after the process's own update, and the later ones keep it
    obtain ⟨before, after, hsplit⟩ := List.append_of_mem hmem
    have hfile' : s.dir.file.entries =
        (replay ((replay (current dir) (before.map Prod.snd)).recordVerified cfg machineId
          fingerprint now) (after.map Prod.snd)).entries := by
      rw [hfile, hsplit, List.map_append, replay, List.foldl_append]
      rfl
    obtain ⟨e, he, hsame, hkept⟩ := replay_keeps (after.map Prod.snd)
      (recordVerified_self (replay (current dir) (before.map Prod.snd)) cfg machineId fingerprint
        now)
    refine ⟨e, by rw [hfile']; exact he, hsame, fun hno => hkept fun u hu => ?_⟩
    obtain ⟨⟨q, v⟩, hafter, rfl⟩ := List.mem_map.mp hu
    obtain ⟨d, hd, -, hdu⟩ := hinv.writers q v (by rw [hsplit]; simp [hafter])
    refine hno q d v hd hdu fun heq => ?_
    have honce := hinv.once
    rw [hsplit, List.map_append, List.map_cons, List.nodup_append, List.nodup_cons] at honce
    exact honce.2.1.1 (List.mem_map.mpr ⟨(q, v), hafter, Option.some.inj heq⟩)

/-- The operations of `persist` when nothing fails and the lock is free. -/
def persisting (p : Nat) : List Label := List.replicate 5 (.act p (.persist true))

/-- Process `p` verifies the certificate `fingerprint` at time `p`. -/
def verifies (p : Nat) (fingerprint : String) : List Label :=
  .act p (.record (.verified ⟨"org", "app", none⟩ "m1" fingerprint p)) :: persisting p

/-- Two processes one after the other, on a file with one entry. -/
theorem updates_kept_inTurn :
    ∃ labels s c₁ c₂, Run step Undisturbed
        (init ⟨.stored [⟨"org", "app", "m1", "a", 0, 0⟩], false⟩) labels s ∧
      s.procs 1 = some c₁ ∧ c₁.phase = .returned true ∧
      s.procs 2 = some c₂ ∧ c₂.phase = .returned true ∧
      s.Keeps none ⟨"org", "app", "m1", "a", 0, 0⟩ ∧
      s.Keeps (some 1) ⟨"org", "app", "m1", "b", 1, 1⟩ ∧
      s.Keeps (some 2) ⟨"org", "app", "m1", "c", 2, 2⟩ := by
  have hrun : Run step Undisturbed (init ⟨.stored [⟨"org", "app", "m1", "a", 0, 0⟩], false⟩)
      (([.start 1, .act 1 (.load false)] ++ verifies 1 "b") ++
        ([.start 2, .act 2 (.load false)] ++ verifies 2 "c")) _ := run_of_exec rfl
  obtain ⟨hold, hnew⟩ := updates_kept hrun
  exact ⟨_, _, _, _, hrun, rfl, rfl, rfl, rfl, hold _ (List.mem_singleton.mpr rfl),
    hnew 1 _ ⟨"org", "app", none⟩ _ _ _ rfl rfl rfl,
    hnew 2 _ ⟨"org", "app", none⟩ _ _ _ rfl rfl rfl⟩

theorem file_eq_replay_inTurn : ∃ labels s, Run step Undisturbed (init ⟨.absent, false⟩) labels s ∧
    s.written.length = 2 ∧
    current s.dir = replay (current ⟨.absent, false⟩) (s.written.map Prod.snd) := by
  have hrun : Run step Undisturbed (init ⟨.absent, false⟩)
      (([.start 1, .act 1 (.load false)] ++ verifies 1 "b") ++
        ([.start 2, .act 2 (.load false)] ++ verifies 2 "c")) _ := run_of_exec rfl
  exact ⟨_, _, hrun, rfl, file_eq_replay hrun⟩

/-- Two processes load the file before either has written it: both return `Ok`, and the entry of
    the first one is lost. -/
theorem update_lost :
    ∃ labels s c₁ c₂, Run step Any (init ⟨.absent, false⟩) labels s ∧
      s.procs 1 = some c₁ ∧ c₁.phase = .returned true ∧
      c₁.update = some (.verified ⟨"org", "app", none⟩ "m1" "b" 1) ∧
      s.procs 2 = some c₂ ∧ c₂.phase = .returned true ∧
      s.dir.file.entries = [⟨"org", "app", "m1", "c", 2, 2⟩] ∧
      ¬ s.Keeps (some 1) ⟨"org", "app", "m1", "b", 1, 1⟩ := by
  have hrun : Run step Any (init ⟨.absent, false⟩)
      ([.start 1, .start 2, .act 1 (.load false), .act 2 (.load false)] ++ verifies 1 "b" ++
        verifies 2 "c") _ := run_of_exec rfl
  refine ⟨_, _, _, _, hrun, rfl, rfl, rfl, rfl, rfl, rfl, ?_⟩
  intro hkeeps
  obtain ⟨e, he, hsame, -⟩ := hkeeps
  obtain rfl : e = ⟨"org", "app", "m1", "c", 2, 2⟩ := List.mem_singleton.mp he
  exact absurd hsame.2.2.2 (by decide)

end FlyVault.Client.CacheUpdates
