/-
  The routing tables of the proxy: `refresh_once` (`crates/proxy/src/machines.rs`), with the
  lookups of `run_proxy` and `maybe_start_machine` (`crates/proxy/src/proxy.rs`) that read them.

  A refresh builds both tables from one listing of the API and then stores them, each under its
  own lock. Any number of refreshes may be under way: that of the poller, and one for each
  machine that has been started. A refresh is a task with a number, and what it has fetched is
  its label. How an address is parsed does not matter here: `parseIp` is any function.

  `tables_agree`: if no refresh stores its first table while another one has stored only that,
  and no listing has a machine twice, both tables come from the same listing whenever no refresh
  is between its two writes. `tables_crossed` is a run of two refreshes that cross, after which
  a machine that runs is neither routed to nor started.
-/
import FlyVault.Lib.Run
import FlyVault.Lib.Update
import Mathlib.Data.List.Nodup

namespace FlyVault.Proxy.RoutingTables

open FlyVault.Lib

structure MachineInfo where
  state : String
  deriving DecidableEq, Repr

/-- An entry of the listing. -/
structure MachineEntry where
  id : String
  state : String
  privateIp : Option String
  deriving DecidableEq, Repr

variable {Ip : Type}

/-- `MachineMap` and `FullMachineMap`. -/
structure Tables (Ip : Type) where
  machineMap : String → Option Ip
  fullMap : String → Option MachineInfo

def Tables.empty : Tables Ip := ⟨fun _ => none, fun _ => none⟩

section

variable (parseIp : String → Option Ip)

/-- One round of the loop of `refresh_once`. -/
def addEntry (t : Tables Ip) (entry : MachineEntry) : Tables Ip :=
  let fullMap := Function.update t.fullMap entry.id (some ⟨entry.state⟩)
  if entry.state = "started" then
    match entry.privateIp.bind parseIp with
    | some ip => ⟨Function.update t.machineMap entry.id (some ip), fullMap⟩
    | none => ⟨t.machineMap, fullMap⟩
  else ⟨t.machineMap, fullMap⟩

/-- `new_map` and `new_full`. -/
def buildTables (entries : List MachineEntry) : Tables Ip :=
  entries.foldl (addEntry parseIp) .empty

end

/-- Where a refresh is. -/
inductive Phase (Ip : Type)
  | idle
  /-- Both tables are built. -/
  | fetched (t : Tables Ip)
  /-- `machine_map` is stored, `full_machine_map` is not. -/
  | between (t : Tables Ip)

structure Sys (Ip : Type) where
  tables : Tables Ip
  phase : Nat → Phase Ip
  /-- All listings that have been fetched. -/
  listings : List (List MachineEntry)

def init : Sys Ip := ⟨.empty, fun _ => .idle, []⟩

inductive Label
  /-- The refresh `i` starts, and this is what the API answers. -/
  | fetch (i : Nat) (answer : Except String (List MachineEntry))
  | writeMap (i : Nat)
  | writeFull (i : Nat)

def Sys.setPhase (s : Sys Ip) (i : Nat) (p : Phase Ip) : Sys Ip :=
  { s with phase := Function.update s.phase i p }

def step (parseIp : String → Option Ip) (s : Sys Ip) : Label → Option (Sys Ip)
  | .fetch i answer =>
      match s.phase i, answer with
      | .idle, .ok entries =>
          some { s.setPhase i (.fetched (buildTables parseIp entries)) with
            listings := entries :: s.listings }
      -- the previous tables are kept
      | .idle, .error _ => some s
      | _, _ => none
  | .writeMap i =>
      match s.phase i with
      | .fetched t =>
          some { s.setPhase i (.between t) with
            tables := { s.tables with machineMap := t.machineMap } }
      | _ => none
  | .writeFull i =>
      match s.phase i with
      | .between t =>
          some { s.setPhase i .idle with tables := { s.tables with fullMap := t.fullMap } }
      | _ => none

/-! ## The readers -/

/-- The backend of `run_proxy`; without one the packet is dropped. -/
def backend (t : Tables Ip) (machineId : String) : Option Ip := t.machineMap machineId

/-- `should_start` of `maybe_start_machine`. -/
def shouldStart (t : Tables Ip) (machineId : String) : Bool :=
  match t.fullMap machineId with
  | some info => ["stopped", "suspended", "created"].contains info.state
  | none => false

/-! ## One listing -/

/-- The first table holds exactly the machines that the second one records as started and that
    have an address in the listing. -/
def Agree (parseIp : String → Option Ip) (t : Tables Ip) (entries : List MachineEntry) : Prop :=
  ∀ id ip, t.machineMap id = some ip ↔ t.fullMap id = some ⟨"started"⟩ ∧
    ∃ entry ∈ entries, entry.id = id ∧ entry.privateIp.bind parseIp = some ip

variable {parseIp : String → Option Ip}

/-- What an entry adds to the first table. -/
def routed (parseIp : String → Option Ip) (entry : MachineEntry) : Option Ip :=
  if entry.state = "started" then entry.privateIp.bind parseIp else none

theorem addEntry_fullMap (t : Tables Ip) (entry : MachineEntry) :
    (addEntry parseIp t entry).fullMap =
      Function.update t.fullMap entry.id (some ⟨entry.state⟩) := by
  unfold addEntry
  dsimp only
  split
  · split
    · rfl
    · rfl
  · rfl

theorem addEntry_machineMap (t : Tables Ip) (entry : MachineEntry) (id : String) :
    (addEntry parseIp t entry).machineMap id =
      if id = entry.id then (routed parseIp entry).or (t.machineMap id) else t.machineMap id := by
  unfold addEntry routed
  dsimp only
  split
  · cases entry.privateIp.bind parseIp with
    | some ip =>
        by_cases hid : id = entry.id
        · subst hid
          simp
        · simp [hid]
    | none => simp
  · simp

section

variable (parseIp : String → Option Ip)

/-- Entries of other machines do not matter. -/
theorem foldl_addEntry_of_notMem {entries : List MachineEntry} {id : String} (t : Tables Ip)
    (h : id ∉ entries.map MachineEntry.id) :
    (entries.foldl (addEntry parseIp) t).machineMap id = t.machineMap id ∧
      (entries.foldl (addEntry parseIp) t).fullMap id = t.fullMap id := by
  induction entries generalizing t with
  | nil => exact ⟨rfl, rfl⟩
  | cons entry rest ih =>
      rw [List.map_cons, List.mem_cons, not_or] at h
      obtain ⟨hne, hrest⟩ := h
      obtain ⟨hmap, hfull⟩ := ih (addEntry parseIp t entry) hrest
      rw [List.foldl_cons, hmap, hfull, addEntry_machineMap, if_neg hne, addEntry_fullMap,
        Function.update_of_ne hne]
      exact ⟨rfl, rfl⟩

/-- Without repetitions each entry is in the tables as it is. -/
theorem foldl_addEntry_of_mem {entries : List MachineEntry} {entry : MachineEntry} (t : Tables Ip)
    (hnodup : (entries.map MachineEntry.id).Nodup) (hmem : entry ∈ entries)
    (hnew : t.machineMap entry.id = none) :
    (entries.foldl (addEntry parseIp) t).machineMap entry.id = routed parseIp entry ∧
      (entries.foldl (addEntry parseIp) t).fullMap entry.id = some ⟨entry.state⟩ := by
  induction entries generalizing t with
  | nil => cases hmem
  | cons head rest ih =>
      obtain ⟨hhead, hrest⟩ := List.nodup_cons.mp hnodup
      rw [List.foldl_cons]
      obtain rfl | hmem := List.mem_cons.mp hmem
      · obtain ⟨hmap, hfull⟩ := foldl_addEntry_of_notMem parseIp (addEntry parseIp t entry) hhead
        rw [hmap, hfull, addEntry_machineMap, if_pos rfl, hnew, addEntry_fullMap,
          Function.update_self, Option.or_none]
        exact ⟨rfl, rfl⟩
      · have hne : entry.id ≠ head.id := by
          intro heq
          exact hhead (heq ▸ List.mem_map_of_mem hmem)
        refine ih (addEntry parseIp t head) hrest hmem ?_
        rw [addEntry_machineMap, if_neg hne, hnew]

end

theorem buildTables_agree {entries : List MachineEntry}
    (hnodup : (entries.map MachineEntry.id).Nodup) :
    Agree parseIp (buildTables parseIp entries) entries := by
  intro id ip
  by_cases hmem : id ∈ entries.map MachineEntry.id
  · obtain ⟨entry, hentry, rfl⟩ := List.mem_map.mp hmem
    obtain ⟨hmap, hfull⟩ := foldl_addEntry_of_mem parseIp .empty hnodup hentry rfl
    unfold buildTables
    rw [hmap, hfull, routed]
    have honly : ∀ other ∈ entries, other.id = entry.id → other = entry := fun other hother =>
      List.inj_on_of_nodup_map hnodup hother hentry
    constructor
    · intro h
      split at h
      · next hstarted => exact ⟨by rw [hstarted], entry, hentry, rfl, h⟩
      · cases h
    · intro h
      obtain ⟨hstarted, other, hother, hid, hip⟩ := h
      rw [Option.some.injEq, MachineInfo.mk.injEq] at hstarted
      rw [if_pos hstarted, ← honly other hother hid, hip]
  · obtain ⟨hmap, hfull⟩ := foldl_addEntry_of_notMem parseIp .empty hmem
    unfold buildTables
    rw [hmap, hfull]
    refine iff_of_false (by simp [Tables.empty]) fun h => ?_
    simp [Tables.empty] at h

/-! ## Refreshes in turn -/

/-- No refresh is between its two writes. -/
def Sys.Settled (s : Sys Ip) : Prop := ∀ j t, s.phase j ≠ .between t

/-- A refresh starts to write only when no other one is between its writes, and no listing has a
    machine twice. -/
def InTurn (s : Sys Ip) : Label → Prop
  | .fetch _ (.ok entries) => (entries.map MachineEntry.id).Nodup
  | .writeMap _ => s.Settled
  | _ => True

/-- The tables are those of one of the listings. -/
def From (parseIp : String → Option Ip) (listings : List (List MachineEntry)) (t : Tables Ip) :
    Prop :=
  ∃ entries ∈ listings, (entries.map MachineEntry.id).Nodup ∧ t = buildTables parseIp entries

structure Inv (parseIp : String → Option Ip) (s : Sys Ip) : Prop where
  fetched : ∀ i t, s.phase i = .fetched t → From parseIp s.listings t
  between : ∀ i t, s.phase i = .between t →
    From parseIp s.listings t ∧ s.tables.machineMap = t.machineMap
  alone : ∀ i j t u, s.phase i = .between t → s.phase j = .between u → i = j
  /-- Before the first refresh the tables are those of the empty listing. -/
  settled : s.Settled → From parseIp ([] :: s.listings) s.tables

theorem inv_init : Inv parseIp (init : Sys Ip) := by
  refine ⟨by simp [init], by simp [init], by simp [init], fun _ => ?_⟩
  exact ⟨[], List.mem_cons_self, List.nodup_nil, rfl⟩

theorem From.mono {listings listings' : List (List MachineEntry)} {t : Tables Ip}
    (h : From parseIp listings t) (hsub : listings ⊆ listings') : From parseIp listings' t := by
  obtain ⟨entries, hmem, hnodup, ht⟩ := h
  exact ⟨entries, hsub hmem, hnodup, ht⟩

theorem inv_fetch {s : Sys Ip} {i : Nat} {entries : List MachineEntry} (hs : Inv parseIp s)
    (hidle : s.phase i = .idle) (hnodup : (entries.map MachineEntry.id).Nodup) :
    Inv parseIp { s.setPhase i (.fetched (buildTables parseIp entries)) with
      listings := entries :: s.listings } := by
  have hbetween : ∀ j t, Function.update s.phase i (.fetched (buildTables parseIp entries)) j =
      .between t → s.phase j = .between t := by
    intro j t hj
    obtain ⟨-, hp⟩ | ⟨-, hj⟩ := update_eq_iff.mp hj
    · cases hp
    · exact hj
  refine ⟨?_, ?_, ?_, ?_⟩
  · intro j t hj
    obtain ⟨-, hp⟩ | ⟨-, hj⟩ := update_eq_iff.mp hj
    · cases hp
      exact ⟨entries, List.mem_cons_self, hnodup, rfl⟩
    · exact (hs.fetched j t hj).mono (List.subset_cons_self _ _)
  · intro j t hj
    obtain ⟨hfrom, hmap⟩ := hs.between j t (hbetween j t hj)
    exact ⟨hfrom.mono (List.subset_cons_self _ _), hmap⟩
  · intro j k t u hj hk
    exact hs.alone j k t u (hbetween j t hj) (hbetween k u hk)
  · intro hsettled
    have hold : s.Settled := by
      intro j t hj
      refine hsettled j t (update_eq_iff.mpr (.inr ⟨?_, hj⟩))
      intro heq
      rw [heq, hidle] at hj
      cases hj
    refine (hs.settled hold).mono (List.cons_subset_cons _ ?_)
    exact List.subset_cons_self _ _

theorem inv_writeMap {s : Sys Ip} {i : Nat} {t : Tables Ip} (hs : Inv parseIp s)
    (hphase : s.phase i = .fetched t) (hturn : s.Settled) :
    Inv parseIp { s.setPhase i (.between t) with
      tables := { s.tables with machineMap := t.machineMap } } := by
  -- the only refresh between its writes is this one
  have honly : ∀ j u, Function.update s.phase i (.between t) j = .between u → j = i ∧ u = t := by
    intro j u hj
    obtain ⟨hji, hp⟩ | ⟨-, hj⟩ := update_eq_iff.mp hj
    · cases hp
      exact ⟨hji, rfl⟩
    · exact absurd hj (hturn j u)
  refine ⟨?_, ?_, ?_, ?_⟩
  · intro j u hj
    obtain ⟨-, hp⟩ | ⟨-, hj⟩ := update_eq_iff.mp hj
    · cases hp
    · exact hs.fetched j u hj
  · intro j u hj
    obtain ⟨-, rfl⟩ := honly j u hj
    exact ⟨hs.fetched i u hphase, rfl⟩
  · intro j k u v hj hk
    rw [(honly j u hj).1, (honly k v hk).1]
  · intro hsettled
    exact absurd (Function.update_self ..) (hsettled i t)

theorem inv_writeFull {s : Sys Ip} {i : Nat} {t : Tables Ip} (hs : Inv parseIp s)
    (hphase : s.phase i = .between t) :
    Inv parseIp { s.setPhase i .idle with
      tables := { s.tables with fullMap := t.fullMap } } := by
  obtain ⟨hfrom, hmap⟩ := hs.between i t hphase
  have hnone : ∀ j u, Function.update s.phase i .idle j ≠ .between u := by
    intro j u hj
    obtain ⟨-, hp⟩ | ⟨hji, hj⟩ := update_eq_iff.mp hj
    · cases hp
    · exact hji (hs.alone j i u t hj hphase)
  refine ⟨?_, ?_, ?_, ?_⟩
  · intro j u hj
    obtain ⟨-, hp⟩ | ⟨-, hj⟩ := update_eq_iff.mp hj
    · cases hp
    · exact hs.fetched j u hj
  · intro j u hj
    exact absurd hj (hnone j u)
  · intro j k u v hj
    exact absurd hj (hnone j u)
  · intro _
    show From parseIp ([] :: s.listings) ⟨s.tables.machineMap, t.fullMap⟩
    rw [hmap]
    exact hfrom.mono (List.subset_cons_self _ _)

theorem inv_step (s : Sys Ip) (a : Label) (s' : Sys Ip) (hs : Inv parseIp s) (hturn : InTurn s a)
    (h : step parseIp s a = some s') : Inv parseIp s' := by
  cases a with
  | fetch i answer =>
      simp only [step] at h
      split at h
      · next hidle =>
          cases h
          exact inv_fetch hs hidle hturn
      · cases h
        exact hs
      · cases h
  | writeMap i =>
      simp only [step] at h
      split at h
      · next hphase =>
          cases h
          exact inv_writeMap hs hphase hturn
      · cases h
  | writeFull i =>
      simp only [step] at h
      split at h
      · next hphase =>
          cases h
          exact inv_writeFull hs hphase
      · cases h

/-- If refreshes write in turn, both tables come from one listing whenever none is between its
    writes, and the first one holds exactly the started machines with an address. -/
theorem tables_agree (parseIp : String → Option Ip) (as : List Label) (s : Sys Ip)
    (hrun : Run (step parseIp) InTurn init as s) (hsettled : s.Settled) :
    ∃ entries ∈ [] :: s.listings, s.tables = buildTables parseIp entries ∧
      Agree parseIp s.tables entries := by
  have hinv := hrun.inv (Inv parseIp) inv_step inv_init
  obtain ⟨entries, hmem, hnodup, htables⟩ := hinv.settled hsettled
  refine ⟨entries, hmem, htables, ?_⟩
  rw [htables]
  exact buildTables_agree hnodup

/-! ## Two refreshes -/

def stopped : List MachineEntry := [⟨"m", "stopped", none⟩]

def started : List MachineEntry := [⟨"m", "started", some "fdaa::3"⟩]

theorem Sys.Settled.setPhase {s : Sys Ip} {i : Nat} {p : Phase Ip}
    (hs : ∀ j t, s.phase j = .between t → j = i) (hp : ∀ t, p ≠ .between t) :
    (s.setPhase i p).Settled := by
  intro j t hj
  obtain ⟨-, hj⟩ | ⟨hne, hj⟩ := update_eq_iff.mp hj
  · exact hp t hj
  · exact hne (hs j t hj)

/-- A refresh alone. -/
theorem tables_agree_alone : ∃ s : Sys String,
    Run (step some) InTurn init [.fetch 0 (.ok started), .writeMap 0, .writeFull 0] s ∧
    s.Settled ∧ backend s.tables "m" = some "fdaa::3" ∧
    ∃ entries ∈ [] :: s.listings, s.tables = buildTables some entries ∧
      Agree some s.tables entries := by
  have hnodup : (started.map MachineEntry.id).Nodup := by decide
  have hfetched : ((init : Sys String).setPhase 0 (.fetched (buildTables some started))).Settled :=
    .setPhase (fun _ _ h => by cases h) (by simp)
  have hrun : ∃ s : Sys String,
      Run (step some) InTurn init [.fetch 0 (.ok started), .writeMap 0, .writeFull 0] s ∧
      s.Settled ∧ backend s.tables "m" = some "fdaa::3" := by
    refine ⟨_, .cons hnodup rfl (.cons hfetched rfl (.cons trivial rfl (.nil _))), ?_, by decide⟩
    refine .setPhase ?_ (by simp)
    intro j t hj
    obtain ⟨hj, -⟩ | ⟨-, hj⟩ := update_eq_iff.mp hj
    · exact hj
    · exact absurd hj (hfetched j t)
  obtain ⟨s, hrun, hsettled, hbackend⟩ := hrun
  exact ⟨s, hrun, hsettled, hbackend, tables_agree some _ s hrun hsettled⟩

/-- The first table is that of the older listing, the second one that of the newer: the machine
    runs and has an address, but no packet reaches it and no packet starts it. -/
theorem tables_crossed : ∃ s : Sys String,
    Run (step some) Any init [.fetch 0 (.ok stopped), .fetch 1 (.ok started), .writeMap 1,
      .writeMap 0, .writeFull 0, .writeFull 1] s ∧
    s.Settled ∧ s.tables.fullMap "m" = some ⟨"started"⟩ ∧ backend s.tables "m" = none ∧
    shouldStart s.tables "m" = false ∧
    ¬ ∃ entries ∈ [] :: s.listings, s.tables = buildTables some entries := by
  refine ⟨_, run_of_exec rfl, ?_, by decide, by decide, by decide, ?_⟩
  · intro j t hj
    simp only [Sys.setPhase, init] at hj
    obtain ⟨-, hj⟩ | ⟨h1, hj⟩ := update_eq_iff.mp hj
    · cases hj
    · obtain ⟨-, hj⟩ | ⟨h0, hj⟩ := update_eq_iff.mp hj
      · cases hj
      · simp [h0, h1] at hj
  · intro h
    obtain ⟨entries, hmem, htables⟩ := h
    have hmap := congrFun (congrArg Tables.machineMap htables) "m"
    have hfull := congrFun (congrArg Tables.fullMap htables) "m"
    have hmem : entries ∈ [[], started, stopped] := hmem
    obtain rfl | rfl | rfl : entries = [] ∨ entries = started ∨ entries = stopped := by
      simpa using hmem
    · exact absurd hfull (by decide)
    · exact absurd hmap (by decide)
    · exact absurd hfull (by decide)

end FlyVault.Proxy.RoutingTables
