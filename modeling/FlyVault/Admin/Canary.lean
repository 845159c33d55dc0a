/-
  The choice of the canaries (`select_canary_indices`, `crates/admin/src/rollout.rs`).

  The first loop takes the first machine of each tenant, the second one fills up with any other
  machines; the first one may return before the second. `Picks` says what the first loop adds:
  machines of different tenants, and either as many as asked for or one of every tenant. What the
  second one adds cannot take this away, and no choice covers more tenants than it has machines
  or than there are, so the choice is the best one (`canary_choice`).
-/
import FlyVault.Admin.Rollout
import Mathlib.Data.Finset.Card
import Mathlib.Data.Finset.Dedup
import Mathlib.Data.List.Nodup
import Mathlib.Data.List.Perm.Subperm

namespace FlyVault.Admin

open FlyVault.Lib

/-! ## Tenants -/

/-- The different tenants of some machines. -/
def tenantsOf (machines : List MachineSnapshot) : Finset String :=
  (machines.map MachineSnapshot.tenantId).toFinset

/-- The different tenants of the machines with the given indices. -/
def tenantsAt (targets : List MachineSnapshot) (indices : List Nat) : Finset String :=
  tenantsOf (indices.filterMap (targets[·]?))

theorem mem_tenantsOf {machines : List MachineSnapshot} {tenant : String} :
    tenant ∈ tenantsOf machines ↔ ∃ s ∈ machines, s.tenantId = tenant := by
  rw [tenantsOf, List.mem_toFinset, List.mem_map]

theorem mem_tenantsAt {targets : List MachineSnapshot} {indices : List Nat} {tenant : String} :
    tenant ∈ tenantsAt targets indices ↔
      ∃ s, (∃ idx ∈ indices, targets[idx]? = some s) ∧ s.tenantId = tenant := by
  simp only [tenantsAt, mem_tenantsOf, List.mem_filterMap]

/-- A choice covers at most as many tenants as it has machines, and as there are. -/
theorem card_tenantsAt_le (targets : List MachineSnapshot) (indices : List Nat) :
    (tenantsAt targets indices).card ≤ min indices.length (tenantsOf targets).card := by
  refine Nat.le_min.mpr ⟨?_, Finset.card_le_card fun tenant htenant => ?_⟩
  · calc (tenantsAt targets indices).card
        ≤ ((indices.filterMap (targets[·]?)).map MachineSnapshot.tenantId).length :=
          List.toFinset_card_le _
      _ = (indices.filterMap (targets[·]?)).length := List.length_map ..
      _ ≤ indices.length := List.length_filterMap_le ..
  · obtain ⟨s, ⟨idx, _, hs⟩, hown⟩ := mem_tenantsAt.mp htenant
    exact mem_tenantsOf.mpr ⟨s, List.mem_of_getElem? hs, hown⟩

/-! ## The two loops -/

/-- What the first loop adds to the indices it has picked. -/
structure Picks (count : Nat) (entries : List (MachineSnapshot × Nat)) (seen : List String)
    (picked : List Nat) (added : List (MachineSnapshot × Nat)) : Prop where
  sublist : added.Sublist entries
  room : picked.length + added.length ≤ count
  tenants : (added.map fun entry => entry.1.tenantId).Nodup
  unseen : ∀ entry ∈ added, entry.1.tenantId ∉ seen
  /-- There are enough, or every tenant is there. -/
  done : picked.length + added.length = count ∨
    ∀ entry ∈ entries, entry.1.tenantId ∈ seen ∨
      entry.1.tenantId ∈ added.map fun entry => entry.1.tenantId

theorem Picks.skip {count : Nat} {entry : MachineSnapshot × Nat}
    {rest added : List (MachineSnapshot × Nat)} {seen : List String} {picked : List Nat}
    (h : Picks count rest seen picked added) (hseen : entry.1.tenantId ∈ seen) :
    Picks count (entry :: rest) seen picked added := by
  refine ⟨h.sublist.cons entry, h.room, h.tenants, h.unseen, h.done.imp id fun hall => ?_⟩
  exact List.forall_mem_cons.mpr ⟨.inl hseen, hall⟩

theorem Picks.take {count : Nat} {entry : MachineSnapshot × Nat}
    {rest added : List (MachineSnapshot × Nat)} {seen : List String} {picked : List Nat}
    (h : Picks count rest (entry.1.tenantId :: seen) (picked ++ [entry.2]) added)
    (hseen : entry.1.tenantId ∉ seen) :
    Picks count (entry :: rest) seen picked (entry :: added) := by
  have hlen : (picked ++ [entry.2]).length + added.length =
      picked.length + (entry :: added).length := by
    simp only [List.length_append, List.length_cons, List.length_nil]
    omega
  have hnew : entry.1.tenantId ∉ added.map fun entry => entry.1.tenantId := by
    intro hmem
    obtain ⟨other, hother, hsame⟩ := List.mem_map.mp hmem
    exact h.unseen other hother (by rw [hsame]; exact List.mem_cons_self)
  refine ⟨h.sublist.cons_cons entry, hlen ▸ h.room, List.nodup_cons.mpr ⟨hnew, h.tenants⟩, ?_, ?_⟩
  · refine List.forall_mem_cons.mpr ⟨hseen, fun other hother hmem => ?_⟩
    exact h.unseen other hother (.tail _ hmem)
  · refine h.done.imp (fun hfull => hlen ▸ hfull) fun hall => ?_
    refine List.forall_mem_cons.mpr ⟨.inr List.mem_cons_self, fun other hother => ?_⟩
    rw [List.map_cons]
    obtain hmem | hmem := hall other hother
    · obtain hsame | hmem := List.mem_cons.mp hmem
      · exact .inr (hsame ▸ List.mem_cons_self)
      · exact .inl hmem
    · exact .inr (.tail _ hmem)

/-- The first loop picks machines of tenants it has not seen, in their order. -/
theorem pickTenants_spec {count : Nat} (entries : List (MachineSnapshot × Nat))
    (seen : List String) {picked : List Nat} (hlen : picked.length < count) :
    ∃ added, pickTenants count entries seen picked = picked ++ added.map Prod.snd ∧
      Picks count entries seen picked added := by
  fun_induction pickTenants with
  | case1 seen picked =>
      exact ⟨[], by simp, .refl _, Nat.le_of_lt hlen, List.nodup_nil, List.forall_mem_nil _,
        .inr (List.forall_mem_nil _)⟩
  | case2 snapshot idx rest seen picked hseen ih =>
      obtain ⟨added, heq, hpicks⟩ := ih hlen
      exact ⟨added, heq, hpicks.skip (List.contains_iff_mem.mp hseen)⟩
  | case3 snapshot idx rest seen picked hseen hlast =>
      refine ⟨[(snapshot, idx)], rfl, (List.nil_sublist _).cons_cons _, Nat.le_of_eq hlast,
        List.nodup_singleton _, ?_, .inl hlast⟩
      exact List.forall_mem_singleton.mpr fun hmem => hseen (List.contains_iff_mem.mpr hmem)
  | case4 snapshot idx rest seen picked hseen hmore ih =>
      have hlen' : (picked ++ [idx]).length < count := by
        rw [List.length_append, List.length_singleton]
        omega
      obtain ⟨added, heq, hpicks⟩ := ih hlen'
      refine ⟨(snapshot, idx) :: added, ?_, ?_⟩
      · rw [heq, List.append_assoc]
        rfl
      · exact hpicks.take fun hmem => hseen (List.contains_iff_mem.mpr hmem)

/-- The second loop adds indices that are not there, until there are enough or none is left. -/
theorem pickOthers_spec {count : Nat} (indices : List Nat) {picked : List Nat}
    (hnodup : picked.Nodup) (hlen : picked.length ≤ count) :
    (pickOthers count indices picked).Nodup ∧ picked ⊆ pickOthers count indices picked ∧
      pickOthers count indices picked ⊆ picked ++ indices ∧
      (pickOthers count indices picked).length ≤ count ∧
      ((pickOthers count indices picked).length = count ∨
        indices ⊆ pickOthers count indices picked) := by
  fun_induction pickOthers with
  | case1 picked => exact ⟨hnodup, .refl _, by simp, hlen, .inr (List.nil_subset _)⟩
  | case2 idx rest picked hfull =>
      exact ⟨hnodup, .refl _, List.subset_append_left _ _, hlen, .inl hfull⟩
  | case3 idx rest picked hfull hmem ih =>
      obtain ⟨hnodup', hold, hnew, hle, hdone⟩ := ih hnodup hlen
      refine ⟨hnodup', hold, ?_, hle, hdone.imp id ?_⟩
      · refine List.Subset.trans hnew (List.append_subset.mpr ⟨List.subset_append_left _ _, ?_⟩)
        exact List.subset_append_of_subset_right _ (List.subset_cons_self _ _)
      · intro hrest
        exact List.cons_subset.mpr ⟨hold (List.contains_iff_mem.mp hmem), hrest⟩
  | case4 idx rest picked hfull hmem ih =>
      have hnot : idx ∉ picked := fun h => hmem (List.contains_iff_mem.mpr h)
      have hlen' : (picked ++ [idx]).length ≤ count := by
        rw [List.length_append, List.length_singleton]
        omega
      have hdistinct : (picked ++ [idx]).Nodup := by
        refine hnodup.append (List.nodup_singleton idx) ?_
        exact List.disjoint_singleton.mpr hnot
      obtain ⟨hnodup', hold, hnew, hle, hdone⟩ := ih hdistinct hlen'
      obtain ⟨hpicked, hidx⟩ := List.append_subset.mp hold
      refine ⟨hnodup', hpicked, ?_, hle, hdone.imp id ?_⟩
      · rwa [List.append_assoc] at hnew
      · intro hrest
        exact List.cons_subset.mpr ⟨hidx List.mem_cons_self, hrest⟩

/-- The two loops together. The returns at the top are for cases in which they add nothing. -/
theorem selectCanaryIndices_eq (targets : List MachineSnapshot) (count : Nat) :
    ∃ added, Picks count targets.zipIdx [] [] added ∧
      selectCanaryIndices targets count =
        pickOthers count (List.range targets.length) (added.map Prod.snd) := by
  unfold selectCanaryIndices
  by_cases hcount : count = 0
  · subst hcount
    refine ⟨[], ⟨List.nil_sublist _, Nat.le_refl 0, List.nodup_nil, List.forall_mem_nil _,
      .inl rfl⟩, ?_⟩
    cases List.range targets.length <;> rfl
  · obtain ⟨added, heq, hpicks⟩ := pickTenants_spec targets.zipIdx []
      (show ([] : List Nat).length < count from Nat.pos_of_ne_zero hcount)
    refine ⟨added, hpicks, ?_⟩
    cases targets with
    | nil =>
        obtain rfl : added = [] := List.sublist_nil.mp hpicks.sublist
        simp [pickOthers]
    | cons snapshot rest =>
        rw [if_neg (by simp [hcount]), heq, List.nil_append]

theorem Picks.indices {count : Nat} {targets : List MachineSnapshot}
    {added : List (MachineSnapshot × Nat)} (h : Picks count targets.zipIdx [] [] added) :
    (added.map Prod.snd).Sublist (List.range targets.length) := by
  have hindices : targets.zipIdx.map Prod.snd = List.range targets.length := by
    rw [List.zipIdx_map_snd, List.range_eq_range']
  exact hindices ▸ h.sublist.map Prod.snd

/-- The choice of the first loop covers as many tenants as possible. -/
theorem Picks.covers {count : Nat} {targets : List MachineSnapshot}
    {added : List (MachineSnapshot × Nat)} (h : Picks count targets.zipIdx [] [] added)
    {indices : List Nat} (hsub : added.map Prod.snd ⊆ indices) :
    min count (tenantsOf targets).card ≤ (tenantsAt targets indices).card := by
  have hadded : (added.map fun entry => entry.1.tenantId).toFinset ⊆
      tenantsAt targets indices := by
    intro tenant htenant
    obtain ⟨entry, hentry, hown⟩ := List.mem_map.mp (List.mem_toFinset.mp htenant)
    have hat := List.mem_zipIdx_iff_getElem?.mp (h.sublist.subset hentry)
    exact mem_tenantsAt.mpr ⟨entry.1, ⟨entry.2, hsub (List.mem_map_of_mem hentry), hat⟩, hown⟩
  refine Nat.le_trans ?_ (Finset.card_le_card hadded)
  rw [List.toFinset_card_of_nodup h.tenants, List.length_map]
  obtain hfull | hall := h.done
  · rw [List.length_nil, Nat.zero_add] at hfull
    omega
  · have htenants : tenantsOf targets ⊆ (added.map fun entry => entry.1.tenantId).toFinset := by
      intro tenant htenant
      obtain ⟨s, hs, hown⟩ := mem_tenantsOf.mp htenant
      obtain ⟨idx, hidx⟩ := List.mem_iff_getElem?.mp hs
      obtain hnone | hmem := hall (s, idx) (List.mem_zipIdx_iff_getElem?.mpr hidx)
      · cases hnone
      · exact List.mem_toFinset.mpr (hown ▸ hmem)
    have hcard := Finset.card_le_card htenants
    rw [List.toFinset_card_of_nodup h.tenants, List.length_map] at hcard
    omega

/-- What the second loop makes of the choice of the first. -/
theorem Picks.filled {count : Nat} {targets : List MachineSnapshot}
    {added : List (MachineSnapshot × Nat)} (h : Picks count targets.zipIdx [] [] added) :
    let chosen := pickOthers count (List.range targets.length) (added.map Prod.snd)
    chosen.Nodup ∧ added.map Prod.snd ⊆ chosen ∧ chosen ⊆ List.range targets.length ∧
      chosen.length ≤ count ∧ (chosen.length = count ∨ List.range targets.length ⊆ chosen) := by
  have hroom : (added.map Prod.snd).length ≤ count := by
    have hroom := h.room
    rwa [List.length_nil, Nat.zero_add, ← List.length_map Prod.snd] at hroom
  obtain ⟨hnodup, hold, hnew, hlen, hdone⟩ := pickOthers_spec (List.range targets.length)
    (List.nodup_range.sublist h.indices) hroom
  have hrange := List.append_subset.mpr ⟨h.indices.subset, List.Subset.refl _⟩
  exact ⟨hnodup, hold, List.Subset.trans hnew hrange, hlen, hdone⟩

/-- The indices of the canaries are distinct indices of targets, as many as asked for. -/
theorem selectCanaryIndices_spec (targets : List MachineSnapshot) (count : Nat) :
    (selectCanaryIndices targets count).Nodup ∧
      selectCanaryIndices targets count ⊆ List.range targets.length ∧
      (selectCanaryIndices targets count).length = min count targets.length := by
  obtain ⟨added, hpicks, heq⟩ := selectCanaryIndices_eq targets count
  obtain ⟨hnodup, -, hsub, hlen, hdone⟩ := hpicks.filled
  rw [heq]
  refine ⟨hnodup, hsub, ?_⟩
  have hfew := (hnodup.subperm hsub).length_le
  rw [List.length_range] at hfew
  obtain hdone | hall := hdone
  · omega
  · have hmany := (List.nodup_range.subperm hall).length_le
    rw [List.length_range] at hmany
    omega

theorem card_tenantsAt_selectCanaryIndices (targets : List MachineSnapshot) (count : Nat) :
    (tenantsAt targets (selectCanaryIndices targets count)).card =
      min count (tenantsOf targets).card := by
  obtain ⟨-, -, hlen⟩ := selectCanaryIndices_spec targets count
  have hmost := card_tenantsAt_le targets (selectCanaryIndices targets count)
  obtain ⟨added, hpicks, heq⟩ := selectCanaryIndices_eq targets count
  have hcovers := hpicks.covers hpicks.filled.2.1
  rw [← heq] at hcovers
  omega

/-- The canaries are `min(count, len)` different targets, and they cover as many tenants as any
    `count` machines can. -/
theorem canary_choice (targets : List MachineSnapshot) (count : Nat) :
    (selectCanaryIndices targets count).length = min count targets.length ∧
    (selectCanaryIndices targets count).Nodup ∧
    (∀ idx ∈ selectCanaryIndices targets count, idx < targets.length) ∧
    (tenantsAt targets (selectCanaryIndices targets count)).card =
      min count (tenantsOf targets).card ∧
    ∀ indices : List Nat, indices.length ≤ count →
      (tenantsAt targets indices).card ≤
        (tenantsAt targets (selectCanaryIndices targets count)).card := by
  obtain ⟨hnodup, hsub, hlen⟩ := selectCanaryIndices_spec targets count
  have hcard := card_tenantsAt_selectCanaryIndices targets count
  refine ⟨hlen, hnodup, fun idx hidx => List.mem_range.mp (hsub hidx), hcard, ?_⟩
  intro indices hcount
  have hother := card_tenantsAt_le targets indices
  omega

/-- A machine of the tenant, with nothing in its configuration. -/
def bareTarget (tenantId : String) : MachineSnapshot :=
  { machineId := "", tenantId, name := none, region := none, metadata := [], config := .null,
    currentVersion := "", previousImage := "" }

/-- Of two machines of one tenant and one of another, the second machine of the first tenant is
    passed over. -/
theorem canary_choice_two :
    selectCanaryIndices [bareTarget "a", bareTarget "a", bareTarget "b"] 2 = [0, 2] ∧
      ∀ indices : List Nat, indices.length ≤ 2 →
        (tenantsAt [bareTarget "a", bareTarget "a", bareTarget "b"] indices).card ≤
          (tenantsAt [bareTarget "a", bareTarget "a", bareTarget "b"] [0, 2]).card := by
  have hchosen : selectCanaryIndices [bareTarget "a", bareTarget "a", bareTarget "b"] 2 =
      [0, 2] := by decide
  obtain ⟨-, -, -, -, hmost⟩ :=
    canary_choice [bareTarget "a", bareTarget "a", bareTarget "b"] 2
  rw [hchosen] at hmost
  exact ⟨hchosen, hmost⟩

end FlyVault.Admin
