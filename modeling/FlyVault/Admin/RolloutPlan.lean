/-
  Which machines a rollout updates together, and in which order.

  `update_image` splits its targets by the indices of the canaries, sorts the others into one
  queue for each tenant and takes batches from the fronts of the queues. `Plan` has the canaries,
  the others and the batches; `batchesOf` is the loop of the rolling stage without the updates.

  `plan_valid`: the canaries are as many as asked for, canaries and batches have every target
  exactly once, the batches keep the order of each tenant's machines, and no batch is empty, has
  more machines than `concurrency` or two of one tenant.
-/
import FlyVault.Admin.Canary
import FlyVault.Admin.Rollback
import Mathlib.Data.List.Nodup
import Mathlib.Data.List.Perm.Subperm

namespace FlyVault.Admin

open FlyVault.Lib FlyVault.Lib.Script

/-! ## Queues -/

/-- The machines of a tenant, in their order. -/
def ofTenant (tenant : String) (machines : List MachineSnapshot) : List MachineSnapshot :=
  machines.filter fun s => s.tenantId = tenant

/-- The queues are in the order of their tenants, and each has machines of its tenant only. -/
structure Queues.Ok (queues : Queues) : Prop where
  sorted : (queues.map Prod.fst).Pairwise (· < ·)
  own : ∀ entry ∈ queues, ∀ s ∈ entry.2, s.tenantId = entry.1

theorem ofTenant_append (tenant : String) (xs ys : List MachineSnapshot) :
    ofTenant tenant (xs ++ ys) = ofTenant tenant xs ++ ofTenant tenant ys :=
  List.filter_append ..

/-- Lists that agree on the machines of each tenant have the same machines. -/
theorem perm_of_ofTenant {xs ys : List MachineSnapshot}
    (h : ∀ tenant, ofTenant tenant xs = ofTenant tenant ys) : xs.Perm ys := by
  classical
  rw [List.perm_iff_count]
  intro s
  have hcount : ∀ zs : List MachineSnapshot, zs.count s = (ofTenant s.tenantId zs).count s := by
    intro zs
    exact (List.count_filter (by simp)).symm
  rw [hcount xs, hcount ys, h]

theorem Queues.machines_cons (tenant : String) (queue : List MachineSnapshot) (rest : Queues) :
    Queues.machines ((tenant, queue) :: rest) = queue ++ Queues.machines rest := rfl

namespace Queues.Ok

variable {queues rest : Queues} {tenant : String} {queue : List MachineSnapshot}

theorem tail (h : Queues.Ok ((tenant, queue) :: rest)) : Queues.Ok rest :=
  ⟨(List.pairwise_cons.mp h.sorted).2, fun entry hentry => h.own entry (.tail _ hentry)⟩

theorem lt (h : Queues.Ok ((tenant, queue) :: rest)) :
    ∀ other ∈ rest.map Prod.fst, tenant < other :=
  (List.pairwise_cons.mp h.sorted).1

theorem tenant_mem (h : Queues.Ok queues) {s : MachineSnapshot} (hs : s ∈ queues.machines) :
    s.tenantId ∈ queues.map Prod.fst := by
  obtain ⟨entry, hentry, hs⟩ := List.mem_flatMap.mp hs
  rw [h.own entry hentry s hs]
  exact List.mem_map_of_mem hentry

/-- A tenant without a queue has no machines. -/
theorem ofTenant_eq_nil (h : Queues.Ok queues) (hnot : tenant ∉ queues.map Prod.fst) :
    ofTenant tenant queues.machines = [] := by
  refine List.filter_eq_nil_iff.mpr fun s hs htenant => hnot ?_
  rw [← of_decide_eq_true htenant]
  exact h.tenant_mem hs

theorem rest_ofTenant (h : Queues.Ok ((tenant, queue) :: rest)) :
    ofTenant tenant (Queues.machines rest) = [] := by
  refine h.tail.ofTenant_eq_nil fun hmem => ?_
  exact String.lt_irrefl tenant (h.lt tenant hmem)

end Queues.Ok

theorem enqueue_keys (snapshot : MachineSnapshot) (queues : Queues) {tenant : String}
    (h : tenant ∈ (enqueue snapshot queues).map Prod.fst) :
    tenant = snapshot.tenantId ∨ tenant ∈ queues.map Prod.fst := by
  fun_induction enqueue with
  | case1 => simpa using h
  | case2 queue rest => exact .inr h
  | case3 key queue rest hne hlt => simpa using h
  | case4 key queue rest hne hlt ih =>
      rw [List.map_cons, List.mem_cons] at h ⊢
      obtain h | h := h
      · exact .inr (.inl h)
      · exact (ih h).imp id .inr

theorem ofTenant_singleton_of_ne {tenant : String} {snapshot : MachineSnapshot}
    (h : tenant ≠ snapshot.tenantId) : ofTenant tenant [snapshot] = [] :=
  List.filter_eq_nil_iff.mpr (by simpa using fun heq => h heq.symm)

/-- A machine may change places with machines of other tenants. -/
theorem ofTenant_comm {snapshot : MachineSnapshot} {machines : List MachineSnapshot}
    (h : ofTenant snapshot.tenantId machines = []) (tenant : String) :
    ofTenant tenant [snapshot] ++ ofTenant tenant machines =
      ofTenant tenant machines ++ ofTenant tenant [snapshot] := by
  by_cases htenant : tenant = snapshot.tenantId
  · rw [htenant, h, List.append_nil, List.nil_append]
  · rw [ofTenant_singleton_of_ne htenant, List.append_nil, List.nil_append]

/-- A machine is added at the end of its tenant's queue. -/
theorem enqueue_spec (snapshot : MachineSnapshot) {queues : Queues} (h : queues.Ok) :
    (enqueue snapshot queues).Ok ∧
      ∀ tenant, ofTenant tenant (Queues.machines (enqueue snapshot queues)) =
        ofTenant tenant queues.machines ++ ofTenant tenant [snapshot] := by
  fun_induction enqueue with
  | case1 =>
      refine ⟨⟨List.pairwise_singleton _ _, ?_⟩, fun _ => rfl⟩
      intro entry hentry s hs
      obtain rfl := List.mem_singleton.mp hentry
      rw [List.mem_singleton.mp hs]
  | case2 queue rest =>
      refine ⟨⟨h.sorted, ?_⟩, ?_⟩
      · intro entry hentry s hs
        obtain rfl | hentry := List.mem_cons.mp hentry
        · obtain hs | hs := List.mem_append.mp hs
          · exact h.own _ List.mem_cons_self s hs
          · rw [List.mem_singleton.mp hs]
        · exact h.own entry (.tail _ hentry) s hs
      · intro tenant
        rw [Queues.machines_cons, Queues.machines_cons, ofTenant_append, ofTenant_append,
          ofTenant_append, List.append_assoc, List.append_assoc, ofTenant_comm h.rest_ofTenant]
  | case3 key queue rest hne hlt =>
      have hless : ∀ other ∈ List.map Prod.fst ((key, queue) :: rest),
          snapshot.tenantId < other := by
        intro other hother
        obtain rfl | hother := List.mem_cons.mp hother
        · exact hlt
        · exact String.lt_trans hlt (h.lt other hother)
      refine ⟨⟨List.pairwise_cons.mpr ⟨hless, h.sorted⟩, ?_⟩, ?_⟩
      · intro entry hentry s hs
        obtain rfl | hentry := List.mem_cons.mp hentry
        · rw [List.mem_singleton.mp hs]
        · exact h.own entry hentry s hs
      · intro tenant
        have hnone : ofTenant snapshot.tenantId (Queues.machines ((key, queue) :: rest)) = [] :=
          h.ofTenant_eq_nil fun hmem => String.lt_irrefl _ (hless _ hmem)
        rw [Queues.machines_cons snapshot.tenantId, ofTenant_append, ofTenant_comm hnone]
  | case4 key queue rest hne hlt ih =>
      obtain ⟨hok, hmachines⟩ := ih h.tail
      have hless : key < snapshot.tenantId := by
        refine String.not_le.mp fun hle => ?_
        exact hne (String.le_antisymm (String.not_lt.mp hlt) hle)
      refine ⟨⟨List.pairwise_cons.mpr ⟨?_, hok.sorted⟩, ?_⟩, ?_⟩
      · intro other hother
        obtain rfl | hother := enqueue_keys snapshot rest hother
        · exact hless
        · exact h.lt other hother
      · intro entry hentry
        obtain rfl | hentry := List.mem_cons.mp hentry
        · exact h.own _ List.mem_cons_self
        · exact hok.own entry hentry
      · intro tenant
        rw [Queues.machines_cons, Queues.machines_cons, ofTenant_append, ofTenant_append,
          hmachines, List.append_assoc]

theorem enqueueAll_spec (snapshots : List MachineSnapshot) {queues : Queues} (h : queues.Ok) :
    (snapshots.foldl (fun queues s => enqueue s queues) queues).Ok ∧
      ∀ tenant, ofTenant tenant (Queues.machines
          (snapshots.foldl (fun queues s => enqueue s queues) queues)) =
        ofTenant tenant queues.machines ++ ofTenant tenant snapshots := by
  induction snapshots generalizing queues with
  | nil => exact ⟨h, fun _ => (List.append_nil _).symm⟩
  | cons snapshot rest ih =>
      obtain ⟨hok, hmachines⟩ := enqueue_spec snapshot h
      obtain ⟨hok', hmachines'⟩ := ih hok
      refine ⟨hok', ?_⟩
      intro tenant
      have hcons : snapshot :: rest = [snapshot] ++ rest := rfl
      rw [List.foldl_cons, hmachines', hmachines, hcons, ofTenant_append, List.append_assoc]

/-! ## Batches -/

/-- What taking a batch from the queues does. -/
structure Taken (queues : Queues) (batch : List MachineSnapshot) (rest : Queues) : Prop where
  keys : rest.map Prod.fst = queues.map Prod.fst
  own : ∀ entry ∈ rest, ∀ s ∈ entry.2, s.tenantId = entry.1
  tenants : (batch.map MachineSnapshot.tenantId).Sublist (queues.map Prod.fst)
  order : ∀ tenant, ofTenant tenant batch ++ ofTenant tenant rest.machines =
    ofTenant tenant queues.machines

theorem Taken.nothing {queues : Queues} (h : queues.Ok) : Taken queues [] queues :=
  ⟨rfl, h.own, List.nil_sublist _, fun _ => rfl⟩

/-- The first queue is left as it is. -/
theorem Taken.skip {rest rest' : Queues} {tenant : String} {batch : List MachineSnapshot}
    (ht : Taken rest batch rest') :
    Taken ((tenant, []) :: rest) batch ((tenant, []) :: rest') := by
  refine ⟨congrArg (tenant :: ·) ht.keys, ?_, ht.tenants.cons tenant, ht.order⟩
  intro entry hentry s hs
  obtain rfl | hentry := List.mem_cons.mp hentry
  · cases hs
  · exact ht.own entry hentry s hs

/-- A machine is taken from the first queue. -/
theorem Taken.take {rest rest' : Queues} {tenant : String} {snapshot : MachineSnapshot}
    {queue batch : List MachineSnapshot} (h : Queues.Ok ((tenant, snapshot :: queue) :: rest))
    (ht : Taken rest batch rest') :
    Taken ((tenant, snapshot :: queue) :: rest) (snapshot :: batch) ((tenant, queue) :: rest') := by
  have hown := h.own (tenant, snapshot :: queue) List.mem_cons_self
  have htenant : snapshot.tenantId = tenant := hown snapshot List.mem_cons_self
  refine ⟨congrArg (tenant :: ·) ht.keys, ?_, ?_, ?_⟩
  · intro entry hentry s hs
    obtain rfl | hentry := List.mem_cons.mp hentry
    · exact hown s (.tail _ hs)
    · exact ht.own entry hentry s hs
  · rw [List.map_cons, htenant]
    exact ht.tenants.cons_cons tenant
  · intro other
    -- the batch has no other machine of this tenant, so it may stand before or after the queue
    have hswap : ofTenant other batch ++ ofTenant other queue =
        ofTenant other queue ++ ofTenant other batch := by
      by_cases hother : other = tenant
      · have hnone : ofTenant tenant batch = [] := by
          have horder := ht.order tenant
          rw [h.rest_ofTenant] at horder
          exact (List.append_eq_nil_iff.mp horder).1
        rw [hother, hnone, List.append_nil, List.nil_append]
      · have hnone : ofTenant other queue = [] := by
          refine List.filter_eq_nil_iff.mpr fun s hs hs' => hother ?_
          rw [← of_decide_eq_true hs']
          exact hown s (.tail _ hs)
        rw [hnone, List.append_nil, List.nil_append]
    have hcons : ∀ machines, ofTenant other (snapshot :: machines) =
        ofTenant other [snapshot] ++ ofTenant other machines := fun machines =>
      ofTenant_append other [snapshot] machines
    calc ofTenant other (snapshot :: batch) ++ ofTenant other (queue ++ rest'.machines)
        = ofTenant other [snapshot] ++ ((ofTenant other batch ++ ofTenant other queue) ++
            ofTenant other rest'.machines) := by
          rw [hcons batch, ofTenant_append, List.append_assoc, List.append_assoc]
      _ = ofTenant other [snapshot] ++ (ofTenant other queue ++ ofTenant other rest.machines) := by
          rw [hswap, List.append_assoc, ht.order]
      _ = ofTenant other (snapshot :: (queue ++ rest.machines)) := by
          rw [hcons (queue ++ rest.machines), ofTenant_append]

theorem takeBatch_spec (room : Nat) {queues : Queues} (h : queues.Ok) :
    Taken queues (takeBatch room queues).1 (takeBatch room queues).2 ∧
      (takeBatch room queues).1.length ≤ room := by
  fun_induction takeBatch with
  | case1 => exact ⟨.nothing h, Nat.zero_le _⟩
  | case2 => exact ⟨.nothing h, Nat.zero_le _⟩
  | case3 room tenant rest batch rest' heq ih =>
      rw [heq] at ih
      obtain ⟨ht, hlen⟩ := ih h.tail
      exact ⟨ht.skip, hlen⟩
  | case4 room tenant snapshot queue rest batch rest' heq ih =>
      rw [heq] at ih
      obtain ⟨ht, hlen⟩ := ih h.tail
      exact ⟨ht.take h, Nat.succ_le_succ hlen⟩

theorem takeBatch_ne_nil {room : Nat} {queues : Queues} (hroom : 1 ≤ room)
    (hany : (queues.any fun entry => !entry.2.isEmpty) = true) :
    (takeBatch room queues).1 ≠ [] := by
  fun_induction takeBatch with
  | case1 => cases hany
  | case2 => omega
  | case3 room tenant rest batch rest' heq ih =>
      rw [heq] at ih
      exact ih hroom (by simpa using hany)
  | case4 => simp

theorem Taken.ok {queues rest : Queues} {batch : List MachineSnapshot}
    (ht : Taken queues batch rest) (h : queues.Ok) : rest.Ok := by
  refine ⟨?_, ht.own⟩
  rw [ht.keys]
  exact h.sorted

theorem Taken.perm {queues rest : Queues} {batch : List MachineSnapshot}
    (ht : Taken queues batch rest) : (batch ++ rest.machines).Perm queues.machines := by
  refine perm_of_ofTenant fun tenant => ?_
  rw [ofTenant_append]
  exact ht.order tenant

theorem Taken.nodup {queues rest : Queues} {batch : List MachineSnapshot}
    (ht : Taken queues batch rest) (h : queues.Ok) :
    (batch.map MachineSnapshot.tenantId).Nodup := by
  refine (h.sorted.sublist ht.tenants).imp fun hlt heq => ?_
  rw [heq] at hlt
  exact String.lt_irrefl _ hlt

/-- The batches that the loop of the rolling stage takes. -/
def batchesOf (concurrency : Nat) (queues : Queues) : List (List MachineSnapshot) :=
  if queues.any fun entry => !entry.2.isEmpty then
    if _hbatch : (takeBatch concurrency queues).1.isEmpty then []
    else
      (takeBatch concurrency queues).1 :: batchesOf concurrency (takeBatch concurrency queues).2
  else []
termination_by Queues.size queues
decreasing_by
  have hsize := takeBatch_size concurrency queues
  have hpos := List.length_pos_iff.mpr (fun h => _hbatch (List.isEmpty_iff.mpr h))
  omega

theorem batchesOf_spec {concurrency : Nat} (hroom : 1 ≤ concurrency) {queues : Queues}
    (h : queues.Ok) :
    (∀ tenant, ofTenant tenant (batchesOf concurrency queues).flatten =
      ofTenant tenant queues.machines) ∧
    ∀ batch ∈ batchesOf concurrency queues, batch ≠ [] ∧ batch.length ≤ concurrency ∧
      (batch.map MachineSnapshot.tenantId).Nodup := by
  fun_induction batchesOf with
  | case1 queues hany hempty =>
      exact absurd (List.isEmpty_iff.mp hempty) (takeBatch_ne_nil hroom hany)
  | case2 queues hany hbatch ih =>
      obtain ⟨ht, hlen⟩ := takeBatch_spec concurrency h
      obtain ⟨horder, hbatches⟩ := ih (ht.ok h)
      constructor
      · intro tenant
        rw [List.flatten_cons, ofTenant_append, horder, ht.order]
      · refine List.forall_mem_cons.mpr ⟨⟨?_, hlen, ht.nodup h⟩, hbatches⟩
        exact takeBatch_ne_nil hroom hany
  | case3 queues hany =>
      have hnone : queues.machines = [] := by
        refine List.flatMap_eq_nil_iff.mpr fun entry hentry => ?_
        by_contra hne
        exact hany (List.any_eq_true.mpr ⟨entry, hentry, by simpa using hne⟩)
      rw [hnone]
      exact ⟨fun _ => rfl, List.forall_mem_nil _⟩

/-! ## The plan -/

structure Plan where
  canaries : List MachineSnapshot
  /-- The other targets. -/
  remaining : List MachineSnapshot
  batches : List (List MachineSnapshot)

/-- What `rollout` does with its targets. -/
def planOf (options : UpdateImageOptions) (targets : List MachineSnapshot) : Plan :=
  let indices := selectCanaryIndices targets (min options.canary targets.length)
  let remaining := (targets.zipIdx.filter fun (_, idx) => !indices.contains idx).map Prod.fst
  { canaries := (targets.zipIdx.filter fun (_, idx) => indices.contains idx).map Prod.fst
    remaining
    batches := batchesOf options.concurrency
      (remaining.foldl (fun queues snapshot => enqueue snapshot queues) []) }

structure Plan.Valid (options : UpdateImageOptions) (targets : List MachineSnapshot)
    (plan : Plan) : Prop where
  count : plan.canaries.length = min options.canary targets.length
  /-- Every target is a canary or one of the others, as often as it is a target. -/
  split : (plan.canaries ++ plan.remaining).Perm targets
  sublist : plan.canaries.Sublist targets ∧ plan.remaining.Sublist targets
  batches : plan.batches.flatten.Perm plan.remaining
  order : ∀ tenant, ofTenant tenant plan.batches.flatten = ofTenant tenant plan.remaining
  batch : ∀ batch ∈ plan.batches, batch ≠ [] ∧ batch.length ≤ options.concurrency ∧
    (batch.map MachineSnapshot.tenantId).Nodup

/-- As many entries have one of the given indices as there are indices. -/
theorem length_filter_zipIdx {targets : List MachineSnapshot} {indices : List Nat}
    (hnodup : indices.Nodup) (hsub : indices ⊆ List.range targets.length) :
    (targets.zipIdx.filter fun (_, idx) => indices.contains idx).length = indices.length := by
  have hperm : ((List.range targets.length).filter indices.contains).Perm indices := by
    refine (List.perm_ext_iff_of_nodup (List.nodup_range.filter _) hnodup).mpr fun idx => ?_
    rw [List.mem_filter, List.contains_iff_mem]
    exact ⟨And.right, fun h => ⟨hsub h, h⟩⟩
  have hmap : (targets.zipIdx.filter fun (_, idx) => indices.contains idx).map Prod.snd =
      (List.range targets.length).filter indices.contains := by
    rw [List.range_eq_range', ← List.zipIdx_map_snd, List.filter_map]
    rfl
  rw [← hperm.length_eq, ← hmap, List.length_map]

/-- Every target is a canary or one of the others. -/
theorem plan_split (options : UpdateImageOptions) (targets : List MachineSnapshot) :
    ((planOf options targets).canaries ++ (planOf options targets).remaining).Perm targets := by
  have hperm := (List.filter_append_perm (fun entry : MachineSnapshot × Nat =>
    (selectCanaryIndices targets (min options.canary targets.length)).contains entry.2)
    targets.zipIdx).map Prod.fst
  rwa [List.map_append, List.zipIdx_map_fst] at hperm

/-- The canaries cover as many tenants as that many machines can. -/
theorem plan_canary_tenants (options : UpdateImageOptions) (targets : List MachineSnapshot) :
    (tenantsOf (planOf options targets).canaries).card =
      min options.canary (tenantsOf targets).card := by
  have hsame : tenantsOf (planOf options targets).canaries = tenantsAt targets
      (selectCanaryIndices targets (min options.canary targets.length)) := by
    ext tenant
    rw [mem_tenantsOf, mem_tenantsAt]
    refine exists_congr fun s => and_congr_left fun _ => ?_
    simp only [planOf, List.mem_map, List.mem_filter, List.contains_iff_mem, Prod.exists,
      List.mem_zipIdx_iff_getElem?]
    constructor
    · intro h
      obtain ⟨other, idx, ⟨hat, hidx⟩, rfl⟩ := h
      exact ⟨idx, hidx, hat⟩
    · intro h
      obtain ⟨idx, hidx, hat⟩ := h
      exact ⟨s, idx, ⟨hat, hidx⟩, rfl⟩
  have hfew : (tenantsOf targets).card ≤ targets.length := by
    have hcard := List.toFinset_card_le (targets.map MachineSnapshot.tenantId)
    rwa [List.length_map] at hcard
  rw [hsame, card_tenantsAt_selectCanaryIndices]
  omega

theorem plan_valid (options : UpdateImageOptions) (targets : List MachineSnapshot)
    (hroom : 1 ≤ options.concurrency) : (planOf options targets).Valid options targets := by
  obtain ⟨hnodup, hsub, hlen⟩ := selectCanaryIndices_spec targets (min options.canary
    targets.length)
  rw [Nat.min_assoc, Nat.min_self] at hlen
  have hall : targets.zipIdx.map Prod.fst = targets := List.zipIdx_map_fst ..
  have hchosen : ∀ p : MachineSnapshot × Nat → Bool,
      ((targets.zipIdx.filter p).map Prod.fst).Sublist targets := by
    intro p
    have hsub := (List.filter_sublist (l := targets.zipIdx) (p := p)).map Prod.fst
    rwa [hall] at hsub
  have hempty : Queues.Ok [] := ⟨.nil, List.forall_mem_nil _⟩
  obtain ⟨hok, hqueues⟩ := enqueueAll_spec (planOf options targets).remaining hempty
  obtain ⟨horder, hbatch⟩ := batchesOf_spec hroom hok
  have htenants : ∀ tenant, ofTenant tenant (planOf options targets).batches.flatten =
      ofTenant tenant (planOf options targets).remaining := by
    intro tenant
    exact (horder tenant).trans (hqueues tenant)
  refine ⟨?_, plan_split options targets, ⟨hchosen _, hchosen _⟩, perm_of_ofTenant htenants,
    htenants, hbatch⟩
  · exact (List.length_map ..).trans ((length_filter_zipIdx hnodup hsub).trans hlen)

end FlyVault.Admin
