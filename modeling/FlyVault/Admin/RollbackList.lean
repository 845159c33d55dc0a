/-
  What is handed to the rollback.

  `Records updated t`: the machines of `updated` are distinct, they are the machines for which
  an update has returned Ok in `t`, and no rollback has begun in `t`. Both stages keep this, the
  canaries one machine at a time and the batches for all tasks at once, in whatever order the
  tasks return. A failed task names its machine if and only if its update has returned Ok,
  whichever of the later calls has failed.

  `rollback_list_exact`: when `update_image` returns an error, the rollback was handed exactly
  the machines that had been updated, each of them once.
-/
import FlyVault.Admin.RolloutPlan

namespace FlyVault.Admin

open FlyVault.Lib FlyVault.Lib.Script

/-- The machines that the rollout has updated so far, each of them once. -/
structure Records (updated : List MachineSnapshot) (t : List ApiEvent) : Prop where
  /-- No rollback has begun. -/
  forward : ∀ e ∈ t, e.1.Forward
  nodup : (updated.map MachineSnapshot.machineId).Nodup
  mem_iff : ∀ id, (∃ s ∈ updated, s.machineId = id) ↔ Updated id t

/-- The trace ends with a rollback, and that is handed the machines updated before. -/
def RollsBack (polls : Nat) (options : UpdateImageOptions) (t : List ApiEvent) : Prop :=
  ∃ t₁ t₂ snapshots, t = t₁ ++ t₂ ∧ Records snapshots t₁ ∧
    Exec (rollback polls snapshots options) t₂ (some ())

variable {polls : Nat} {options : UpdateImageOptions} {t t₀ : List ApiEvent}
  {updated snapshots : List MachineSnapshot}

theorem Records.append (h : Records updated t₀) (hforward : ∀ e ∈ t, e.1.Forward)
    (hnodup : (snapshots.map MachineSnapshot.machineId).Nodup)
    (hmem : ∀ id, (∃ s ∈ snapshots, s.machineId = id) ↔
      (∃ s ∈ updated, s.machineId = id) ∨ Updated id t) : Records snapshots (t₀ ++ t) := by
  refine ⟨List.forall_mem_append.mpr ⟨h.forward, hforward⟩, hnodup, ?_⟩
  intro id
  rw [hmem, updated_append, h.mem_iff]

/-- Calls that neither update a machine nor begin a rollback. -/
theorem Records.append_quiet (h : Records updated t₀) (hforward : ∀ e ∈ t, e.1.Forward)
    (hquiet : ∀ e ∈ t, e.1.Quiet) : Records updated (t₀ ++ t) := by
  refine h.append hforward h.nodup fun id => ?_
  rw [or_iff_left (not_updated_of_quiet hquiet)]

theorem Records.print (h : Records updated t₀) (note : Note)
    (hnote : (Call.print note).Forward) : Records updated (t₀ ++ [⟨.print note, ()⟩]) :=
  h.append_quiet (List.forall_mem_singleton.mpr hnote) (List.forall_mem_singleton.mpr trivial)

/-! ## The list -/

theorem nodup_addTarget {targets : List MachineSnapshot} (snapshot : MachineSnapshot)
    (h : (targets.map MachineSnapshot.machineId).Nodup) :
    ((addTarget targets snapshot).map MachineSnapshot.machineId).Nodup := by
  unfold addTarget
  split
  · exact h
  · next hany =>
      rw [List.map_append]
      refine h.append (List.nodup_singleton _) ?_
      intro id hid hid'
      obtain rfl := List.mem_singleton.mp hid'
      obtain ⟨s, hs, hsame⟩ := List.mem_map.mp hid
      exact hany (List.any_eq_true.mpr ⟨s, hs, by simpa using hsame⟩)

theorem nodup_rollbackTargets (failures : List UpdateFailure)
    (h : (updated.map MachineSnapshot.machineId).Nodup) :
    ((rollbackTargets updated failures).map MachineSnapshot.machineId).Nodup := by
  unfold rollbackTargets
  generalize failures.filterMap UpdateFailure.rollbackTarget = targets
  induction targets generalizing updated with
  | nil => exact h
  | cons snapshot rest ih => exact ih (nodup_addTarget snapshot h)

theorem rollbackTargets_ids {failures : List UpdateFailure} {id : String} :
    (∃ s ∈ rollbackTargets updated failures, s.machineId = id) ↔
      ∃ s, (s ∈ updated ∨ ∃ f ∈ failures, f.rollbackTarget = some s) ∧ s.machineId = id := by
  constructor
  · intro h
    obtain ⟨s, hs, hid⟩ := h
    exact ⟨s, mem_rollbackTargets hs, hid⟩
  · intro h
    obtain ⟨s, hs, hid⟩ := h
    obtain ⟨s', hs', hid'⟩ := exists_mem_rollbackTargets hs
    exact ⟨s', hs', hid'.trans hid⟩

/-! ## The canary stage -/

theorem forward_updateOneMachine {snapshot : MachineSnapshot} {image : String}
    {result : Except UpdateFailure MachineSnapshot}
    (h : Exec (updateOneMachine polls snapshot image options) t (some result)) :
    ∀ e ∈ t, e.1.Forward := by
  have honly : Only (fun _ => True) Call.Forward
      (updateOneMachine polls snapshot image options).noPanic :=
    only_noPanic_updateOneMachine (fun _ h => h.2) fun _ _ _ => only_storeImage _ _ _ _ _ _ _ _ _ _
  exact honly.noPanic_sound h fun _ _ => trivial

theorem Reports.ids {snapshot : MachineSnapshot} {target : Option MachineSnapshot}
    (h : Reports snapshot t target) (id : String) :
    (∃ s, target = some s ∧ s.machineId = id) ↔ Updated id t := by
  constructor
  · intro h'
    obtain ⟨s, htarget, rfl⟩ := h'
    obtain rfl := h.only s htarget
    exact h.named htarget
  · intro hupdated
    obtain ⟨rfl, htarget⟩ := h.updated id hupdated
    exact ⟨snapshot, htarget, rfl⟩

theorem Records.report {snapshot : MachineSnapshot} {target : Option MachineSnapshot}
    (h : Records updated t₀) (hforward : ∀ e ∈ t, e.1.Forward)
    (hreports : Reports snapshot t target)
    (hnodup : (snapshots.map MachineSnapshot.machineId).Nodup)
    (hids : ∀ id, (∃ s ∈ snapshots, s.machineId = id) ↔
      ∃ s, (s ∈ updated ∨ target = some s) ∧ s.machineId = id) : Records snapshots (t₀ ++ t) := by
  refine h.append hforward hnodup fun id => ?_
  rw [hids, ← hreports.ids]
  simp only [or_and_right, exists_or]

/-- What a stage that ends after the calls of `t` has recorded. -/
def StageRecords (polls : Nat) (options : UpdateImageOptions) (t : List ApiEvent) :
    Except Error (List MachineSnapshot) → Prop
  | .ok updated => Records updated t
  | .error _ => RollsBack polls options t

theorem canaryStage_records {count : Nat} {canaries : List MachineSnapshot}
    {result : Except Error (List MachineSnapshot)} (hrecords : Records updated t₀)
    (hnodup : ((updated ++ canaries).map MachineSnapshot.machineId).Nodup)
    (h : Exec (canaryStage polls options count canaries updated) t (some result)) :
    StageRecords polls options (t₀ ++ t) result ∧
      ∀ updated', result = .ok updated' → updated' = updated ++ canaries := by
  have hrun := canaryRun_of_exec h
  clear h
  generalize ho : some result = o at hrun
  induction hrun generalizing t₀ with
  | done updated =>
      cases ho
      rw [List.append_nil, List.append_nil]
      exact ⟨hrecords, fun _ h => (Except.ok.inj h).symm⟩
  | @next snapshot s rest updated _ _ _ hupdate _ ih =>
      have hprinted := hrecords.print
        (.canary (updated.length + 1) count snapshot.machineId snapshot.tenantId) trivial
      have hreports := updateOneMachine_reports hupdate
      rw [List.append_cons, ← List.append_assoc]
      have hsplit : updated ++ snapshot :: rest = updated ++ [snapshot] ++ rest :=
        List.append_cons ..
      rw [hsplit] at hnodup ⊢
      obtain rfl := hreports.only s rfl
      refine ih (hprinted.report (forward_updateOneMachine hupdate) hreports
        (hnodup.sublist ((List.sublist_append_left _ _).map _)) fun id => ?_) hnodup ho
      simp [named]
  | @failed snapshot _ updated _ t₂ failure o hupdate hrollback =>
      have hprinted := hrecords.print
        (.canary (updated.length + 1) count snapshot.machineId snapshot.tenantId) trivial
      obtain ⟨_, rfl, hresult⟩ := Option.map_eq_some_iff.mp ho.symm
      subst hresult
      rw [List.append_cons, ← List.append_assoc]
      refine ⟨⟨_, t₂, _, rfl, ?_, hrollback⟩, fun _ h => by cases h⟩
      refine hprinted.report (forward_updateOneMachine hupdate) (updateOneMachine_reports hupdate)
        (nodup_rollbackTargets [failure] hrecords.nodup) fun id => ?_
      rw [rollbackTargets_ids]
      simp [named]
  | panicked => cases ho

/-! ## The rolling stage -/

/-- The tasks that succeed are tasks of the batch, whatever the order in which they return. -/
theorem joined_succeeded {batch : List MachineSnapshot}
    {runs : List (List ApiEvent × Option (Except UpdateFailure MachineSnapshot))}
    {results : List (Except String (Except UpdateFailure MachineSnapshot))}
    (h : Joined (rolloutTask polls options) batch runs t results) :
    (results.filterMap succeeded).Subperm batch := by
  have hresults : results.filterMap succeeded =
      (results.map Except.toOption).filterMap fun o => o.bind Except.toOption := by
    rw [List.filterMap_map]
    refine List.filterMap_congr fun r _ => ?_
    cases r with
    | error _ => rfl
    | ok result => cases result <;> rfl
  rw [hresults, (h.perm.filterMap _).subperm_right]
  refine List.Sublist.subperm ?_
  obtain ⟨execs, -, -⟩ := h
  induction execs with
  | nil => exact List.Sublist.slnil
  | @cons snapshot run batch runs hexec _ ih =>
      obtain ⟨t, o⟩ := run
      rw [List.map_cons, List.filterMap_cons]
      split
      · exact ih.cons snapshot
      · next s hs =>
          obtain ⟨result, rfl, hresult⟩ := Option.bind_eq_some_iff.mp hs
          cases result with
          | error failure => cases hresult
          | ok s' =>
              cases hresult
              obtain rfl := (updateOneMachine_reports hexec).only s rfl
              exact ih.cons_cons s

theorem Records.join {batch : List MachineSnapshot}
    {runs : List (List ApiEvent × Option (Except UpdateFailure MachineSnapshot))}
    {results : List (Except String (Except UpdateFailure MachineSnapshot))}
    (h : Records updated t₀)
    (hjoined : Joined (fun s => (rolloutTask polls options s).noPanic) batch runs t results)
    (hnodup : ((updated ++ results.filterMap succeeded).map MachineSnapshot.machineId).Nodup) :
    Records (rollbackTargets (updated ++ results.filterMap succeeded) (results.filterMap failed))
      (t₀ ++ t) := by
  obtain ⟨hjoined, hreturns⟩ := hjoined.of_noPanic
  obtain ⟨hnames, -⟩ := joined_names hjoined hreturns
  refine h.append ?_ (nodup_rollbackTargets _ hnodup) fun id => ?_
  · intro e he
    obtain ⟨run, hrun, he⟩ := hjoined.mem_iff.mp he
    obtain ⟨snapshot, -, hexec⟩ := hjoined.exec hrun
    obtain ⟨result, hresult⟩ := Option.ne_none_iff_exists'.mp (hreturns run hrun)
    rw [hresult] at hexec
    exact forward_updateOneMachine hexec e he
  · rw [rollbackTargets_ids, ← hnames]
    simp only [List.mem_append, or_assoc, ← mem_namedBy_iff, or_and_right, exists_or]

/-- The machines of the list and of the queues are distinct. -/
def Distinct (updated : List MachineSnapshot) (queues : Queues) : Prop :=
  ((updated ++ queues.machines).map MachineSnapshot.machineId).Nodup

theorem distinct_enqueueAll {remaining : List MachineSnapshot}
    (h : ((updated ++ remaining).map MachineSnapshot.machineId).Nodup) :
    (remaining.foldl (fun queues s => enqueue s queues) []).Ok ∧
      Distinct updated (remaining.foldl (fun queues s => enqueue s queues) []) := by
  have hempty : Queues.Ok [] := ⟨.nil, List.forall_mem_nil _⟩
  obtain ⟨hok, hqueues⟩ := enqueueAll_spec remaining hempty
  exact ⟨hok, (((perm_of_ofTenant hqueues).append_left _).map _).nodup_iff.mpr h⟩

theorem Distinct.take {queues rest : Queues} {batch succeeded : List MachineSnapshot}
    (h : Distinct updated queues) (ht : Taken queues batch rest)
    (hsub : succeeded.Subperm batch) : Distinct (updated ++ succeeded) rest := by
  have hall : (updated ++ succeeded ++ rest.machines).Subperm (updated ++ queues.machines) := by
    rw [List.append_assoc, List.subperm_append_left]
    exact ((List.subperm_append_right _).mpr hsub).trans ht.perm.subperm
  obtain ⟨machines, hperm, hmachines⟩ := hall
  exact (hperm.map _).nodup_iff.mp (h.sublist (hmachines.map _))

theorem Records.takeBatch {queues : Queues} {room : Nat}
    {runs : List (List ApiEvent × Option (Except UpdateFailure MachineSnapshot))}
    {results : List (Except String (Except UpdateFailure MachineSnapshot))}
    (h : Records updated t₀) (hok : queues.Ok) (hdistinct : Distinct updated queues)
    (hjoined : Joined (fun s => (rolloutTask polls options s).noPanic)
      (Admin.takeBatch room queues).1 runs t results) :
    (Admin.takeBatch room queues).2.Ok ∧
    Distinct (updated ++ results.filterMap succeeded) (Admin.takeBatch room queues).2 ∧
    Records (rollbackTargets (updated ++ results.filterMap succeeded) (results.filterMap failed))
      (t₀ ++ t) := by
  obtain ⟨htaken, -⟩ := takeBatch_spec room hok
  have hdistinct' := hdistinct.take htaken (joined_succeeded hjoined.of_noPanic.1)
  exact ⟨htaken.ok hok, hdistinct',
    h.join hjoined (hdistinct'.sublist ((List.sublist_append_left _ _).map _))⟩

theorem rollingStage_records {queues : Queues} {result : Except Error (List MachineSnapshot)}
    (hrecords : Records updated t₀) (hok : queues.Ok) (hdistinct : Distinct updated queues)
    (h : Runs (fun s => (rolloutTask polls options s).noPanic)
      (rollingStage polls options queues updated) t (some result)) :
    StageRecords polls options (t₀ ++ t) result := by
  have hrun := rollingRun_of_runs h
  clear h
  generalize ho : some result = o at hrun
  induction hrun generalizing t₀ with
  | done =>
      cases ho
      rw [List.append_nil]
      exact hrecords
  | next _ _ hjoined hnone _ ih =>
      obtain ⟨hrest, hdistinct', hjoins⟩ := hrecords.takeBatch hok hdistinct hjoined
      rw [hnone] at hjoins
      rw [← List.append_assoc]
      exact ih hjoins hrest hdistinct' ho
  | @failed _ _ _ t₂ _ _ _ _ _ _ hjoined _ hrollback =>
      obtain ⟨-, -, hjoins⟩ := hrecords.takeBatch hok hdistinct hjoined
      obtain ⟨_, rfl, hresult⟩ := Option.map_eq_some_iff.mp ho.symm
      subst hresult
      rw [← List.append_assoc]
      exact ⟨_, t₂, _, rfl, hjoins, hrollback⟩

/-! ## The whole -/

/-- A line that does not announce a rollback, at the start of a run. -/
theorem Records.runs_print {α : Type} {q : Rollout α} {note : Note} {o : Option α}
    {task : MachineSnapshot → Api (Except UpdateFailure MachineSnapshot)}
    (h : Records updated t₀) (hruns : Runs task (lift (Admin.print note) >>= fun _ => q) t o)
    (hnote : (Call.print note).Forward) :
    ∃ t₁ t₂, t₀ ++ t = t₁ ++ t₂ ∧ Records updated t₁ ∧ Runs task q t₂ o := by
  obtain ⟨t₂, rfl, hq⟩ := runs_print_bind_iff.mp hruns
  exact ⟨_, t₂, List.append_cons .., h.print note hnote, hq⟩

theorem rollout_rollsBack {targets : List MachineSnapshot} {e : Error}
    (hrecords : Records [] t₀) (hnodup : (targets.map MachineSnapshot.machineId).Nodup)
    (h : Runs (fun s => (rolloutTask polls options s).noPanic) (rollout polls options targets) t
      (some (.error e))) : RollsBack polls options (t₀ ++ t) := by
  have hsplit := ((plan_split options targets).map MachineSnapshot.machineId).nodup_iff.mpr hnodup
  obtain ⟨t₀, t, ht, hrecords, h⟩ := hrecords.runs_print h trivial
  rw [ht]
  obtain ⟨t₁, t, stage, rfl, hcanary, h⟩ := runs_bind_some.mp h
  obtain ⟨hstage, hupdated⟩ := canaryStage_records hrecords
    (hsplit.sublist ((List.sublist_append_left _ _).map _)) (runs_lift.mp hcanary)
  rw [← List.append_assoc]
  cases stage with
  | error e' =>
      obtain ⟨rfl, -⟩ := runs_pure.mp h
      rw [List.append_nil]
      exact hstage
  | ok updated =>
      obtain ⟨t₀, t, ht, hrecords, h⟩ := Records.runs_print hstage h trivial
      rw [ht]
      split at h
      · obtain ⟨_, -, h'⟩ := runs_print_bind_iff.mp h
        cases (runs_pure.mp h').2
      · obtain ⟨t₀, t, ht, hrecords, h⟩ := hrecords.runs_print h trivial
        rw [ht]
        obtain ⟨t₂, t, stage, rfl, hrolling, h⟩ := runs_bind_some.mp h
        obtain ⟨hok, hdistinct⟩ := distinct_enqueueAll hsplit
        obtain rfl : updated = _ := hupdated updated rfl
        have hstage := rollingStage_records hrecords hok hdistinct hrolling
        cases stage with
        | error e' =>
            obtain ⟨rfl, -⟩ := runs_pure.mp h
            rw [List.append_nil]
            exact hstage
        | ok updated =>
            obtain ⟨_, -, h'⟩ := runs_print_bind_iff.mp h
            cases (runs_pure.mp h').2

theorem ids_of_mapM {machines : List Machine} {targets : List MachineSnapshot}
    (h : machines.mapM snapshotFromMachine = .ok targets) :
    targets.map MachineSnapshot.machineId = machines.map Machine.id := by
  have hall := forall₂_of_mapM h
  clear h
  induction hall with
  | nil => rfl
  | cons hhead _ ih => exact congrArg₂ List.cons (takenFrom_of_accepted hhead).machineId ih

/-- When `update_image` returns an error and no task has panicked, its rollback was handed the
    machines whose update had returned Ok, and each of them once. -/
theorem rollback_list_exact (polls : Nat) (options : UpdateImageOptions) (t : List ApiEvent)
    (e : Error)
    (hruns : Runs (fun s => (rolloutTask polls options s).noPanic) (updateImage polls options) t
      (some (.error e)))
    (hlisted : ∀ query machines, (⟨.listMachines query, .ok machines⟩ : ApiEvent) ∈ t →
      (machines.map Machine.id).Nodup) :
    ∃ t₁ t₂ snapshots, t = t₁ ++ t₂ ∧ (∀ e ∈ t₁, e.1.Forward) ∧
      Exec (rollback polls snapshots options) t₂ (some ()) ∧
      (snapshots.map MachineSnapshot.machineId).Nodup ∧
      ∀ id, (∃ s ∈ snapshots, s.machineId = id) ↔ Updated id t₁ := by
  have hrolls : RollsBack polls options t := by
    have hnothing : Records [] [] := ⟨List.forall_mem_nil _, .nil, by simp [Updated]⟩
    obtain ⟨-, hstopped⟩ | ⟨machines, targets, t₁, t₂, rfl, hlist, htargets, hrollout⟩ :=
      runs_updateImage_cases hruns
    · have hrecords : Records [] t := hnothing.append_quiet
        (forall_mem_of_listed hstopped fun _ => trivial)
        (forall_mem_of_listed hstopped fun _ => trivial)
      exact ⟨t, [], [], (List.append_nil t).symm, hrecords, exec_pure.mpr ⟨rfl, rfl⟩⟩
    · have hrecords : Records [] t₁ := hnothing.append_quiet
        (forall_mem_of_listed (.inr ⟨_, hlist⟩) fun _ => trivial)
        (forall_mem_of_listed (.inr ⟨_, hlist⟩) fun _ => trivial)
      refine rollout_rollsBack hrecords ?_ hrollout
      obtain ⟨query, listed, rfl, hsub⟩ := exec_listManagedMachines hlist
      rw [((List.mergeSort_perm _ _).map _).nodup_iff, ids_of_mapM htargets]
      refine (hlisted query listed List.mem_cons_self).sublist (List.Sublist.map _ ?_)
      exact (retainTenants_sublist machines).trans hsub
  obtain ⟨t₁, t₂, snapshots, ht, hrecords, hrollback⟩ := hrolls
  exact ⟨t₁, t₂, snapshots, ht, hrecords.forward, hrollback, hrecords.nodup, hrecords.mem_iff⟩

/-- The machine does not start with the new image, and is handed to the rollback. -/
theorem rollback_list_exact_slowStart : ∃ t e,
    Runs (fun s => (rolloutTask 1 (soleOptions 1 0) s).noPanic) (updateImage 1 (soleOptions 1 0))
      t (some (.error e)) ∧ Updated "machine" t ∧
    ∃ t₁ t₂ snapshots, t = t₁ ++ t₂ ∧ (∀ e ∈ t₁, e.1.Forward) ∧
      Exec (rollback 1 snapshots (soleOptions 1 0)) t₂ (some ()) ∧
      (snapshots.map MachineSnapshot.machineId).Nodup ∧
      ∀ id, (∃ s ∈ snapshots, s.machineId = id) ↔ Updated id t₁ := by
  obtain ⟨t, e, hplay, hlists, hupdated⟩ : ∃ t e,
      play (soleAnswer (.ok (soleMachine "new"))) 0
        (canaryStage 1 (soleOptions 1 0) 1 [soleSnapshot] []) = some (t, some (.error e)) ∧
      (∀ e ∈ t, ∀ query, e.1 ≠ .listMachines query) ∧ Updated "machine" t := by
    refine ⟨_, _, rfl, ?_, ⟨_, _, _, .tail _ (.tail _ (.tail _ (.head _)))⟩⟩
    repeat refine List.forall_mem_cons.mpr ⟨fun _ h => Call.noConfusion h, ?_⟩
    exact List.forall_mem_nil _
  have hruns : Runs (fun s => (rolloutTask 1 (soleOptions 1 0) s).noPanic)
      (updateImage 1 (soleOptions 1 0)) _ _ := runs_updateImage (runs_rollout (exec_of_play hplay))
  have hlisted : ∀ query machines, (⟨.listMachines query, .ok machines⟩ : ApiEvent) ∈
      soleListing :: ⟨.print (.canaryStage 1 1), ()⟩ :: t → (machines.map Machine.id).Nodup := by
    intro query machines hmem
    obtain hmem | hmem := List.mem_cons.mp hmem
    · cases hmem
      exact List.nodup_singleton _
    · obtain hmem | hmem := List.mem_cons.mp hmem
      · cases hmem
      · exact absurd rfl (hlists _ hmem query)
  obtain ⟨request, nonce, m, hmem⟩ := hupdated
  exact ⟨_, e, hruns, ⟨request, nonce, m, .tail _ (.tail _ hmem)⟩,
    rollback_list_exact 1 _ _ e hruns hlisted⟩

end FlyVault.Admin
