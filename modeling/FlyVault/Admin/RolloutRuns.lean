/-
  The runs of `update_image`, read off its text.

  The results about a rollout are about all of its runs. The text of the two stages is walked
  through here: `CanaryRun` and `RollingRun` say how a stage may go on from one machine or one
  batch to the next, and a result about all runs of a stage is an induction on them. The tasks of
  a batch are any tasks. `runs_updateImage_cases` does the same for what comes before the stages.
-/
import FlyVault.Admin.Rollout

namespace FlyVault.Admin

open FlyVault.Lib FlyVault.Lib.Script

variable {polls : Nat} {options : UpdateImageOptions} {t : List ApiEvent}
  {updated : List MachineSnapshot}
  {task : MachineSnapshot → Api (Except UpdateFailure MachineSnapshot)}

/-! ## The canary stage -/

/-- The calls and the result of the canary stage, for the canaries that are left and the machines
    updated so far. -/
inductive CanaryRun (polls : Nat) (options : UpdateImageOptions) (count : Nat) :
    List MachineSnapshot → List MachineSnapshot → List ApiEvent →
      Option (Except Error (List MachineSnapshot)) → Prop
  | done (updated : List MachineSnapshot) :
      CanaryRun polls options count [] updated [] (some (.ok updated))
  | next {snapshot s : MachineSnapshot} {rest updated : List MachineSnapshot}
      {t₁ t₂ : List ApiEvent} {o : Option (Except Error (List MachineSnapshot))}
      (hupdate : Exec (updateOneMachine polls snapshot options.image options) t₁ (some (.ok s)))
      (h : CanaryRun polls options count rest (updated ++ [snapshot]) t₂ o) :
      CanaryRun polls options count (snapshot :: rest) updated (⟨.print (.canary
        (updated.length + 1) count snapshot.machineId snapshot.tenantId), ()⟩ :: (t₁ ++ t₂)) o
  | failed {snapshot : MachineSnapshot} {rest updated : List MachineSnapshot}
      {t₁ t₂ : List ApiEvent} {failure : UpdateFailure} {o : Option Unit}
      (hupdate : Exec (updateOneMachine polls snapshot options.image options) t₁
        (some (.error failure)))
      (hrollback : Exec (rollback polls (rollbackTargets updated [failure]) options) t₂ o) :
      CanaryRun polls options count (snapshot :: rest) updated (⟨.print (.canary
        (updated.length + 1) count snapshot.machineId snapshot.tenantId), ()⟩ :: (t₁ ++ t₂))
        (o.map fun _ => .error (failure.error.withContext "canary stage failed"))
  | panicked {snapshot : MachineSnapshot} {rest updated : List MachineSnapshot}
      {t : List ApiEvent}
      (hupdate : Exec (updateOneMachine polls snapshot options.image options) t none) :
      CanaryRun polls options count (snapshot :: rest) updated (⟨.print (.canary
        (updated.length + 1) count snapshot.machineId snapshot.tenantId), ()⟩ :: t) none

theorem canaryRun_of_exec {count : Nat} {canaries : List MachineSnapshot}
    {o : Option (Except Error (List MachineSnapshot))}
    (h : Exec (canaryStage polls options count canaries updated) t o) :
    CanaryRun polls options count canaries updated t o := by
  induction canaries generalizing t updated with
  | nil =>
      obtain ⟨rfl, rfl⟩ := exec_pure.mp h
      exact .done updated
  | cons snapshot rest ih =>
      obtain ⟨t₁, t', _, rfl, hprint, hnext⟩ | ⟨hprint, -⟩ := exec_bind.mp h
      swap
      · obtain ⟨_, -, hnone⟩ := exec_ask.mp hprint
        cases hnone
      obtain ⟨_, rfl, -⟩ := exec_ask.mp hprint
      rw [List.singleton_append]
      obtain ⟨t₁, t₂, result, rfl, hupdate, hrest⟩ | ⟨hupdate, rfl⟩ := exec_bind.mp hnext
      swap
      · exact .panicked hupdate
      cases result with
      | error failure =>
          obtain ⟨o', hrollback, rfl⟩ := exec_map.mp hrest
          exact .failed hupdate hrollback
      | ok s => exact .next hupdate (ih hrest)

/-! ## The rolling stage -/

/-- A batch that is not empty leaves fewer machines. -/
theorem takeBatch_smaller {room : Nat} {queues : Queues} (h : (takeBatch room queues).1 ≠ []) :
    (takeBatch room queues).2.size < queues.size := by
  have hsum := takeBatch_size room queues
  have hpos := List.length_pos_iff.mpr h
  omega

/-- The calls and the result of the rolling stage, for the queues and the machines updated so
    far. -/
inductive RollingRun (polls : Nat) (options : UpdateImageOptions)
    (task : MachineSnapshot → Api (Except UpdateFailure MachineSnapshot)) :
    Queues → List MachineSnapshot → List ApiEvent →
      Option (Except Error (List MachineSnapshot)) → Prop
  | done {queues : Queues} {updated : List MachineSnapshot}
      (hnone : (queues.any fun entry => !entry.2.isEmpty) = true →
        (takeBatch options.concurrency queues).1 = []) :
      RollingRun polls options task queues updated [] (some (.ok updated))
  | next {queues : Queues} {updated : List MachineSnapshot} {t₁ t₂ : List ApiEvent}
      {runs : List (List ApiEvent × Option (Except UpdateFailure MachineSnapshot))}
      {results : List (Except String (Except UpdateFailure MachineSnapshot))}
      {o : Option (Except Error (List MachineSnapshot))}
      (hany : (queues.any fun entry => !entry.2.isEmpty) = true)
      (hbatch : (takeBatch options.concurrency queues).1 ≠ [])
      (hjoined : Joined task (takeBatch options.concurrency queues).1 runs t₁ results)
      (hok : results.filterMap failed = [])
      (h : RollingRun polls options task (takeBatch options.concurrency queues).2
        (updated ++ results.filterMap succeeded) t₂ o) :
      RollingRun polls options task queues updated (t₁ ++ t₂) o
  | failed {queues : Queues} {updated : List MachineSnapshot} {t₁ t₂ : List ApiEvent}
      {runs : List (List ApiEvent × Option (Except UpdateFailure MachineSnapshot))}
      {results : List (Except String (Except UpdateFailure MachineSnapshot))}
      {o : Option Unit} (e : Error)
      (hany : (queues.any fun entry => !entry.2.isEmpty) = true)
      (hbatch : (takeBatch options.concurrency queues).1 ≠ [])
      (hjoined : Joined task (takeBatch options.concurrency queues).1 runs t₁ results)
      (hfailed : results.filterMap failed ≠ [])
      (hrollback : Exec (rollback polls (rollbackTargets
        (updated ++ results.filterMap succeeded) (results.filterMap failed)) options) t₂ o) :
      RollingRun polls options task queues updated (t₁ ++ t₂) (o.map fun _ => .error e)

theorem rollingRun_of_runs {queues : Queues} {o : Option (Except Error (List MachineSnapshot))}
    (h : Runs task (rollingStage polls options queues updated) t o) :
    RollingRun polls options task queues updated t o := by
  induction hsize : queues.size using Nat.strongRecOn generalizing queues t updated with
  | ind size ih =>
  rw [rollingStage] at h
  split at h
  swap
  · next hnone =>
      obtain ⟨rfl, rfl⟩ := runs_pure.mp h
      exact .done fun hany => absurd hany hnone
  next hany =>
  split at h
  · next hempty =>
      obtain ⟨rfl, rfl⟩ := runs_pure.mp h
      exact .done fun _ => List.isEmpty_iff.mp hempty
  next hempty =>
  have hbatch : (takeBatch options.concurrency queues).1 ≠ [] :=
    fun h => hempty (List.isEmpty_iff.mpr h)
  obtain ⟨t₁, t₂, joined, rfl, hjoin, hnext⟩ | ⟨hjoin, -⟩ := runs_bind.mp h
  swap
  · obtain ⟨_, _, -, hnone⟩ := runs_join.mp hjoin
    cases hnone
  obtain ⟨runs, results, hjoined, ho⟩ := runs_join.mp hjoin
  cases ho
  dsimp only at hnext
  split at hnext
  · next hok =>
      have hless := takeBatch_smaller hbatch
      rw [hsize] at hless
      exact .next hany hbatch hjoined (List.isEmpty_iff.mp hok) (ih _ hless hnext rfl)
  · next hsome =>
      have hfailed : joined.filterMap failed ≠ [] := fun h => hsome (List.isEmpty_iff.mpr h)
      obtain ⟨t₃, t₄, _, rfl, hrollback, hreturn⟩ | ⟨hrollback, rfl⟩ := runs_bind.mp hnext
      · obtain ⟨rfl, rfl⟩ := runs_pure.mp hreturn
        rw [List.append_nil]
        exact .failed _ hany hbatch hjoined hfailed (runs_lift.mp hrollback)
      · exact .failed (anyhow "") hany hbatch hjoined hfailed (runs_lift.mp hrollback)

/-! ## What comes before -/

theorem runs_print_bind_iff {α : Type} {note : Note} {q : Rollout α} {o : Option α} :
    Runs task (lift (print note) >>= fun _ => q) t o ↔
      ∃ t', t = ⟨.print note, ()⟩ :: t' ∧ Runs task q t' o := by
  constructor
  · intro h
    obtain ⟨t₁, t', _, rfl, hprint, hq⟩ | ⟨hprint, -⟩ := runs_bind.mp h
    · obtain ⟨_, rfl, -⟩ := exec_ask.mp (runs_lift.mp hprint)
      exact ⟨t', rfl, hq⟩
    · obtain ⟨_, -, hnone⟩ := exec_ask.mp (runs_lift.mp hprint)
      cases hnone
  · intro h
    obtain ⟨t', rfl, hq⟩ := h
    exact runs_bind.mpr (.inl ⟨[_], t', (), rfl, runs_lift.mpr (exec_ask.mpr ⟨(), rfl, rfl⟩), hq⟩)

theorem retainTenants_sublist (machines : List Machine) :
    (retainTenants options machines).Sublist machines := by
  unfold retainTenants
  split
  · exact List.Sublist.refl _
  · exact List.filter_sublist

theorem exec_listManagedMachines {machines : List Machine}
    (h : Exec (listManagedMachines none).run t (some (.ok machines))) :
    ∃ query listed, t = [⟨.listMachines query, .ok listed⟩] ∧ machines.Sublist listed := by
  obtain ⟨t₁, t₂, listed, rfl, hlist, hreturn⟩ | ⟨_, -, ho⟩ | ⟨-, ho⟩ := exec_run_bind.mp h
  rotate_left
  · cases ho
  · cases ho
  obtain ⟨_, rfl, hr⟩ := exec_ask.mp hlist
  cases hr
  obtain ⟨rfl, ho⟩ := exec_pure.mp hreturn
  cases ho
  exact ⟨_, listed, rfl, List.filter_sublist⟩

theorem only_listManagedMachines {allows : ApiEvent → Prop} {P : Call → Prop}
    (h : ∀ query, P (.listMachines query)) : Only allows P (listManagedMachines none).run :=
  Only.run_bind (only_ask.mpr (h _)) fun _ => trivial

theorem forall_mem_of_listed {P : Call → Prop}
    (h : t = [] ∨ ∃ listed, Exec (listManagedMachines none).run t (some listed))
    (hP : ∀ query, P (.listMachines query)) : ∀ e ∈ t, P e.1 := by
  obtain rfl | ⟨listed, hlist⟩ := h
  · exact List.forall_mem_nil _
  · exact (only_listManagedMachines hP).calls hlist

/-- A run of `update_image` ends with an error before or after the listing, or it goes on with the
    rollout of the machines that were listed. -/
theorem runs_updateImage_cases {o : Option (Except Error Unit)}
    (h : Runs task (updateImage polls options) t o) :
    ((∃ e, o = some (.error e)) ∧
      (t = [] ∨ ∃ listed, Exec (listManagedMachines none).run t (some listed))) ∨
    ∃ machines targets t₁ t₂, t = t₁ ++ t₂ ∧
      Exec (listManagedMachines none).run t₁ (some (.ok machines)) ∧
      (retainTenants options machines).mapM snapshotFromMachine = .ok targets ∧
      Runs task (rollout polls options (targets.mergeSort MachineSnapshot.le)) t₂ o := by
  unfold updateImage at h
  split at h
  · obtain ⟨ht, ho⟩ := runs_pure.mp h
    exact .inl ⟨⟨_, ho⟩, .inl ht⟩
  split at h
  · obtain ⟨ht, ho⟩ := runs_pure.mp h
    exact .inl ⟨⟨_, ho⟩, .inl ht⟩
  obtain ⟨t₁, t₂, listed, rfl, hlist, h⟩ | ⟨hlist, -⟩ := runs_bind.mp h
  swap
  · have honly : Only (fun _ => True) (fun _ => True) (listManagedMachines none).run :=
      only_listManagedMachines fun _ => trivial
    exact absurd rfl (honly.sound (runs_lift.mp hlist) fun _ _ => trivial).1
  have hlist := runs_lift.mp hlist
  have hstop : ∀ {e : Error}, t₂ = [] ∧ o = some (.error e) → (∃ e, o = some (.error e)) ∧
      (t₁ ++ t₂ = [] ∨ ∃ listed, Exec (listManagedMachines none).run (t₁ ++ t₂) (some listed)) := by
    intro e h
    obtain ⟨rfl, ho⟩ := h
    rw [List.append_nil]
    exact ⟨⟨e, ho⟩, .inr ⟨listed, hlist⟩⟩
  cases listed with
  | error e => exact .inl (hstop (runs_pure.mp h))
  | ok machines =>
      dsimp only at h
      split at h
      · exact .inl (hstop (runs_pure.mp h))
      · split at h
        · exact .inl (hstop (runs_pure.mp h))
        · next targets htargets => exact .inr ⟨machines, targets, t₁, t₂, rfl, hlist, htargets, h⟩

end FlyVault.Admin
