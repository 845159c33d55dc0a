/-
  Every run of a rollout follows its plan.

  A step of the plan is one canary or one batch. `Performs` says that a trace is made of the
  given steps in this order, each of them with success, and of printed lines; a batch is made of
  one task for each of its machines, in any interleaving. `Breaks` says that a trace performs
  the first of the given steps and that an update of the next one has failed or panicked.

  `update_image_schedule`: the plan is valid, every run of the rollout performs all of it and
  returns Ok or breaks off at a failed update, and if every target can be updated there is a run
  that performs all of it. `update_image` itself runs the rollout on the machines it has listed,
  or returns an error before.
-/
import FlyVault.Admin.RolloutPlan

namespace FlyVault.Admin

open FlyVault.Lib FlyVault.Lib.Script

inductive RolloutStep
  | canary (snapshot : MachineSnapshot)
  | batch (snapshots : List MachineSnapshot)

def Plan.steps (plan : Plan) : List RolloutStep :=
  plan.canaries.map .canary ++ plan.batches.map .batch

/-- `update_one_machine` has returned Ok. -/
def Succeeds (o : Option (Except UpdateFailure MachineSnapshot)) : Prop := ∃ s, o = some (.ok s)

theorem not_succeeds_none : ¬Succeeds none := by
  intro h
  obtain ⟨s, hs⟩ := h
  cases hs

theorem not_succeeds_error (failure : UpdateFailure) : ¬Succeeds (some (.error failure)) := by
  intro h
  obtain ⟨s, hs⟩ := h
  cases hs

section

variable (polls : Nat) (options : UpdateImageOptions)

/-- The trace has the steps in their order, each of them with success, and printed lines. -/
inductive Performs : List RolloutStep → List ApiEvent → Prop
  | nil : Performs [] []
  | print {steps : List RolloutStep} {t : List ApiEvent} (note : Note) (h : Performs steps t) :
      Performs steps (⟨.print note, ()⟩ :: t)
  | canary {steps : List RolloutStep} {snapshot : MachineSnapshot} {t t' : List ApiEvent}
      {o : Option (Except UpdateFailure MachineSnapshot)}
      (hexec : Exec (updateOneMachine polls snapshot options.image options) t o)
      (hok : Succeeds o) (h : Performs steps t') : Performs (.canary snapshot :: steps) (t ++ t')
  | batch {steps : List RolloutStep} {batch : List MachineSnapshot} {t t' : List ApiEvent}
      {runs : List (List ApiEvent × Option (Except UpdateFailure MachineSnapshot))}
      {results : List (Except String (Except UpdateFailure MachineSnapshot))}
      (hjoined : Joined (rolloutTask polls options) batch runs t results)
      (hok : ∀ run ∈ runs, Succeeds run.2) (h : Performs steps t') :
      Performs (.batch batch :: steps) (t ++ t')

/-- The step has been started, and an update of it has not succeeded. -/
def RolloutStep.Fails : RolloutStep → List ApiEvent → Prop
  | .canary snapshot, t =>
      ∃ o, Exec (updateOneMachine polls snapshot options.image options) t o ∧ ¬Succeeds o
  | .batch snapshots, t => ∃ runs,
      ∃ results : List (Except String (Except UpdateFailure MachineSnapshot)),
        Joined (rolloutTask polls options) snapshots runs t results ∧ ∃ run ∈ runs, ¬Succeeds run.2

/-- The trace performs the first of the steps, and the next one fails. -/
def Breaks (steps : List RolloutStep) (t : List ApiEvent) : Prop :=
  ∃ done step rest t₁ t₂ t₃, steps = done ++ step :: rest ∧ t = t₁ ++ (t₂ ++ t₃) ∧
    Performs polls options done t₁ ∧ step.Fails polls options t₂

end

variable {polls : Nat} {options : UpdateImageOptions} {steps steps' : List RolloutStep}
  {t t' : List ApiEvent}

theorem Performs.append (h : Performs polls options steps t)
    (h' : Performs polls options steps' t') :
    Performs polls options (steps ++ steps') (t ++ t') := by
  induction h with
  | nil => exact h'
  | print note _ ih => exact .print note ih
  | canary hexec hok _ ih =>
      rw [List.append_assoc]
      exact .canary hexec hok ih
  | batch hjoined hok _ ih =>
      rw [List.append_assoc]
      exact .batch hjoined hok ih

theorem Breaks.append (h : Breaks polls options steps t) (steps' : List RolloutStep)
    (t' : List ApiEvent) : Breaks polls options (steps ++ steps') (t ++ t') := by
  obtain ⟨done, step, rest, t₁, t₂, t₃, rfl, rfl, hdone, hfails⟩ := h
  refine ⟨done, step, rest ++ steps', t₁, t₂, t₃ ++ t', ?_, ?_, hdone, hfails⟩
  · rw [List.append_assoc, List.cons_append]
  · simp only [List.append_assoc]

theorem Performs.append_breaks (h : Performs polls options steps t)
    (h' : Breaks polls options steps' t') : Breaks polls options (steps ++ steps') (t ++ t') := by
  obtain ⟨done, step, rest, t₁, t₂, t₃, rfl, rfl, hdone, hfails⟩ := h'
  refine ⟨steps ++ done, step, rest, t ++ t₁, t₂, t₃, ?_, ?_, h.append hdone, hfails⟩
  · rw [List.append_assoc]
  · rw [List.append_assoc]

/-- A step that fails at once. -/
theorem RolloutStep.Fails.breaks {step : RolloutStep} (h : step.Fails polls options t)
    (steps : List RolloutStep) (t' : List ApiEvent) :
    Breaks polls options (step :: steps) (t ++ t') :=
  ⟨[], step, steps, [], t, t', rfl, rfl, .nil, h⟩

/-! ## Rules -/

section

variable {α β : Type} {q : Rollout α} {q' : α → Rollout β} {good : α → Prop} {good' : β → Prop}

/-- Every run performs the steps with a good result, or breaks off. -/
def Follows (polls : Nat) (options : UpdateImageOptions) (q : Rollout α) (good : α → Prop)
    (steps : List RolloutStep) : Prop :=
  ∀ t o, Runs (rolloutTask polls options) q t o →
    (∃ a, o = some a ∧ good a ∧ Performs polls options steps t) ∨ Breaks polls options steps t

theorem follows_pure {a : α} (h : good a) : Follows polls options (pure a) good [] := by
  intro t o hruns
  obtain ⟨rfl, ho⟩ := runs_pure.mp hruns
  exact .inl ⟨a, ho, h, .nil⟩

theorem Follows.bind (hq : Follows polls options q good steps)
    (hq' : ∀ a, good a → Follows polls options (q' a) good' steps') :
    Follows polls options (q >>= q') good' (steps ++ steps') := by
  intro t o hruns
  obtain ⟨t₁, t₂, a, rfl, hfirst, hnext⟩ | ⟨hfirst, -⟩ := runs_bind.mp hruns
  · obtain ⟨b, hb, hgood, hperforms⟩ | hbreaks := hq t₁ _ hfirst
    · cases hb
      obtain ⟨c, ho, hgood', hperforms'⟩ | hbreaks := hq' a hgood t₂ o hnext
      · exact .inl ⟨c, ho, hgood', hperforms.append hperforms'⟩
      · exact .inr (hperforms.append_breaks hbreaks)
    · exact .inr (hbreaks.append steps' t₂)
  · obtain ⟨b, hb, -⟩ | hbreaks := hq t _ hfirst
    · cases hb
    · have hbreaks := hbreaks.append steps' []
      rw [List.append_nil] at hbreaks
      exact .inr hbreaks

theorem Follows.print (hq : Follows polls options q good steps) (note : Note) :
    Follows polls options (lift (FlyVault.Admin.print note) >>= fun _ => q) good steps := by
  intro t o hruns
  obtain ⟨t', rfl, hnext⟩ := runs_print_bind_iff.mp hruns
  have hline : Performs polls options [] [⟨.print note, ()⟩] := .print note .nil
  obtain ⟨a, ho, hgood, hperforms⟩ | hbreaks := hq t' o hnext
  · exact .inl ⟨a, ho, hgood, .print note hperforms⟩
  · exact .inr (hline.append_breaks hbreaks)

/-- Some run performs the steps and returns the value. -/
def Completes (polls : Nat) (options : UpdateImageOptions) (q : Rollout α) (a : α)
    (steps : List RolloutStep) : Prop :=
  ∃ t, Runs (rolloutTask polls options) q t (some a) ∧ Performs polls options steps t

theorem completes_pure (a : α) : Completes polls options (pure a) a [] :=
  ⟨[], runs_pure.mpr ⟨rfl, rfl⟩, .nil⟩

theorem Completes.bind {a : α} {b : β} (hq : Completes polls options q a steps)
    (hq' : Completes polls options (q' a) b steps') :
    Completes polls options (q >>= q') b (steps ++ steps') := by
  obtain ⟨t, hruns, hperforms⟩ := hq
  obtain ⟨t', hruns', hperforms'⟩ := hq'
  exact ⟨t ++ t', runs_bind.mpr (.inl ⟨t, t', a, rfl, hruns, hruns'⟩),
    hperforms.append hperforms'⟩

theorem Completes.print {a : α} (hq : Completes polls options q a steps) (note : Note) :
    Completes polls options (lift (FlyVault.Admin.print note) >>= fun _ => q) a steps := by
  obtain ⟨t, hruns, hperforms⟩ := hq
  exact ⟨_, runs_print_bind_iff.mpr ⟨t, rfl, hruns⟩, .print note hperforms⟩

end

/-! ## The stages -/

/-- The canary stage performs its canaries and has updated them, or breaks off. -/
theorem canaryStage_follows {count : Nat} {canaries updated : List MachineSnapshot}
    {o : Option (Except Error (List MachineSnapshot))}
    (h : Exec (canaryStage polls options count canaries updated) t o) :
    (o = some (.ok (updated ++ canaries)) ∧ Performs polls options (canaries.map .canary) t) ∨
      Breaks polls options (canaries.map .canary) t := by
  have hline : ∀ note, Performs polls options [] [⟨.print note, ()⟩] := fun note =>
    .print note .nil
  have hrun := canaryRun_of_exec h
  clear h
  induction hrun with
  | done updated =>
      rw [List.append_nil]
      exact .inl ⟨rfl, .nil⟩
  | @next snapshot s _ _ t₁ _ _ hupdate _ ih =>
      have hone : Performs polls options [.canary snapshot] (t₁ ++ []) :=
        .canary hupdate ⟨s, rfl⟩ .nil
      rw [List.append_nil] at hone
      obtain ⟨ho, hrest⟩ | hrest := ih
      · rw [List.append_assoc] at ho
        exact .inl ⟨ho, (hline _).append (hone.append hrest)⟩
      · exact .inr ((hline _).append_breaks (hone.append_breaks hrest))
  | @failed snapshot rest _ t₁ t₂ failure _ hupdate _ =>
      have hfails : (RolloutStep.canary snapshot).Fails polls options t₁ :=
        ⟨_, hupdate, not_succeeds_error failure⟩
      exact .inr ((hline _).append_breaks (hfails.breaks (rest.map .canary) t₂))
  | @panicked snapshot rest _ t₁ hupdate =>
      have hfails : (RolloutStep.canary snapshot).Fails polls options t₁ :=
        ⟨none, hupdate, not_succeeds_none⟩
      have hbreaks := hfails.breaks (rest.map .canary) []
      rw [List.append_nil] at hbreaks
      exact .inr ((hline _).append_breaks hbreaks)

/-- Waiting for tasks reports a failure if and only if one of them has not succeeded. -/
theorem failed_eq_nil_iff {batch : List MachineSnapshot}
    {runs : List (List ApiEvent × Option (Except UpdateFailure MachineSnapshot))}
    {results : List (Except String (Except UpdateFailure MachineSnapshot))}
    (h : Joined (rolloutTask polls options) batch runs t results) :
    results.filterMap failed = [] ↔ ∀ run ∈ runs, Succeeds run.2 := by
  have hall : (∀ run ∈ runs, Succeeds run.2) ↔ ∀ r ∈ results, Succeeds r.toOption := by
    have hruns : (∀ o ∈ runs.map Prod.snd, Succeeds o) ↔ ∀ run ∈ runs, Succeeds run.2 :=
      List.forall_mem_map
    have hresults : (∀ o ∈ results.map Except.toOption, Succeeds o) ↔
        ∀ r ∈ results, Succeeds r.toOption := List.forall_mem_map
    rw [← hruns, ← hresults]
    exact forall_congr' fun o => by rw [h.perm.mem_iff]
  rw [hall, List.filterMap_eq_nil_iff]
  refine forall₂_congr fun r _ => ?_
  cases r with
  | error err => exact iff_of_false (by simp [failed]) not_succeeds_none
  | ok result =>
      cases result with
      | error failure => exact iff_of_false (by simp [failed]) (not_succeeds_error failure)
      | ok s => exact iff_of_true rfl ⟨s, rfl⟩

theorem batchesOf_done {concurrency : Nat} {queues : Queues}
    (h : (queues.any fun entry => !entry.2.isEmpty) = true →
      (takeBatch concurrency queues).1 = []) : batchesOf concurrency queues = [] := by
  rw [batchesOf]
  split
  · next hany => rw [dif_pos (List.isEmpty_iff.mpr (h hany))]
  · rfl

theorem batchesOf_next {concurrency : Nat} {queues : Queues}
    (hany : (queues.any fun entry => !entry.2.isEmpty) = true)
    (hbatch : (takeBatch concurrency queues).1 ≠ []) :
    batchesOf concurrency queues = (takeBatch concurrency queues).1 ::
      batchesOf concurrency (takeBatch concurrency queues).2 := by
  rw [batchesOf, if_pos hany, dif_neg fun h => hbatch (List.isEmpty_iff.mp h)]

/-- The rolling stage performs its batches, or breaks off. -/
theorem rollingStage_follows {queues : Queues} {updated : List MachineSnapshot}
    {o : Option (Except Error (List MachineSnapshot))}
    (h : Runs (rolloutTask polls options) (rollingStage polls options queues updated) t o) :
    (∃ updated', o = some (.ok updated') ∧
      Performs polls options ((batchesOf options.concurrency queues).map .batch) t) ∨
      Breaks polls options ((batchesOf options.concurrency queues).map .batch) t := by
  have hrun := rollingRun_of_runs h
  clear h
  induction hrun with
  | @done _ updated hnone =>
      rw [batchesOf_done hnone]
      exact .inl ⟨updated, rfl, .nil⟩
  | @next queues _ t₁ _ _ _ _ hany hbatch hjoined hok _ ih =>
      rw [batchesOf_next hany hbatch, List.map_cons]
      have hone : Performs polls options [.batch (takeBatch options.concurrency queues).1]
          (t₁ ++ []) := .batch hjoined ((failed_eq_nil_iff hjoined).mp hok) .nil
      rw [List.append_nil] at hone
      obtain ⟨updated', ho, hrest⟩ | hrest := ih
      · exact .inl ⟨updated', ho, hone.append hrest⟩
      · exact .inr (hone.append_breaks hrest)
  | @failed queues _ t₁ t₂ runs results _ _ hany hbatch hjoined hfailed _ =>
      rw [batchesOf_next hany hbatch, List.map_cons]
      have hfails : (RolloutStep.batch (takeBatch options.concurrency queues).1).Fails polls
          options t₁ := by
        refine ⟨runs, results, hjoined, ?_⟩
        by_contra hall
        push Not at hall
        exact hfailed ((failed_eq_nil_iff hjoined).mpr hall)
      exact .inr (hfails.breaks _ t₂)

theorem batchesOf_nil (concurrency : Nat) : batchesOf concurrency [] = [] := by
  rw [batchesOf]
  rfl

theorem batches_eq_nil {targets : List MachineSnapshot}
    (h : (planOf options targets).remaining.isEmpty) : (planOf options targets).batches = [] := by
  show batchesOf _ (List.foldl _ [] (planOf options targets).remaining) = []
  rw [List.isEmpty_iff.mp h]
  exact batchesOf_nil _

/-- A rollout performs its plan and returns Ok, or breaks off. -/
theorem rollout_follows (targets : List MachineSnapshot) :
    Follows polls options (rollout polls options targets) (· = .ok ())
      (planOf options targets).steps := by
  have hcanaries : ∀ count canaries, Follows polls options
      (lift (canaryStage polls options count canaries [])) (· = .ok ([] ++ canaries))
      (canaries.map .canary) := by
    intro count canaries t o hruns
    obtain ⟨ho, hperforms⟩ | hbreaks := canaryStage_follows (runs_lift.mp hruns)
    · exact .inl ⟨_, ho, rfl, hperforms⟩
    · exact .inr hbreaks
  have hbatches : ∀ queues updated, Follows polls options
      (rollingStage polls options queues updated) (fun stage => ∃ updated, stage = .ok updated)
      ((batchesOf options.concurrency queues).map .batch) := by
    intro queues updated t o hruns
    obtain ⟨updated', ho, hperforms⟩ | hbreaks := rollingStage_follows hruns
    · exact .inl ⟨_, ho, ⟨updated', rfl⟩, hperforms⟩
    · exact .inr hbreaks
  have hok : Follows polls options (pure (.ok ()) : Rollout (Except Error Unit)) (· = .ok ()) [] :=
    follows_pure rfl
  unfold rollout
  refine Follows.print ((hcanaries _ _).bind ?_) _
  intro stage hstage
  subst hstage
  refine Follows.print ?_ _
  split
  · next hempty =>
      rw [batches_eq_nil hempty]
      exact hok.print _
  · refine Follows.print ?_ _
    rw [← List.append_nil (List.map RolloutStep.batch (planOf options targets).batches)]
    refine (hbatches _ _).bind ?_
    intro stage hstage
    obtain ⟨updated, rfl⟩ := hstage
    exact hok.print _

/-! ## A run without failures -/

/-- There are answers with which the update of the machine succeeds. -/
def Updatable (polls : Nat) (options : UpdateImageOptions) (snapshot : MachineSnapshot) : Prop :=
  ∃ t o, Exec (updateOneMachine polls snapshot options.image options) t o ∧ Succeeds o

theorem canaryStage_runs {count : Nat} {canaries : List MachineSnapshot}
    (h : ∀ s ∈ canaries, Updatable polls options s) (updated : List MachineSnapshot) :
    ∃ t, Exec (canaryStage polls options count canaries updated) t
        (some (.ok (updated ++ canaries))) ∧
      Performs polls options (canaries.map .canary) t := by
  induction canaries generalizing updated with
  | nil => exact ⟨[], exec_pure.mpr ⟨rfl, by rw [List.append_nil]⟩, .nil⟩
  | cons snapshot rest ih =>
      obtain ⟨⟨t₁, o, hexec, hok⟩, hrest⟩ := List.forall_mem_cons.mp h
      obtain ⟨t₂, hstage, hperforms⟩ := ih hrest (updated ++ [snapshot])
      rw [List.append_assoc] at hstage
      have hall := Performs.canary hexec hok hperforms
      obtain ⟨s, rfl⟩ := hok
      refine ⟨_, ?_, .print (.canary (updated.length + 1) count snapshot.machineId
        snapshot.tenantId) hall⟩
      refine exec_bind.mpr (.inl ⟨[_], t₁ ++ t₂, (), rfl, exec_ask.mpr ⟨(), rfl, rfl⟩, ?_⟩)
      exact exec_bind.mpr (.inl ⟨t₁, t₂, .ok s, rfl, hexec, hstage⟩)

theorem joined_runs {batch : List MachineSnapshot} (h : ∀ s ∈ batch, Updatable polls options s) :
    ∃ runs t, ∃ results : List (Except String (Except UpdateFailure MachineSnapshot)),
      Joined (rolloutTask polls options) batch runs t results ∧ ∀ run ∈ runs, Succeeds run.2 := by
  have hruns : ∃ runs : List (List ApiEvent × Except UpdateFailure MachineSnapshot),
      List.Forall₂ (fun snapshot run => Exec (rolloutTask polls options snapshot) run.1
        (some run.2)) batch runs ∧ ∀ run ∈ runs, Succeeds (some run.2) := by
    induction batch with
    | nil => exact ⟨[], .nil, List.forall_mem_nil _⟩
    | cons snapshot rest ih =>
        obtain ⟨⟨t, o, hexec, s, rfl⟩, hrest⟩ := List.forall_mem_cons.mp h
        obtain ⟨runs, hexecs, hok⟩ := ih hrest
        exact ⟨(t, .ok s) :: runs, .cons hexec hexecs,
          List.forall_mem_cons.mpr ⟨⟨s, rfl⟩, hok⟩⟩
  obtain ⟨runs, hexecs, hok⟩ := hruns
  refine ⟨runs.map fun run => (run.1, some run.2), _, runs.map fun run => .ok run.2,
    ⟨?_, interleaves_flatten _, ?_⟩, ?_⟩
  · rw [List.forall₂_map_right_iff]
    exact hexecs
  · rw [List.map_map, List.map_map]
    exact .refl _
  · exact List.forall_mem_map.mpr hok

theorem rollingStage_runs {queues : Queues}
    (h : ∀ s ∈ queues.machines, Updatable polls options s) (updated : List MachineSnapshot) :
    ∃ t updated', Runs (rolloutTask polls options) (rollingStage polls options queues updated) t
        (some (.ok updated')) ∧
      Performs polls options ((batchesOf options.concurrency queues).map .batch) t := by
  induction hsize : queues.size using Nat.strongRecOn generalizing queues updated with
  | ind size ih =>
  rw [rollingStage, batchesOf]
  split
  swap
  · exact ⟨[], updated, runs_pure.mpr ⟨rfl, rfl⟩, .nil⟩
  split
  · exact ⟨[], updated, runs_pure.mpr ⟨rfl, rfl⟩, .nil⟩
  next hbatch =>
  obtain ⟨runs, t₁, results, hjoined, hok⟩ :=
    joined_runs fun s hs => h s (mem_takeBatch (.inl hs))
  have hless := takeBatch_smaller fun h => hbatch (List.isEmpty_iff.mpr h)
  rw [hsize] at hless
  obtain ⟨t₂, updated', hrest, hperforms⟩ := ih _ hless
    (fun s hs => h s (mem_takeBatch (.inr hs))) (updated ++ results.filterMap succeeded) rfl
  refine ⟨t₁ ++ t₂, updated', ?_, .batch hjoined hok hperforms⟩
  refine runs_bind.mpr (.inl ⟨t₁, t₂, results, rfl, ?_, ?_⟩)
  · exact runs_join.mpr ⟨runs, results, hjoined, rfl⟩
  dsimp only
  rw [if_pos (List.isEmpty_iff.mpr ((failed_eq_nil_iff hjoined).mpr hok))]
  exact hrest

theorem rollout_completes {targets : List MachineSnapshot}
    (h : ∀ s ∈ targets, Updatable polls options s) :
    Completes polls options (rollout polls options targets) (.ok ())
      (planOf options targets).steps := by
  have hchosen : ∀ p : MachineSnapshot × Nat → Bool,
      ∀ s ∈ (targets.zipIdx.filter p).map Prod.fst, Updatable polls options s := by
    intro p s hs
    obtain ⟨entry, hmem, rfl⟩ := List.mem_map.mp hs
    exact h entry.1 (List.fst_mem_of_mem_zipIdx (List.mem_filter.mp hmem).1)
  have hqueues : ∀ s ∈ Queues.machines ((planOf options targets).remaining.foldl
      (fun queues s => enqueue s queues) []), Updatable polls options s := by
    intro s hs
    exact hchosen _ s ((mem_enqueueAll hs).resolve_right List.not_mem_nil)
  unfold rollout
  refine Completes.print (Completes.bind (a := .ok ([] ++ (planOf options targets).canaries))
    ?_ ?_) _
  · obtain ⟨t, hexec, hperforms⟩ := canaryStage_runs (hchosen _) []
    exact ⟨t, runs_lift.mpr hexec, hperforms⟩
  · refine Completes.print ?_ _
    split
    · next hempty =>
        rw [batches_eq_nil hempty]
        exact (completes_pure _).print _
    · refine Completes.print ?_ _
      rw [← List.append_nil (List.map RolloutStep.batch (planOf options targets).batches)]
      obtain ⟨t, updated, hruns, hperforms⟩ := rollingStage_runs hqueues _
      exact Completes.bind ⟨t, hruns, hperforms⟩ ((completes_pure _).print _)

/-- The plan is valid. Every run of the rollout performs all of it and returns Ok, or breaks off
    at an update that has not succeeded; if every target can be updated, there is a run that
    performs all of it. A run of `update_image` is a listing and a run of the rollout on the
    selected machines, or it returns an error without an update. -/
theorem update_image_schedule (polls : Nat) (options : UpdateImageOptions)
    (hroom : 1 ≤ options.concurrency) :
    (∀ targets, (planOf options targets).Valid options targets ∧
      (∀ t o, Runs (rolloutTask polls options) (rollout polls options targets) t o →
        (o = some (.ok ()) ∧ Performs polls options (planOf options targets).steps t) ∨
          Breaks polls options (planOf options targets).steps t) ∧
      ((∀ s ∈ targets, Updatable polls options s) → ∃ t,
        Runs (rolloutTask polls options) (rollout polls options targets) t (some (.ok ())) ∧
          Performs polls options (planOf options targets).steps t)) ∧
    ∀ t o, Runs (rolloutTask polls options) (updateImage polls options) t o →
      ((∃ e, o = some (.error e)) ∧
        (t = [] ∨ ∃ listed, Exec (listManagedMachines none).run t (some listed))) ∨
      ∃ machines snapshots targets t₁ t₂, t = t₁ ++ t₂ ∧
        Exec (listManagedMachines none).run t₁ (some (.ok machines)) ∧
        (retainTenants options machines).mapM snapshotFromMachine = .ok snapshots ∧
        targets.Perm snapshots ∧
        Runs (rolloutTask polls options) (rollout polls options targets) t₂ o := by
  refine ⟨fun targets => ⟨plan_valid options targets hroom, ?_, rollout_completes⟩, ?_⟩
  · intro t o h
    obtain ⟨a, ho, rfl, hperforms⟩ | hbreaks := rollout_follows targets t o h
    · exact .inl ⟨ho, hperforms⟩
    · exact .inr hbreaks
  · intro t o h
    obtain hstopped | ⟨machines, snapshots, t₁, t₂, ht, hlist, hsnapshots, hrollout⟩ :=
      runs_updateImage_cases h
    · exact .inl hstopped
    · exact .inr ⟨machines, snapshots, _, t₁, t₂, ht, hlist, hsnapshots, List.mergeSort_perm _ _,
        hrollout⟩

/-! ## Three machines -/

def machineOf (machineId tenantId : String) : MachineSnapshot :=
  { soleSnapshot with machineId, tenantId }

/-- Two machines of the tenant a and one of the tenant b. -/
def threeTargets : List MachineSnapshot :=
  [machineOf "a1" "a", machineOf "a2" "a", machineOf "b1" "b"]

/-- One canary, and batches of two machines. -/
def pairOptions : UpdateImageOptions := { soleOptions 1 0 with concurrency := 2 }

theorem updatable_machineOf (machineId tenantId : String) :
    Updatable 1 pairOptions (machineOf machineId tenantId) := by
  obtain ⟨t, o, hplay, hok⟩ : ∃ t o, play (soleAnswer (.ok (soleMachine "new"))) 5
      (updateOneMachine 1 (machineOf machineId tenantId) pairOptions.image pairOptions) =
        some (t, o) ∧ Succeeds o := ⟨_, _, rfl, _, rfl⟩
  exact ⟨t, o, exec_of_play hplay, hok⟩

/-- The first machine is the canary, and the other two make one batch. -/
theorem update_image_schedule_three :
    (planOf pairOptions threeTargets).canaries = [machineOf "a1" "a"] ∧
    (planOf pairOptions threeTargets).batches.flatten.Perm
      [machineOf "a2" "a", machineOf "b1" "b"] ∧
    ∃ t, Runs (rolloutTask 1 pairOptions) (rollout 1 pairOptions threeTargets) t (some (.ok ())) ∧
      Performs 1 pairOptions (planOf pairOptions threeTargets).steps t := by
  have hall : ∀ s ∈ threeTargets, Updatable 1 pairOptions s := by
    intro s hs
    simp only [threeTargets, List.mem_cons, List.not_mem_nil, or_false] at hs
    obtain rfl | rfl | rfl := hs
    · exact updatable_machineOf _ _
    · exact updatable_machineOf _ _
    · exact updatable_machineOf _ _
  obtain ⟨hvalid, -, hruns⟩ := (update_image_schedule 1 pairOptions (by decide)).1 threeTargets
  exact ⟨rfl, hvalid.batches, hruns hall⟩

end FlyVault.Admin
