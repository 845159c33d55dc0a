/-
  Whether a failed rollout leaves the fleet as it was.

  The rollback covers the machines of which `update_machine` has returned Ok: those that were
  updated, and those that failed later. Two cases are not covered. An update that returns an
  error may have been applied, and its machine is no rollback target. A task that panics after
  its update gives a join error, which carries no rollback target; the deadlines of the health
  check and the soak window panic when they do not fit into an instant.

  `rollback_restores`: in every run in which neither happens, if `update_image` returns an error
  and every rollback has succeeded, every machine has the image it had before.
  `lost_answer_keeps_image` and `panicked_task_keeps_image` are runs with the two cases.

  The proof goes through the traces: an image changes only with an update that has returned Ok
  (`image_of_not_updated`), each function's trace has such an update only if its result names the
  machine (`updateOneMachine_reports`), and a successful rollback puts the image back
  (`rollbackEach_restores`).
-/
import FlyVault.Admin.OneMachine
import FlyVault.Admin.RolloutRuns
import FlyVault.Lib.Except

namespace FlyVault.Admin

open FlyVault.Lib FlyVault.Lib.Script

/-- Nothing is left in doubt: an update that returns an error has left the image as it was, and
    the deadlines fit. -/
def Settled (options : UpdateImageOptions) (before : Fleet) (e : ApiEvent) (after : Fleet) :
    Prop :=
  InTime [options.healthTimeout, options.soak] e ∧
    match e with
    | ⟨.updateMachine machineId _ _, .error _⟩ => after.image machineId = before.image machineId
    | _ => True

variable {polls : Nat} {options : UpdateImageOptions} {fleet after : Fleet} {t : List ApiEvent}

/-- The deadlines of the trace fit. -/
abbrev AllInTime (options : UpdateImageOptions) (t : List ApiEvent) : Prop :=
  ∀ e ∈ t, InTime [options.healthTimeout, options.soak] e

theorem Serves.inTime (h : Serves (Settled options) fleet t after) : AllInTime options t :=
  h.all fun _ _ _ hok => hok.1

/-- Printing changes nothing. -/
theorem Serves.print {note : Note}
    (h : Serves (Settled options) fleet (⟨.print note, ()⟩ :: t) after) :
    Serves (Settled options) fleet t after := by
  cases h with
  | @cons _ mid _ _ _ hanswers _ h =>
      obtain rfl : mid = fleet := hanswers
      exact h

theorem not_updated_of_quiet {machineId : String} (h : ∀ e ∈ t, e.1.Quiet) :
    ¬ Updated machineId t := by
  intro h'
  obtain ⟨request, nonce, m, hmem⟩ := h'
  exact h _ hmem

theorem updated_append {machineId : String} {t₁ t₂ : List ApiEvent} :
    Updated machineId (t₁ ++ t₂) ↔ Updated machineId t₁ ∨ Updated machineId t₂ := by
  simp only [Updated, List.mem_append, exists_or]

/-- One answer changes only the image of a machine whose update it says was made. -/
theorem image_of_answers {machineId : String} {e : ApiEvent} (h : Answers fleet after e)
    (hok : Settled options fleet e after) (hnot : ¬ Updated machineId [e]) :
    after.image machineId = fleet.image machineId := by
  by_cases hquiet : e.1.Quiet
  · rw [h.quiet hquiet]
  · obtain ⟨c, r⟩ := e
    cases c with
    | updateMachine id request nonce =>
        cases r with
        | ok m =>
            have hne : machineId ≠ id := by
              intro heq
              subst heq
              exact hnot ⟨request, nonce, m, List.mem_singleton.mpr rfl⟩
            rw [show after = fleet.store id request.config from h, Fleet.image_store, if_neg hne]
        | error err =>
            by_cases heq : machineId = id
            · subst heq
              exact hok.2
            · obtain hsame | hstored : after = fleet ∨ after = fleet.store id request.config := h
              · rw [hsame]
              · rw [hstored, Fleet.image_store, if_neg heq]
    | _ => exact absurd trivial hquiet

theorem image_of_not_updated {machineId : String} (h : Serves (Settled options) fleet t after)
    (hnot : ¬ Updated machineId t) : after.image machineId = fleet.image machineId := by
  induction h with
  | nil => rfl
  | @cons fleet mid after e t hanswers hok _ ih =>
      rw [show e :: t = [e] ++ t from rfl, updated_append, not_or] at hnot
      exact (ih hnot.2).trans (image_of_answers hanswers hok hnot.1)

/-! ## One machine -/

/-- `Only.exec_run_bind` for a first part that stores nothing. -/
theorem quiet_bind {α β : Type} {x : Fallible α} {g : α → Fallible β}
    {o : Option (Except Error β)} (h : Exec (x >>= g).run t o)
    (hx : Only (fun _ => True) Call.Quiet x.run) :
    (∃ t₁ t₂ a, t = t₁ ++ t₂ ∧ (∀ e ∈ t₁, e.1.Quiet) ∧ Exec x.run t₁ (some (.ok a)) ∧
      Exec (g a).run t₂ o) ∨ (∃ e, o = some (.error e)) ∧ ∀ e ∈ t, e.1.Quiet :=
  hx.exec_run_bind (fun _ _ => trivial) h

/-- The last call has stored a configuration with the image, or the trace has no update that
    has returned Ok. -/
def Stores (machineId nonce image : String) (t : List ApiEvent) (o : Option (Except Error Unit)) :
    Prop :=
  (∃ t₁ request m, t = t₁ ++ [⟨.updateMachine machineId request (some nonce), .ok m⟩] ∧
    (∀ e ∈ t₁, e.1.Quiet) ∧ configImage request.config = some image ∧ o = some (.ok ())) ∨
    (∃ e, o = some (.error e)) ∧ ∀ id, ¬ Updated id t

theorem Stores.failed {machineId nonce image : String} {o : Option (Except Error Unit)}
    (h : (∃ e, o = some (.error e)) ∧ ∀ e ∈ t, e.1.Quiet) : Stores machineId nonce image t o :=
  .inr ⟨h.1, fun _ => not_updated_of_quiet h.2⟩

theorem storeImage_spec {machineId nonce image setText updateText : String} {config : Json}
    {metadata : List (String × String)} {name region version : Option String}
    {o : Option (Except Error Unit)}
    (h : Exec (storeImage machineId nonce config image metadata name region version setText
      updateText).run t o) : Stores machineId nonce image t o := by
  obtain ⟨result, rfl, hrun⟩ := storeRun_of_exec h
  generalize hok : result.isOk = ok at hrun
  have hfailed : ok = false → ∃ e, some result = some (.error e) := by
    intro hfalse
    cases result with
    | ok u => exact absurd (hok.trans hfalse) (by simp [Except.isOk, Except.toBool])
    | error e => exact ⟨e, rfl⟩
  cases hrun with
  | notCordoned e => exact .failed ⟨hfailed rfl, List.forall_mem_singleton.mpr trivial⟩
  | noConfig _ => exact .failed ⟨hfailed rfl, List.forall_mem_singleton.mpr trivial⟩
  | notStored e _ =>
      refine .inr ⟨hfailed rfl, ?_⟩
      intro id hupdated
      obtain ⟨_, _, _, hmem⟩ := hupdated
      obtain hmem | hmem := List.mem_cons.mp hmem
      · cases hmem
      · cases List.mem_singleton.mp hmem
  | @stored request m hsent =>
      refine .inl ⟨[_], request, m, rfl, List.forall_mem_singleton.mpr trivial,
        configImage_configSent hsent, ?_⟩
      cases result with
      | ok u => rfl
      | error e => cases hok

theorem only_verifyMachine (machineId nonce : String) :
    Only (InTime [options.healthTimeout, options.soak]) (fun c => c.Quiet ∧ c.Forward)
      (verifyMachine polls machineId nonce options).run := by
  have hwaits : ∀ c : Call, c.Waits → c.Quiet ∧ c.Forward := fun c h => ⟨h.quiet, h.forward⟩
  unfold verifyMachine
  refine (only_withContext _ ((only_waitChunks _ _ _ _).mono hwaits)).run_bind fun _ => ?_
  refine (only_withContext _ ((only_waitForHealth (by simp) _ _).mono hwaits)).run_bind
    fun _ => ?_
  refine (only_withContext _ ((only_verifySoakWindow (by simp) _ _).mono hwaits)).run_bind
    fun _ => ?_
  exact only_withContext _ (only_ask.mpr ⟨trivial, trivial⟩)

theorem only_noPanic_verifyMachine {allows : ApiEvent → Prop} (machineId nonce : String) :
    Only allows (fun c => c.Quiet ∧ c.Forward)
      (verifyMachine polls machineId nonce options).run.noPanic := by
  have hwaits : ∀ c : Call, c.Waits → c.Quiet ∧ c.Forward := fun c h => ⟨h.quiet, h.forward⟩
  unfold verifyMachine
  refine (only_withContext _ ((only_waitChunks _ _ _ _).mono hwaits)).noPanic.noPanic_run_bind
    fun _ => ?_
  refine (only_noPanic_withContext _
    ((only_noPanic_waitForHealth _ _ _).mono hwaits)).noPanic_run_bind fun _ => ?_
  refine (only_noPanic_withContext _
    ((only_noPanic_verifySoakWindow _ _ _).mono hwaits)).noPanic_run_bind fun _ => ?_
  exact (only_withContext _ (only_ask.mpr ⟨trivial, trivial⟩)).noPanic

/-- Verifying a machine stores nothing. -/
theorem quiet_verifyMachine {machineId nonce : String} {result : Except Error Unit}
    (h : Exec (verifyMachine polls machineId nonce options).run t (some result)) :
    ∀ e ∈ t, e.1.Quiet := by
  have hall : ∀ e ∈ t, e.1.Quiet ∧ e.1.Forward :=
    (only_noPanic_verifyMachine _ _).calls (exec_noPanic.mpr ⟨h, by simp⟩)
  exact fun e he => (hall e he).1

theorem only_giveBack {α : Type} {allows : ApiEvent → Prop} (machineId nonce : String)
    (result : Except Error α) :
    Only allows (fun c => c.Quiet ∧ c.Forward) (giveBack machineId nonce result) := by
  unfold giveBack
  refine Only.bind ?_ fun _ => ?_
  · unfold uncordonAfterFailure
    split
    · trivial
    · exact only_ask.mpr ⟨trivial, trivial⟩
  · refine (only_withContext _ (only_ask.mpr ⟨trivial, trivial⟩)).bind fun released => ?_
    split
    · trivial
    · exact (only_ask.mpr ⟨trivial, trivial⟩).bind fun _ => trivial
    · trivial

/-- Giving the lease back does not turn a failure into a success. -/
theorem quiet_giveBack {α : Type} {machineId nonce : String} {result : Except Error α}
    {o : Option (Except Error α)} (h : Exec (giveBack machineId nonce result) t o) :
    ∀ e ∈ t, e.1.Quiet := by
  have hall : ∀ e ∈ t, e.1.Quiet ∧ e.1.Forward :=
    (only_giveBack _ _ _).calls h
  exact fun e he => (hall e he).1

theorem giveBack_ok {α : Type} {machineId nonce : String} {result : Except Error α} {a : α}
    (h : Exec (giveBack machineId nonce result) t (some (.ok a))) : result = .ok a := by
  obtain ⟨_, ho, -, hsame⟩ := giveBackRun_of_exec h
  cases ho
  exact hsame a rfl

/-- The machine that a result names for a rollback. -/
def named : Except UpdateFailure MachineSnapshot → Option MachineSnapshot
  | .ok snapshot => some snapshot
  | .error failure => failure.rollbackTarget

/-- A trace updates no machine but that of the snapshot, and if it does, the result names it. -/
structure Names (snapshot : MachineSnapshot) (t : List ApiEvent)
    (result : Option MachineSnapshot) : Prop where
  updated : ∀ id, Updated id t → id = snapshot.machineId ∧ result = some snapshot
  only : ∀ s, result = some s → s = snapshot

/-- Moreover the result names the machine only if the trace updates it. -/
structure Reports (snapshot : MachineSnapshot) (t : List ApiEvent)
    (result : Option MachineSnapshot) : Prop extends Names snapshot t result where
  named : result = some snapshot → Updated snapshot.machineId t

theorem Reports.of_not_updated {snapshot : MachineSnapshot} (h : ∀ id, ¬ Updated id t) :
    Reports snapshot t none :=
  ⟨⟨fun id hupdated => absurd hupdated (h id), (by simp)⟩, (by simp)⟩

theorem Reports.quiet_append {snapshot : MachineSnapshot} {t₁ t₂ : List ApiEvent}
    {result : Option MachineSnapshot} (h₁ : ∀ e ∈ t₁, e.1.Quiet) (h : Reports snapshot t result)
    (h₂ : ∀ e ∈ t₂, e.1.Quiet) : Reports snapshot (t₁ ++ (t ++ t₂)) result := by
  refine ⟨⟨?_, h.only⟩, ?_⟩
  · intro id hupdated
    rw [updated_append, updated_append] at hupdated
    obtain hupdated | hupdated | hupdated := hupdated
    · exact absurd hupdated (not_updated_of_quiet h₁)
    · exact h.updated id hupdated
    · exact absurd hupdated (not_updated_of_quiet h₂)
  · intro hresult
    rw [updated_append, updated_append]
    exact .inr (.inl (h.named hresult))

theorem Reports.stored (snapshot : MachineSnapshot) (request : UpdateMachineRequest)
    (leaseNonce : Option String) (m : Machine) :
    Reports snapshot [⟨.updateMachine snapshot.machineId request leaseNonce, .ok m⟩]
      (some snapshot) := by
  refine ⟨⟨?_, fun s hs => (Option.some.inj hs).symm⟩, fun _ => ?_⟩
  · intro id hupdated
    obtain ⟨_, _, _, hmem⟩ := hupdated
    cases List.mem_singleton.mp hmem
    exact ⟨rfl, rfl⟩
  · exact ⟨request, leaseNonce, m, List.mem_singleton.mpr rfl⟩

theorem updateOperation_spec {snapshot : MachineSnapshot} {image nonce : String}
    {target : Option MachineSnapshot} {result : Except Error MachineSnapshot}
    (h : Exec (updateOperation polls snapshot image nonce options) t (some (target, result))) :
    Reports snapshot t target ∧ ∀ s, result = .ok s → target = some s := by
  unfold updateOperation at h
  obtain ⟨t₁, t₂, stored, rfl, hstore, h⟩ := exec_bind_some.mp h
  have hstores := storeImage_spec hstore
  cases stored with
  | error e =>
      obtain ⟨rfl, ho⟩ := exec_pure.mp h
      cases ho
      obtain ⟨_, _, _, -, -, -, herr⟩ | ⟨-, hnot⟩ := hstores
      · cases herr
      · rw [List.append_nil]
        exact ⟨.of_not_updated hnot, (by simp)⟩
  | ok =>
      -- From here on the rollback target is set.
      obtain ⟨verified, hverify, ho⟩ := exec_bind_pure.mp h
      cases ho
      obtain ⟨t', request, m, rfl, hquiet', -, -⟩ | ⟨⟨_, herr⟩, -⟩ := hstores
      swap
      · cases herr
      refine ⟨?_, ?_⟩
      · rw [List.append_assoc]
        exact (Reports.stored snapshot request (some nonce) m).quiet_append hquiet'
          (quiet_verifyMachine hverify)
      · intro s hs
        cases verified with
        | ok =>
            cases hs
            rfl
        | error e => cases hs

/-- The result of `update_one_machine` names the machine if and only if its update has returned
    Ok. -/
theorem updateOneMachine_reports {snapshot : MachineSnapshot} {image : String}
    {result : Except UpdateFailure MachineSnapshot}
    (h : Exec (updateOneMachine polls snapshot image options) t (some result)) :
    Reports snapshot t (named result) := by
  have hlease : Only (fun _ => True) Call.Quiet
      (withContext s!"lease machine {snapshot.machineId}"
        (createLease snapshot.machineId options.leaseTtlSecs)).run :=
    only_withContext _ (only_ask.mpr trivial)
  unfold updateOneMachine at h
  obtain ⟨t₁, t, leased, rfl, hleased, h⟩ := exec_bind_some.mp h
  have hquiet₁ := hlease.calls hleased
  cases leased with
  | error e =>
      obtain ⟨rfl, ho⟩ := exec_pure.mp h
      cases ho
      rw [List.append_nil]
      exact .of_not_updated fun _ => not_updated_of_quiet hquiet₁
  | ok nonce =>
      obtain ⟨t₂, t, operation, rfl, hoperation, h⟩ := exec_bind_some.mp h
      obtain ⟨target, result⟩ := operation
      obtain ⟨hreports, hok⟩ := updateOperation_spec hoperation
      obtain ⟨given, hgiven, ho⟩ := exec_bind_pure.mp h
      cases ho
      have hnamed : named (given.mapError fun error => { error, rollbackTarget := target }) =
          target := by
        cases given with
        | ok s => exact (hok s (giveBack_ok hgiven)).symm
        | error e => rfl
      rw [hnamed]
      exact hreports.quiet_append hquiet₁ (quiet_giveBack hgiven)

theorem only_storeImage {allows : ApiEvent → Prop} (machineId nonce : String) (config : Json)
    (image : String) (metadata : List (String × String))
    (name region currentVersion : Option String) (setText updateText : String) :
    Only allows Call.Forward
      (storeImage machineId nonce config image metadata name region currentVersion setText
        updateText).run := by
  refine (only_withContext _ (only_ask.mpr trivial)).run_bind fun _ => ?_
  refine (only_withContext _ only_pure).run_bind fun _ => ?_
  refine (only_withContext _ only_pure).run_bind fun _ => ?_
  exact (only_withContext _ (only_ask.mpr trivial)).run_bind fun _ => trivial

/-- With deadlines that fit, `update_one_machine` does not panic. -/
theorem only_updateOneMachine (snapshot : MachineSnapshot) (image : String) :
    Only (InTime [options.healthTimeout, options.soak]) Call.Forward
      (updateOneMachine polls snapshot image options) := by
  unfold updateOneMachine
  refine (only_withContext _ (only_ask.mpr trivial)).bind fun leased => ?_
  split
  · trivial
  · refine Only.bind ?_ fun _ => ((only_giveBack _ _ _).mono fun _ h => h.2).bind fun _ => trivial
    unfold updateOperation
    refine (only_storeImage _ _ _ _ _ _ _ _ _ _).bind fun stored => ?_
    split
    · trivial
    · exact ((only_verifyMachine _ _).mono fun _ h => h.2).bind fun _ => trivial

/-- The calls of `update_one_machine` in any run: those of `storeImage`, and calls that store
    nothing and announce no rollback. -/
theorem only_noPanic_updateOneMachine {allows : ApiEvent → Prop} {P : Call → Prop}
    {snapshot : MachineSnapshot} {image : String} (hquiet : ∀ c : Call, c.Quiet ∧ c.Forward → P c)
    (hstore : ∀ nonce setText updateText, Only allows P
      (storeImage snapshot.machineId nonce snapshot.config image snapshot.metadata snapshot.name
        snapshot.region (some snapshot.currentVersion) setText updateText).run) :
    Only allows P (updateOneMachine polls snapshot image options).noPanic := by
  have hlease := hquiet (.createLease snapshot.machineId options.leaseTtlSecs) ⟨trivial, trivial⟩
  refine (only_withContext _ (only_ask.mpr hlease)).noPanic.noPanic_bind fun leased => ?_
  cases leased with
  | error e => trivial
  | ok nonce =>
      refine Only.noPanic_bind ?_ fun operation => ?_
      · refine (hstore nonce _ _).noPanic.noPanic_bind fun stored => ?_
        cases stored with
        | error e => trivial
        | ok u =>
            refine Only.noPanic_bind ?_ fun _ => trivial
            exact (only_noPanic_verifyMachine _ _).mono hquiet
      · refine Only.noPanic (Only.bind ?_ fun _ => trivial)
        exact (only_giveBack _ _ operation.2).mono hquiet

/-- A rollback that succeeds stores the previous image, and nothing else. -/
theorem rollbackOneMachine_spec {snapshot : MachineSnapshot}
    (h : Exec (rollbackOneMachine polls snapshot options).run t (some (.ok ()))) :
    ∃ t₁ t₂ request nonce m,
      t = t₁ ++ ⟨.updateMachine snapshot.machineId request nonce, .ok m⟩ :: t₂ ∧
      (∀ e ∈ t₁, e.1.Quiet) ∧ (∀ e ∈ t₂, e.1.Quiet) ∧
      configImage request.config = some snapshot.previousImage := by
  unfold rollbackOneMachine at h
  obtain ⟨t₁, t, current, rfl, hquiet₁, -, h⟩ | ⟨⟨_, ho⟩, -⟩ :=
    quiet_bind h (only_withContext _ (only_ask.mpr trivial))
  swap
  · cases ho
  split at h
  · cases (exec_pure.mp h).2
  · obtain ⟨t₂, t, nonce, rfl, hquiet₂, -, h⟩ | ⟨⟨_, ho⟩, -⟩ :=
      quiet_bind h (only_withContext _ (only_ask.mpr trivial))
    swap
    · cases ho
    obtain ⟨t, t₅, result, rfl, hoperation, hgiven⟩ := exec_bind_some.mp h
    have hquiet₅ := quiet_giveBack hgiven
    rw [giveBack_ok hgiven] at hoperation
    obtain ⟨t₃, t₄, _, rfl, hstore, hverify⟩ | ⟨_, -, ho⟩ | ⟨-, ho⟩ := exec_run_bind.mp hoperation
    rotate_left
    · cases ho
    · cases ho
    have hquiet₄ := quiet_verifyMachine hverify
    obtain ⟨t₃, request, m, rfl, hquiet₃, himage, -⟩ | ⟨⟨_, ho⟩, -⟩ := storeImage_spec hstore
    swap
    · cases ho
    refine ⟨t₁ ++ (t₂ ++ t₃), t₄ ++ t₅, request, some nonce, m, ?_, ?_, ?_, himage⟩
    · simp only [List.append_assoc, List.cons_append, List.nil_append]
    · simp only [List.forall_mem_append]
      exact ⟨hquiet₁, hquiet₂, hquiet₃⟩
    · exact List.forall_mem_append.mpr ⟨hquiet₄, hquiet₅⟩

theorem image_of_rollbackOneMachine {snapshot : MachineSnapshot}
    (hserves : Serves (Settled options) fleet t after)
    (h : Exec (rollbackOneMachine polls snapshot options).run t (some (.ok ()))) (id : String) :
    after.image id =
      if id = snapshot.machineId then some snapshot.previousImage else fleet.image id := by
  obtain ⟨t₁, t₂, request, nonce, m, rfl, hquiet₁, hquiet₂, himage⟩ :=
    rollbackOneMachine_spec h
  obtain ⟨mid, hserves₁, hserves⟩ := hserves.split
  cases hserves with
  | @cons _ mid' _ _ _ hanswers _ hserves₂ =>
      have hstored : mid' = mid.store snapshot.machineId request.config := hanswers
      rw [hserves₂.quiet hquiet₂, hstored, Fleet.image_store, himage, hserves₁.quiet hquiet₁]

/-! ## The rollback -/

/-- The line that says a rollback has failed is not printed. -/
def NotFailed : ApiEvent → Prop
  | ⟨.print (.rollbackFailed _ _), _⟩ => False
  | _ => True

/-- Every image is as in `before`, or the machine is one of the snapshots'. -/
def Covers (before fleet : Fleet) (snapshots : List MachineSnapshot) : Prop :=
  ∀ id, fleet.image id = before.image id ∨ ∃ s ∈ snapshots, s.machineId = id

/-- The snapshot has the image of its machine in `before`. -/
def Known (before : Fleet) (s : MachineSnapshot) : Prop :=
  before.image s.machineId = some s.previousImage

theorem rollbackEach_restores {before : Fleet} {snapshots : List MachineSnapshot}
    (hserves : Serves (Settled options) fleet t after)
    (h : Exec (rollbackEach polls options snapshots) t (some ())) (hnot : ∀ e ∈ t, NotFailed e)
    (hknown : ∀ s ∈ snapshots, Known before s) (hcovers : Covers before fleet snapshots) :
    ∀ id, after.image id = before.image id := by
  induction snapshots generalizing fleet t with
  | nil =>
      obtain ⟨rfl, -⟩ := exec_pure.mp h
      cases hserves
      intro id
      exact (hcovers id).resolve_right (by simp)
  | cons snapshot rest ih =>
      obtain ⟨hhead, hknown⟩ := List.forall_mem_cons.mp hknown
      obtain ⟨t₁, t, result, rfl, hone, h⟩ := exec_bind_some.mp h
      obtain ⟨_, t, rfl, hrest⟩ := exec_ask_bind.mp h
      obtain ⟨-, hnot⟩ := List.forall_mem_append.mp hnot
      obtain ⟨hnote, hrestNot⟩ := List.forall_mem_cons.mp hnot
      cases result with
      | error e => exact hnote.elim
      | ok =>
          obtain ⟨mid, hserves₁, hserves⟩ := hserves.split
          cases hserves with
          | @cons _ mid' _ _ _ hanswers _ hserves =>
              have hmid : mid' = mid := hanswers
              refine ih hserves hrest hrestNot hknown ?_
              intro id
              rw [hmid, image_of_rollbackOneMachine hserves₁ hone id]
              split
              · next hid =>
                  rw [hid]
                  exact .inl hhead.symm
              · next hid =>
                  obtain himage | ⟨s, hs, hsid⟩ := hcovers id
                  · exact .inl himage
                  · obtain rfl | hs := List.mem_cons.mp hs
                    · exact absurd hsid.symm hid
                    · exact .inr ⟨s, hs, hsid⟩

theorem rollback_spec {before : Fleet} {snapshots : List MachineSnapshot}
    (hserves : Serves (Settled options) fleet t after)
    (h : Exec (rollback polls snapshots options) t (some ())) (hnot : ∀ e ∈ t, NotFailed e)
    (hknown : ∀ s ∈ snapshots, Known before s) (hcovers : Covers before fleet snapshots) :
    ∀ id, after.image id = before.image id := by
  unfold rollback at h
  split at h
  · next hempty =>
      obtain ⟨rfl, -⟩ := exec_pure.mp h
      cases hserves
      intro id
      rw [List.isEmpty_iff.mp hempty] at hcovers
      exact (hcovers id).resolve_right (by simp)
  · obtain ⟨_, t, rfl, heach⟩ := exec_ask_bind.mp h
    cases hserves with
    | @cons _ mid _ _ _ hanswers _ hserves =>
        have hmid : mid = fleet := hanswers
        subst hmid
        refine rollbackEach_restores hserves heach (List.forall_mem_cons.mp hnot).2 ?_ ?_
        · intro s hs
          exact hknown s (List.mem_reverse.mp hs)
        · intro id
          obtain himage | ⟨s, hs, hid⟩ := hcovers id
          · exact .inl himage
          · exact .inr ⟨s, List.mem_reverse.mpr hs, hid⟩

theorem mem_addTarget {targets : List MachineSnapshot} {snapshot s : MachineSnapshot}
    (h : s ∈ addTarget targets snapshot) : s ∈ targets ∨ s = snapshot := by
  unfold addTarget at h
  split at h
  · exact .inl h
  · simpa using h

theorem exists_mem_addTarget {targets : List MachineSnapshot} {snapshot s : MachineSnapshot}
    (h : s ∈ targets ∨ s = snapshot) :
    ∃ s' ∈ addTarget targets snapshot, s'.machineId = s.machineId := by
  unfold addTarget
  split
  · next hany =>
      obtain hs | rfl := h
      · exact ⟨s, hs, rfl⟩
      · simpa using hany
  · exact ⟨s, by simpa using h, rfl⟩

theorem mem_rollbackTargets {updated : List MachineSnapshot} {failures : List UpdateFailure}
    {s : MachineSnapshot} (h : s ∈ rollbackTargets updated failures) :
    s ∈ updated ∨ ∃ f ∈ failures, f.rollbackTarget = some s := by
  rw [← List.mem_filterMap]
  unfold rollbackTargets at h
  generalize failures.filterMap UpdateFailure.rollbackTarget = targets at h ⊢
  induction targets generalizing updated with
  | nil => exact .inl h
  | cons snapshot rest ih =>
      obtain hs | hs := ih h
      · obtain hs | rfl := mem_addTarget hs
        · exact .inl hs
        · exact .inr List.mem_cons_self
      · exact .inr (List.mem_cons_of_mem snapshot hs)

theorem exists_mem_rollbackTargets {updated : List MachineSnapshot}
    {failures : List UpdateFailure} {s : MachineSnapshot}
    (h : s ∈ updated ∨ ∃ f ∈ failures, f.rollbackTarget = some s) :
    ∃ s' ∈ rollbackTargets updated failures, s'.machineId = s.machineId := by
  rw [← List.mem_filterMap] at h
  unfold rollbackTargets
  generalize failures.filterMap UpdateFailure.rollbackTarget = targets at h ⊢
  induction targets generalizing updated s with
  | nil => exact ⟨s, h.resolve_right (by simp), rfl⟩
  | cons snapshot rest ih =>
      rw [List.mem_cons, ← or_assoc] at h
      obtain h | h := h
      · obtain ⟨s', hs', hid⟩ := exists_mem_addTarget h
        obtain ⟨s'', hs'', hid'⟩ := ih (.inl hs')
        exact ⟨s'', hs'', hid'.trans hid⟩
      · exact ih (.inr h)

/-! ## The stages -/

variable {before : Fleet} {updated : List MachineSnapshot}

theorem Covers.mono {snapshots snapshots' : List MachineSnapshot}
    (h : Covers before fleet snapshots)
    (hsub : ∀ s ∈ snapshots, ∃ s' ∈ snapshots', s'.machineId = s.machineId) :
    Covers before fleet snapshots' := by
  intro id
  obtain himage | ⟨s, hs, hid⟩ := h id
  · exact .inl himage
  · obtain ⟨s', hs', hid'⟩ := hsub s hs
    exact .inr ⟨s', hs', hid'.trans hid⟩

/-- What is updated has to be among the snapshots afterwards. -/
theorem Covers.forward {snapshots : List MachineSnapshot} (h : Covers before fleet updated)
    (hserves : Serves (Settled options) fleet t after)
    (hold : ∀ s ∈ updated, s ∈ snapshots)
    (hnew : ∀ id, Updated id t → ∃ s ∈ snapshots, s.machineId = id) :
    Covers before after snapshots := by
  intro id
  by_cases hupdated : Updated id t
  · exact .inr (hnew id hupdated)
  · rw [image_of_not_updated hserves hupdated]
    obtain himage | ⟨s, hs, hid⟩ := h id
    · exact .inl himage
    · exact .inr ⟨s, hold s hs, hid⟩

/-- After a stage the updated machines cover what has changed, or nothing has. -/
def StageDone (before after : Fleet) : Except Error (List MachineSnapshot) → Prop
  | .ok updated => (∀ s ∈ updated, Known before s) ∧ Covers before after updated
  | .error _ => ∀ id, after.image id = before.image id

/-- A rollback after failures restores the images, if it covers the updated machines and those
    the failures name. -/
theorem rollback_after_failures {failures : List UpdateFailure}
    {snapshots : List MachineSnapshot} (hserves : Serves (Settled options) fleet t after)
    (h : Exec (rollback polls (rollbackTargets updated failures) options) t (some ()))
    (hnot : ∀ e ∈ t, NotFailed e) (hcovers : Covers before fleet snapshots)
    (hsnapshots : ∀ s, s ∈ snapshots ↔
      s ∈ updated ∨ ∃ f ∈ failures, f.rollbackTarget = some s)
    (hknown : ∀ s ∈ snapshots, Known before s) : ∀ id, after.image id = before.image id := by
  refine rollback_spec hserves h hnot ?_ (hcovers.mono ?_)
  · intro s hs
    exact hknown s ((hsnapshots s).mpr (mem_rollbackTargets hs))
  · intro s hs
    exact exists_mem_rollbackTargets ((hsnapshots s).mp hs)

theorem canaryStage_spec {count : Nat} {canaries : List MachineSnapshot}
    {result : Except Error (List MachineSnapshot)}
    (hserves : Serves (Settled options) fleet t after)
    (h : Exec (canaryStage polls options count canaries updated) t (some result))
    (hnot : ∀ e ∈ t, NotFailed e) (hcanaries : ∀ s ∈ canaries, Known before s)
    (hupdated : ∀ s ∈ updated, Known before s) (hcovers : Covers before fleet updated) :
    StageDone before after result := by
  have hrun := canaryRun_of_exec h
  clear h
  generalize ho : some result = o at hrun
  induction hrun generalizing fleet with
  | done updated =>
      cases ho
      cases hserves
      exact ⟨hupdated, hcovers⟩
  | @next snapshot s _ _ _ _ _ hupdate _ ih =>
      obtain ⟨hhead, hrest⟩ := List.forall_mem_cons.mp hcanaries
      obtain ⟨mid, hserves₁, hserves₂⟩ := hserves.print.split
      obtain ⟨-, hnot₂⟩ := List.forall_mem_append.mp (List.forall_mem_cons.mp hnot).2
      have hreports := updateOneMachine_reports hupdate
      refine ih hserves₂ hnot₂ hrest ?_
        (hcovers.forward hserves₁ (fun s hs => List.mem_append_left _ hs) ?_) ho
      · exact List.forall_mem_append.mpr ⟨hupdated, List.forall_mem_singleton.mpr hhead⟩
      · intro id hid
        exact ⟨snapshot, by simp, (hreports.updated id hid).1.symm⟩
  | @failed snapshot _ updated _ _ failure o hupdate hrollback =>
      obtain ⟨hhead, -⟩ := List.forall_mem_cons.mp hcanaries
      obtain ⟨mid, hserves₁, hserves₂⟩ := hserves.print.split
      obtain ⟨-, hnot₂⟩ := List.forall_mem_append.mp (List.forall_mem_cons.mp hnot).2
      have hreports := updateOneMachine_reports hupdate
      obtain ⟨_, rfl, hresult⟩ := Option.map_eq_some_iff.mp ho.symm
      subst hresult
      have hcovers' : Covers before mid (updated ++ failure.rollbackTarget.toList) := by
        refine hcovers.forward hserves₁ (fun s hs => List.mem_append_left _ hs) ?_
        intro id hid
        obtain ⟨rfl, hnamed⟩ := hreports.updated id hid
        exact ⟨snapshot, List.mem_append_right _ (Option.mem_toList.mpr hnamed), rfl⟩
      refine rollback_after_failures hserves₂ hrollback hnot₂ hcovers' ?_ ?_
      · intro s
        simp
      · intro s hs
        obtain hs | hs := List.mem_append.mp hs
        · exact hupdated s hs
        · rw [hreports.only s (Option.mem_toList.mp hs)]
          exact hhead
  | panicked => cases ho

/-- The machines that joined results name. -/
def namedBy (results : List (Except String (Except UpdateFailure MachineSnapshot))) :
    List MachineSnapshot :=
  results.filterMap fun r => r.toOption.bind named

theorem mem_namedBy {results : List (Except String (Except UpdateFailure MachineSnapshot))}
    {s : MachineSnapshot} : s ∈ namedBy results ↔ ∃ r, .ok r ∈ results ∧ named r = some s := by
  rw [namedBy, List.mem_filterMap]
  constructor
  · intro h
    obtain ⟨r, hr, hs⟩ := h
    cases r with
    | ok r => exact ⟨r, hr, hs⟩
    | error err => cases hs
  · intro h
    obtain ⟨r, hr, hs⟩ := h
    exact ⟨.ok r, hr, hs⟩

/-- If every task of a batch returns, the results name exactly the machines it has updated. -/
theorem joined_names {batch : List MachineSnapshot}
    {runs : List (List ApiEvent × Option (Except UpdateFailure MachineSnapshot))}
    {results : List (Except String (Except UpdateFailure MachineSnapshot))}
    (h : Joined (rolloutTask polls options) batch runs t results)
    (hreturns : ∀ run ∈ runs, run.2 ≠ none) :
    (∀ id, (∃ s ∈ namedBy results, s.machineId = id) ↔ Updated id t) ∧
      ∀ s ∈ namedBy results, s ∈ batch := by
  have hrun : ∀ run ∈ runs, ∃ snapshot ∈ batch, ∃ r, run.2 = some r ∧
      Reports snapshot run.1 (named r) := by
    intro run hrun
    obtain ⟨snapshot, hsnapshot, hexec⟩ := h.exec hrun
    obtain ⟨r, hr⟩ := Option.ne_none_iff_exists'.mp (hreturns run hrun)
    rw [hr] at hexec
    exact ⟨snapshot, hsnapshot, r, hr, updateOneMachine_reports hexec⟩
  have hnamed : ∀ s ∈ namedBy results, s ∈ batch ∧ Updated s.machineId t := by
    intro s hs
    obtain ⟨r, hr, hnamed⟩ := mem_namedBy.mp hs
    obtain ⟨run, hmemRun, hrunr⟩ := h.ok_mem_iff.mp hr
    obtain ⟨snapshot, hsnapshot, r', hr', hreports⟩ := hrun run hmemRun
    rw [hrunr] at hr'
    cases hr'
    obtain rfl := hreports.only s hnamed
    obtain ⟨request, nonce, m, hmem⟩ := hreports.named hnamed
    exact ⟨hsnapshot, request, nonce, m, h.mem_iff.mpr ⟨run, hmemRun, hmem⟩⟩
  refine ⟨fun id => ⟨?_, ?_⟩, fun s hs => (hnamed s hs).1⟩
  · intro h'
    obtain ⟨s, hs, rfl⟩ := h'
    exact (hnamed s hs).2
  · intro h'
    obtain ⟨request, nonce, m, hmem⟩ := h'
    obtain ⟨run, hmemRun, he⟩ := h.mem_iff.mp hmem
    obtain ⟨snapshot, -, r, hr, hreports⟩ := hrun run hmemRun
    obtain ⟨hid, hnamed⟩ := hreports.updated id ⟨request, nonce, m, he⟩
    have hok := h.ok_mem_iff.mpr ⟨run, hmemRun, hr⟩
    exact ⟨snapshot, mem_namedBy.mpr ⟨r, hok, hnamed⟩, hid.symm⟩

theorem joined_covers {batch : List MachineSnapshot}
    {runs : List (List ApiEvent × Option (Except UpdateFailure MachineSnapshot))}
    {results : List (Except String (Except UpdateFailure MachineSnapshot))}
    (h : Joined (rolloutTask polls options) batch runs t results)
    (hserves : Serves (Settled options) fleet t after) (hbatch : ∀ s ∈ batch, Known before s)
    (hupdated : ∀ s ∈ updated, Known before s) (hcovers : Covers before fleet updated) :
    Covers before after (updated ++ namedBy results) ∧
      ∀ s ∈ updated ++ namedBy results, Known before s := by
  have hreturns : ∀ run ∈ runs, run.2 ≠ none := by
    intro run hrun
    obtain ⟨snapshot, -, hexec⟩ := h.exec hrun
    exact ((only_updateOneMachine _ _).sound hexec fun e he =>
      hserves.inTime e (h.mem_iff.mpr ⟨run, hrun, he⟩)).1
  obtain ⟨hnames, honly⟩ := joined_names h hreturns
  constructor
  · refine hcovers.forward hserves (fun s hs => List.mem_append_left _ hs) ?_
    intro id hid
    obtain ⟨s, hs, hsid⟩ := (hnames id).mpr hid
    exact ⟨s, List.mem_append_right _ hs, hsid⟩
  · refine List.forall_mem_append.mpr ⟨hupdated, ?_⟩
    intro s hs
    exact hbatch s (honly s hs)

/-- They are the updated ones and those of the failures. -/
theorem mem_namedBy_iff {results : List (Except String (Except UpdateFailure MachineSnapshot))}
    {s : MachineSnapshot} : s ∈ namedBy results ↔ s ∈ results.filterMap succeeded ∨
      ∃ f ∈ results.filterMap failed, f.rollbackTarget = some s := by
  rw [mem_namedBy]
  constructor
  · intro h
    obtain ⟨r, hr, hnamed⟩ := h
    cases r with
    | ok snapshot =>
        cases hnamed
        exact .inl (List.mem_filterMap.mpr ⟨_, hr, rfl⟩)
    | error failure => exact .inr ⟨failure, List.mem_filterMap.mpr ⟨_, hr, rfl⟩, hnamed⟩
  · intro h
    obtain hs | ⟨f, hf, hs⟩ := h
    · obtain ⟨r, hr, hs⟩ := List.mem_filterMap.mp hs
      match r with
      | .ok (.ok snapshot) => exact ⟨.ok snapshot, hr, hs⟩
      | .ok (.error failure) => cases hs
      | .error err => cases hs
    · obtain ⟨r, hr, hf⟩ := List.mem_filterMap.mp hf
      match r with
      | .ok (.ok snapshot) => cases hf
      | .ok (.error failure) =>
          cases hf
          exact ⟨.error f, hr, hs⟩
      | .error err =>
          cases hf
          cases hs

/-- All machines in the queues. -/
def Queues.machines (queues : Queues) : List MachineSnapshot := queues.flatMap Prod.snd

theorem mem_takeBatch {room : Nat} {queues : Queues} {s : MachineSnapshot}
    (h : s ∈ (takeBatch room queues).1 ∨ s ∈ Queues.machines (takeBatch room queues).2) :
    s ∈ queues.machines := by
  fun_induction takeBatch with
  | case1 => simpa using h
  | case2 => simpa using h
  | case3 room tenant rest batch rest' heq ih =>
      rw [heq] at ih
      simpa [Queues.machines] using ih (by simpa [Queues.machines] using h)
  | case4 room tenant snapshot queue rest batch rest' heq ih =>
      rw [heq] at ih
      simp only [Queues.machines, List.flatMap_cons, List.mem_append, List.mem_cons] at h ih ⊢
      obtain (rfl | h) | h | h := h
      · exact .inl (.inl rfl)
      · exact .inr (ih (.inl h))
      · exact .inl (.inr h)
      · exact .inr (ih (.inr h))

theorem mem_enqueue {snapshot s : MachineSnapshot} {queues : Queues}
    (h : s ∈ Queues.machines (enqueue snapshot queues)) : s = snapshot ∨ s ∈ queues.machines := by
  fun_induction enqueue with
  | case1 => simpa [Queues.machines] using h
  | case2 queue rest =>
      simp only [Queues.machines, List.flatMap_cons, List.mem_append, List.mem_singleton] at h ⊢
      obtain (h | h) | h := h
      · exact .inr (.inl h)
      · exact .inl h
      · exact .inr (.inr h)
  | case3 => simpa [Queues.machines] using h
  | case4 tenant queue rest hne hlt ih =>
      simp only [Queues.machines, List.flatMap_cons, List.mem_append] at h ih ⊢
      obtain h | h := h
      · exact .inr (.inl h)
      · obtain h | h := ih h
        · exact .inl h
        · exact .inr (.inr h)

theorem mem_enqueueAll {snapshots : List MachineSnapshot} {queues : Queues} {s : MachineSnapshot}
    (h : s ∈ Queues.machines (snapshots.foldl (fun queues s => enqueue s queues) queues)) :
    s ∈ snapshots ∨ s ∈ queues.machines := by
  induction snapshots generalizing queues with
  | nil => exact .inr h
  | cons snapshot rest ih =>
      obtain h | h := ih h
      · exact .inl (List.mem_cons_of_mem snapshot h)
      · obtain rfl | h := mem_enqueue h
        · exact .inl List.mem_cons_self
        · exact .inr h

theorem rollingStage_spec {queues : Queues} {result : Except Error (List MachineSnapshot)}
    (hserves : Serves (Settled options) fleet t after)
    (h : Runs (rolloutTask polls options) (rollingStage polls options queues updated) t
      (some result))
    (hnot : ∀ e ∈ t, NotFailed e) (hqueues : ∀ s ∈ queues.machines, Known before s)
    (hupdated : ∀ s ∈ updated, Known before s) (hcovers : Covers before fleet updated) :
    StageDone before after result := by
  have hmem : ∀ (updated : List MachineSnapshot)
      (results : List (Except String (Except UpdateFailure MachineSnapshot))) (s : MachineSnapshot),
      s ∈ updated ++ namedBy results ↔ s ∈ updated ++ results.filterMap succeeded ∨
        ∃ f ∈ results.filterMap failed, f.rollbackTarget = some s := by
    intro updated results s
    rw [List.mem_append, List.mem_append, mem_namedBy_iff, or_assoc]
  have hrun := rollingRun_of_runs h
  clear h
  generalize ho : some result = o at hrun
  induction hrun generalizing fleet with
  | done =>
      cases ho
      cases hserves
      exact ⟨hupdated, hcovers⟩
  | @next _ updated _ _ _ results _ _ _ hjoined hok _ ih =>
      obtain ⟨mid, hserves₁, hserves₂⟩ := hserves.split
      obtain ⟨-, hnot₂⟩ := List.forall_mem_append.mp hnot
      obtain ⟨hcovers', hknown⟩ := joined_covers hjoined hserves₁
        (fun s hs => hqueues s (mem_takeBatch (.inl hs))) hupdated hcovers
      have hsub : ∀ s, s ∈ updated ++ namedBy results ↔
          s ∈ updated ++ results.filterMap succeeded := by
        intro s
        rw [hmem updated results s, hok]
        simp
      refine ih hserves₂ hnot₂ ?_ ?_ ?_ ho
      · intro s hs
        exact hqueues s (mem_takeBatch (.inr hs))
      · intro s hs
        exact hknown s ((hsub s).mpr hs)
      · exact hcovers'.mono fun s hs => ⟨s, (hsub s).mp hs, rfl⟩
  | @failed _ updated _ _ _ results o _ _ _ hjoined _ hrollback =>
      obtain ⟨mid, hserves₁, hserves₂⟩ := hserves.split
      obtain ⟨-, hnot₂⟩ := List.forall_mem_append.mp hnot
      obtain ⟨hcovers', hknown⟩ := joined_covers hjoined hserves₁
        (fun s hs => hqueues s (mem_takeBatch (.inl hs))) hupdated hcovers
      obtain ⟨_, rfl, hresult⟩ := Option.map_eq_some_iff.mp ho.symm
      subst hresult
      exact rollback_after_failures hserves₂ hrollback hnot₂ hcovers' (hmem updated results) hknown

/-! ## The whole -/

/-- Printing changes nothing. -/
theorem runs_print_bind {α : Type} {note : Note} {q : Rollout α} {o : α}
    (hserves : Serves (Settled options) fleet t after) (hnot : ∀ e ∈ t, NotFailed e)
    (h : Runs (rolloutTask polls options) (lift (print note) >>= fun _ => q) t (some o)) :
    ∃ t', Serves (Settled options) fleet t' after ∧ (∀ e ∈ t', NotFailed e) ∧
      Runs (rolloutTask polls options) q t' (some o) := by
  obtain ⟨t', rfl, hq⟩ := runs_print_bind_iff.mp h
  exact ⟨t', hserves.print, (List.forall_mem_cons.mp hnot).2, hq⟩

theorem rollout_restores {targets : List MachineSnapshot} {e : Error}
    (hserves : Serves (Settled options) before t after)
    (h : Runs (rolloutTask polls options) (rollout polls options targets) t (some (.error e)))
    (hnot : ∀ e ∈ t, NotFailed e) (htargets : ∀ s ∈ targets, Known before s) :
    ∀ id, after.image id = before.image id := by
  have hchosen : ∀ p : MachineSnapshot × Nat → Bool,
      ∀ s ∈ (targets.zipIdx.filter p).map Prod.fst, Known before s := by
    intro p s hs
    obtain ⟨⟨s', idx⟩, hmem, rfl⟩ := List.mem_map.mp hs
    exact htargets s' (List.fst_mem_of_mem_zipIdx (List.mem_filter.mp hmem).1)
  unfold rollout at h
  obtain ⟨t, hserves, hnot, h⟩ := runs_print_bind hserves hnot h
  obtain ⟨t₁, t₂, stage, rfl, hcanary, h⟩ := runs_bind_some.mp h
  obtain ⟨mid, hserves₁, hserves₂⟩ := hserves.split
  obtain ⟨hnot₁, hnot₂⟩ := List.forall_mem_append.mp hnot
  have hstage := canaryStage_spec hserves₁ (runs_lift.mp hcanary) hnot₁ (hchosen _) (by simp)
    (fun _ => .inl rfl)
  cases stage with
  | error e' =>
      obtain ⟨rfl, -⟩ := runs_pure.mp h
      cases hserves₂
      exact hstage
  | ok updated =>
      obtain ⟨hupdated, hcovers⟩ := hstage
      obtain ⟨t₂, hserves₂, hnot₂, h⟩ := runs_print_bind hserves₂ hnot₂ h
      split at h
      · obtain ⟨t₂, -, -, h⟩ := runs_print_bind hserves₂ hnot₂ h
        cases (runs_pure.mp h).2
      · obtain ⟨t₂, hserves₂, hnot₂, h⟩ := runs_print_bind hserves₂ hnot₂ h
        obtain ⟨t₂, t₃, stage, rfl, hrolling, h⟩ := runs_bind_some.mp h
        obtain ⟨mid', hserves₂, hserves₃⟩ := hserves₂.split
        obtain ⟨hnot₂, hnot₃⟩ := List.forall_mem_append.mp hnot₂
        have hstage := rollingStage_spec hserves₂ hrolling hnot₂
          (fun s hs => hchosen _ s ((mem_enqueueAll hs).resolve_right List.not_mem_nil))
          hupdated hcovers
        cases stage with
        | error e' =>
            obtain ⟨rfl, -⟩ := runs_pure.mp h
            cases hserves₃
            exact hstage
        | ok updated =>
            obtain ⟨t₃, -, -, h⟩ := runs_print_bind hserves₃ hnot₃ h
            cases (runs_pure.mp h).2

theorem known_of_snapshotFromMachine {machine : Machine} {s : MachineSnapshot}
    (h : snapshotFromMachine machine = .ok s) (hconfig : before machine.id = some machine.config) :
    Known before s := by
  have htaken := takenFrom_of_accepted h
  show (before s.machineId).bind configImage = some s.previousImage
  rw [htaken.machineId, hconfig]
  exact htaken.image

/-- A listing has the configurations of the fleet. -/
theorem listManagedMachines_spec {ok : Fleet → ApiEvent → Fleet → Prop}
    {machines : List Machine} (hserves : Serves ok before t after)
    (h : Exec (listManagedMachines none).run t (some (.ok machines))) :
    ∀ m ∈ machines, before m.id = some m.config := by
  obtain ⟨query, listed, rfl, hsub⟩ := exec_listManagedMachines h
  cases hserves with
  | cons hanswers _ _ =>
      intro m hm
      exact hanswers.1 m (hsub.subset hm)

/-- If nothing is left in doubt, an `update_image` that returns an error and whose rollbacks have
    all succeeded leaves every machine with the image it had. -/
theorem rollback_restores (polls : Nat) (options : UpdateImageOptions) (before after : Fleet)
    (t : List ApiEvent) (e : Error)
    (hruns : Runs (rolloutTask polls options) (updateImage polls options) t (some (.error e)))
    (hserves : Serves (Settled options) before t after) (hrolled : ∀ e ∈ t, NotFailed e) :
    ∀ machineId, after.image machineId = before.image machineId := by
  obtain ⟨-, hstopped⟩ | ⟨machines, targets, t₁, t₂, rfl, hlist, htargets, hrollout⟩ :=
    runs_updateImage_cases hruns
  · rw [hserves.quiet (forall_mem_of_listed hstopped fun _ => trivial)]
    exact fun _ => rfl
  obtain ⟨mid, hserves₁, hserves₂⟩ := hserves.split
  obtain rfl := hserves₁.quiet (forall_mem_of_listed (.inr ⟨_, hlist⟩) fun _ => trivial)
  refine rollout_restores hserves₂ hrollout (List.forall_mem_append.mp hrolled).2 ?_
  intro s hs
  obtain ⟨m, hm, hsnapshot⟩ := mem_of_mapM htargets s (List.mem_mergeSort.mp hs)
  refine known_of_snapshotFromMachine hsnapshot ?_
  exact listManagedMachines_spec hserves₁ hlist m ((retainTenants_sublist machines).subset hm)

/-! ## Runs with one machine -/

def soleConfig (image : String) : Json :=
  .object [("image", .string image), ("metadata", .object
    [(managedByKey, .string managedByValue), (tenantIdKey, .string "tenant")])]

def soleMachine (image : String) : Machine :=
  ⟨"machine", none, "started", none, some "v1", soleConfig image, .null⟩

def soleSnapshot : MachineSnapshot :=
  ⟨"machine", "tenant", none, none, (soleMachine "old").metadata, soleConfig "old", "v1", "old"⟩

def soleFleet (image : String) : Fleet :=
  fun id => if id = "machine" then some (soleConfig image) else none

def soleOptions (canary healthTimeout : Nat) : UpdateImageOptions :=
  ⟨"new", [], true, 1, canary, 0, 0, healthTimeout, 30⟩

/-- Everything succeeds but the fifth call, if it is to wait, and the updates as given. -/
def soleAnswer (update : Except Error Machine) (n : Nat) : (c : Call) → Answer c
  | .listMachines _ => .ok [soleMachine "old"]
  | .getMachine _ => .ok (soleMachine (if n < 12 then "new" else "old"))
  | .updateMachine _ _ _ => update
  | .wait _ _ _ _ => if n = 4 then .error (anyhow "timeout") else .ok ()
  | .cordonMachine _ _ => .ok ()
  | .uncordonMachine _ _ => .ok ()
  | .createLease _ _ => .ok "nonce"
  | .releaseLease _ _ => .ok ()
  | .now => (0 : Nat)
  | .sleep _ => ()
  | .print _ => ()

theorem store_soleFleet (old new : String) :
    (soleFleet old).store "machine" (soleConfig new) = soleFleet new := by
  funext id
  unfold Fleet.store soleFleet
  by_cases h : id = "machine"
  · subst h
    simp
  · simp [h]

def soleListing : ApiEvent :=
  ⟨.listMachines [("metadata.fly_vault.managed_by", "fly-vault-admin")], .ok [soleMachine "old"]⟩

theorem runs_updateImage {task : MachineSnapshot → Api (Except UpdateFailure MachineSnapshot)}
    {polls canary healthTimeout : Nat} {t : List ApiEvent} {e : Error}
    (h : Runs task (rollout polls (soleOptions canary healthTimeout) [soleSnapshot]) t
      (some (.error e))) :
    Runs task (updateImage polls (soleOptions canary healthTimeout)) (soleListing :: t)
      (some (.error e)) := by
  have hlist : Exec (listManagedMachines none).run [soleListing]
      (some (.ok [soleMachine "old"])) := by
    have hplay : play (soleAnswer (.error (anyhow "lost"))) 0 (listManagedMachines none).run =
        some ([soleListing], some (.ok [soleMachine "old"])) := rfl
    exact exec_of_play hplay
  refine runs_bind.mpr (.inl ⟨[soleListing], t, _, rfl, runs_lift.mpr hlist, ?_⟩)
  show Runs _ (rollout _ _ (List.mergeSort [soleSnapshot] MachineSnapshot.le)) t _
  rw [List.mergeSort_singleton]
  exact h

theorem runs_rollout {task : MachineSnapshot → Api (Except UpdateFailure MachineSnapshot)}
    {polls : Nat} {t : List ApiEvent} {e : Error}
    (h : Exec (canaryStage polls (soleOptions 1 0) 1 [soleSnapshot] []) t (some (.error e))) :
    Runs task (rollout polls (soleOptions 1 0) [soleSnapshot])
      (⟨.print (.canaryStage 1 1), ()⟩ :: t) (some (.error e)) := by
  refine runs_bind.mpr (.inl ⟨[_], t, (), rfl, runs_lift.mpr (exec_ask.mpr ⟨(), rfl, rfl⟩), ?_⟩)
  refine runs_bind.mpr (.inl ⟨t, [], .error e, (List.append_nil t).symm, runs_lift.mpr h, ?_⟩)
  exact runs_pure.mpr ⟨rfl, rfl⟩

/-- The machine does not start with the new image, and is rolled back. -/
theorem rollback_restores_slowStart : ∃ t after e,
    Runs (rolloutTask 1 (soleOptions 1 0)) (updateImage 1 (soleOptions 1 0)) t
      (some (.error e)) ∧
    Serves (Settled (soleOptions 1 0)) (soleFleet "old") t after ∧ (∀ e ∈ t, NotFailed e) ∧
    Updated "machine" t ∧ after.image "machine" = some "old" := by
  obtain ⟨t, e, hplay, hserves, hnot, hupdated⟩ : ∃ t e,
      play (soleAnswer (.ok (soleMachine "new"))) 0
        (canaryStage 1 (soleOptions 1 0) 1 [soleSnapshot] []) = some (t, some (.error e)) ∧
      Serves (Settled (soleOptions 1 0)) (soleFleet "old") t (soleFleet "old") ∧
      (∀ e ∈ t, NotFailed e) ∧ Updated "machine" t := by
    have hquiet : ∀ {fleet : Fleet} {t : List ApiEvent} {e : ApiEvent}, Answers fleet fleet e →
        Settled (soleOptions 1 0) fleet e fleet →
        Serves (Settled (soleOptions 1 0)) fleet t (soleFleet "old") →
        Serves (Settled (soleOptions 1 0)) fleet (e :: t) (soleFleet "old") := .cons
    have hready : InTime [0, 0] ⟨.now, (0 : Nat)⟩ := by
      intro d hd
      obtain rfl : d = 0 := by simpa using hd
      decide
    refine ⟨_, _, rfl, ?_, ?_, ⟨_, _, _, .tail _ (.tail _ (.tail _ (.head _)))⟩⟩
    · refine hquiet rfl ⟨trivial, trivial⟩ (hquiet rfl ⟨trivial, trivial⟩ ?_)
      refine hquiet rfl ⟨trivial, trivial⟩ ?_
      refine .cons (store_soleFleet "old" "new").symm ⟨trivial, trivial⟩ ?_
      refine hquiet rfl ⟨trivial, trivial⟩ (hquiet rfl ⟨trivial, trivial⟩ ?_)
      refine hquiet rfl ⟨trivial, trivial⟩ (hquiet rfl ⟨trivial, trivial⟩ ?_)
      refine hquiet ⟨rfl, rfl⟩ ⟨trivial, trivial⟩ (hquiet rfl ⟨trivial, trivial⟩ ?_)
      refine hquiet rfl ⟨trivial, trivial⟩ ?_
      refine .cons (store_soleFleet "new" "old").symm ⟨trivial, trivial⟩ ?_
      refine hquiet rfl ⟨trivial, trivial⟩ (hquiet rfl ⟨hready, trivial⟩ ?_)
      refine hquiet ⟨rfl, rfl⟩ ⟨trivial, trivial⟩ (hquiet rfl ⟨trivial, trivial⟩ ?_)
      exact hquiet rfl ⟨trivial, trivial⟩ (hquiet rfl ⟨trivial, trivial⟩ (.nil _))
    · repeat refine List.forall_mem_cons.mpr ⟨trivial, ?_⟩
      exact List.forall_mem_nil _
  have hruns : Runs (rolloutTask 1 (soleOptions 1 0)) (updateImage 1 (soleOptions 1 0)) _ _ :=
    runs_updateImage (runs_rollout (exec_of_play hplay))
  have hserved : Serves (Settled (soleOptions 1 0)) (soleFleet "old")
      (soleListing :: ⟨.print (.canaryStage 1 1), ()⟩ :: t) (soleFleet "old") :=
    .cons ⟨List.forall_mem_singleton.mpr rfl, rfl⟩ ⟨trivial, trivial⟩
      (.cons rfl ⟨trivial, trivial⟩ hserves)
  have hrolled : ∀ e ∈ soleListing :: ⟨.print (.canaryStage 1 1), ()⟩ :: t, NotFailed e :=
    List.forall_mem_cons.mpr ⟨trivial, List.forall_mem_cons.mpr ⟨trivial, hnot⟩⟩
  have hsame := rollback_restores 1 _ _ _ _ e hruns hserved hrolled "machine"
  obtain ⟨request, nonce, m, hmem⟩ := hupdated
  exact ⟨_, _, e, hruns, hserved, hrolled, ⟨request, nonce, m, .tail _ (.tail _ hmem)⟩, hsame⟩

/-- The answer to the update is lost, but the update is made: the machine keeps the new image,
    and no rollback is even tried. -/
theorem lost_answer_keeps_image : ∃ t e,
    Runs (rolloutTask 1 (soleOptions 1 0)) (updateImage 1 (soleOptions 1 0)) t
      (some (.error e)) ∧
    Serves (fun _ _ _ => True) (soleFleet "old") t (soleFleet "new") ∧ (∀ e ∈ t, NotFailed e) ∧
    (soleFleet "old").image "machine" = some "old" ∧
    (soleFleet "new").image "machine" = some "new" := by
  obtain ⟨t, e, hplay, hserves, hnot⟩ : ∃ t e, play (soleAnswer (.error (anyhow "lost"))) 0
      (canaryStage 1 (soleOptions 1 0) 1 [soleSnapshot] []) = some (t, some (.error e)) ∧
      Serves (fun _ _ _ => True) (soleFleet "old") t (soleFleet "new") ∧
      ∀ e ∈ t, NotFailed e := by
    refine ⟨_, _, rfl, ?_, ?_⟩
    · refine .cons rfl trivial (.cons rfl trivial (.cons rfl trivial ?_))
      refine .cons (.inr (store_soleFleet "old" "new").symm) trivial ?_
      exact .cons rfl trivial (.cons rfl trivial (.nil _))
    · repeat refine List.forall_mem_cons.mpr ⟨trivial, ?_⟩
      exact List.forall_mem_nil _
  refine ⟨_, e, runs_updateImage (runs_rollout (exec_of_play hplay)), ?_, ?_, rfl, rfl⟩
  · refine .cons ⟨?_, rfl⟩ trivial (.cons rfl trivial hserves)
    exact List.forall_mem_singleton.mpr rfl
  · exact List.forall_mem_cons.mpr ⟨trivial, List.forall_mem_cons.mpr ⟨trivial, hnot⟩⟩

/-- The health check of a task has no deadline that fits, so the task panics after its update:
    the machine keeps the new image, and no rollback is even tried. -/
theorem panicked_task_keeps_image : ∃ t e,
    Runs (rolloutTask 1 (soleOptions 0 instantLimit)) (updateImage 1 (soleOptions 0 instantLimit))
      t (some (.error e)) ∧
    Serves (fun _ _ _ => True) (soleFleet "old") t (soleFleet "new") ∧ (∀ e ∈ t, NotFailed e) ∧
    Updated "machine" t := by
  obtain ⟨t, hplay, hserves, hnot, hupdated⟩ : ∃ t,
      play (soleAnswer (.ok (soleMachine "new"))) 0
        (rolloutTask 1 (soleOptions 0 instantLimit) soleSnapshot) = some (t, none) ∧
      Serves (fun _ _ _ => True) (soleFleet "old") t (soleFleet "new") ∧
      (∀ e ∈ t, NotFailed e) ∧ Updated "machine" t := by
    refine ⟨_, rfl, ?_, ?_, ⟨_, _, _, .tail _ (.tail _ (.head _))⟩⟩
    · refine .cons rfl trivial (.cons rfl trivial ?_)
      refine .cons (store_soleFleet "old" "new").symm trivial ?_
      exact .cons rfl trivial (.cons rfl trivial (.nil _))
    · repeat refine List.forall_mem_cons.mpr ⟨trivial, ?_⟩
      exact List.forall_mem_nil _
  have hjoined : Joined (rolloutTask 1 (soleOptions 0 instantLimit)) [soleSnapshot] [(t, none)] t
      [.error "panicked"] :=
    ⟨.cons (exec_of_play hplay) .nil, interleaves_singleton t, .refl _⟩
  obtain ⟨e, hrolling⟩ : ∃ e, Runs (rolloutTask 1 (soleOptions 0 instantLimit))
      (rollingStage 1 (soleOptions 0 instantLimit) [("tenant", [soleSnapshot])] []) t
      (some (.error e)) := by
    rw [rollingStage, if_pos (by rfl), dif_neg (by decide)]
    -- There is nothing to roll back.
    have hnone : Runs (rolloutTask 1 (soleOptions 0 instantLimit))
        (lift (rollback 1 [] (soleOptions 0 instantLimit)) : Rollout Unit) [] (some ()) :=
      runs_lift.mpr (exec_pure.mpr ⟨rfl, rfl⟩)
    exact ⟨_, runs_bind.mpr (.inl ⟨t, [], _, (List.append_nil t).symm,
      runs_join.mpr ⟨_, _, hjoined, rfl⟩,
      runs_bind.mpr (.inl ⟨[], [], (), rfl, hnone, runs_pure.mpr ⟨rfl, rfl⟩⟩)⟩)⟩
  have hprint : ∀ note, Runs (rolloutTask 1 (soleOptions 0 instantLimit))
      (lift (print note) : Rollout Unit) [⟨.print note, ()⟩] (some ()) :=
    fun note => runs_lift.mpr (exec_ask.mpr ⟨(), rfl, rfl⟩)
  have hrollout : Runs (rolloutTask 1 (soleOptions 0 instantLimit))
      (rollout 1 (soleOptions 0 instantLimit) [soleSnapshot])
      (⟨.print (.canaryStage 0 1), ()⟩ :: ⟨.print .canaryPassed, ()⟩ ::
        ⟨.print (.rolling 1 1), ()⟩ :: t) (some (.error e)) := by
    refine runs_bind.mpr (.inl ⟨[_], _, (), rfl, hprint _, ?_⟩)
    refine runs_bind.mpr (.inl ⟨[], _, .ok [], rfl, runs_lift.mpr (exec_pure.mpr ⟨rfl, rfl⟩), ?_⟩)
    refine runs_bind.mpr (.inl ⟨[_], _, (), rfl, hprint _, ?_⟩)
    refine runs_bind.mpr (.inl ⟨[_], _, (), rfl, hprint _, ?_⟩)
    refine runs_bind.mpr (.inl ⟨t, [], _, (List.append_nil t).symm, hrolling, ?_⟩)
    exact runs_pure.mpr ⟨rfl, rfl⟩
  obtain ⟨request, nonce, m, hmem⟩ := hupdated
  refine ⟨_, e, runs_updateImage hrollout, ?_, ?_, request, nonce, m, ?_⟩
  · refine .cons ⟨List.forall_mem_singleton.mpr rfl, rfl⟩ trivial ?_
    exact .cons rfl trivial (.cons rfl trivial (.cons rfl trivial hserves))
  · repeat refine List.forall_mem_cons.mpr ⟨trivial, ?_⟩
    exact hnot
  · exact .tail _ (.tail _ (.tail _ (.tail _ hmem)))

end FlyVault.Admin
