/-
  Deleting a tenant in several runs.

  `TenantAnswers` is the API: it holds the configurations of the tenant's machines, and a listing
  that succeeds shows all of them. A delete of a machine may or may not take it away, whatever it
  returns, and nothing else changes the machines. `Deletions` is a sequence of runs of
  `delete_tenant --yes`, each going on from what the one before has left.

  The volumes of a run are those of the machines it lists. When a volume cannot be deleted but its
  machine can, no later run knows of the volume: `volume_leaked`. `no_volume_leaked`: if the delete
  of a volume fails only while one of the tenant's machines still mounts it, then after a last run
  that returns Ok every volume is deleted.
-/
import FlyVault.Admin.Tenant

namespace FlyVault.Admin

open FlyVault.Lib FlyVault.Lib.Script

/-- A machine of the tenant that `list_managed_machines` keeps. -/
def tenantMachine (tenantId : String) (machine : Machine) : Bool :=
  machine.metadata.lookup managedByKey == some managedByValue &&
    !(["destroyed", "deleted"].contains machine.state) &&
    machine.metadata.lookup tenantIdKey == some tenantId

/-- The API may give this answer, and then holds the machines `after`. `delete_tenant` creates
    nothing. -/
def TenantAnswers (tenantId : String) (ok : Fleet → TenantEvent → Prop) (fleet : Fleet)
    (e : TenantEvent) (after : Fleet) : Prop :=
  ok fleet e ∧ match e with
  | ⟨.api (.listMachines _), .ok listed⟩ => after = fleet ∧ ∀ id config,
      fleet id = some config ↔
        ∃ m ∈ listed, tenantMachine tenantId m ∧ m.id = id ∧ m.config = config
  | ⟨.deleteMachine machineId _, _⟩ => after = fleet ∨ after = Function.update fleet machineId none
  | _ => after = fleet

/-- One of the machines mounts the volume. -/
def Mounts (fleet : Fleet) (volume : String) : Prop :=
  ∃ id config, fleet id = some config ∧ volume ∈ configVolumeIds config

/-- The delete has returned success or not-found. -/
def Gone : Except Error Unit → Prop
  | .ok () => True
  | .error e => e.status = some 404

/-- The volume has been deleted. -/
def Deleted (volume : String) (t : List TenantEvent) : Prop :=
  ∃ r, (⟨.deleteVolume volume, r⟩ : TenantEvent) ∈ t ∧ Gone r

/-- A delete of a volume fails only while one of the machines mounts it. -/
def FailsMounted (fleet : Fleet) : TenantEvent → Prop
  | ⟨.deleteVolume volume, r⟩ => Gone r ∨ Mounts fleet volume
  | _ => True

/-- Runs of `delete_tenant --yes` one after the other, with the result of the last one. -/
inductive Deletions (tenantId : String) (ok : Fleet → TenantEvent → Prop) :
    Fleet → List TenantEvent → Fleet → Except Error Unit → Prop
  | first {fleet after : Fleet} {t : List TenantEvent} {result : Except Error Unit}
      {waitTimeout : Nat} (hexec : Exec (deleteTenant tenantId true waitTimeout) t (some result))
      (hserved : Served (TenantAnswers tenantId ok) fleet t after) :
      Deletions tenantId ok fleet t after result
  | next {fleet mid after : Fleet} {t t' : List TenantEvent} {result result' : Except Error Unit}
      {waitTimeout : Nat} (h : Deletions tenantId ok fleet t mid result)
      (hexec : Exec (deleteTenant tenantId true waitTimeout) t' (some result'))
      (hserved : Served (TenantAnswers tenantId ok) mid t' after) :
      Deletions tenantId ok fleet (t ++ t') after result'

theorem Deleted.append_left {volume : String} {t : List TenantEvent} (h : Deleted volume t)
    (t' : List TenantEvent) : Deleted volume (t ++ t') := by
  obtain ⟨r, hmem, hgone⟩ := h
  exact ⟨r, List.mem_append_left t' hmem, hgone⟩

theorem Deleted.append_right {volume : String} {t : List TenantEvent} (t' : List TenantEvent)
    (h : Deleted volume t) : Deleted volume (t' ++ t) := by
  obtain ⟨r, hmem, hgone⟩ := h
  exact ⟨r, List.mem_append_right t' hmem, hgone⟩

/-! ## The volumes of a run -/

theorem mem_insertId {id x : String} {ids : List String} :
    x ∈ insertId id ids ↔ x = id ∨ x ∈ ids := by
  fun_induction insertId with
  | case1 => simp
  | case2 => simp
  | case3 => simp
  | case4 other rest hne hlt ih =>
      rw [List.mem_cons, ih, List.mem_cons]
      exact or_left_comm

theorem mem_volumeIds {machines : List Machine} {volume : String} :
    volume ∈ volumeIds machines ↔ ∃ m ∈ machines, volume ∈ mountedVolumeIds m := by
  have hfold : ∀ (found ids : List String),
      volume ∈ found.foldl (fun ids id => insertId id ids) ids ↔ volume ∈ found ∨ volume ∈ ids := by
    intro found
    induction found with
    | nil => simp
    | cons id rest ih =>
        intro ids
        rw [List.foldl_cons, ih, mem_insertId, List.mem_cons, or_assoc]
        exact or_left_comm
  unfold volumeIds
  rw [hfold, List.mem_flatMap]
  simp

theorem status_of_alreadyApplied {e : Error}
    (h : classifyMachineActionError .deleteVolume e = .alreadyApplied) : e.status = some 404 := by
  unfold classifyMachineActionError at h
  split at h
  · cases h
  next status hstatus =>
  split at h
  · cases h
  split at h
  · next hgone => rw [hstatus, hgone]
  · split at h
    · cases h
    · cases h

theorem actionErrors_deleteVolume {text : String} {r : Except Error Unit}
    (h : actionErrors .deleteVolume text r = []) : Gone r := by
  cases r with
  | ok => trivial
  | error e =>
      dsimp only [actionErrors] at h
      split at h
      · next happlied => exact status_of_alreadyApplied happlied
      · cases h
      · cases h

/-- The calls are the deletes of the volumes, one each, and each may add an error. -/
theorem cleanupCreatedVolumes_spec {ids errors : List String} {t : List TenantEvent}
    (h : Exec (cleanupCreatedVolumes ids) t (some errors)) :
    t.map Sigma.fst = ids.map TenantCall.deleteVolume ∧
      (errors = [] → ∀ volume r, (⟨.deleteVolume volume, r⟩ : TenantEvent) ∈ t →
        ∃ text, actionErrors .deleteVolume text r = []) := by
  induction ids generalizing t errors with
  | nil =>
      obtain ⟨rfl, -⟩ := exec_pure.mp h
      exact ⟨rfl, fun _ _ _ hmem => by cases hmem⟩
  | cons id rest ih =>
      obtain ⟨result, t', rfl, hnext⟩ := exec_ask_bind.mp h
      obtain ⟨others, hrest, rfl⟩ := exec_bind_pure.mp hnext
      obtain ⟨hcalls, hothers⟩ := ih hrest
      refine ⟨congrArg (TenantCall.deleteVolume id :: ·) hcalls, ?_⟩
      intro hnone volume r hmem
      obtain ⟨hone, hnone⟩ := List.append_eq_nil_iff.mp hnone
      cases List.mem_cons.mp hmem with
      | inl hhead =>
          cases hhead
          exact ⟨_, hone⟩
      | inr hmem => exact hothers hnone volume r hmem

/-- A listing is one call, and what it returns are the tenant's machines of the answer. -/
theorem exec_listTenant {tenantId : String} {t : List TenantEvent}
    {result : Except Error (List Machine)}
    (h : Exec (client (listManagedMachines (some tenantId))) t (some result)) :
    (∃ query e, t = [⟨.api (.listMachines query), .error e⟩] ∧ result = .error e) ∨
      ∃ query listed machines, t = [⟨.api (.listMachines query), .ok listed⟩] ∧
        result = .ok machines ∧ ∀ m, m ∈ machines ↔ m ∈ listed ∧ tenantMachine tenantId m := by
  obtain ⟨events, rfl, hexec⟩ := exec_embed.mp h
  obtain ⟨t₁, t₂, listed, rfl, hlist, hreturn⟩ | ⟨e, hlist, ho⟩ | ⟨hlist, ho⟩ :=
    exec_run_bind.mp hexec
  · obtain ⟨_, rfl, hr⟩ := exec_ask.mp hlist
    cases hr
    obtain ⟨rfl, ho⟩ := exec_pure.mp hreturn
    cases ho
    refine .inr ⟨_, listed, _, rfl, rfl, fun m => ?_⟩
    rw [List.mem_filter, List.mem_filter]
    simp only [tenantMachine, Bool.and_eq_true, Bool.false_or]
    constructor
    · intro h
      obtain ⟨⟨hm, ⟨hmanaged, -⟩, hstate⟩, htenant⟩ := h
      exact ⟨hm, ⟨hmanaged, hstate⟩, htenant⟩
    · intro h
      obtain ⟨hm, ⟨hmanaged, hstate⟩, htenant⟩ := h
      refine ⟨⟨hm, ⟨hmanaged, ?_⟩, hstate⟩, htenant⟩
      rw [beq_iff_eq.mp htenant]
      rfl
  · obtain ⟨_, rfl, hr⟩ := exec_ask.mp hlist
    cases hr
    exact .inl ⟨_, e, rfl, Option.some.inj ho⟩
  · cases ho

/-! ## One run -/

/-- A call that only prints. -/
def TenantCall.Prints : TenantCall → Prop
  | .print _ => True
  | _ => False

section

variable {tenantId : String} {ok : Fleet → TenantEvent → Prop} {fleet after : Fleet}
  {t : List TenantEvent}

/-- A delete of a volume and a listing leave the machines as they are. -/
theorem TenantAnswers.deleteVolume {volume : String} {r : Except Error Unit}
    (h : TenantAnswers tenantId ok fleet ⟨.deleteVolume volume, r⟩ after) : after = fleet := h.2

theorem listTenant_steady {result : Except Error (List Machine)}
    (h : Exec (client (listManagedMachines (some tenantId))) t (some result))
    (hserved : Served (TenantAnswers tenantId ok) fleet t after) : after = fleet := by
  obtain ⟨query, e, rfl, -⟩ | ⟨query, listed, machines, rfl, -, -⟩ := exec_listTenant h
  · cases hserved with
    | cons hanswers hrest =>
        cases hrest
        exact hanswers.2
  · cases hserved with
    | cons hanswers hrest =>
        cases hrest
        exact hanswers.2.1

/-- The volumes that the machines mount are those of the machines listed. -/
theorem mounts_iff_of_listed {machines : List Machine}
    (h : Exec (client (listManagedMachines (some tenantId))) t (some (.ok machines)))
    (hserved : Served (TenantAnswers tenantId ok) fleet t after) {volume : String} :
    Mounts fleet volume ↔ volume ∈ volumeIds machines := by
  obtain ⟨_, _, -, herror⟩ | ⟨query, listed, _, rfl, hresult, hmem⟩ := exec_listTenant h
  · cases herror
  cases hresult
  cases hserved with
  | cons hanswers hrest =>
      have hlisted := hanswers.2.2
      rw [mem_volumeIds]
      constructor
      · intro hmounts
        obtain ⟨id, config, hconfig, hvolume⟩ := hmounts
        obtain ⟨m, hm, hmachine, -, rfl⟩ := (hlisted id config).mp hconfig
        exact ⟨m, (hmem m).mpr ⟨hm, hmachine⟩, hvolume⟩
      · intro hmounted
        obtain ⟨m, hm, hvolume⟩ := hmounted
        obtain ⟨hm, hmachine⟩ := (hmem m).mp hm
        exact ⟨m.id, m.config, (hlisted _ _).mpr ⟨m, hm, hmachine, rfl, rfl⟩, hvolume⟩

/-- The loop over the volumes leaves a volume only if one of the machines still mounts it. -/
theorem cleanupCreatedVolumes_left {ids errors : List String}
    (h : Exec (cleanupCreatedVolumes ids) t (some errors))
    (hserved : Served (TenantAnswers tenantId FailsMounted) fleet t after) :
    after = fleet ∧ ∀ volume ∈ ids,
      Deleted volume t ∨ Mounts after volume ∧ errors ≠ [] := by
  obtain ⟨hcalls, herrors⟩ := cleanupCreatedVolumes_spec h
  have hsteady : ∀ e ∈ t, ∀ s s', TenantAnswers tenantId FailsMounted s e s' → s' = s := by
    intro e he s s' hanswers
    have hcall := List.mem_map_of_mem (f := Sigma.fst) he
    rw [hcalls] at hcall
    obtain ⟨volume, -, hvolume⟩ := List.mem_map.mp hcall
    obtain ⟨c, r⟩ := e
    cases hvolume
    exact hanswers.deleteVolume
  obtain ⟨rfl, hall⟩ := hserved.steady hsteady
  refine ⟨rfl, ?_⟩
  intro volume hvolume
  have hcall := List.mem_map_of_mem (f := TenantCall.deleteVolume) hvolume
  rw [← hcalls] at hcall
  obtain ⟨⟨c, r⟩, hmem, hc⟩ := List.mem_map.mp hcall
  cases hc
  obtain hr | hmounts := (hall _ hmem).1
  · exact .inl ⟨r, hmem, hr⟩
  · by_cases hnone : errors = []
    · obtain ⟨text, htext⟩ := herrors hnone volume r hmem
      exact .inl ⟨r, hmem, actionErrors_deleteVolume htext⟩
    · exact .inr ⟨hmounts, hnone⟩

/-- A run of `delete_tenant`, from its first listing to its result. -/
inductive DeleteRun (tenantId : String) (yes : Bool) (waitTimeout : Nat) :
    List TenantEvent → Except Error Unit → Prop
  | unlisted {t : List TenantEvent} {e : Error}
      (hlist : Exec (client (listManagedMachines (some tenantId))) t (some (.error e))) :
      DeleteRun tenantId yes waitTimeout t (.error e)
  | nothing {t u : List TenantEvent}
      (hlist : Exec (client (listManagedMachines (some tenantId))) t (some (.ok [])))
      (hprint : Exec (report (.noMachines tenantId)) u (some ())) :
      DeleteRun tenantId yes waitTimeout (t ++ u) (.ok ())
  | refused {t u : List TenantEvent} {machines : List Machine} {e : Error}
      (hlist : Exec (client (listManagedMachines (some tenantId))) t (some (.ok machines)))
      (hplan : ∀ e ∈ u, e.1.Prints) (hyes : yes = false) :
      DeleteRun tenantId yes waitTimeout (t ++ u) (.error e)
  /-- Only a run without errors prints that the tenant is deleted. -/
  | deleted {t u m v w x : List TenantEvent} {machines : List Machine}
      {remaining : Except Error (List Machine)} {machineErrors volumeErrors : List String}
      {result : Except Error Unit}
      (hlist : Exec (client (listManagedMachines (some tenantId))) t (some (.ok machines)))
      (hplan : ∀ e ∈ u, e.1.Prints) (hyes : yes = true)
      (hmachines : Exec (deleteMachines waitTimeout machines) m (some machineErrors))
      (hvolumes : Exec (cleanupCreatedVolumes (volumeIds machines)) v (some volumeErrors))
      (hlist' : Exec (client (listManagedMachines (some tenantId))) w (some remaining))
      (hreturn : (machineErrors = [] ∧ volumeErrors = [] ∧ remaining = .ok [] ∧
        (∀ e ∈ x, e.1.Prints)) ∨ x = [] ∧ result ≠ .ok ()) :
      DeleteRun tenantId yes waitTimeout (t ++ (u ++ (m ++ (v ++ (w ++ x))))) result

theorem prints_of_report {note : TenantNote} {t : List TenantEvent}
    (h : Exec (report note) t (some ())) : ∀ e ∈ t, e.1.Prints := by
  obtain ⟨_, rfl, -⟩ := exec_ask.mp h
  exact List.forall_mem_singleton.mpr trivial

theorem only_reportEach {allows : TenantEvent → Prop} (note : String → TenantNote)
    (ids : List String) : Only allows TenantCall.Prints (reportEach note ids) := by
  induction ids with
  | nil => trivial
  | cons id rest ih => exact Only.bind (only_ask.mpr trivial) fun _ => ih

theorem only_reportPlan {allows : TenantEvent → Prop} (machines : List Machine) :
    Only allows TenantCall.Prints (reportPlan machines) := by
  induction machines with
  | nil => trivial
  | cons machine rest ih => exact Only.bind (only_ask.mpr trivial) fun _ => ih

theorem deleteRun_of_exec {yes : Bool} {waitTimeout : Nat} {result : Except Error Unit}
    (h : Exec (deleteTenant tenantId yes waitTimeout) t (some result)) :
    DeleteRun tenantId yes waitTimeout t result := by
  obtain ⟨t₁, t₂, answer, rfl, hlist, hnext⟩ := exec_bind_some.mp h
  cases answer with
  | error e =>
      obtain ⟨rfl, ho⟩ := exec_pure.mp hnext
      cases ho
      rw [List.append_nil]
      exact .unlisted hlist
  | ok machines =>
      dsimp only at hnext
      split at hnext
      · next hempty =>
          rw [List.isEmpty_iff.mp hempty] at hlist
          obtain ⟨_, hprint, rfl⟩ := exec_bind_pure.mp hnext
          exact .nothing hlist hprint
      obtain ⟨u₁, t₃, _, rfl, hplan₁, hnext⟩ := exec_bind_some.mp hnext
      obtain ⟨u₂, t₄, _, rfl, hplan₂, hnext⟩ := exec_bind_some.mp hnext
      obtain ⟨u₃, t₅, _, rfl, hplan₃, hnext⟩ := exec_bind_some.mp hnext
      have hplan : ∀ e ∈ u₁ ++ (u₂ ++ u₃), e.1.Prints :=
        List.forall_mem_append.mpr ⟨prints_of_report hplan₁, List.forall_mem_append.mpr
          ⟨(only_reportPlan _).calls hplan₂, (only_reportEach _ _).calls hplan₃⟩⟩
      have hassoc : u₁ ++ (u₂ ++ (u₃ ++ t₅)) = (u₁ ++ (u₂ ++ u₃)) ++ t₅ := by
        simp only [List.append_assoc]
      rw [hassoc]
      split at hnext
      · next hyes =>
          obtain ⟨rfl, ho⟩ := exec_pure.mp hnext
          cases ho
          rw [List.append_nil]
          exact .refused hlist hplan (by simpa using hyes)
      next hyes =>
      obtain ⟨m, t₆, machineErrors, rfl, hmachines, hnext⟩ := exec_bind_some.mp hnext
      obtain ⟨v, t₇, volumeErrors, rfl, hvolumes, hnext⟩ := exec_bind_some.mp hnext
      obtain ⟨w, x, remaining, rfl, hlist', hreturn⟩ := exec_bind_some.mp hnext
      refine .deleted hlist hplan (by simpa using hyes) hmachines hvolumes hlist' ?_
      cases remaining with
      | error e =>
          obtain ⟨rfl, ho⟩ := exec_pure.mp hreturn
          cases ho
          exact .inr ⟨rfl, fun h => by cases h⟩
      | ok remaining =>
          dsimp only at hreturn
          generalize hremain : (if remaining.isEmpty then [] else _) = remainErrors at hreturn
          split at hreturn
          · next hnone =>
              obtain ⟨_, hprint, -⟩ := exec_bind_pure.mp hreturn
              rw [List.isEmpty_iff, List.append_eq_nil_iff, List.append_eq_nil_iff] at hnone
              obtain ⟨⟨hmachineErrors, hvolumeErrors⟩, rfl⟩ := hnone
              refine .inl ⟨hmachineErrors, hvolumeErrors, ?_, prints_of_report hprint⟩
              split at hremain
              · next hempty => rw [List.isEmpty_iff.mp hempty]
              · cases hremain
          · obtain ⟨rfl, ho⟩ := exec_pure.mp hreturn
            cases ho
            exact .inr ⟨rfl, fun h => by cases h⟩

/-- After one run a volume is deleted, or one of the machines still mounts it and the run has
    returned an error. -/
theorem deleteTenant_left {waitTimeout : Nat} {result : Except Error Unit} {volume : String}
    (h : Exec (deleteTenant tenantId true waitTimeout) t (some result))
    (hserved : Served (TenantAnswers tenantId FailsMounted) fleet t after)
    (hmounts : Mounts fleet volume) :
    Deleted volume t ∨ Mounts after volume ∧ result ≠ .ok () := by
  cases deleteRun_of_exec h with
  | unlisted hlist =>
      obtain rfl := listTenant_steady hlist hserved
      exact .inr ⟨hmounts, fun h => by cases h⟩
  | nothing hlist hprint =>
      obtain ⟨mid, hserved₁, -⟩ := hserved.split
      cases (mounts_iff_of_listed hlist hserved₁).mp hmounts
  | refused hlist hplan hyes => cases hyes
  | @deleted t u m v w x machines remaining machineErrors volumeErrors _ hlist hplan _ hmachines
      hvolumes hlist' hreturn =>
      obtain ⟨mid, hserved₁, hserved₂⟩ := hserved.split
      have hvolume := (mounts_iff_of_listed hlist hserved₁).mp hmounts
      obtain ⟨_, -, hserved₃⟩ := hserved₂.split
      obtain ⟨_, -, hserved₄⟩ := hserved₃.split
      obtain ⟨left, hserved₅, hserved₆⟩ := hserved₄.split
      obtain ⟨last, hserved₇, hserved₈⟩ := hserved₆.split
      obtain ⟨rfl, hleft⟩ := cleanupCreatedVolumes_left hvolumes hserved₅
      obtain hdeleted | ⟨hstill, herrors⟩ := hleft volume hvolume
      · exact .inl ((((hdeleted.append_left _).append_right m).append_right u).append_right t)
      · obtain ⟨-, hnone, -⟩ | ⟨rfl, herror⟩ := hreturn
        · exact absurd hnone herrors
        obtain rfl := listTenant_steady hlist' hserved₇
        cases hserved₈
        exact .inr ⟨hstill, herror⟩

end

/-! ## Several runs -/

/-- What the runs have not deleted is still mounted, and the last of them has returned an error. -/
theorem Deletions.left {tenantId : String} {before after : Fleet} {t : List TenantEvent}
    {result : Except Error Unit} (h : Deletions tenantId FailsMounted before t after result)
    {volume : String} (hmounts : Mounts before volume) :
    Deleted volume t ∨ Mounts after volume ∧ result ≠ .ok () := by
  induction h with
  | first hexec hserved => exact deleteTenant_left hexec hserved hmounts
  | @next _ _ t _ _ _ _ _ hexec hserved ih =>
      obtain hdeleted | ⟨hstill, -⟩ := ih
      · exact .inl (hdeleted.append_left _)
      · obtain hdeleted | hleft := deleteTenant_left hexec hserved hstill
        · exact .inl (hdeleted.append_right t)
        · exact .inr hleft

/-- If the delete of a volume fails only while one of the tenant's machines mounts it, then after
    any number of runs, the last of which returns Ok, every volume that was mounted before the
    first run is deleted. -/
theorem no_volume_leaked (tenantId : String) (before after : Fleet) (t : List TenantEvent)
    (h : Deletions tenantId FailsMounted before t after (.ok ())) :
    ∀ volume, Mounts before volume → Deleted volume t := by
  intro volume hmounts
  obtain hdeleted | ⟨-, herror⟩ := h.left hmounts
  · exact hdeleted
  · exact absurd rfl herror

/-! ## A machine with a volume -/

def mountingMachine : Machine :=
  ⟨"machine", none, "stopped", none, none, .object [("metadata", .object
    [(managedByKey, .string managedByValue), (tenantIdKey, .string "tenant")]),
    ("mounts", .array [.object [("volume", .string "vol")]])], .null⟩

def mountingFleet : Fleet := Function.update (fun _ => none) "machine" (some mountingMachine.config)

theorem mounts_mountingFleet : Mounts mountingFleet "vol" :=
  ⟨"machine", mountingMachine.config, Function.update_self .., by decide⟩

theorem listed_mountingFleet (id : String) (config : Json) : mountingFleet id = some config ↔
    ∃ m ∈ [mountingMachine], tenantMachine "tenant" m ∧ m.id = id ∧ m.config = config := by
  have htenant : tenantMachine "tenant" mountingMachine := by decide
  constructor
  · intro h
    by_cases hid : id = "machine"
    · subst hid
      rw [mountingFleet, Function.update_self] at h
      exact ⟨mountingMachine, List.mem_singleton.mpr rfl, htenant, rfl, Option.some.inj h⟩
    · rw [mountingFleet, Function.update_of_ne hid] at h
      cases h
  · intro h
    obtain ⟨m, hm, -, rfl, rfl⟩ := h
    obtain rfl := List.mem_singleton.mp hm
    exact Function.update_self ..

theorem mountingFleet_removed : Function.update mountingFleet "machine" none = fun _ => none := by
  rw [mountingFleet, Function.update_idem]
  exact Function.update_eq_self ..

/-- Whether the machine is listed and the deletes succeed depends on the number of the call. -/
def mountingAnswer (listed machine volume : Nat → Bool) (n : Nat) :
    (c : TenantCall) → TenantAnswer c
  | .api c => calmAnswer (if listed n then [mountingMachine] else []) c
  | .createMachine _ => .error (anyhow "not asked for")
  | .stopMachine _ => .ok ()
  | .deleteMachine _ _ => if machine n then .ok () else .error ⟨[], "unavailable", some 503⟩
  | .createVolume _ => .error (anyhow "not asked for")
  | .deleteVolume _ => if volume n then .ok () else .error ⟨[], "unavailable", some 503⟩
  | .print _ => ()

/-- The first run deletes neither the machine nor the volume, and the second one both. -/
theorem no_volume_leaked_second : ∃ t after,
    Deletions "tenant" FailsMounted mountingFleet t after (.ok ()) ∧
    (∀ volume, Mounts mountingFleet volume → Deleted volume t) ∧ Deleted "vol" t := by
  have hnone : ∀ id config, (fun _ => none : Fleet) id = some config ↔
      ∃ m ∈ [], tenantMachine "tenant" m ∧ m.id = id ∧ m.config = config := by simp
  obtain ⟨t₁, t₂, e, hfirst, hsecond, hserved₁, hserved₂⟩ : ∃ t₁ t₂ e,
      play (mountingAnswer (fun n => n < 15) (fun n => 8 ≤ n) (fun n => 8 ≤ n)) 0
        (deleteTenant "tenant" true 0) = some (t₁, some (.error e)) ∧
      play (mountingAnswer (fun n => n < 15) (fun n => 8 ≤ n) (fun n => 8 ≤ n)) 8
        (deleteTenant "tenant" true 0) = some (t₂, some (.ok ())) ∧
      Served (TenantAnswers "tenant" FailsMounted) mountingFleet t₁ mountingFleet ∧
      Served (TenantAnswers "tenant" FailsMounted) mountingFleet t₂ fun _ => none := by
    refine ⟨_, _, _, rfl, rfl, ?_, ?_⟩
    · refine .cons ⟨trivial, rfl, listed_mountingFleet⟩ (.cons ⟨trivial, rfl⟩ ?_)
      refine .cons ⟨trivial, rfl⟩ (.cons ⟨trivial, rfl⟩ (.cons ⟨trivial, rfl⟩ ?_))
      refine .cons ⟨trivial, .inl rfl⟩ (.cons ⟨.inr mounts_mountingFleet, rfl⟩ ?_)
      exact .cons ⟨trivial, rfl, listed_mountingFleet⟩ (.nil _)
    · refine .cons ⟨trivial, rfl, listed_mountingFleet⟩ (.cons ⟨trivial, rfl⟩ ?_)
      refine .cons ⟨trivial, rfl⟩ (.cons ⟨trivial, rfl⟩ (.cons ⟨trivial, rfl⟩ ?_))
      refine .cons ⟨trivial, .inr mountingFleet_removed.symm⟩ (.cons ⟨.inl trivial, rfl⟩ ?_)
      exact .cons ⟨trivial, rfl, hnone⟩ (.cons ⟨trivial, rfl⟩ (.nil _))
  have hruns : Deletions "tenant" FailsMounted mountingFleet (t₁ ++ t₂) (fun _ => none) (.ok ()) :=
    .next (.first (exec_of_play hfirst) hserved₁) (exec_of_play hsecond) hserved₂
  have hall := no_volume_leaked "tenant" _ _ _ hruns
  exact ⟨_, _, hruns, hall, hall "vol" mounts_mountingFleet⟩

/-- The first run deletes the machine but not its volume. The second one finds no machine and
    returns Ok, and the volume is left. -/
theorem volume_leaked : ∃ t after,
    Deletions "tenant" (fun _ _ => True) mountingFleet t after (.ok ()) ∧
    Mounts mountingFleet "vol" ∧ ¬Deleted "vol" t := by
  have hnone : ∀ id config, (fun _ => none : Fleet) id = some config ↔
      ∃ m ∈ [], tenantMachine "tenant" m ∧ m.id = id ∧ m.config = config := by simp
  obtain ⟨t₁, t₂, e, hfirst, hsecond, hserved₁, hserved₂, hleft⟩ : ∃ t₁ t₂ e,
      play (mountingAnswer (fun n => n = 0) (fun _ => true) (fun _ => false)) 0
        (deleteTenant "tenant" true 0) = some (t₁, some (.error e)) ∧
      play (mountingAnswer (fun n => n = 0) (fun _ => true) (fun _ => false)) 8
        (deleteTenant "tenant" true 0) = some (t₂, some (.ok ())) ∧
      Served (TenantAnswers "tenant" fun _ _ => True) mountingFleet t₁ (fun _ => none) ∧
      Served (TenantAnswers "tenant" fun _ _ => True) (fun _ => none) t₂ (fun _ => none) ∧
      ∀ e ∈ t₁ ++ t₂, ∀ volume r, e = ⟨.deleteVolume volume, r⟩ → ¬Gone r := by
    refine ⟨_, _, _, rfl, rfl, ?_, ?_, ?_⟩
    · refine .cons ⟨trivial, rfl, listed_mountingFleet⟩ (.cons ⟨trivial, rfl⟩ ?_)
      refine .cons ⟨trivial, rfl⟩ (.cons ⟨trivial, rfl⟩ (.cons ⟨trivial, rfl⟩ ?_))
      refine .cons ⟨trivial, .inr mountingFleet_removed.symm⟩ (.cons ⟨trivial, rfl⟩ ?_)
      exact .cons ⟨trivial, rfl, hnone⟩ (.nil _)
    · exact .cons ⟨trivial, rfl, hnone⟩ (.cons ⟨trivial, rfl⟩ (.nil _))
    · repeat
        refine List.forall_mem_cons.mpr ⟨?_, ?_⟩
        · intro volume r h hgone
          cases h <;> cases hgone
      exact List.forall_mem_nil _
  refine ⟨_, _, .next (.first (exec_of_play hfirst) hserved₁) (exec_of_play hsecond) hserved₂,
    mounts_mountingFleet, ?_⟩
  intro hdeleted
  obtain ⟨r, hmem, hgone⟩ := hdeleted
  exact hleft _ hmem "vol" r rfl hgone

end FlyVault.Admin
