/-
  What a run of `delete_tenant` touches.

  The listing is untrusted: the API may ignore the query, and a configuration is any JSON value.
  `deletion_within_tenant`: whatever the API lists and answers, a run changes only machines of the
  first listing that are the tenant's and volumes that those mount, each volume at most once, and
  nothing without `--yes`; it returns Ok only after all its deletes have been applied and a last
  listing without machines of the tenant.
-/
import FlyVault.Admin.DeleteTenant
import Mathlib.Data.String.Basic

namespace FlyVault.Admin

open FlyVault.Lib FlyVault.Lib.Script

/-! ## Calls -/

/-- A call that may change a machine or a volume. -/
def TenantCall.Mutates : TenantCall → Prop
  | .api (.listMachines _) | .api (.getMachine _) | .api (.wait _ _ _ _) | .api .now
  | .api (.sleep _) | .api (.print _) | .print _ => False
  | _ => True

/-- The call changes nothing, or cordons, stops or deletes one of the tenant's machines of the
    listing or deletes a volume that one of them mounts. -/
def TenantCall.Within (tenantId : String) (listed : List Machine) : TenantCall → Prop
  | .api (.cordonMachine machineId _) | .stopMachine machineId | .deleteMachine machineId _ =>
      ∃ m ∈ listed, tenantMachine tenantId m ∧ m.id = machineId
  | .deleteVolume volume => ∃ m ∈ listed, tenantMachine tenantId m ∧ volume ∈ mountedVolumeIds m
  | c => ¬c.Mutates

def deletesVolume (volume : String) : TenantCall → Bool
  | .deleteVolume volumeId => volumeId == volume
  | _ => false

/-- The action succeeded, or had been applied before. -/
def Applied (action : MachineAction) (r : Except Error Unit) : Prop :=
  r = .ok () ∨ ∃ e, r = .error e ∧ classifyMachineActionError action e = .alreadyApplied

/-- If this is a delete, it is applied. -/
def DeleteApplied : TenantEvent → Prop
  | ⟨.deleteMachine _ _, r⟩ => Applied .deleteMachine r
  | ⟨.deleteVolume _, r⟩ => Applied .deleteVolume r
  | _ => True

theorem applied_of_actionErrors {action : MachineAction} {text : String} {r : Except Error Unit}
    (h : actionErrors action text r = []) : Applied action r := by
  cases r with
  | ok => exact .inl rfl
  | error e =>
      dsimp only [actionErrors] at h
      split at h
      · next happlied => exact .inr ⟨e, rfl, happlied⟩
      · cases h
      · cases h

theorem TenantCall.Prints.eq_print {c : TenantCall} (h : c.Prints) : ∃ note, c = .print note := by
  unfold Prints at h
  split at h
  · exact ⟨_, rfl⟩
  · cases h

theorem TenantCall.Prints.not_mutates {c : TenantCall} (h : c.Prints) : ¬c.Mutates := by
  obtain ⟨note, rfl⟩ := h.eq_print
  exact id

/-! ## One machine -/

/-- What is done to a machine before it is deleted. -/
def Prepares (machine : Machine) : TenantCall → Prop
  | .api c => c.Waits ∨ c = .cordonMachine machine.id none
  | .stopMachine machineId => machineId = machine.id
  | _ => False

def OnMachine (machine : Machine) (c : TenantCall) : Prop :=
  Prepares machine c ∨ c = .deleteMachine machine.id true

theorem Prepares.deleteApplied {machine : Machine} {e : TenantEvent} (h : Prepares machine e.1) :
    DeleteApplied e := by
  obtain ⟨c, r⟩ := e
  cases c with
  | api c => trivial
  | stopMachine machineId => trivial
  | createMachine request => cases h
  | deleteMachine machineId force => cases h
  | createVolume request => cases h
  | deleteVolume volumeId => cases h
  | print note => cases h

variable {allows : TenantEvent → Prop}

theorem only_cordon (machine : Machine) :
    Only allows (Prepares machine) (client (cordonMachine machine.id none)) :=
  Only.embed (only_ask.mpr (.inr rfl))

theorem only_stopStarted (machine : Machine) (waitTimeout : Nat) :
    Only allows (Prepares machine) (stopStarted machine waitTimeout) := by
  unfold stopStarted
  split
  · trivial
  refine Only.bind (only_ask.mpr rfl) fun result => ?_
  cases result with
  | error e => trivial
  | ok =>
      refine Only.bind (Only.embed ?_) fun result => ?_
      · exact (only_waitChunks ..).mono fun _ => .inl
      · cases result with
        | error e => trivial
        | ok => trivial

theorem only_deleteOneMachine (machine : Machine) (waitTimeout : Nat) :
    Only allows (OnMachine machine) (deleteOneMachine machine waitTimeout) := by
  refine Only.bind ((only_cordon machine).mono fun _ => .inl) fun _ => ?_
  refine Only.bind ((only_stopStarted machine waitTimeout).mono fun _ => .inl) fun _ => ?_
  exact Only.bind (only_ask.mpr (.inr rfl)) fun _ => trivial

theorem deleteOneMachine_applied {machine : Machine} {waitTimeout : Nat} {t : List TenantEvent}
    (h : Exec (deleteOneMachine machine waitTimeout) t (some [])) : ∀ e ∈ t, DeleteApplied e := by
  obtain ⟨t₁, t₂, _, rfl, hcordon, hnext⟩ := exec_bind_some.mp h
  obtain ⟨t₃, t₄, _, rfl, hstop, hnext⟩ := exec_bind_some.mp hnext
  obtain ⟨r, t', rfl, hreturn⟩ := exec_ask_bind.mp hnext
  obtain ⟨rfl, ho⟩ := exec_pure.mp hreturn
  have herrors := (List.append_eq_nil_iff.mp (Option.some.inj ho).symm).2
  have hprepares₁ := (only_cordon machine).calls hcordon
  have hprepares₂ := (only_stopStarted machine waitTimeout).calls hstop
  refine List.forall_mem_append.mpr ⟨?_, List.forall_mem_append.mpr ⟨?_, ?_⟩⟩
  · exact fun e he => (hprepares₁ e he).deleteApplied
  · exact fun e he => (hprepares₂ e he).deleteApplied
  · exact List.forall_mem_singleton.mpr (applied_of_actionErrors herrors)

/-! ## The loops -/

theorem only_deleteMachines (machines : List Machine) (waitTimeout : Nat) :
    Only allows (fun c => ∃ m ∈ machines, OnMachine m c) (deleteMachines waitTimeout machines) := by
  induction machines with
  | nil => trivial
  | cons machine rest ih =>
      refine Only.bind ((only_deleteOneMachine machine waitTimeout).mono ?_) fun _ => ?_
      · exact fun c hc => ⟨machine, List.mem_cons_self, hc⟩
      refine Only.bind (ih.mono ?_) fun _ => trivial
      intro c hc
      obtain ⟨m, hm, hon⟩ := hc
      exact ⟨m, List.mem_cons_of_mem _ hm, hon⟩

theorem deleteMachines_applied {machines : List Machine} {waitTimeout : Nat}
    {t : List TenantEvent} (h : Exec (deleteMachines waitTimeout machines) t (some [])) :
    ∀ e ∈ t, DeleteApplied e := by
  induction machines generalizing t with
  | nil =>
      obtain ⟨rfl, -⟩ := exec_pure.mp h
      exact List.forall_mem_nil _
  | cons machine rest ih =>
      obtain ⟨t₁, t₂, errors, rfl, hone, hnext⟩ := exec_bind_some.mp h
      obtain ⟨others, hrest, hnone⟩ := exec_bind_pure.mp hnext
      obtain ⟨rfl, rfl⟩ := List.append_eq_nil_iff.mp hnone.symm
      exact List.forall_mem_append.mpr ⟨deleteOneMachine_applied hone, ih hrest⟩

theorem only_cleanupCreatedVolumes (ids : List String) :
    Only allows (fun c => ∃ id ∈ ids, c = .deleteVolume id) (cleanupCreatedVolumes ids) := by
  induction ids with
  | nil => trivial
  | cons id rest ih =>
      refine Only.bind (only_ask.mpr ⟨id, List.mem_cons_self, rfl⟩) fun _ => ?_
      refine Only.bind (ih.mono ?_) fun _ => trivial
      intro c hc
      obtain ⟨other, hother, hcall⟩ := hc
      exact ⟨other, List.mem_cons_of_mem _ hother, hcall⟩

theorem cleanupCreatedVolumes_applied {ids : List String} {t : List TenantEvent}
    (h : Exec (cleanupCreatedVolumes ids) t (some [])) : ∀ e ∈ t, DeleteApplied e := by
  intro e he
  obtain ⟨volume, -, hcall⟩ := (only_cleanupCreatedVolumes ids).calls h e he
  obtain ⟨c, r⟩ := e
  cases hcall
  obtain ⟨text, htext⟩ := (cleanupCreatedVolumes_spec h).2 rfl volume r he
  exact applied_of_actionErrors htext

/-! ## The set of volumes -/

theorem insertId_sorted {id : String} {ids : List String} (h : ids.Pairwise (· < ·)) :
    (insertId id ids).Pairwise (· < ·) := by
  fun_induction insertId with
  | case1 => exact List.pairwise_singleton _ _
  | case2 => exact h
  | case3 other rest hne hlt =>
      refine List.pairwise_cons.mpr ⟨List.forall_mem_cons.mpr ⟨hlt, ?_⟩, h⟩
      exact fun x hx => hlt.trans ((List.pairwise_cons.mp h).1 x hx)
  | case4 other rest hne hlt ih =>
      obtain ⟨hother, hrest⟩ := List.pairwise_cons.mp h
      refine List.pairwise_cons.mpr ⟨?_, ih hrest⟩
      intro x hx
      obtain rfl | hx := mem_insertId.mp hx
      · exact lt_of_le_of_ne (not_lt.mp hlt) hne
      · exact hother x hx

theorem nodup_volumeIds (machines : List Machine) : (volumeIds machines).Nodup := by
  have hfold : ∀ (found ids : List String), ids.Pairwise (· < ·) →
      (found.foldl (fun ids id => insertId id ids) ids).Pairwise (· < ·) := by
    intro found
    induction found with
    | nil => exact fun ids h => h
    | cons id rest ih => exact fun ids h => ih _ (insertId_sorted h)
  exact (hfold _ [] List.Pairwise.nil).imp fun h => h.ne

/-! ## A run -/

theorem only_listTenant (tenantId : String) :
    Only allows (fun c => ¬c.Mutates) (client (listManagedMachines (some tenantId))) :=
  Only.embed (Only.run_bind (only_ask.mpr id) fun _ => trivial)

theorem deleteTenant_returns {tenantId : String} {yes : Bool} {waitTimeout : Nat}
    {t : List TenantEvent} {o : Option (Except Error Unit)}
    (h : Exec (deleteTenant tenantId yes waitTimeout) t o) : ∃ result, o = some result := by
  have hany {α : Type} {P : TenantCall → Prop} {p : TenantApi α} (hp : Only (fun _ => True) P p) :
      Only (fun _ => True) (fun _ => True) p := hp.mono fun _ _ => trivial
  have hreport (note : TenantNote) :
      Only (fun _ => True) (fun _ => True) (report note) := only_ask.mpr trivial
  have honly : Only (fun _ => True) (fun _ => True) (deleteTenant tenantId yes waitTimeout) := by
    refine Only.bind (hany (only_listTenant tenantId)) fun answer => ?_
    cases answer with
    | error e => trivial
    | ok machines =>
        dsimp only
        split
        · exact Only.bind (hreport _) fun _ => trivial
        refine Only.bind (hreport _) fun _ => ?_
        refine Only.bind (hany (only_reportPlan machines)) fun _ => ?_
        refine Only.bind (hany (only_reportEach _ _)) fun _ => ?_
        split
        · trivial
        refine Only.bind (hany (only_deleteMachines machines waitTimeout)) fun _ => ?_
        refine Only.bind (hany (only_cleanupCreatedVolumes _)) fun _ => ?_
        refine Only.bind (hany (only_listTenant tenantId)) fun remaining => ?_
        cases remaining with
        | error e => trivial
        | ok remaining =>
            dsimp only
            generalize (if remaining.isEmpty then [] else _) = remainErrors
            split
            · exact Only.bind (hreport _) fun _ => trivial
            · trivial
  exact Option.ne_none_iff_exists'.mp (honly.sound h fun _ _ => trivial).1

section

variable {tenantId : String} {listed : List Machine} {c : TenantCall}

theorem within_of_prints (h : c.Prints) : c.Within tenantId listed := by
  obtain ⟨note, rfl⟩ := h.eq_print
  exact id

theorem within_of_waits {c : Call} (h : c.Waits) : (TenantCall.api c).Within tenantId listed := by
  cases c with
  | getMachine machineId => exact id
  | wait machineId state timeout instanceId => exact id
  | now => exact id
  | sleep duration => exact id
  | listMachines query => cases h
  | updateMachine machineId request leaseNonce => cases h
  | cordonMachine machineId leaseNonce => cases h
  | uncordonMachine machineId leaseNonce => cases h
  | createLease machineId ttlSecs => cases h
  | releaseLease machineId leaseNonce => cases h
  | print note => cases h

theorem OnMachine.within {machine : Machine} (hlisted : machine ∈ listed)
    (hmachine : tenantMachine tenantId machine = true) (h : OnMachine machine c) :
    c.Within tenantId listed := by
  obtain hprepares | rfl := h
  · cases c with
    | api c =>
        obtain hwaits | rfl := hprepares
        · exact within_of_waits hwaits
        · exact ⟨machine, hlisted, hmachine, rfl⟩
    | stopMachine machineId => exact ⟨machine, hlisted, hmachine, hprepares.symm⟩
    | createMachine request => cases hprepares
    | deleteMachine machineId force => cases hprepares
    | createVolume request => cases hprepares
    | deleteVolume volumeId => cases hprepares
    | print note => cases hprepares
  · exact ⟨machine, hlisted, hmachine, rfl⟩

end

section

variable {tenantId : String} {yes : Bool} {waitTimeout : Nat} {t : List TenantEvent}
  {result : Except Error Unit}

/-- What follows the first listing stays within it. -/
theorem DeleteRun.within (h : DeleteRun tenantId yes waitTimeout t result) :
    ∃ query answer rest, t = ⟨.api (.listMachines query), answer⟩ :: rest ∧
      ∀ e ∈ rest, ∃ listed, answer = .ok listed ∧ e.1.Within tenantId listed := by
  cases h with
  | unlisted hlist =>
      obtain ⟨query, e, rfl, -⟩ | ⟨_, _, _, -, hok, -⟩ := exec_listTenant hlist
      · exact ⟨query, .error e, [], rfl, List.forall_mem_nil _⟩
      · cases hok
  | @nothing t u hlist hprint =>
      obtain ⟨_, _, -, herror⟩ | ⟨query, listed, _, rfl, -, -⟩ := exec_listTenant hlist
      · cases herror
      refine ⟨query, .ok listed, u, rfl, fun e he => ⟨listed, rfl, ?_⟩⟩
      exact within_of_prints (prints_of_report hprint e he)
  | @refused t u machines e hlist hplan hyes =>
      obtain ⟨_, _, -, herror⟩ | ⟨query, listed, _, rfl, -, -⟩ := exec_listTenant hlist
      · cases herror
      exact ⟨query, .ok listed, u, rfl, fun e he => ⟨listed, rfl, within_of_prints (hplan e he)⟩⟩
  | @deleted t u m v w x machines remaining machineErrors volumeErrors _ hlist hplan _ hmachines
      hvolumes hlist' hreturn =>
      obtain ⟨_, _, -, herror⟩ | ⟨query, listed, _, rfl, hok, hmem⟩ := exec_listTenant hlist
      · cases herror
      cases hok
      have honMachines := (only_deleteMachines machines waitTimeout).calls hmachines
      have honVolumes := (only_cleanupCreatedVolumes _).calls hvolumes
      refine ⟨query, .ok listed, u ++ (m ++ (v ++ (w ++ x))), rfl, fun e he => ⟨listed, rfl, ?_⟩⟩
      simp only [List.mem_append] at he
      obtain he | he | he | he | he := he
      · exact within_of_prints (hplan e he)
      · obtain ⟨machine, hmachine, hon⟩ := honMachines e he
        obtain ⟨hlisted, htenant⟩ := (hmem machine).mp hmachine
        exact hon.within hlisted htenant
      · obtain ⟨volume, hvolume, hcall⟩ := honVolumes e he
        obtain ⟨machine, hmachine, hmounted⟩ := mem_volumeIds.mp hvolume
        obtain ⟨hlisted, htenant⟩ := (hmem machine).mp hmachine
        rw [hcall]
        exact ⟨machine, hlisted, htenant, hmounted⟩
      · obtain ⟨_, _, rfl, -⟩ | ⟨_, _, _, rfl, -, -⟩ := exec_listTenant hlist'
        · rw [List.mem_singleton.mp he]
          exact id
        · rw [List.mem_singleton.mp he]
          exact id
      · obtain ⟨-, -, -, hprint⟩ | ⟨rfl, -⟩ := hreturn
        · exact within_of_prints (hprint e he)
        · cases he

theorem not_mutates_of_listTenant {answer : Except Error (List Machine)}
    (h : Exec (client (listManagedMachines (some tenantId))) t (some answer)) :
    ∀ e ∈ t, ¬e.1.Mutates :=
  (only_listTenant tenantId).calls h

/-- Without `--yes` nothing is changed. -/
theorem DeleteRun.not_mutates (h : DeleteRun tenantId false waitTimeout t result) :
    ∀ e ∈ t, ¬e.1.Mutates := by
  cases h with
  | unlisted hlist => exact not_mutates_of_listTenant hlist
  | nothing hlist hprint =>
      refine List.forall_mem_append.mpr ⟨not_mutates_of_listTenant hlist, ?_⟩
      exact fun e he => (prints_of_report hprint e he).not_mutates
  | refused hlist hplan hyes =>
      refine List.forall_mem_append.mpr ⟨not_mutates_of_listTenant hlist, ?_⟩
      exact fun e he => (hplan e he).not_mutates
  | deleted _ _ hyes => cases hyes

theorem eq_of_deletesVolume {volume : String} {c : TenantCall}
    (h : deletesVolume volume c = true) : c = .deleteVolume volume := by
  unfold deletesVolume at h
  split at h
  · rw [beq_iff_eq.mp h]
  · cases h

theorem not_deletesVolume_of_not_mutates {volume : String} {c : TenantCall} (h : ¬c.Mutates) :
    ¬deletesVolume volume c = true := by
  intro hdeletes
  rw [eq_of_deletesVolume hdeletes] at h
  exact h trivial

theorem OnMachine.not_deletesVolume {machine : Machine} {volume : String} {c : TenantCall}
    (h : OnMachine machine c) : ¬deletesVolume volume c = true := by
  intro hdeletes
  rw [eq_of_deletesVolume hdeletes] at h
  obtain hprepares | heq := h
  · cases hprepares
  · cases heq

/-- How often a run deletes the volume. -/
def volumeDeletes (volume : String) (t : List TenantEvent) : Nat :=
  t.countP fun e => deletesVolume volume e.1

theorem volumeDeletes_eq_zero {volume : String}
    (h : ∀ e ∈ t, ¬deletesVolume volume e.1 = true) : volumeDeletes volume t = 0 :=
  List.countP_eq_zero.mpr h

theorem volumeDeletes_of_not_mutates {volume : String} (h : ∀ e ∈ t, ¬e.1.Mutates) :
    volumeDeletes volume t = 0 :=
  volumeDeletes_eq_zero fun e he => not_deletesVolume_of_not_mutates (h e he)

theorem volumeDeletes_of_calls {volume : String} {ids : List String}
    (h : t.map Sigma.fst = ids.map TenantCall.deleteVolume) :
    volumeDeletes volume t = ids.count volume := by
  have hmap : volumeDeletes volume t = (t.map Sigma.fst).countP (deletesVolume volume) := by
    rw [List.countP_map]
    rfl
  rw [hmap, h, List.countP_map]
  rfl

theorem DeleteRun.volumeDeletes_le (h : DeleteRun tenantId yes waitTimeout t result)
    (volume : String) : volumeDeletes volume t ≤ 1 := by
  cases h with
  | unlisted hlist =>
      rw [volumeDeletes_of_not_mutates (not_mutates_of_listTenant hlist)]
      exact Nat.zero_le 1
  | nothing hlist hprint =>
      rw [volumeDeletes_of_not_mutates]
      · exact Nat.zero_le 1
      refine List.forall_mem_append.mpr ⟨not_mutates_of_listTenant hlist, ?_⟩
      exact fun e he => (prints_of_report hprint e he).not_mutates
  | refused hlist hplan hyes =>
      rw [volumeDeletes_of_not_mutates]
      · exact Nat.zero_le 1
      refine List.forall_mem_append.mpr ⟨not_mutates_of_listTenant hlist, ?_⟩
      exact fun e he => (hplan e he).not_mutates
  | @deleted t u m v w x machines remaining machineErrors volumeErrors _ hlist hplan _ hmachines
      hvolumes hlist' hreturn =>
      have ht : volumeDeletes volume t = 0 :=
        volumeDeletes_of_not_mutates (not_mutates_of_listTenant hlist)
      have hu : volumeDeletes volume u = 0 :=
        volumeDeletes_of_not_mutates fun e he => (hplan e he).not_mutates
      have hm : volumeDeletes volume m = 0 := by
        refine volumeDeletes_eq_zero fun e he => ?_
        obtain ⟨_, -, hon⟩ := (only_deleteMachines machines waitTimeout).calls hmachines e he
        exact hon.not_deletesVolume
      have hv : volumeDeletes volume v ≤ 1 := by
        rw [volumeDeletes_of_calls (cleanupCreatedVolumes_spec hvolumes).1]
        exact List.nodup_iff_count.mp (nodup_volumeIds machines) volume
      have hw : volumeDeletes volume w = 0 :=
        volumeDeletes_of_not_mutates (not_mutates_of_listTenant hlist')
      have hx : volumeDeletes volume x = 0 := by
        refine volumeDeletes_of_not_mutates fun e he => ?_
        obtain ⟨-, -, -, hprint⟩ | ⟨rfl, -⟩ := hreturn
        · exact (hprint e he).not_mutates
        · cases he
      unfold volumeDeletes at *
      simp only [List.countP_append]
      omega

theorem deleteApplied_of_not_mutates {e : TenantEvent} (h : ¬e.1.Mutates) : DeleteApplied e := by
  obtain ⟨c, r⟩ := e
  cases c with
  | deleteMachine machineId force => exact absurd trivial h
  | deleteVolume volumeId => exact absurd trivial h
  | api c => trivial
  | createMachine request => trivial
  | stopMachine machineId => trivial
  | createVolume request => trivial
  | print note => trivial

/-- A listing without machines of the tenant. -/
theorem none_of_listTenant
    (h : Exec (client (listManagedMachines (some tenantId))) t (some (.ok []))) :
    ∃ query listed, t = [⟨.api (.listMachines query), .ok listed⟩] ∧
      ∀ m ∈ listed, tenantMachine tenantId m = false := by
  obtain ⟨_, _, -, herror⟩ | ⟨query, listed, _, rfl, hok, hmem⟩ := exec_listTenant h
  · cases herror
  cases hok
  refine ⟨query, listed, rfl, fun m hm => eq_false_of_ne_true fun hmachine => ?_⟩
  cases (hmem m).mpr ⟨hm, hmachine⟩

theorem DeleteRun.ok (h : DeleteRun tenantId yes waitTimeout t (.ok ())) :
    (∀ e ∈ t, DeleteApplied e) ∧ ∃ before query listed after,
      t = before ++ ⟨.api (.listMachines query), .ok listed⟩ :: after ∧
      (∀ e ∈ after, e.1.Prints) ∧ ∀ m ∈ listed, tenantMachine tenantId m = false := by
  cases h with
  | @nothing t u hlist hprint =>
      have hquiet := not_mutates_of_listTenant hlist
      obtain ⟨query, listed, rfl, hnone⟩ := none_of_listTenant hlist
      refine ⟨List.forall_mem_append.mpr ⟨?_, ?_⟩, [], query, listed, u, rfl,
        prints_of_report hprint, hnone⟩
      · exact fun e he => deleteApplied_of_not_mutates (hquiet e he)
      · intro e he
        exact deleteApplied_of_not_mutates (prints_of_report hprint e he).not_mutates
  | @deleted t u m v w x machines remaining machineErrors volumeErrors _ hlist hplan _ hmachines
      hvolumes hlist' hreturn =>
      obtain ⟨rfl, rfl, rfl, hprint⟩ | ⟨-, herror⟩ := hreturn
      · have hquiet := not_mutates_of_listTenant hlist'
        obtain ⟨query, listed, rfl, hnone⟩ := none_of_listTenant hlist'
        refine ⟨?_, t ++ (u ++ (m ++ v)), query, listed, x, ?_, hprint, hnone⟩
        · intro e he
          simp only [List.mem_append] at he
          obtain he | he | he | he | he | he := he
          · exact deleteApplied_of_not_mutates (not_mutates_of_listTenant hlist e he)
          · exact deleteApplied_of_not_mutates (hplan e he).not_mutates
          · exact deleteMachines_applied hmachines e he
          · exact cleanupCreatedVolumes_applied hvolumes e he
          · exact deleteApplied_of_not_mutates (hquiet e he)
          · exact deleteApplied_of_not_mutates (hprint e he).not_mutates
        · simp only [List.append_assoc, List.singleton_append]
      · exact absurd rfl herror

end

/-- Whatever the API lists and answers, a run touches only the machines of the tenant in its
    first listing and the volumes they mount, each volume at most once, and nothing without
    `--yes`. If it returns Ok, its deletes have been applied and the last listing, after which it
    only prints, has no machine of the tenant. -/
theorem deletion_within_tenant (tenantId : String) (yes : Bool) (waitTimeout : Nat)
    (t : List TenantEvent) (o : Option (Except Error Unit))
    (hexec : Exec (deleteTenant tenantId yes waitTimeout) t o) :
    (∃ query answer rest, t = ⟨.api (.listMachines query), answer⟩ :: rest ∧
      ∀ e ∈ rest, ∃ listed, answer = .ok listed ∧ e.1.Within tenantId listed) ∧
    (∀ volume, volumeDeletes volume t ≤ 1) ∧
    (yes = false → ∀ e ∈ t, ¬e.1.Mutates) ∧
    (o = some (.ok ()) → (∀ e ∈ t, DeleteApplied e) ∧ ∃ before query listed after,
      t = before ++ ⟨.api (.listMachines query), .ok listed⟩ :: after ∧
      (∀ e ∈ after, e.1.Prints) ∧ ∀ m ∈ listed, tenantMachine tenantId m = false) := by
  obtain ⟨result, rfl⟩ := deleteTenant_returns hexec
  have hrun := deleteRun_of_exec hexec
  refine ⟨hrun.within, hrun.volumeDeletes_le, ?_, ?_⟩
  · intro hyes
    subst hyes
    exact hrun.not_mutates
  · intro hok
    cases hok
    exact hrun.ok

/-- A machine of another tenant, with the same volume. -/
def foreignMachine : Machine :=
  { mountingMachine with
    id := "foreign"
    config := .object [("metadata", .object
      [(managedByKey, .string managedByValue), (tenantIdKey, .string "other")]),
      ("mounts", .array [.object [("volume", .string "vol")]])] }

/-- The API ignores the query. The tenant's machine is gone after the first listing. -/
def unfilteredAnswer (n : Nat) : (c : TenantCall) → TenantAnswer c
  | .api (.listMachines _) =>
      .ok (if n = 0 then [mountingMachine, foreignMachine] else [foreignMachine])
  | c => mountingAnswer (fun _ => false) (fun _ => true) (fun _ => true) n c

theorem deletion_within_tenant_unfiltered : ∃ t,
    Exec (deleteTenant "tenant" true 0) t (some (.ok ())) ∧
    t.map (fun e => deletesVolume "vol" e.1) =
      [false, false, false, false, false, false, true, false, false] ∧
    (∃ query answer rest, t = ⟨.api (.listMachines query), answer⟩ :: rest ∧
      ∀ e ∈ rest, ∃ listed, answer = .ok listed ∧ e.1.Within "tenant" listed) ∧
    (∀ volume, volumeDeletes volume t ≤ 1) ∧ ∀ e ∈ t, DeleteApplied e := by
  obtain ⟨t, hplay, hcalls⟩ : ∃ t,
      play unfilteredAnswer 0 (deleteTenant "tenant" true 0) = some (t, some (.ok ())) ∧
      t.map (fun e => deletesVolume "vol" e.1) =
        [false, false, false, false, false, false, true, false, false] := ⟨_, rfl, by decide⟩
  have hexec := exec_of_play hplay
  obtain ⟨hwithin, honce, -, hok⟩ := deletion_within_tenant "tenant" true 0 t _ hexec
  exact ⟨t, hexec, hcalls, hwithin, honce, (hok rfl).1⟩

end FlyVault.Admin
