/-
  A tenant that could not be created leaves nothing behind.

  `Books t made gone`: the calls of `t` have created the machines and volumes of `made` and have
  tried to delete those of `gone`, each list in the order of the calls. Every loop of
  `create_tenant` has a lemma that says what it adds to the books. A volume is deleted by
  `ensure_mount_volumes` if it belongs to the machine whose request could not be prepared, and by
  `create_tenant` otherwise. Two exits delete nothing although volumes may exist: a configuration
  that is no object, which the template rules out, and a machine without a region, which is noticed
  at its first mount.

  `create_tenant_cleans_up`: after an error every created machine and volume has been deleted once,
  the machines first, and nothing else.
-/
import Mathlib.Data.List.Nodup
import FlyVault.Admin.Tenant

namespace FlyVault.Admin

open FlyVault.Lib FlyVault.Lib.Script

inductive Resource
  | machine (id : String)
  | volume (id : String)
  deriving DecidableEq

/-- What a call has created. A call that returns an error has created nothing. -/
def createdBy : TenantEvent → Option Resource
  | ⟨.createMachine _, .ok machine⟩ => some (.machine machine.id)
  | ⟨.createVolume _, .ok volume⟩ => some (.volume volume.id)
  | _ => none

/-- What a call tries to delete. -/
def deletedBy : TenantEvent → Option Resource
  | ⟨.deleteMachine machineId _, _⟩ => some (.machine machineId)
  | ⟨.deleteVolume volumeId, _⟩ => some (.volume volumeId)
  | _ => none

def created (t : List TenantEvent) : List Resource := t.filterMap createdBy

def deleteAttempts (t : List TenantEvent) : List Resource := t.filterMap deletedBy

structure Books (t : List TenantEvent) (made gone : List Resource) : Prop where
  made : created t = made
  gone : deleteAttempts t = gone

variable {t t' : List TenantEvent} {made made' gone gone' : List Resource}

theorem Books.append (h : Books t made gone) (h' : Books t' made' gone') :
    Books (t ++ t') (made ++ made') (gone ++ gone') := by
  constructor
  · rw [created, List.filterMap_append]
    exact congrArg₂ _ h.made h'.made
  · rw [deleteAttempts, List.filterMap_append]
    exact congrArg₂ _ h.gone h'.gone

theorem Books.cons {e : TenantEvent} (hmade : createdBy e = none) (hgone : deletedBy e = none)
    (h : Books t made gone) : Books (e :: t) made gone := by
  constructor
  · rw [created, List.filterMap_cons_none hmade]
    exact h.made
  · rw [deleteAttempts, List.filterMap_cons_none hgone]
    exact h.gone

theorem books_nil : Books [] [] [] := ⟨rfl, rfl⟩

/-- The functions of the client neither create nor delete. -/
theorem books_client {α : Type} {x : Fallible α} {o : Option (Except Error α)}
    (h : Exec (client x) t o) : Books t [] [] := by
  obtain ⟨events, rfl, -⟩ := exec_embed.mp h
  clear h
  induction events with
  | nil => exact books_nil
  | cons e events ih => exact ih.cons rfl rfl

/-! ## Cleaning up -/

theorem deleteEach_books {action : MachineAction} {text : String → String}
    {delete : String → TenantApi (Except Error Unit)} {resource : String → Resource}
    {ids errors : List String}
    (hdelete : ∀ id t r, Exec (delete id) t (some r) → Books t [] [resource id])
    (h : Exec (deleteEach action text delete ids) t (some errors)) :
    Books t [] (ids.map resource) := by
  induction ids generalizing t errors with
  | nil =>
      obtain ⟨rfl, -⟩ := exec_pure.mp h
      exact books_nil
  | cons id rest ih =>
      obtain ⟨t₁, t, result, rfl, hone, h⟩ := exec_bind_some.mp h
      obtain ⟨_, hrest, -⟩ := exec_bind_pure.mp h
      exact (hdelete id t₁ result hone).append (ih hrest)

theorem cleanupCreatedMachines_books {ids errors : List String}
    (h : Exec (cleanupCreatedMachines ids) t (some errors)) :
    Books t [] (ids.map .machine) := by
  refine deleteEach_books ?_ h
  intro id t r h
  obtain ⟨_, rfl, -⟩ := exec_ask.mp h
  exact ⟨rfl, rfl⟩

theorem cleanupCreatedVolumes_books {ids errors : List String}
    (h : Exec (cleanupCreatedVolumes ids) t (some errors)) : Books t [] (ids.map .volume) := by
  refine deleteEach_books ?_ h
  intro id t r h
  obtain ⟨_, rfl, -⟩ := exec_ask.mp h
  exact ⟨rfl, rfl⟩

theorem cleanupCreated_books {machines volumes errors : List String}
    (h : Exec (cleanupCreated machines volumes) t (some errors)) :
    Books t [] (machines.map .machine ++ volumes.map .volume) := by
  obtain ⟨t₁, t, _, rfl, hmachines, h⟩ := exec_bind_some.mp h
  obtain ⟨_, hvolumes, -⟩ := exec_bind_pure.mp h
  exact (cleanupCreatedMachines_books hmachines).append (cleanupCreatedVolumes_books hvolumes)

/-! ## Volumes -/

/-- What a loop over mounts or machines leaves in the books, if the volumes of `before` were
    created before it: it adds to them, or all of them are deleted. -/
def VolumesKept {α : Type} (before : List String) (t : List TenantEvent) :
    Except Error (α × List String) → Prop
  | .ok (_, after) => ∃ made : List String, after = before ++ made ∧ Books t (made.map .volume) []
  | .error _ => ∃ made gone : List String, Books t (made.map .volume) (gone.map .volume) ∧
      gone.Perm (before ++ made)

/-- An error before anything was created. -/
theorem volumesKept_error {α : Type} {e : Error} :
    VolumesKept [] [] (.error e : Except Error (α × List String)) := ⟨[], [], books_nil, .nil⟩

/-- What was created at the start of a loop counts as created before the rest of it. -/
theorem VolumesKept.prepend {α : Type} {before made : List String}
    {result : Except Error (α × List String)} (h : Books t (made.map .volume) [])
    (hrest : VolumesKept (before ++ made) t' result) : VolumesKept before (t ++ t') result := by
  cases result with
  | error e =>
      obtain ⟨made', gone, hbooks, hperm⟩ := hrest
      refine ⟨made ++ made', gone, ?_, ?_⟩
      · rw [List.map_append]
        exact h.append hbooks
      · rw [← List.append_assoc]
        exact hperm
  | ok value =>
      obtain ⟨made', hafter, hbooks⟩ := hrest
      refine ⟨made ++ made', ?_, ?_⟩
      · rw [hafter, List.append_assoc]
      · rw [List.map_append]
        exact h.append hbooks

/-- The pending mounts are objects of the list. -/
def Settable (pending : List PendingMount) (mounts : List Json) : Prop :=
  ∀ mount ∈ pending, ∃ fields, mounts[mount.index]? = some (.object fields)

theorem setVolume_ok {pending : List PendingMount} {mount : PendingMount} {mounts : List Json}
    (h : Settable (mount :: pending) mounts) (volume : String) :
    ∃ mounts', setVolume mounts mount.index volume = .ok mounts' ∧ Settable pending mounts' := by
  obtain ⟨⟨fields, hfields⟩, hrest⟩ := List.forall_mem_cons.mp h
  unfold setVolume
  rw [hfields]
  refine ⟨_, rfl, ?_⟩
  intro other hother
  by_cases heq : mount.index = other.index
  · rw [← heq, List.getElem?_set_self (List.getElem?_eq_some_iff.mp hfields).1]
    exact ⟨_, rfl⟩
  · obtain ⟨fields', hfields'⟩ := hrest other hother
    refine ⟨fields', ?_⟩
    rw [List.getElem?_set_ne heq]
    exact hfields'

theorem settable_pendingMounts {mounts rest : List Json} {index : Nat}
    {pending : List PendingMount} (hrest : mounts.drop index = rest)
    (h : pendingMounts index rest = .ok pending) : Settable pending mounts := by
  induction rest generalizing index pending with
  | nil =>
      cases h
      exact List.forall_mem_nil _
  | cons mount rest ih =>
      have hhead : mounts[index]? = some mount := by
        rw [← List.head?_drop, hrest]
        rfl
      have htail : mounts.drop (index + 1) = rest := by
        rw [← List.tail_drop, hrest]
        rfl
      unfold pendingMounts at h
      split at h
      · cases h
      next fields hfields =>
      split at h
      · exact ih htail h
      split at h
      · cases h
      obtain ⟨others, hothers, h⟩ := except_bind_eq_ok.mp h
      cases h
      refine List.forall_mem_cons.mpr ⟨?_, ih htail hothers⟩
      cases mount with
      | object fields' => exact ⟨fields', hhead⟩
      | _ => cases hfields

theorem createMountVolumes_books {region : Option String} {pending : List PendingMount}
    {mounts : List Json} {before : List String} {result : Except Error (List Json × List String)}
    (hregion : region = none → before = []) (hmounts : Settable pending mounts)
    (h : Exec (createMountVolumes region false pending mounts before) t (some result)) :
    VolumesKept before t result := by
  induction pending generalizing t mounts before with
  | nil =>
      obtain ⟨rfl, ho⟩ := exec_pure.mp h
      cases ho
      exact ⟨[], (List.append_nil _).symm, books_nil⟩
  | cons mount rest ih =>
      cases region with
      | none =>
          obtain ⟨rfl, ho⟩ := exec_pure.mp h
          cases ho
          rw [hregion rfl]
          exact volumesKept_error
      | some region =>
          obtain ⟨fields, hfields⟩ := hmounts mount List.mem_cons_self
          unfold createMountVolumes at h
          simp only [hfields] at h
          obtain ⟨answer, t', rfl, hnext⟩ := exec_ask_bind.mp h
          cases answer with
          | error e =>
              obtain ⟨_, hcleanup, rfl⟩ := exec_bind_pure.mp hnext
              refine ⟨[], before, (cleanupCreatedVolumes_books hcleanup).cons rfl rfl, ?_⟩
              rw [List.append_nil]
          | ok volume =>
              obtain ⟨mounts', hset, hmounts'⟩ := setVolume_ok hmounts volume.id
              simp only [hset] at hnext
              rw [← List.singleton_append]
              refine VolumesKept.prepend
                (show Books _ ([volume.id].map .volume) [] from ⟨rfl, rfl⟩) (ih ?_ hmounts' hnext)
              intro hnone
              cases hnone

theorem ensureMountVolumes_books {request : CreateMachineRequest}
    {result : Except Error (CreateMachineRequest × List String)}
    (h : Exec (ensureMountVolumes request false) t (some result)) :
    VolumesKept [] t result := by
  have hstop : ∀ {e : Error}, Exec (pure (.error e) : TenantApi _) t (some result) →
      VolumesKept [] t result := by
    intro e h
    obtain ⟨rfl, ho⟩ := exec_pure.mp h
    cases ho
    exact volumesKept_error
  unfold ensureMountVolumes at h
  split at h
  · exact hstop h
  split at h
  · obtain ⟨rfl, ho⟩ := exec_pure.mp h
    cases ho
    exact ⟨[], rfl, books_nil⟩
  split at h
  · exact hstop h
  split at h
  · exact hstop h
  next pending hpending =>
  obtain ⟨t₁, t₂, answer, rfl, hcreate, hreturn⟩ := exec_bind_some.mp h
  have hkept := createMountVolumes_books (fun _ => rfl)
    (settable_pendingMounts (List.drop_zero ..) hpending) hcreate
  cases answer with
  | error e =>
      obtain ⟨rfl, ho⟩ := exec_pure.mp hreturn
      cases ho
      rw [List.append_nil]
      exact hkept
  | ok value =>
      obtain ⟨rfl, ho⟩ := exec_pure.mp hreturn
      cases ho
      rw [List.append_nil]
      exact hkept

theorem prepareRequests_books {tenantId templateLabel : String}
    {machines : List RenderedMachineSpec} {requests : List CreateMachineRequest}
    {before : List String} {result : Except Error (List CreateMachineRequest × List String)}
    (hconfigs : ∀ machine ∈ machines, ∃ fields, machine.config = .object fields)
    (h : Exec (prepareRequests tenantId templateLabel false machines requests before) t
      (some result)) : VolumesKept before t result := by
  induction machines generalizing t requests before with
  | nil =>
      obtain ⟨rfl, ho⟩ := exec_pure.mp h
      cases ho
      exact ⟨[], (List.append_nil _).symm, books_nil⟩
  | cons machine rest ih =>
      obtain ⟨⟨fields, hfields⟩, hrest⟩ := List.forall_mem_cons.mp hconfigs
      unfold prepareRequests at h
      -- An object takes the metadata.
      simp only [hfields, withMetadata, Json.asObject] at h
      obtain ⟨t₁, t₂, answer, rfl, hensure, hnext⟩ := exec_bind_some.mp h
      have hkept := ensureMountVolumes_books hensure
      cases answer with
      | error e =>
          obtain ⟨made, gone, hbooks, hperm⟩ := hkept
          obtain ⟨_, hcleanup, rfl⟩ := exec_bind_pure.mp hnext
          refine ⟨made, gone ++ before, ?_, ?_⟩
          · rw [List.map_append, ← List.append_nil (made.map Resource.volume)]
            exact hbooks.append (cleanupCreatedVolumes_books hcleanup)
          · exact (hperm.append_right before).trans List.perm_append_comm
      | ok value =>
          obtain ⟨made, hmade, hbooks⟩ := hkept
          obtain rfl : value.2 = made := hmade
          exact .prepend hbooks (ih hrest hnext)

/-! ## Machines -/

/-- What the loop that creates the machines leaves in the books. -/
def MachinesKept (volumes before : List String) (t : List TenantEvent) :
    Except Error (List String) → Prop
  | .ok after => ∃ made : List String, after = before ++ made ∧ Books t (made.map .machine) []
  | .error _ => ∃ made : List String, Books t (made.map .machine)
      ((before ++ made).map .machine ++ volumes.map .volume)

theorem createMachines_books {tenantId : String} {volumes before : List String}
    {requests : List CreateMachineRequest} {result : Except Error (List String)}
    (h : Exec (createMachines tenantId volumes requests before) t (some result)) :
    MachinesKept volumes before t result := by
  induction requests generalizing t before with
  | nil =>
      obtain ⟨rfl, ho⟩ := exec_pure.mp h
      cases ho
      exact ⟨[], (List.append_nil _).symm, books_nil⟩
  | cons request rest ih =>
      obtain ⟨answer, t', rfl, hnext⟩ := exec_ask_bind.mp h
      cases answer with
      | error e =>
          obtain ⟨_, hcleanup, rfl⟩ := exec_bind_pure.mp hnext
          refine ⟨[], ?_⟩
          rw [List.append_nil]
          exact (cleanupCreated_books hcleanup).cons rfl rfl
      | ok machine =>
          obtain ⟨_, t₄, rfl, hrest⟩ := exec_ask_bind.mp hnext
          have hone : Books [⟨.createMachine request, .ok machine⟩,
            ⟨.print (.createdMachine machine.id), ()⟩] [.machine machine.id] [] := ⟨rfl, rfl⟩
          have hkept := ih hrest
          cases result with
          | error e =>
              obtain ⟨made, hbooks⟩ := hkept
              refine ⟨machine.id :: made, ?_⟩
              rw [List.append_cons]
              exact hone.append hbooks
          | ok after =>
              obtain ⟨made, hafter, hbooks⟩ := hkept
              refine ⟨machine.id :: made, ?_, hone.append hbooks⟩
              rw [hafter, ← List.append_cons]

theorem waitMachines_books {tenantId : String} {waitTimeout : Nat}
    {machines volumes rest : List String} {e : Error}
    (h : Exec (waitMachines tenantId waitTimeout machines volumes rest) t (some (.error e))) :
    Books t [] (machines.map .machine ++ volumes.map .volume) := by
  induction rest generalizing t with
  | nil => cases (exec_pure.mp h).2
  | cons machineId rest ih =>
      obtain ⟨t₁, t₂, answer, rfl, hwait, hnext⟩ := exec_bind_some.mp h
      have hclient := books_client hwait
      cases answer with
      | error e =>
          obtain ⟨_, hcleanup, -⟩ := exec_bind_pure.mp hnext
          exact hclient.append (cleanupCreated_books hcleanup)
      | ok => exact hclient.append (ih hnext)

theorem launchMachines_books {tenantId : String} {waitTimeout : Nat}
    {requests : List CreateMachineRequest} {volumes : List String} {e : Error}
    (h : Exec (launchMachines tenantId waitTimeout requests volumes) t (some (.error e))) :
    ∃ machines : List String,
      Books t (machines.map .machine) (machines.map .machine ++ volumes.map .volume) := by
  obtain ⟨t₁, t₂, answer, rfl, hcreate, hwait⟩ := exec_bind_some.mp h
  have hcreated := createMachines_books hcreate
  cases answer with
  | error e' =>
      obtain ⟨machines, hbooks⟩ := hcreated
      obtain ⟨rfl, -⟩ := exec_pure.mp hwait
      rw [List.append_nil]
      exact ⟨machines, hbooks⟩
  | ok machines =>
      obtain ⟨made, hmade, hbooks⟩ := hcreated
      obtain rfl : machines = made := hmade
      obtain ⟨t₃, t₄, waited, rfl, hwaited, hreturn⟩ := exec_bind_some.mp hwait
      cases waited with
      | error e' =>
          obtain ⟨rfl, -⟩ := exec_pure.mp hreturn
          rw [List.append_nil]
          refine ⟨machines, ?_⟩
          have hall := hbooks.append (waitMachines_books hwaited)
          rwa [List.append_nil] at hall
      | ok =>
          obtain ⟨_, _, _, -, -, hreturn⟩ := exec_bind_some.mp hreturn
          cases (exec_pure.mp hreturn).2

/-! ## The whole -/

/-- What was created is deleted, the machines first. -/
def CleanedUp (t : List TenantEvent) : Prop :=
  ∃ machines volumes gone : List String,
    Books t (volumes.map .volume ++ machines.map .machine)
      (machines.map .machine ++ gone.map .volume) ∧ gone.Perm volumes

theorem createTenant_cleanedUp {app tenantId : String} {templateName : Option String}
    {parsed : Except Error TenantTemplate} {order : Nat → Vars → Vars}
    {accessToken : Option String} {extraVars : Vars} {waitTimeout : Nat} {e : Error}
    (h : Exec (createTenant app tenantId templateName parsed order accessToken extraVars false
      waitTimeout) t (some (.error e))) : CleanedUp t := by
  have hstop : ∀ {e' : Error}, Exec (pure (.error e') : TenantApi (Except Error Unit)) t
      (some (.error e)) → CleanedUp t := by
    intro e' h
    obtain ⟨rfl, -⟩ := exec_pure.mp h
    exact ⟨[], [], [], books_nil, .nil⟩
  unfold createTenant at h
  split at h
  · exact hstop h
  next template hload =>
  split at h
  · exact hstop h
  split at h
  · exact hstop h
  split at h
  · exact hstop h
  next rendered hrender =>
  obtain ⟨fields, hfields⟩ := loadTemplate_config hload
  obtain ⟨t₁, t₂, prepared, rfl, hprepare, hnext⟩ := exec_bind_some.mp h
  have hprepared := prepareRequests_books (renderTemplate_objects hfields hrender) hprepare
  cases prepared with
  | error e' =>
      obtain ⟨volumes, gone, hbooks, hperm⟩ := hprepared
      obtain ⟨rfl, -⟩ := exec_pure.mp hnext
      rw [List.append_nil]
      refine ⟨[], volumes, gone, ?_, hperm⟩
      rw [List.map_nil, List.append_nil]
      exact hbooks
  | ok value =>
      obtain ⟨volumes, hvolumes, hbooks⟩ := hprepared
      obtain ⟨requests, after⟩ := value
      obtain rfl : after = volumes := hvolumes
      obtain ⟨machines, hbooks'⟩ := launchMachines_books hnext
      exact ⟨machines, after, after, hbooks.append hbooks', .refl _⟩

/-- If the ids that the API returns are fresh, a `create_tenant` that returns an error has tried
    to delete every machine and every volume it has created exactly once, the machines before the
    volumes, and nothing else. `existing` is what there was before. -/
theorem create_tenant_cleans_up (app tenantId : String) (templateName : Option String)
    (parsed : Except Error TenantTemplate) (order : Nat → Vars → Vars)
    (accessToken : Option String) (extraVars : Vars) (waitTimeout : Nat)
    (t : List TenantEvent) (e : Error) (existing : Resource → Prop)
    (hexec : Exec (createTenant app tenantId templateName parsed order accessToken extraVars false
      waitTimeout) t (some (.error e)))
    (hdistinct : (created t).Nodup) (hfresh : ∀ r ∈ created t, ¬existing r) :
    (∀ r, (deleteAttempts t).count r = if r ∈ created t then 1 else 0) ∧
      (∀ r, existing r → r ∉ deleteAttempts t) ∧
      ∃ machines volumes : List String,
        deleteAttempts t = machines.map .machine ++ volumes.map .volume := by
  obtain ⟨machines, volumes, gone, hbooks, hperm⟩ := createTenant_cleanedUp hexec
  have hall : (deleteAttempts t).Perm (created t) := by
    rw [hbooks.made, hbooks.gone]
    exact List.perm_append_comm.trans ((hperm.map _).append_right _)
  refine ⟨?_, ?_, machines, gone, hbooks.gone⟩
  · intro r
    rw [hall.count_eq]
    split
    · next hr => exact List.count_eq_one_of_mem hdistinct hr
    · next hr => exact List.count_eq_zero_of_not_mem hr
  · intro r hr hdeleted
    exact hfresh r (hall.mem_iff.mp hdeleted) hr

/-- Two machines, each with a volume to be created and one that is named. -/
def pairTemplate : TenantTemplate :=
  { version := 1, app := "app", machineCount := 2, metadata := []
    machine := ⟨none, some "ord", .object [("mounts", .array
      [.object [("name", .string "data")], .object [("volume", .string "old")]])],
      none, none, none, none⟩ }

/-- Both volumes and the first machine are created, and then nothing succeeds. -/
def pairAnswer (n : Nat) : (c : TenantCall) → TenantAnswer c
  | .api c => calmAnswer [] c
  | .createMachine request =>
      if n = 2 then .ok ⟨"machine", request.name, "created", request.region, none, .null, .null⟩
      else .error (anyhow "no capacity")
  | .stopMachine _ => .ok ()
  | .deleteMachine _ _ => .error (anyhow "unavailable")
  | .createVolume _ => .ok ⟨if n = 0 then "first" else "second"⟩
  | .deleteVolume _ => .error (anyhow "unavailable")
  | .print _ => ()

/-- The second machine cannot be created. -/
theorem create_tenant_cleans_up_second : ∃ t e,
    Exec (createTenant "app" "tenant" none (.ok pairTemplate) (fun _ vars => vars) none [] false 0)
      t (some (.error e)) ∧
    created t = [.volume "first", .volume "second", .machine "machine"] ∧
    (∀ r, (deleteAttempts t).count r = if r ∈ created t then 1 else 0) ∧
    .volume "old" ∉ deleteAttempts t := by
  obtain ⟨t, e, hplay, hcreated⟩ : ∃ t e, play pairAnswer 0
      (createTenant "app" "tenant" none (.ok pairTemplate) (fun _ vars => vars) none [] false 0) =
        some (t, some (.error e)) ∧
      created t = [.volume "first", .volume "second", .machine "machine"] :=
    ⟨_, _, rfl, rfl⟩
  have hdistinct : (created t).Nodup := by
    rw [hcreated]
    decide
  have hfresh : ∀ r ∈ created t, ¬r = .volume "old" := by
    rw [hcreated]
    decide
  have hexec := exec_of_play hplay
  obtain ⟨hcount, hold, -⟩ := create_tenant_cleans_up _ _ _ _ _ _ _ _ t e (· = .volume "old")
    hexec hdistinct hfresh
  exact ⟨t, e, hexec, hcreated, hcount, hold _ rfl⟩

end FlyVault.Admin
