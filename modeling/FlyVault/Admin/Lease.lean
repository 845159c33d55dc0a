/-
  The lease of a machine while `update_one_machine` or `rollback_one_machine` works on it.

  Both functions take a lease, run an operation under it and give the lease back, whatever the
  operation has done. A panic in between is the exception: nothing gives the lease back then, nor
  is the machine uncordoned. The deadlines of the health check and of the soak window are the
  only sums that can panic (`lease_kept_by_panic`).

  `Disciplined` says what the calls under a lease are like. `OperationRun` and `GiveBackRun` imply
  it (`disciplined_of_runs`), so it holds of both functions in every run in which the deadlines
  fit (`lease_discipline`).
-/
import FlyVault.Admin.OneMachine
import FlyVault.Admin.Rollback

namespace FlyVault.Admin

open FlyVault.Lib FlyVault.Lib.Script

variable {polls : Nat} {options : UpdateImageOptions} {snapshot : MachineSnapshot}
  {machineId nonce image : String} {sent : Except Error Json} {t op back : List ApiEvent}

/-! ## Calls -/

/-- A call that changes a machine is for this machine and carries this nonce. -/
def Call.Under (machineId nonce : String) : Call → Prop
  | .cordonMachine id leaseNonce => id = machineId ∧ leaseNonce = some nonce
  | .uncordonMachine id leaseNonce => id = machineId ∧ leaseNonce = some nonce
  | .updateMachine id _ leaseNonce => id = machineId ∧ leaseNonce = some nonce
  | _ => True

def Call.isUpdate : Call → Bool
  | .updateMachine _ _ _ => true
  | _ => false

def Call.isRelease : Call → Bool
  | .releaseLease _ _ => true
  | _ => false

def Call.isPrint : Call → Bool
  | .print _ => true
  | _ => false

/-- A call that changes a machine or its lease, other than taking the lease. -/
def Call.isMutating : Call → Bool
  | .cordonMachine _ _ | .uncordonMachine _ _ | .updateMachine _ _ _ | .releaseLease _ _ => true
  | _ => false

/-- The calls of an operation and of what gives the lease back, with whether the operation and
    the function have succeeded. -/
structure Disciplined (machineId nonce : String) (op back : List ApiEvent)
    (operationOk returnsOk : Bool) : Prop where
  under : ∀ e ∈ op ++ back, e.1.Under machineId nonce
  /-- The lease is released once, and no request follows. -/
  released : ∃ before r after,
    op ++ back = before ++ ⟨.releaseLease machineId nonce, r⟩ :: after ∧
      (∀ e ∈ before, e.1.isRelease = false) ∧ ∀ e ∈ after, e.1.isPrint = true
  updated : (op ++ back).countP (fun e => e.1.isUpdate) ≤ 1
  cordoned : ∀ before e after, op ++ back = before ++ e :: after → e.1.isUpdate = true →
    (⟨.cordonMachine machineId (some nonce), .ok ()⟩ : ApiEvent) ∈ before
  ok : returnsOk = true →
    (⟨.uncordonMachine machineId (some nonce), .ok ()⟩ : ApiEvent) ∈ op ++ back ∧
      (⟨.releaseLease machineId nonce, .ok ()⟩ : ApiEvent) ∈ op ++ back
  failed : operationOk = false →
    ∃ r rest, back = ⟨.uncordonMachine machineId (some nonce), r⟩ :: rest

/-! ## The calls of an operation -/

/-- A call that neither updates a machine nor releases a lease, and is under this one. -/
structure Call.Minor (machineId nonce : String) (c : Call) : Prop where
  under : c.Under machineId nonce
  noUpdate : c.isUpdate = false
  noRelease : c.isRelease = false

theorem Call.Waits.minor {c : Call} (h : c.Waits) : c.Minor machineId nonce := by
  cases c with
  | getMachine _ => exact ⟨trivial, rfl, rfl⟩
  | wait _ _ _ _ => exact ⟨trivial, rfl, rfl⟩
  | now => exact ⟨trivial, rfl, rfl⟩
  | sleep _ => exact ⟨trivial, rfl, rfl⟩
  | _ => exact h.elim

theorem VerifyRun.minor {ok : Bool} (h : VerifyRun machineId nonce t ok) :
    ∀ e ∈ t, e.1.Minor machineId nonce := by
  cases h with
  | notVerified hwaits => exact fun e he => (hwaits e he).minor
  | uncordoned hwaits r =>
      refine List.forall_mem_append.mpr ⟨fun e he => (hwaits e he).minor, ?_⟩
      exact List.forall_mem_singleton.mpr ⟨⟨rfl, rfl⟩, rfl, rfl⟩

theorem VerifyRun.uncordons (h : VerifyRun machineId nonce t true) :
    (⟨.uncordonMachine machineId (some nonce), .ok ()⟩ : ApiEvent) ∈ t := by
  generalize hok : true = ok at h
  cases h with
  | notVerified _ => cases hok
  | uncordoned _ r =>
      cases r with
      | ok u => exact List.mem_append_right _ (List.mem_singleton.mpr rfl)
      | error e => cases hok

/-- An operation cordons the machine, and if that has succeeded it may update it. -/
theorem OperationRun.cases {stored ok : Bool} (h : OperationRun machineId nonce sent op stored ok) :
    (stored = false ∧ ok = false ∧ ∃ r, op = [⟨.cordonMachine machineId (some nonce), r⟩]) ∨
      ∃ request r rest, op = ⟨.cordonMachine machineId (some nonce), .ok ()⟩ ::
          ⟨.updateMachine machineId request (some nonce), r⟩ :: rest ∧
        stored = r.isOk ∧ (∀ e ∈ rest, e.1.Minor machineId nonce) ∧
        (ok = true → (⟨.uncordonMachine machineId (some nonce), .ok ()⟩ : ApiEvent) ∈ rest) := by
  cases h with
  | notStored hstore =>
      generalize hstored : false = stored at hstore
      cases hstore with
      | notCordoned e => exact .inl ⟨rfl, rfl, _, rfl⟩
      | noConfig _ => exact .inl ⟨rfl, rfl, _, rfl⟩
      | notStored e _ =>
          exact .inr ⟨_, .error e, [], rfl, rfl, List.forall_mem_nil _, (by simp)⟩
      | stored m _ => cases hstored
  | stored hstore hverify =>
      generalize hstored : true = stored at hstore
      cases hstore with
      | stored m _ =>
          refine .inr ⟨_, .ok m, _, rfl, rfl, hverify.minor, ?_⟩
          intro hok
          subst hok
          exact hverify.uncordons
      | _ => cases hstored

theorem OperationRun.uncordons {stored ok : Bool}
    (h : OperationRun machineId nonce sent op stored ok) (hok : ok = true) :
    (⟨.uncordonMachine machineId (some nonce), .ok ()⟩ : ApiEvent) ∈ op := by
  obtain ⟨-, hfailed, -⟩ | ⟨request, r, rest, rfl, -, -, huncordon⟩ := h.cases
  · rw [hok] at hfailed
    cases hfailed
  · exact .tail _ (.tail _ (huncordon hok))

theorem GiveBackRun.cases {operationOk returnsOk : Bool}
    (h : GiveBackRun machineId nonce operationOk back returnsOk) :
    ∃ before r after, back = before ++ ⟨.releaseLease machineId nonce, r⟩ :: after ∧
      (∀ e ∈ before, e.1.Minor machineId nonce) ∧ (∀ e ∈ after, e.1.isPrint = true) ∧
      (returnsOk = true → operationOk = true ∧ r = .ok ()) ∧
      (operationOk = false →
        ∃ u, before = [⟨.uncordonMachine machineId (some nonce), u⟩]) := by
  cases h with
  | succeeded r =>
      refine ⟨[], r, [], rfl, List.forall_mem_nil _, List.forall_mem_nil _, ?_,
        (by simp)⟩
      intro hok
      cases r with
      | ok u => exact ⟨rfl, rfl⟩
      | error e => cases hok
  | failed u =>
      refine ⟨[_], .ok (), [], rfl, ?_, List.forall_mem_nil _, (by simp),
        fun _ => ⟨u, rfl⟩⟩
      exact List.forall_mem_singleton.mpr ⟨⟨rfl, rfl⟩, rfl, rfl⟩
  | notReleased u e e' =>
      refine ⟨[_], .error e, [_], rfl, ?_, List.forall_mem_singleton.mpr rfl,
        (by simp), fun _ => ⟨u, rfl⟩⟩
      exact List.forall_mem_singleton.mpr ⟨⟨rfl, rfl⟩, rfl, rfl⟩

theorem OperationRun.under {stored ok : Bool}
    (h : OperationRun machineId nonce sent op stored ok) :
    ∀ e ∈ op, e.1.Under machineId nonce ∧ e.1.isRelease = false := by
  obtain ⟨-, -, r, rfl⟩ | ⟨request, r, rest, rfl, -, hrest, -⟩ := h.cases
  · exact List.forall_mem_singleton.mpr ⟨⟨rfl, rfl⟩, rfl⟩
  · refine List.forall_mem_cons.mpr ⟨⟨⟨rfl, rfl⟩, rfl⟩, ?_⟩
    refine List.forall_mem_cons.mpr ⟨⟨⟨rfl, rfl⟩, rfl⟩, fun e he => ?_⟩
    exact ⟨(hrest e he).under, (hrest e he).noRelease⟩

theorem GiveBackRun.under {operationOk returnsOk : Bool}
    (h : GiveBackRun machineId nonce operationOk back returnsOk) :
    ∀ e ∈ back, e.1.Under machineId nonce ∧ e.1.isUpdate = false := by
  obtain ⟨before, r, after, rfl, hbefore, hafter, -, -⟩ := h.cases
  rw [List.forall_mem_append, List.forall_mem_cons]
  refine ⟨fun e he => ⟨(hbefore e he).under, (hbefore e he).noUpdate⟩, ⟨trivial, rfl⟩, ?_⟩
  intro e he
  have hprints := hafter e he
  obtain ⟨c, a⟩ := e
  cases c with
  | print note => exact ⟨trivial, rfl⟩
  | _ => cases hprints

theorem countP_isUpdate_eq_zero (h : ∀ e ∈ t, e.1.isUpdate = false) :
    t.countP (fun e => e.1.isUpdate) = 0 := by
  refine List.countP_eq_zero.mpr fun e he hupdate => ?_
  rw [h e he] at hupdate
  cases hupdate

theorem OperationRun.countP_isUpdate_le {stored ok : Bool}
    (h : OperationRun machineId nonce sent op stored ok) :
    op.countP (fun e => e.1.isUpdate) ≤ 1 := by
  obtain ⟨-, -, r, rfl⟩ | ⟨request, r, rest, rfl, -, hrest, -⟩ := h.cases
  · exact Nat.zero_le 1
  · rw [List.countP_cons, List.countP_cons,
      countP_isUpdate_eq_zero fun e he => (hrest e he).noUpdate]
    exact Nat.le_refl 1

/-- The machine is cordoned before its update. -/
theorem OperationRun.cordoned {stored ok : Bool}
    (h : OperationRun machineId nonce sent op stored ok)
    (hback : ∀ e ∈ back, e.1.isUpdate = false) {before after : List ApiEvent} {e : ApiEvent}
    (heq : op ++ back = before ++ e :: after) (he : e.1.isUpdate = true) :
    (⟨.cordonMachine machineId (some nonce), .ok ()⟩ : ApiEvent) ∈ before := by
  have hmem : e ∈ op ++ back := heq ▸ List.mem_append_right _ List.mem_cons_self
  obtain ⟨-, -, r, rfl⟩ | ⟨request, r, rest, rfl, -, -, -⟩ := h.cases
  · have hnone : ∀ e ∈ [⟨.cordonMachine machineId (some nonce), r⟩] ++ back,
        e.1.isUpdate = false := List.forall_mem_cons.mpr ⟨rfl, hback⟩
    rw [hnone e hmem] at he
    cases he
  · cases before with
    | nil =>
        obtain rfl := (List.cons.inj heq).1
        cases he
    | cons first before =>
        obtain rfl := (List.cons.inj heq).1
        exact List.mem_cons_self

/-- An operation and what follows it keep the discipline. -/
theorem disciplined_of_runs {stored operationOk returnsOk : Bool}
    (hop : OperationRun machineId nonce sent op stored operationOk)
    (hback : GiveBackRun machineId nonce operationOk back returnsOk) :
    Disciplined machineId nonce op back operationOk returnsOk := by
  have hnoUpdate : ∀ e ∈ back, e.1.isUpdate = false := fun e he => (hback.under e he).2
  obtain ⟨before, r, after, hsplit, hbefore, hafter, hok, hfailed⟩ := hback.cases
  refine ⟨?_, ?_, ?_, fun _ _ _ => hop.cordoned hnoUpdate, ?_, ?_⟩
  · exact List.forall_mem_append.mpr
      ⟨fun e he => (hop.under e he).1, fun e he => (hback.under e he).1⟩
  · refine ⟨op ++ before, r, after, by rw [hsplit, List.append_assoc], ?_, hafter⟩
    exact List.forall_mem_append.mpr
      ⟨fun e he => (hop.under e he).2, fun e he => (hbefore e he).noRelease⟩
  · rw [List.countP_append, countP_isUpdate_eq_zero hnoUpdate]
    exact hop.countP_isUpdate_le
  · intro hreturns
    obtain ⟨hoperation, rfl⟩ := hok hreturns
    refine ⟨List.mem_append_left _ (hop.uncordons hoperation), ?_⟩
    rw [hsplit]
    exact List.mem_append_right _ (List.mem_append_right _ List.mem_cons_self)
  · intro hoperation
    obtain ⟨u, rfl⟩ := hfailed hoperation
    exact ⟨u, _, hsplit⟩

/-! ## The two functions -/

theorem operationRun_of_update {target : Option MachineSnapshot}
    {result : Except Error MachineSnapshot}
    (h : Exec (updateOperation polls snapshot image nonce options) t (some (target, result))) :
    ∃ stored, OperationRun snapshot.machineId nonce
      (configSent snapshot.config image snapshot.metadata) t stored result.isOk := by
  unfold updateOperation at h
  obtain ⟨t₁, t₂, result₁, rfl, hstore, h⟩ := exec_bind_some.mp h
  obtain ⟨_, ho, hrun⟩ := storeRun_of_exec hstore
  cases ho
  cases result₁ with
  | error e =>
      obtain ⟨rfl, ho⟩ := exec_pure.mp h
      cases ho
      rw [List.append_nil]
      exact ⟨false, .notStored hrun⟩
  | ok u =>
      obtain ⟨result₂, hverify, ho⟩ := exec_bind_pure.mp h
      cases ho
      have hok : (result₂.map fun _ => snapshot).isOk = result₂.isOk := by
        cases result₂ <;> rfl
      rw [hok]
      exact ⟨true, .stored hrun (verifyRun_of_exec hverify)⟩

/-- The operation of `rollback_one_machine`. -/
def rollbackOperation (polls : Nat) (snapshot : MachineSnapshot) (current : Machine)
    (currentVersion nonce : String) (options : UpdateImageOptions) : Fallible Unit := do
  let id := snapshot.machineId
  storeImage id nonce current.config snapshot.previousImage current.metadata current.name
    current.region (some currentVersion) s!"set rollback image for machine {id}"
    s!"rollback update for machine {id}"
  verifyMachine polls id nonce options

theorem operationRun_of_rollback {current : Machine} {currentVersion : String}
    {result : Except Error Unit}
    (h : Exec (rollbackOperation polls snapshot current currentVersion nonce options).run t
      (some result)) :
    ∃ stored, OperationRun snapshot.machineId nonce
      (configSent current.config snapshot.previousImage current.metadata) t stored
        result.isOk := by
  obtain ⟨t₁, t₂, _, rfl, hstore, hverify⟩ | ⟨e, hstore, ho⟩ | ⟨-, ho⟩ := exec_run_bind.mp h
  · obtain ⟨_, ho, hrun⟩ := storeRun_of_exec hstore
    cases ho
    exact ⟨true, .stored hrun (verifyRun_of_exec hverify)⟩
  · obtain ⟨_, ho', hrun⟩ := storeRun_of_exec hstore
    cases ho'
    cases ho
    exact ⟨false, .notStored hrun⟩
  · cases ho

/-- The calls of `update_one_machine`, in a run that returns. -/
theorem updateOneMachine_disciplined {result : Except UpdateFailure MachineSnapshot}
    (h : Exec (updateOneMachine polls snapshot image options) t (some result)) :
    (∃ e failure, t = [⟨.createLease snapshot.machineId options.leaseTtlSecs, .error e⟩] ∧
      result = .error failure) ∨
    ∃ nonce op back target operationResult,
      t = ⟨.createLease snapshot.machineId options.leaseTtlSecs, .ok nonce⟩ :: (op ++ back) ∧
      Exec (updateOperation polls snapshot image nonce options) op
        (some (target, operationResult)) ∧
      Disciplined snapshot.machineId nonce op back operationResult.isOk result.isOk := by
  unfold updateOneMachine at h
  obtain ⟨leased, t, rfl, hleased⟩ := (requests_createLease _ _).exec_answer_bind h
  cases leased with
  | error e =>
      obtain ⟨rfl, ho⟩ := exec_pure.mp hleased
      exact .inl ⟨e, _, rfl, Option.some.inj ho⟩
  | ok nonce =>
      obtain ⟨op, t, operation, rfl, hop, hgive⟩ := exec_bind_some.mp hleased
      obtain ⟨target, operationResult⟩ := operation
      obtain ⟨returned, hback, ho⟩ := exec_bind_pure.mp hgive
      obtain ⟨_, ho', hgiven, -⟩ := giveBackRun_of_exec hback
      cases ho'
      cases ho
      obtain ⟨stored, hrun⟩ := operationRun_of_update hop
      have hok : (returned.mapError fun error =>
          (⟨error, target⟩ : UpdateFailure)).isOk = returned.isOk := by
        cases returned <;> rfl
      rw [hok]
      exact .inr ⟨nonce, op, _, target, operationResult, rfl, hop,
        disciplined_of_runs hrun hgiven⟩

/-- The calls of `rollback_one_machine`, in a run that returns. -/
theorem rollbackOneMachine_disciplined {result : Except Error Unit}
    (h : Exec (rollbackOneMachine polls snapshot options).run t (some result)) :
    ((∀ e ∈ t, e.1.isMutating = false) ∧ result.isOk = false) ∨
    ∃ current currentVersion nonce op back operationResult,
      t = ⟨.getMachine snapshot.machineId, .ok current⟩ ::
        ⟨.createLease snapshot.machineId options.leaseTtlSecs, .ok nonce⟩ :: (op ++ back) ∧
      Exec (rollbackOperation polls snapshot current currentVersion nonce options).run op
        (some operationResult) ∧
      Disciplined snapshot.machineId nonce op back operationResult.isOk result.isOk := by
  unfold rollbackOneMachine at h
  obtain ⟨current, t, rfl, hfetched⟩ | ⟨e, e', rfl, ho⟩ := (requests_getMachine _).exec_bind h
  swap
  · cases ho
    exact .inl ⟨List.forall_mem_singleton.mpr rfl, rfl⟩
  cases hversion : current.instanceId with
  | none =>
      rw [hversion] at hfetched
      obtain ⟨rfl, ho⟩ := exec_pure.mp hfetched
      cases ho
      exact .inl ⟨List.forall_mem_singleton.mpr rfl, rfl⟩
  | some currentVersion =>
      rw [hversion] at hfetched
      obtain ⟨nonce, t, rfl, hleased⟩ | ⟨e, e', rfl, ho⟩ :=
        (requests_createLease _ _).exec_bind hfetched
      swap
      · cases ho
        refine .inl ⟨List.forall_mem_cons.mpr ⟨rfl, ?_⟩, rfl⟩
        exact List.forall_mem_singleton.mpr rfl
      obtain ⟨op, back, operationResult, rfl, hop, hback⟩ := exec_bind_some.mp hleased
      obtain ⟨_, ho, hgiven, -⟩ := giveBackRun_of_exec hback
      cases ho
      obtain ⟨stored, hrun⟩ := operationRun_of_rollback hop
      exact .inr ⟨current, currentVersion, nonce, op, back, operationResult, rfl, hop,
        disciplined_of_runs hrun hgiven⟩

/-- With deadlines that fit, `rollback_one_machine` does not panic. -/
theorem only_rollbackOneMachine (snapshot : MachineSnapshot) :
    Only (InTime [options.healthTimeout, options.soak]) (fun _ => True)
      (rollbackOneMachine polls snapshot options).run := by
  unfold rollbackOneMachine
  refine (only_withContext _ (only_ask.mpr trivial)).run_bind fun current => ?_
  split
  · trivial
  · refine (only_withContext _ (only_ask.mpr trivial)).run_bind fun nonce => ?_
    refine Only.bind ?_ fun _ => (only_giveBack _ _ _).mono fun _ _ => trivial
    refine ((only_storeImage _ _ _ _ _ _ _ _ _ _).mono fun _ _ => trivial).run_bind fun _ => ?_
    exact (only_verifyMachine _ _).mono fun _ _ => trivial

/-- In every run in which the deadlines fit, the two functions return and keep the discipline:
    without a lease they change nothing, and with one they use it for every call that changes the
    machine, cordon before they update, update once at most, uncordon after a failure and at the
    end of a success, and release the lease once, as the last request. A failed update names a
    machine for the rollback exactly when `update_machine` has returned Ok. -/
theorem lease_discipline (polls : Nat) (options : UpdateImageOptions)
    (snapshot : MachineSnapshot) (image : String) :
    (∀ t o, Exec (updateOneMachine polls snapshot image options) t o → AllInTime options t →
      ∃ result, o = some result ∧
        ((∃ e failure, t = [⟨.createLease snapshot.machineId options.leaseTtlSecs, .error e⟩] ∧
            result = .error failure) ∨
          ∃ nonce op back target operationResult,
            t = ⟨.createLease snapshot.machineId options.leaseTtlSecs, .ok nonce⟩ ::
              (op ++ back) ∧
            Exec (updateOperation polls snapshot image nonce options) op
              (some (target, operationResult)) ∧
            Disciplined snapshot.machineId nonce op back operationResult.isOk result.isOk) ∧
        ∀ failure, result = .error failure →
          (failure.rollbackTarget.isSome ↔ Updated snapshot.machineId t)) ∧
    ∀ t o, Exec (rollbackOneMachine polls snapshot options).run t o → AllInTime options t →
      ∃ result, o = some result ∧
        (((∀ e ∈ t, e.1.isMutating = false) ∧ result.isOk = false) ∨
          ∃ current currentVersion nonce op back operationResult,
            t = ⟨.getMachine snapshot.machineId, .ok current⟩ ::
              ⟨.createLease snapshot.machineId options.leaseTtlSecs, .ok nonce⟩ :: (op ++ back) ∧
            Exec (rollbackOperation polls snapshot current currentVersion nonce options).run op
              (some operationResult) ∧
            Disciplined snapshot.machineId nonce op back operationResult.isOk result.isOk) := by
  constructor
  · intro t o h htime
    obtain ⟨result, rfl⟩ := Option.ne_none_iff_exists'.mp
      ((only_updateOneMachine snapshot image).sound h htime).1
    refine ⟨result, rfl, updateOneMachine_disciplined h, ?_⟩
    intro failure hfailure
    subst hfailure
    have hreports := updateOneMachine_reports h
    constructor
    · intro hsome
      obtain ⟨s, hs⟩ := Option.isSome_iff_exists.mp hsome
      obtain rfl := hreports.only s hs
      exact hreports.named hs
    · intro hupdated
      have htarget : failure.rollbackTarget = some snapshot := (hreports.updated _ hupdated).2
      rw [htarget]
      rfl
  · intro t o h htime
    obtain ⟨result, rfl⟩ := Option.ne_none_iff_exists'.mp
      ((only_rollbackOneMachine snapshot).sound h htime).1
    exact ⟨result, rfl, rollbackOneMachine_disciplined h⟩

/-- The machine does not start with the new image; the rollback succeeds. -/
theorem lease_discipline_slowStart :
    (∃ t failure, Exec (updateOneMachine 1 soleSnapshot "new" (soleOptions 1 0)) t
        (some (.error failure)) ∧ AllInTime (soleOptions 1 0) t ∧ Updated "machine" t) ∧
      ∃ t nonce, Exec (rollbackOneMachine 1 soleSnapshot (soleOptions 1 0)).run t
        (some (.ok ())) ∧ AllInTime (soleOptions 1 0) t ∧
        (⟨.releaseLease "machine" nonce, .ok ()⟩ : ApiEvent) ∈ t := by
  obtain ⟨hupdate, hrollback⟩ := lease_discipline 1 (soleOptions 1 0) soleSnapshot "new"
  constructor
  · obtain ⟨t, failure, hplay, htime, hsome⟩ : ∃ t failure,
        play (soleAnswer (.ok (soleMachine "new"))) 1
          (updateOneMachine 1 soleSnapshot "new" (soleOptions 1 0)) =
            some (t, some (.error failure)) ∧
        AllInTime (soleOptions 1 0) t ∧ failure.rollbackTarget.isSome := by
      refine ⟨_, _, rfl, ?_, rfl⟩
      repeat refine List.forall_mem_cons.mpr ⟨trivial, ?_⟩
      exact List.forall_mem_nil _
    have hexec := exec_of_play hplay
    obtain ⟨result, ho, -, htarget⟩ := hupdate t _ hexec htime
    cases ho
    exact ⟨t, failure, hexec, htime, (htarget failure rfl).mp hsome⟩
  · obtain ⟨t, hplay, htime⟩ : ∃ t,
        play (soleAnswer (.ok (soleMachine "new"))) 5
          (rollbackOneMachine 1 soleSnapshot (soleOptions 1 0)).run = some (t, some (.ok ())) ∧
        AllInTime (soleOptions 1 0) t := by
      have hready : InTime [0, 0] ⟨.now, (0 : Nat)⟩ := by
        intro d hd
        obtain rfl : d = 0 := by simpa using hd
        decide
      refine ⟨_, rfl, ?_⟩
      repeat
        first
        | refine List.forall_mem_cons.mpr ⟨trivial, ?_⟩
        | refine List.forall_mem_cons.mpr ⟨hready, ?_⟩
      exact List.forall_mem_nil _
    have hexec := exec_of_play hplay
    obtain ⟨result, ho, ⟨-, hfailed⟩ | ⟨_, _, nonce, op, back, _, ht, -, hdisciplined⟩⟩ :=
      hrollback t _ hexec htime
    · cases ho
      cases hfailed
    · cases ho
      refine ⟨t, nonce, hexec, htime, ?_⟩
      rw [ht]
      exact .tail _ (.tail _ (hdisciplined.ok rfl).2)

/-- A health timeout of 2^63 seconds: the sum panics after the update, and the machine stays
    leased and cordoned. -/
theorem lease_kept_by_panic : ∃ t,
    Exec (updateOneMachine 1 soleSnapshot "new" (soleOptions 1 instantLimit)) t none ∧
      (⟨.createLease "machine" 30, .ok "nonce"⟩ : ApiEvent) ∈ t ∧
      (⟨.cordonMachine "machine" (some "nonce"), .ok ()⟩ : ApiEvent) ∈ t ∧
      Updated "machine" t ∧ ∀ e ∈ t, e.1.isRelease = false ∧
        ∀ id leaseNonce, e.1 ≠ .uncordonMachine id leaseNonce := by
  obtain ⟨t, hplay, hlease, hcordon, hupdated, hnone⟩ : ∃ t,
      play (soleAnswer (.ok (soleMachine "new"))) 0
        (updateOneMachine 1 soleSnapshot "new" (soleOptions 1 instantLimit)) = some (t, none) ∧
      (⟨.createLease "machine" 30, .ok "nonce"⟩ : ApiEvent) ∈ t ∧
      (⟨.cordonMachine "machine" (some "nonce"), .ok ()⟩ : ApiEvent) ∈ t ∧
      Updated "machine" t ∧ ∀ e ∈ t, e.1.isRelease = false ∧
        ∀ id leaseNonce, e.1 ≠ .uncordonMachine id leaseNonce := by
    refine ⟨_, rfl, .head _, .tail _ (.head _), ⟨_, _, _, .tail _ (.tail _ (.head _))⟩, ?_⟩
    repeat refine List.forall_mem_cons.mpr ⟨⟨rfl, fun _ _ h => by cases h⟩, ?_⟩
    exact List.forall_mem_nil _
  exact ⟨t, exec_of_play hplay, hlease, hcordon, hupdated, hnone⟩

end FlyVault.Admin
