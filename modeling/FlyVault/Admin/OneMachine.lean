/-
  The calls of `update_one_machine` and `rollback_one_machine`, read off their text.

  Under its lease a function runs an operation, which stores a configuration (`StoreRun`) and
  verifies the machine (`VerifyRun`), and then gives the lease back (`GiveBackRun`). Each of the
  three lists the calls of its part with their answers, for every way it can go; an operation
  stops at the first answer that is an error. A result about all runs of a function is a case
  analysis of these. `TakenFrom` says what the snapshots they work with are.
-/
import FlyVault.Admin.Rollout

namespace FlyVault.Admin

open FlyVault.Lib FlyVault.Lib.Script

variable {α β : Type} {polls : Nat} {options : UpdateImageOptions} {machineId nonce text : String}
  {t : List ApiEvent}

/-! ## Snapshots -/

/-- What `snapshot_from_machine` takes from a machine it accepts. -/
structure TakenFrom (machine : Machine) (snapshot : MachineSnapshot) : Prop where
  machineId : snapshot.machineId = machine.id
  config : snapshot.config = machine.config
  metadata : snapshot.metadata = machine.metadata
  image : configImage machine.config = some snapshot.previousImage
  tenant : (machine.metadata.lookup tenantIdKey).isSome

theorem takenFrom_of_accepted {machine : Machine} {snapshot : MachineSnapshot}
    (h : snapshotFromMachine machine = .ok snapshot) : TakenFrom machine snapshot := by
  unfold snapshotFromMachine at h
  dsimp only at h
  split at h
  · cases h
  · next tenantId htenant =>
      split at h
      · cases h
      · split at h
        · cases h
        · split at h
          · cases h
          · next previousImage himage =>
              cases h
              exact ⟨rfl, rfl, rfl, himage, by rw [htenant]; rfl⟩

/-! ## Steps -/

/-- A program that makes one call and returns its answer. -/
def Requests (x : Fallible α) (event : Except Error α → ApiEvent) : Prop :=
  ∀ t o, Exec x.run t o ↔ ∃ r, t = [event r] ∧ o = some r

theorem requests_cordonMachine (machineId : String) (leaseNonce : Option String) :
    Requests (cordonMachine machineId leaseNonce)
      fun r => ⟨.cordonMachine machineId leaseNonce, r⟩ := fun _ _ => exec_ask

theorem requests_uncordonMachine (machineId : String) (leaseNonce : Option String) :
    Requests (uncordonMachine machineId leaseNonce)
      fun r => ⟨.uncordonMachine machineId leaseNonce, r⟩ := fun _ _ => exec_ask

theorem requests_updateMachine (machineId : String) (request : UpdateMachineRequest)
    (leaseNonce : Option String) :
    Requests (updateMachine machineId request leaseNonce)
      fun r => ⟨.updateMachine machineId request leaseNonce, r⟩ := fun _ _ => exec_ask

theorem requests_getMachine (machineId : String) :
    Requests (getMachine machineId) fun r => ⟨.getMachine machineId, r⟩ := fun _ _ => exec_ask

theorem requests_createLease (machineId : String) (ttlSecs : UInt32) :
    Requests (createLease machineId ttlSecs) fun r => ⟨.createLease machineId ttlSecs, r⟩ :=
  fun _ _ => exec_ask

theorem requests_releaseLease (machineId leaseNonce : String) :
    Requests (releaseLease machineId leaseNonce) fun r => ⟨.releaseLease machineId leaseNonce, r⟩ :=
  fun _ _ => exec_ask

section

variable {x : Fallible α} {event : Except Error α → ApiEvent} {g : α → Fallible β}

theorem Requests.exec (hx : Requests x event) {o : Option (Except Error α)} :
    Exec (withContext text x).run t o ↔
      ∃ r, t = [event r] ∧ o = some (r.mapError (Error.withContext text)) := by
  rw [exec_withContext]
  constructor
  · intro h
    obtain ⟨o', hexec, rfl⟩ := h
    obtain ⟨r, rfl, rfl⟩ := (hx _ _).mp hexec
    exact ⟨r, rfl, rfl⟩
  · intro h
    obtain ⟨r, rfl, rfl⟩ := h
    exact ⟨some r, (hx _ _).mpr ⟨r, rfl, rfl⟩, rfl⟩

/-- A request and what is done with its answer. -/
theorem Requests.exec_answer_bind (hx : Requests x event) {k : Except Error α → Api β}
    {o : Option β} (h : Exec ((withContext text x).run >>= k) t o) :
    ∃ r t', t = event r :: t' ∧ Exec (k (r.mapError (Error.withContext text))) t' o := by
  obtain ⟨t₁, t₂, a, rfl, hrequest, h⟩ | ⟨hrequest, -⟩ := Script.exec_bind.mp h
  · obtain ⟨r, rfl, hr⟩ := hx.exec.mp hrequest
    cases hr
    exact ⟨r, t₂, rfl, h⟩
  · obtain ⟨r, -, hr⟩ := hx.exec.mp hrequest
    cases hr

/-- A request and what follows: an error ends the program. -/
theorem Requests.exec_bind (hx : Requests x event) {o : Option (Except Error β)}
    (h : Exec (withContext text x >>= g).run t o) :
    (∃ a t', t = event (.ok a) :: t' ∧ Exec (g a).run t' o) ∨
      ∃ e e', t = [event (.error e)] ∧ o = some (.error e') := by
  rw [ExceptT.run_bind] at h
  obtain ⟨r, t', rfl, hrest⟩ := hx.exec_answer_bind h
  cases r with
  | ok a => exact .inl ⟨a, t', rfl, hrest⟩
  | error e =>
      obtain ⟨rfl, rfl⟩ := exec_pure.mp hrest
      exact .inr ⟨e, _, rfl, rfl⟩

/-- A computation without calls. -/
theorem exec_returned_bind {r : Except Error α} {o : Option (Except Error β)}
    (h : Exec (withContext text (ExceptT.mk (pure r)) >>= g).run t o) :
    (∃ a, r = .ok a ∧ Exec (g a).run t o) ∨
      ∃ e e', r = .error e ∧ t = [] ∧ o = some (.error e') := by
  cases r with
  | ok a => exact .inl ⟨a, rfl, h⟩
  | error e =>
      obtain ⟨rfl, rfl⟩ := exec_pure.mp h
      exact .inr ⟨e, _, rfl, rfl, rfl⟩

/-- Waiting and what follows, in a run that returns. -/
theorem exec_waits_bind (hx : Only (fun _ => True) Call.Waits x.run.noPanic)
    {result : Except Error β} (h : Exec (x >>= g).run t (some result)) :
    (∃ t₁ t₂ a, t = t₁ ++ t₂ ∧ (∀ e ∈ t₁, e.1.Waits) ∧ Exec (g a).run t₂ (some result)) ∨
      (∃ e, result = .error e) ∧ ∀ e ∈ t, e.1.Waits := by
  obtain ⟨t₁, t₂, a, rfl, h₁, h₂⟩ | ⟨e, hfailed, ho⟩ | ⟨-, ho⟩ := exec_run_bind.mp h
  · exact .inl ⟨t₁, t₂, a, rfl, hx.noPanic_sound h₁ fun _ _ => trivial, h₂⟩
  · cases ho
    exact .inr ⟨⟨e, rfl⟩, hx.noPanic_sound hfailed fun _ _ => trivial⟩
  · cases ho

end

/-! ## The parts of an operation -/

/-- The configuration an operation sends. -/
def configSent (config : Json) (image : String) (metadata : List (String × String)) :
    Except Error Json := do
  let config ← withImage config image
  withMetadata config metadata

theorem configImage_configSent {config sent : Json} {image : String}
    {metadata : List (String × String)} (h : configSent config image metadata = .ok sent) :
    configImage sent = some image := by
  cases himage : withImage config image with
  | error e =>
      rw [configSent, himage] at h
      cases h
  | ok imaged =>
      rw [configSent, himage] at h
      exact configImage_withMetadata himage h

/-- The calls of `storeImage`, and whether it has stored the configuration. -/
inductive StoreRun (machineId nonce : String) (sent : Except Error Json) :
    List ApiEvent → Bool → Prop
  | notCordoned (e : Error) :
      StoreRun machineId nonce sent [⟨.cordonMachine machineId (some nonce), .error e⟩] false
  | noConfig {e : Error} (hsent : sent = .error e) :
      StoreRun machineId nonce sent [⟨.cordonMachine machineId (some nonce), .ok ()⟩] false
  | notStored {request : UpdateMachineRequest} (e : Error) (hsent : sent = .ok request.config) :
      StoreRun machineId nonce sent [⟨.cordonMachine machineId (some nonce), .ok ()⟩,
        ⟨.updateMachine machineId request (some nonce), .error e⟩] false
  | stored {request : UpdateMachineRequest} (m : Machine) (hsent : sent = .ok request.config) :
      StoreRun machineId nonce sent [⟨.cordonMachine machineId (some nonce), .ok ()⟩,
        ⟨.updateMachine machineId request (some nonce), .ok m⟩] true

theorem storeRun_of_exec {config : Json} {image : String} {metadata : List (String × String)}
    {name region version : Option String} {setText updateText : String}
    {o : Option (Except Error Unit)}
    (h : Exec (storeImage machineId nonce config image metadata name region version setText
      updateText).run t o) :
    ∃ result : Except Error Unit, o = some result ∧
      StoreRun machineId nonce (configSent config image metadata) t result.isOk := by
  unfold storeImage at h
  obtain ⟨_, t, rfl, hmade⟩ | ⟨e, e', rfl, rfl⟩ := (requests_cordonMachine _ _).exec_bind h
  swap
  · exact ⟨_, rfl, .notCordoned e⟩
  obtain ⟨imaged, himage, h⟩ | ⟨e, e', himage, rfl, rfl⟩ := exec_returned_bind hmade
  swap
  · exact ⟨_, rfl, .noConfig (e := e) (by rw [configSent, himage]; rfl)⟩
  obtain ⟨labelled, hmeta, h⟩ | ⟨e, e', hmeta, rfl, rfl⟩ := exec_returned_bind h
  swap
  · exact ⟨_, rfl, .noConfig (e := e) (by rw [configSent, himage]; exact hmeta)⟩
  have hsent : configSent config image metadata = .ok labelled := by
    rw [configSent, himage]
    exact hmeta
  obtain ⟨m, t, rfl, hdone⟩ | ⟨e, e', rfl, rfl⟩ := (requests_updateMachine _ _ _).exec_bind h
  · obtain ⟨rfl, rfl⟩ := exec_pure.mp hdone
    exact ⟨_, rfl, .stored m hsent⟩
  · exact ⟨_, rfl, .notStored e hsent⟩

/-- The calls of `verifyMachine`, and whether it has succeeded. -/
inductive VerifyRun (machineId nonce : String) : List ApiEvent → Bool → Prop
  | notVerified {t : List ApiEvent} (hwaits : ∀ e ∈ t, e.1.Waits) :
      VerifyRun machineId nonce t false
  | uncordoned {t : List ApiEvent} (hwaits : ∀ e ∈ t, e.1.Waits) (r : Except Error Unit) :
      VerifyRun machineId nonce (t ++ [⟨.uncordonMachine machineId (some nonce), r⟩]) r.isOk

theorem VerifyRun.prepend {t₁ t₂ : List ApiEvent} {ok : Bool} (hwaits : ∀ e ∈ t₁, e.1.Waits)
    (h : VerifyRun machineId nonce t₂ ok) : VerifyRun machineId nonce (t₁ ++ t₂) ok := by
  cases h with
  | notVerified hwaits₂ => exact .notVerified (List.forall_mem_append.mpr ⟨hwaits, hwaits₂⟩)
  | uncordoned hwaits₂ r =>
      rw [← List.append_assoc]
      exact .uncordoned (List.forall_mem_append.mpr ⟨hwaits, hwaits₂⟩) r

theorem VerifyRun.failed {result : Except Error Unit}
    (h : (∃ e, result = .error e) ∧ ∀ e ∈ t, e.1.Waits) :
    VerifyRun machineId nonce t result.isOk := by
  obtain ⟨⟨e, rfl⟩, hwaits⟩ := h
  exact .notVerified hwaits

theorem verifyRun_of_exec {result : Except Error Unit}
    (h : Exec (verifyMachine polls machineId nonce options).run t (some result)) :
    VerifyRun machineId nonce t result.isOk := by
  unfold verifyMachine at h
  obtain ⟨t₁, t, _, rfl, hwaits, h⟩ | hfailed :=
    exec_waits_bind (only_withContext _ (only_waitChunks _ _ _ _)).noPanic h
  swap
  · exact .failed hfailed
  refine .prepend hwaits ?_
  obtain ⟨t₁, t, _, rfl, hwaits, h⟩ | hfailed :=
    exec_waits_bind (only_noPanic_withContext _ (only_noPanic_waitForHealth _ _ _)) h
  swap
  · exact .failed hfailed
  refine .prepend hwaits ?_
  obtain ⟨t₁, t, _, rfl, hwaits, h⟩ | hfailed :=
    exec_waits_bind (only_noPanic_withContext _ (only_noPanic_verifySoakWindow _ _ _)) h
  swap
  · exact .failed hfailed
  refine .prepend hwaits ?_
  obtain ⟨r, rfl, hr⟩ := (requests_uncordonMachine _ _).exec.mp h
  have hok : result.isOk = r.isOk := by
    cases r with
    | ok u => cases hr; rfl
    | error e => cases hr; rfl
  rw [hok]
  exact .uncordoned (t := []) (List.forall_mem_nil _) r

/-- The calls of an operation, whether it has stored the configuration, and whether it has
    succeeded. -/
inductive OperationRun (machineId nonce : String) (sent : Except Error Json) :
    List ApiEvent → Bool → Bool → Prop
  | notStored {t : List ApiEvent} (hstore : StoreRun machineId nonce sent t false) :
      OperationRun machineId nonce sent t false false
  | stored {t₁ t₂ : List ApiEvent} {ok : Bool} (hstore : StoreRun machineId nonce sent t₁ true)
      (hverify : VerifyRun machineId nonce t₂ ok) :
      OperationRun machineId nonce sent (t₁ ++ t₂) true ok

/-- The calls of `giveBack`, for an operation that has succeeded or not, and whether the
    function succeeds. -/
inductive GiveBackRun (machineId nonce : String) : Bool → List ApiEvent → Bool → Prop
  | succeeded (r : Except Error Unit) :
      GiveBackRun machineId nonce true [⟨.releaseLease machineId nonce, r⟩] r.isOk
  | failed (u : Except Error Unit) :
      GiveBackRun machineId nonce false [⟨.uncordonMachine machineId (some nonce), u⟩,
        ⟨.releaseLease machineId nonce, .ok ()⟩] false
  | notReleased (u : Except Error Unit) (e e' : Error) :
      GiveBackRun machineId nonce false [⟨.uncordonMachine machineId (some nonce), u⟩,
        ⟨.releaseLease machineId nonce, .error e⟩, ⟨.print (.warning e'), ()⟩] false

theorem giveBackRun_of_exec {operationResult : Except Error α} {o : Option (Except Error α)}
    (h : Exec (giveBack machineId nonce operationResult) t o) :
    ∃ result : Except Error α, o = some result ∧
      GiveBackRun machineId nonce operationResult.isOk t result.isOk ∧
      ∀ a, result = .ok a → operationResult = .ok a := by
  unfold giveBack at h
  cases operationResult with
  | ok a =>
      have hrelease : Exec ((withContext s!"release lease for machine {machineId}"
        (releaseLease machineId nonce)).run >>= _) t o := h
      obtain ⟨r, t', rfl, hdone⟩ := (requests_releaseLease _ _).exec_answer_bind hrelease
      cases r with
      | ok u =>
          obtain ⟨rfl, rfl⟩ := exec_pure.mp hdone
          exact ⟨_, rfl, .succeeded (.ok ()), fun _ h => h⟩
      | error e =>
          obtain ⟨rfl, rfl⟩ := exec_pure.mp hdone
          exact ⟨_, rfl, .succeeded (.error e), fun _ h => by cases h⟩
  | error failure =>
      obtain ⟨t₁, t₂, _, rfl, huncordon, hrelease⟩ | ⟨huncordon, -⟩ := exec_bind.mp h
      swap
      · obtain ⟨u, -, hu⟩ := (requests_uncordonMachine _ _ _ _).mp huncordon
        cases hu
      obtain ⟨u, rfl, -⟩ := (requests_uncordonMachine _ _ _ _).mp huncordon
      obtain ⟨r, t', rfl, hwarn⟩ := (requests_releaseLease _ _).exec_answer_bind hrelease
      cases r with
      | ok v =>
          obtain ⟨rfl, rfl⟩ := exec_pure.mp hwarn
          exact ⟨_, rfl, .failed u, fun _ h => h⟩
      | error e =>
          obtain ⟨t₁, t₂, _, rfl, hprint, hdone⟩ | ⟨hprint, -⟩ := exec_bind.mp hwarn
          swap
          · obtain ⟨_, -, hnone⟩ := exec_ask.mp hprint
            cases hnone
          obtain ⟨_, rfl, -⟩ := exec_ask.mp hprint
          obtain ⟨rfl, rfl⟩ := exec_pure.mp hdone
          exact ⟨_, rfl, .notReleased u e _, fun _ h => h⟩

end FlyVault.Admin
