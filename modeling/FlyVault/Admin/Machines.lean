/-
  The client of the Machines API: `crates/admin/src/machines.rs`, and the functions of
  `crates/admin/src/tenant.rs` that list machines and wait for them.

  A function that talks to the API is a script whose calls are the requests, the clock and the
  lines it prints. `Serves` is the API: it keeps the configuration of each machine, and a
  listing or a machine it returns has the configuration it keeps. `update_machine` stores the
  configuration when it returns Ok, and may or may not have stored it when it returns an error.
  Nothing else changes a configuration.

  Left out: fields of `Machine` that only the usage report reads. The requests only
  `create_tenant` and `delete_tenant` make are in `Tenant`. Times are in nanoseconds. Adding a
  duration to an instant panics on overflow. The two loops that poll a machine have no bound of
  their own: `polls` is the number of rounds after which they count as going on for ever, and
  every result is for every number.
-/
import Mathlib.Algebra.Group.Nat.Defs
import FlyVault.Lib.Json
import FlyVault.Lib.Script

namespace FlyVault.Admin

open FlyVault.Lib FlyVault.Lib.Script

/-! ## Errors and machines -/

/-- An `anyhow` error: its own text, the HTTP status if it is an `ApiError`, and the contexts
    added to it, the last one first. -/
structure Error where
  context : List String
  text : String
  status : Option Nat
  deriving DecidableEq, Repr

def anyhow (text : String) : Error := ⟨[], text, none⟩

def Error.withContext (text : String) (e : Error) : Error := { e with context := text :: e.context }

/-- What `{}` prints: the outermost context. -/
def Error.display (e : Error) : String := e.context.headD e.text

def isWaitTimeout (e : Error) : Bool := e.status = some 408

structure Machine where
  id : String
  name : Option String
  state : String
  region : Option String
  instanceId : Option String
  config : Json
  checks : Json

/-- `Machine::metadata`: the string entries of `config.metadata`. -/
def Machine.metadata (m : Machine) : List (String × String) :=
  match m.config.asObject.bind fun obj => (Json.find obj "metadata").bind Json.asObject with
  | some fields => fields.filterMap fun (k, v) => v.asStr.map fun s => (k, s)
  | none => []

structure UpdateMachineRequest where
  name : Option String
  region : Option String
  config : Json
  currentVersion : Option String

def withMetadata (config : Json) (metadata : List (String × String)) : Except Error Json :=
  match config.asObject with
  | some obj =>
      let value := metadata.foldl (fun fields (k, v) => Json.insert fields k (.string v)) []
      .ok (.object (Json.insert obj "metadata" (.object value)))
  | none => .error (anyhow "machine config is not an object")

def configImage (config : Json) : Option String :=
  (config.asObject.bind fun obj => Json.find obj "image").bind Json.asStr

def withImage (config : Json) (image : String) : Except Error Json :=
  match config.asObject with
  | some obj => .ok (.object (Json.insert obj "image" (.string image)))
  | none => .error (anyhow "machine config is not an object")

/-- The image of a configuration after both changes. -/
theorem configImage_withMetadata {config imaged labelled : Json} {image : String}
    {metadata : List (String × String)} (himage : withImage config image = .ok imaged)
    (hmeta : withMetadata imaged metadata = .ok labelled) : configImage labelled = some image := by
  cases config with
  | object fields =>
      cases himage
      cases hmeta
      show (Json.find (Json.insert (Json.insert fields "image" (.string image)) "metadata" _)
        "image").bind Json.asStr = some image
      rw [Json.find_insert, Json.find_insert, if_neg (by decide), if_pos rfl]
      rfl
  | _ => cases himage

mutual
/-- `collect_statuses`. -/
def collectStatuses : Json → List String
  | .object fields =>
      ((Json.find fields "status").bind Json.asStr).toList ++ collectFieldStatuses fields
  | .array items => collectItemStatuses items
  | _ => []

def collectFieldStatuses : List (String × Json) → List String
  | [] => []
  | (_, value) :: rest => collectStatuses value ++ collectFieldStatuses rest

def collectItemStatuses : List Json → List String
  | [] => []
  | value :: rest => collectStatuses value ++ collectItemStatuses rest
end

def checksArePassing (checks : Json) : Option Bool :=
  let statuses := collectStatuses checks
  if statuses.isEmpty then none
  else some (statuses.all fun status =>
    ["passing", "passed", "healthy", "ok"].contains status.toLower)

/-! ## Requests -/

/-- What the rollout prints. -/
inductive Note
  | canaryStage (canaries total : Nat)
  | canary (index count : Nat) (machineId tenantId : String)
  | canaryPassed
  | completed (machines : Nat)
  | rolling (machines concurrency : Nat)
  | rollbackStarted (machines : Nat)
  | rolledBack (machineId : String)
  | rollbackFailed (machineId : String) (e : Error)
  | warning (e : Error)

inductive Call
  | listMachines (query : List (String × String))
  | getMachine (machineId : String)
  | updateMachine (machineId : String) (request : UpdateMachineRequest)
      (leaseNonce : Option String)
  /-- One request of `wait_for_state`, with its timeout in seconds. -/
  | wait (machineId state : String) (timeout : Nat) (instanceId : Option String)
  | cordonMachine (machineId : String) (leaseNonce : Option String)
  | uncordonMachine (machineId : String) (leaseNonce : Option String)
  | createLease (machineId : String) (ttlSecs : UInt32)
  | releaseLease (machineId leaseNonce : String)
  | now
  | sleep (duration : Nat)
  | print (note : Note)

/-- The answers. `createLease` returns the nonce. -/
def Answer : Call → Type
  | .listMachines _ => Except Error (List Machine)
  | .getMachine _ => Except Error Machine
  | .updateMachine _ _ _ => Except Error Machine
  | .wait _ _ _ _ => Except Error Unit
  | .cordonMachine _ _ => Except Error Unit
  | .uncordonMachine _ _ => Except Error Unit
  | .createLease _ _ => Except Error String
  | .releaseLease _ _ => Except Error Unit
  | .now => Nat
  | .sleep _ => Unit
  | .print _ => Unit

/-- A program that talks to the API. -/
abbrev Api := Script Call Answer

/-- One that may return an error. -/
abbrev Fallible := ExceptT Error Api

abbrev ApiEvent := Event Call Answer

/-- `with_context`. -/
def withContext {α : Type} (text : String) (x : Fallible α) : Fallible α :=
  ExceptT.adapt (Error.withContext text) x

theorem exec_withContext {α : Type} {x : Fallible α} {text : String} {t : List ApiEvent}
    {o : Option (Except Error α)} : Exec (withContext text x).run t o ↔
      ∃ o', Exec x.run t o' ∧ o = o'.map (Except.mapError (Error.withContext text)) :=
  exec_map

def listMachines (query : List (String × String)) : Fallible (List Machine) :=
  ExceptT.mk (ask (Call.listMachines query))

def getMachine (machineId : String) : Fallible Machine :=
  ExceptT.mk (ask (Call.getMachine machineId))

def updateMachine (machineId : String) (request : UpdateMachineRequest)
    (leaseNonce : Option String) : Fallible Machine :=
  ExceptT.mk (ask (Call.updateMachine machineId request leaseNonce))

def cordonMachine (machineId : String) (leaseNonce : Option String) : Fallible Unit :=
  ExceptT.mk (ask (Call.cordonMachine machineId leaseNonce))

def uncordonMachine (machineId : String) (leaseNonce : Option String) : Fallible Unit :=
  ExceptT.mk (ask (Call.uncordonMachine machineId leaseNonce))

def createLease (machineId : String) (ttlSecs : UInt32) : Fallible String :=
  ExceptT.mk (ask (Call.createLease machineId ttlSecs))

def releaseLease (machineId leaseNonce : String) : Fallible Unit :=
  ExceptT.mk (ask (Call.releaseLease machineId leaseNonce))

def now : Api Nat := ask Call.now

def sleep (duration : Nat) : Api Unit := ask (Call.sleep duration)

def print (note : Note) : Api Unit := ask (Call.print note)

/-! ## Waiting -/

/-- Nanoseconds in a second. -/
def second : Nat := 1000000000

/-- The first instant that does not fit: the seconds are a signed 64-bit integer. -/
def instantLimit : Nat := 2 ^ 63 * second

/-- `Instant + Duration`. -/
def addDuration (instant duration : Nat) : Api Nat :=
  if instant + duration < instantLimit then pure (instant + duration) else panic

/-- The loop of `wait_for_state`, with `remaining` seconds left. -/
@[semireducible]
def waitChunks (machineId state : String) (instanceId : Option String) (remaining : Nat) :
    Fallible Unit :=
  let chunk := min remaining 60
  ExceptT.mk (Script.call (Call.wait machineId state chunk instanceId) fun
    | .ok () => pure (.ok ())
    | .error e =>
        if remaining > chunk ∧ isWaitTimeout e then
          (waitChunks machineId state instanceId (remaining - chunk)).run
        else pure (.error e))
termination_by remaining
decreasing_by omega

def waitForState (machineId state : String) (timeout : Nat) (instanceId : Option String) :
    Fallible Unit :=
  waitChunks machineId state instanceId (max (timeout / second) 1)

/-- The loop of `wait_for_health`. -/
def pollHealth (machineId : String) (deadline : Nat) : Nat → Fallible Unit
  | 0 => ExceptT.mk spin
  | polls + 1 => do
      let machine ← withContext s!"fetch machine {machineId}" (getMachine machineId)
      if machine.state ≠ "started" then
        throw (anyhow
          s!"machine {machineId} left started state during health check: {machine.state}")
      else
        match checksArePassing machine.checks with
        | none | some true => return ()
        | some false =>
            if (← now) ≥ deadline then
              throw (anyhow s!"machine {machineId} checks failed to pass before timeout")
            else
              sleep (2 * second)
              pollHealth machineId deadline polls

def waitForHealth (polls : Nat) (machineId : String) (timeout : Nat) : Fallible Unit := do
  let deadline ← addDuration (← now) timeout
  pollHealth machineId deadline polls

/-- The loop of `verify_soak_window`. -/
def pollSoak (machineId : String) (deadline : Nat) : Nat → Fallible Unit
  | 0 => ExceptT.mk spin
  | polls + 1 => do
      if (← now) < deadline then
        let machine ← withContext s!"fetch machine {machineId} during soak" (getMachine machineId)
        if machine.state ≠ "started" then
          throw (anyhow
            s!"machine {machineId} crashed during soak window (state={machine.state})")
        else if checksArePassing machine.checks = some false then
          throw (anyhow s!"machine {machineId} failed checks during soak window")
        else
          sleep (2 * second)
          pollSoak machineId deadline polls
      else return ()

def verifySoakWindow (polls : Nat) (machineId : String) (soak : Nat) : Fallible Unit := do
  if soak = 0 then return ()
  else
    let deadline ← addDuration (← now) soak
    pollSoak machineId deadline polls

/-! ## What waiting may do -/

/-- A call that stores no configuration. -/
def Call.Quiet : Call → Prop
  | .updateMachine _ _ _ => False
  | _ => True

/-- A call of the loops that wait: it looks at a machine or at the clock, or passes time. -/
def Call.Waits : Call → Prop
  | .getMachine _ | .wait _ _ _ _ | .now | .sleep _ => True
  | _ => False

theorem Call.Waits.quiet {c : Call} (h : c.Waits) : c.Quiet := by
  cases c <;> trivial

/-- A call that does not announce a rollback. -/
def Call.Forward : Call → Prop
  | .print (.rollbackStarted _) => False
  | _ => True

theorem Call.Waits.forward {c : Call} (h : c.Waits) : c.Forward := by
  cases c <;> trivial

/-- A clock reading to which the durations can be added. -/
def InTime (durations : List Nat) : ApiEvent → Prop
  | ⟨.now, instant⟩ => ∀ d ∈ durations, Nat.add instant d < instantLimit
  | _ => True

variable {allows : ApiEvent → Prop} {P : Call → Prop}

theorem only_withContext {α : Type} {x : Fallible α} (text : String) (h : Only allows P x.run) :
    Only allows P (withContext text x).run := h.map

theorem only_waitChunks (machineId state : String) (instanceId : Option String)
    (remaining : Nat) :
    Only allows Call.Waits (waitChunks machineId state instanceId remaining).run := by
  induction remaining using Nat.strongRecOn with
  | ind remaining ih =>
      unfold waitChunks
      refine ⟨trivial, ?_⟩
      intro r _
      match r with
      | .ok () => trivial
      | .error e =>
          show Only allows Call.Waits (if _ then _ else _)
          split
          · next h => exact ih _ (by omega)
          · trivial

theorem only_pollHealth (machineId : String) (deadline polls : Nat) :
    Only allows Call.Waits (pollHealth machineId deadline polls).run := by
  induction polls with
  | zero => trivial
  | succ polls ih =>
      unfold pollHealth
      refine (only_withContext _ (only_ask.mpr trivial)).run_bind ?_
      intro machine
      split
      · trivial
      · split
        · trivial
        · trivial
        · refine Only.run_bind (Only.run_lift (only_ask.mpr trivial)) ?_
          intro instant
          split
          · trivial
          · exact (Only.run_lift (only_ask.mpr trivial)).run_bind fun _ => ih

theorem only_pollSoak (machineId : String) (deadline polls : Nat) :
    Only allows Call.Waits (pollSoak machineId deadline polls).run := by
  induction polls with
  | zero => trivial
  | succ polls ih =>
      unfold pollSoak
      refine Only.run_bind (Only.run_lift (only_ask.mpr trivial)) ?_
      intro instant
      split
      · refine (only_withContext _ (only_ask.mpr trivial)).run_bind ?_
        intro machine
        split
        · trivial
        · split
          · trivial
          · exact (Only.run_lift (only_ask.mpr trivial)).run_bind fun _ => ih
      · trivial

theorem only_addDuration {instant duration : Nat} (h : instant + duration < instantLimit) :
    Only allows P (addDuration instant duration) := by
  rw [addDuration, if_pos h]
  trivial

theorem only_waitForHealth {durations : List Nat} {timeout : Nat} (hd : timeout ∈ durations)
    (polls : Nat) (machineId : String) :
    Only (InTime durations) Call.Waits (waitForHealth polls machineId timeout).run := by
  refine Only.run_ask_bind trivial ?_
  intro instant hinstant
  exact (Only.run_lift (only_addDuration (hinstant timeout hd))).run_bind fun deadline =>
    only_pollHealth machineId deadline polls

theorem only_verifySoakWindow {durations : List Nat} {soak : Nat} (hd : soak ∈ durations)
    (polls : Nat) (machineId : String) :
    Only (InTime durations) Call.Waits (verifySoakWindow polls machineId soak).run := by
  unfold verifySoakWindow
  split
  · trivial
  · refine Only.run_ask_bind trivial ?_
    intro instant hinstant
    exact (Only.run_lift (only_addDuration (hinstant soak hd))).run_bind fun deadline =>
      only_pollSoak machineId deadline polls

theorem only_noPanic_withContext {α : Type} {x : Fallible α} (text : String)
    (h : Only allows P x.run.noPanic) : Only allows P (withContext text x).run.noPanic := by
  show Only allows P (x.run >>= fun r => pure (r.mapError (Error.withContext text))).noPanic
  rw [noPanic_bind]
  exact h.bind fun _ => trivial

theorem only_noPanic_addDuration (instant duration : Nat) :
    Only allows P (liftM (addDuration instant duration) : Fallible Nat).run.noPanic := by
  unfold addDuration
  split
  · trivial
  · trivial

theorem only_noPanic_waitForHealth (polls : Nat) (machineId : String) (timeout : Nat) :
    Only allows Call.Waits (waitForHealth polls machineId timeout).run.noPanic :=
  ⟨trivial, fun instant _ => (only_noPanic_addDuration instant timeout).noPanic_run_bind
    fun deadline => (only_pollHealth machineId deadline polls).noPanic⟩

theorem only_noPanic_verifySoakWindow (polls : Nat) (machineId : String) (soak : Nat) :
    Only allows Call.Waits (verifySoakWindow polls machineId soak).run.noPanic := by
  unfold verifySoakWindow
  split
  · trivial
  · exact ⟨trivial, fun instant _ => (only_noPanic_addDuration instant soak).noPanic_run_bind
      fun deadline => (only_pollSoak machineId deadline polls).noPanic⟩

/-! ## Listing -/

def tenantIdKey : String := "fly_vault.tenant_id"

def managedByKey : String := "fly_vault.managed_by"

def managedByValue : String := "fly-vault-admin"

def listManagedMachinesWithOptions (tenantFilter : Option String) (includeDestroyed : Bool) :
    Fallible (List Machine) := do
  let query := (s!"metadata.{managedByKey}", managedByValue) ::
    (tenantFilter.map fun tenant => (s!"metadata.{tenantIdKey}", tenant)).toList
  let machines ← listMachines query
  let machines := machines.filter fun machine =>
    let md := machine.metadata
    md.lookup managedByKey == some managedByValue && (md.lookup tenantIdKey).isSome &&
      (includeDestroyed || !(["destroyed", "deleted"].contains machine.state))
  match tenantFilter with
  | some tenantId =>
      return machines.filter fun machine => machine.metadata.lookup tenantIdKey == some tenantId
  | none => return machines

def listManagedMachines (tenantFilter : Option String) : Fallible (List Machine) :=
  listManagedMachinesWithOptions tenantFilter false

/-! ## The API -/

/-- The configuration of each machine. -/
abbrev Fleet := String → Option Json

def Fleet.store (fleet : Fleet) (machineId : String) (config : Json) : Fleet :=
  Function.update fleet machineId (some config)

/-- The image of a machine. -/
def Fleet.image (fleet : Fleet) (machineId : String) : Option String :=
  (fleet machineId).bind configImage

/-- The API may give this answer, and then holds the fleet `after`. -/
def Answers (fleet : Fleet) (after : Fleet) : ApiEvent → Prop
  | ⟨.listMachines _, .ok machines⟩ =>
      (∀ m ∈ machines, fleet m.id = some m.config) ∧ after = fleet
  | ⟨.getMachine machineId, .ok m⟩ => fleet machineId = some m.config ∧ after = fleet
  | ⟨.updateMachine machineId request _, .ok _⟩ => after = fleet.store machineId request.config
  | ⟨.updateMachine machineId request _, .error _⟩ =>
      after = fleet ∨ after = fleet.store machineId request.config
  | _ => after = fleet

/-- The API gives the answers of a trace, each of them allowed by `ok`. -/
inductive Serves (ok : Fleet → ApiEvent → Fleet → Prop) : Fleet → List ApiEvent → Fleet → Prop
  | nil (fleet : Fleet) : Serves ok fleet [] fleet
  | cons {fleet mid after : Fleet} {e : ApiEvent} {t : List ApiEvent}
      (hanswers : Answers fleet mid e) (hok : ok fleet e mid) (h : Serves ok mid t after) :
      Serves ok fleet (e :: t) after

variable {ok : Fleet → ApiEvent → Fleet → Prop} {fleet after : Fleet} {t : List ApiEvent}

theorem Serves.split {t₁ t₂ : List ApiEvent} (h : Serves ok fleet (t₁ ++ t₂) after) :
    ∃ mid, Serves ok fleet t₁ mid ∧ Serves ok mid t₂ after := by
  induction t₁ generalizing fleet with
  | nil => exact ⟨fleet, .nil fleet, h⟩
  | cons e t₁ ih =>
      cases h with
      | cons hanswers hok h =>
          obtain ⟨mid, h₁, h₂⟩ := ih h
          exact ⟨mid, .cons hanswers hok h₁, h₂⟩

theorem Serves.all {Q : ApiEvent → Prop} (hQ : ∀ fleet e after, ok fleet e after → Q e)
    (h : Serves ok fleet t after) : ∀ e ∈ t, Q e := by
  induction h with
  | nil => simp
  | cons _ hok _ ih => exact List.forall_mem_cons.mpr ⟨hQ _ _ _ hok, ih⟩

theorem Answers.quiet {e : ApiEvent} (h : Answers fleet after e) (hquiet : e.1.Quiet) :
    after = fleet := by
  obtain ⟨c, r⟩ := e
  cases c with
  | updateMachine => exact hquiet.elim
  | listMachines => cases r with
    | ok machines => exact h.2
    | error e => exact h
  | getMachine => cases r with
    | ok m => exact h.2
    | error e => exact h
  | _ => exact h

/-- Only an update changes the fleet. -/
theorem Serves.quiet (h : Serves ok fleet t after) (hquiet : ∀ e ∈ t, e.1.Quiet) :
    after = fleet := by
  induction h with
  | nil => rfl
  | cons hanswers _ _ ih =>
      obtain ⟨hhead, htail⟩ := List.forall_mem_cons.mp hquiet
      exact (ih htail).trans (hanswers.quiet hhead)

theorem Fleet.image_store (fleet : Fleet) (machineId id : String) (config : Json) :
    (fleet.store machineId config).image id =
      if id = machineId then configImage config else fleet.image id := by
  unfold Fleet.image Fleet.store
  by_cases h : id = machineId
  · subst h
    simp
  · simp [h]

/-- An update of the machine has returned Ok. -/
def Updated (machineId : String) (t : List ApiEvent) : Prop :=
  ∃ request nonce m, (⟨.updateMachine machineId request nonce, .ok m⟩ : ApiEvent) ∈ t

end FlyVault.Admin
