/-
  Creating and deleting a tenant: `crates/admin/src/tenant.rs`, with `mounted_volume_ids` and
  `classify_machine_action_error` of `crates/admin/src/machines.rs`.

  The requests beside those of `Call`, and the lines that are printed, are calls of their own.
  `wait_for_state`, the listing and `cordon_machine` are the functions of the client as they are,
  embedded. Of a mounted volume and of a created volume only the id is kept.

  Left out: the name, path and size of a mounted volume, which only the usage report reads.
-/
import FlyVault.Admin.Template

namespace FlyVault.Admin

open FlyVault.Lib FlyVault.Lib.Script

/-! ## Requests -/

structure CreateMachineRequest where
  name : Option String
  region : Option String
  config : Json
  leaseTtl : Option UInt32
  skipLaunch : Option Bool
  skipServiceRegistration : Option Bool
  lsvd : Option Bool

structure CreateVolumeRequest where
  name : String
  region : Option String
  sizeGb : Option UInt32
  deriving DecidableEq

structure Volume where
  id : String

/-- What is printed. -/
inductive TenantNote
  | payload (requests : List CreateMachineRequest)
  | createdMachine (machineId : String)
  | created (tenantId : String) (machines : Nat)
  | noMachines (tenantId : String)
  | plan (tenantId : String)
  | planMachine (machineId state : String)
  | planVolume (volumeId : String)
  | deleted (tenantId : String)

inductive TenantCall
  /-- A call of the client that the rollout makes too. -/
  | api (c : Call)
  | createMachine (request : CreateMachineRequest)
  | stopMachine (machineId : String)
  | deleteMachine (machineId : String) (force : Bool)
  | createVolume (request : CreateVolumeRequest)
  | deleteVolume (volumeId : String)
  | print (note : TenantNote)

def TenantAnswer : TenantCall → Type
  | .api c => Answer c
  | .createMachine _ => Except Error Machine
  | .stopMachine _ => Except Error Unit
  | .deleteMachine _ _ => Except Error Unit
  | .createVolume _ => Except Error Volume
  | .deleteVolume _ => Except Error Unit
  | .print _ => Unit

/-- Answers with which nothing fails, and this listing. -/
def calmAnswer (machines : List Machine) : (c : Call) → Answer c
  | .listMachines _ => .ok machines
  | .getMachine machineId => .ok ⟨machineId, none, "started", none, none, .null, .null⟩
  | .updateMachine machineId request _ =>
      .ok ⟨machineId, request.name, "started", request.region, none, request.config, .null⟩
  | .wait _ _ _ _ => .ok ()
  | .cordonMachine _ _ => .ok ()
  | .uncordonMachine _ _ => .ok ()
  | .createLease _ _ => .ok "nonce"
  | .releaseLease _ _ => .ok ()
  | .now => (0 : Nat)
  | .sleep _ => ()
  | .print _ => ()

abbrev TenantApi := Script TenantCall TenantAnswer

abbrev TenantEvent := Event TenantCall TenantAnswer

/-- A function of the client, as part of a program that makes the other requests too. -/
def client {α : Type} (x : Fallible α) : TenantApi (Except Error α) := x.run.embed TenantCall.api

def createMachine (request : CreateMachineRequest) : TenantApi (Except Error Machine) :=
  ask (TenantCall.createMachine request)

def stopMachine (machineId : String) : TenantApi (Except Error Unit) :=
  ask (TenantCall.stopMachine machineId)

def deleteMachine (machineId : String) (force : Bool) : TenantApi (Except Error Unit) :=
  ask (TenantCall.deleteMachine machineId force)

def createVolume (request : CreateVolumeRequest) : TenantApi (Except Error Volume) :=
  ask (TenantCall.createVolume request)

def deleteVolume (volumeId : String) : TenantApi (Except Error Unit) :=
  ask (TenantCall.deleteVolume volumeId)

def report (note : TenantNote) : TenantApi Unit := ask (TenantCall.print note)

/-! ## Errors of actions -/

inductive MachineAction
  | stop
  | deleteMachine
  | deleteVolume

inductive MachineActionDisposition
  | alreadyApplied
  | retryable
  | fatal
  deriving DecidableEq

def classifyMachineActionError (action : MachineAction) (e : Error) : MachineActionDisposition :=
  match e.status with
  | none => .fatal
  | some status =>
      if [408, 429, 502, 503, 504, 500].contains status then .retryable
      else if status = 404 then .alreadyApplied
      else if status = 409 ∨ status = 422 then
        match action with
        | .stop => .alreadyApplied
        | .deleteMachine | .deleteVolume => .fatal
      else .fatal

/-- What an action adds to the errors. -/
def actionErrors (action : MachineAction) (text : String) : Except Error Unit → List String
  | .ok () => []
  | .error e =>
      match classifyMachineActionError action e with
      | .alreadyApplied => []
      | .retryable => [s!"{text} (retryable): {e.display}"]
      | .fatal => [s!"{text}: {e.display}"]

/-- Delete each of the given machines or volumes, and collect the errors. -/
def deleteEach (action : MachineAction) (text : String → String)
    (delete : String → TenantApi (Except Error Unit)) : List String → TenantApi (List String)
  | [] => pure []
  | id :: rest => do
      let result ← delete id
      let errors ← deleteEach action text delete rest
      return actionErrors action (text id) result ++ errors

def cleanupCreatedMachines : List String → TenantApi (List String) :=
  deleteEach .deleteMachine (fun id => s!"delete machine {id}") fun id => deleteMachine id true

def cleanupCreatedVolumes : List String → TenantApi (List String) :=
  deleteEach .deleteVolume (fun id => s!"delete volume {id}") deleteVolume

def withCleanupErrors (error : Error) (cleanupErrors : List String) (context : String) : Error :=
  let error := error.withContext context
  if cleanupErrors.isEmpty then error
  else anyhow (s!"{error.display}\ncleanup errors:\n" ++ "\n".intercalate cleanupErrors)

/-! ## Mounts -/

/-- `char::is_whitespace`. -/
def isWhite (c : Char) : Bool :=
  (9 ≤ c.toNat ∧ c.toNat ≤ 13) ∨ (0x2000 ≤ c.toNat ∧ c.toNat ≤ 0x200a) ∨
    [0x20, 0x85, 0xa0, 0x1680, 0x2028, 0x2029, 0x202f, 0x205f, 0x3000].contains c.toNat

/-- `str::trim`. -/
def trim (s : String) : String :=
  String.ofList ((s.toList.dropWhile isWhite).reverse.dropWhile isWhite).reverse

/-- `.map(str::trim).filter(|s| !s.is_empty())`. -/
def trimmed (s : Option String) : Option String := (s.map trim).filter fun s => !s.isEmpty

/-- The trimmed text of a field. -/
def textField (fields : Json.Fields) (key : String) : Option String :=
  trimmed ((Json.find fields key).bind Json.asStr)

/-- The volumes mounted in a configuration. -/
def configVolumeIds (config : Json) : List String :=
  match config.asObject.bind fun obj => (Json.find obj "mounts").bind Json.asArray with
  | some mounts => (mounts.filterMap Json.asObject).filterMap fun mount => textField mount "volume"
  | none => []

def mountedVolumeIds (machine : Machine) : List String := configVolumeIds machine.config

structure PendingMount where
  index : Nat
  name : String

/-- The mounts without a volume. -/
def pendingMounts : Nat → List Json → Except Error (List PendingMount)
  | _, [] => .ok []
  | index, mount :: rest =>
      match mount.asObject with
      | none => .error (anyhow s!"machine config mounts[{index}] must be an object")
      | some mountObj =>
          if (textField mountObj "volume").isSome then pendingMounts (index + 1) rest
          else
            match textField mountObj "name" with
            | none => .error (anyhow
                s!"machine config mounts[{index}] must include non-empty 'volume' or 'name'")
            | some name => do
                let pending ← pendingMounts (index + 1) rest
                return ⟨index, name⟩ :: pending

def defaultVolumeSizeGib : UInt32 := 30

def mountSize (mount : Json) : UInt32 :=
  (((mount.asObject.bind fun mountObj => Json.find mountObj "size_gb").bind Json.asU64).map
    UInt64.toUInt32).getD defaultVolumeSizeGib

/-- `mount_obj.insert("volume", ..)` on the mount with the given index. -/
def setVolume (mounts : List Json) (index : Nat) (volume : String) : Except Error (List Json) :=
  match mounts[index]?.bind Json.asObject with
  | some mountObj =>
      .ok (mounts.set index (.object (Json.insert mountObj "volume" (.string volume))))
  | none => .error (anyhow s!"machine config mounts[{index}] must be an object")

/-- The loop of `ensure_mount_volumes` over the pending mounts. Returns the mounts and the volumes
    created. An index outside of the mounts panics. -/
def createMountVolumes (region : Option String) (dryRun : Bool) :
    List PendingMount → List Json → List String →
      TenantApi (Except Error (List Json × List String))
  | [], mounts, created => pure (.ok (mounts, created))
  | mount :: rest, mounts, created =>
      match region with
      | none => pure (.error (anyhow (s!"machine region is required when config.mounts" ++
          s!"[{mount.index}] uses name '{mount.name}' without volume")))
      | some region =>
          match mounts[mount.index]? with
          | none => panic
          | some value =>
              if dryRun then
                match setVolume mounts mount.index s!"<auto:{mount.name}@{region}>" with
                | .error e => pure (.error e)
                | .ok mounts => createMountVolumes region dryRun rest mounts created
              else do
                let text := s!"create volume '{mount.name}' in region '{region}'"
                match ← createVolume ⟨mount.name, some region, some (mountSize value)⟩ with
                | .error e => do
                    let cleanupErrors ← cleanupCreatedVolumes created
                    return .error (withCleanupErrors (e.withContext text) cleanupErrors text)
                | .ok volume =>
                    match setVolume mounts mount.index volume.id with
                    | .error e => return .error e
                    | .ok mounts =>
                        createMountVolumes region dryRun rest mounts (created ++ [volume.id])

def ensureMountVolumes (request : CreateMachineRequest) (dryRun : Bool) :
    TenantApi (Except Error (CreateMachineRequest × List String)) :=
  match request.config.asObject with
  | none => pure (.error (anyhow "machine config must be an object"))
  | some config =>
      match Json.find config "mounts" with
      | none => pure (.ok (request, []))
      | some mounts =>
          match mounts.asArray with
          | none => pure (.error (anyhow "machine config mounts must be an array"))
          | some mounts =>
              match pendingMounts 0 mounts with
              | .error e => pure (.error e)
              | .ok pending => do
                  match ← createMountVolumes (trimmed request.region) dryRun pending mounts [] with
                  | .error e => return .error e
                  | .ok (mounts, created) =>
                      let config := .object (Json.insert config "mounts" (.array mounts))
                      return .ok ({ request with config }, created)

/-! ## create_tenant -/

def templateKey : String := "fly_vault.template"

/-- The loop over the rendered machines. Returns the requests and the volumes created. -/
def prepareRequests (tenantId templateLabel : String) (dryRun : Bool) :
    List RenderedMachineSpec → List CreateMachineRequest → List String →
      TenantApi (Except Error (List CreateMachineRequest × List String))
  | [], requests, volumes => pure (.ok (requests, volumes))
  | machine :: rest, requests, volumes =>
      let metadata := ((machine.metadata.insert tenantIdKey tenantId).insert managedByKey
        managedByValue).insert templateKey templateLabel
      match withMetadata machine.config metadata with
      | .error e => pure (.error (e.withContext "set metadata on machine config"))
      | .ok config => do
          let request := {
            name := machine.name, region := machine.region, config
            leaseTtl := machine.leaseTtl, skipLaunch := machine.skipLaunch
            skipServiceRegistration := machine.skipServiceRegistration, lsvd := machine.lsvd }
          match ← ensureMountVolumes request dryRun with
          | .error e => do
              let cleanupErrors ← cleanupCreatedVolumes volumes
              return .error (withCleanupErrors e cleanupErrors
                s!"prepare machine request for tenant '{tenantId}'")
          | .ok (request, created) =>
              prepareRequests tenantId templateLabel dryRun rest (requests ++ [request])
                (volumes ++ created)

/-- The cleanup of both kinds. -/
def cleanupCreated (machines volumes : List String) : TenantApi (List String) := do
  let machineErrors ← cleanupCreatedMachines machines
  let volumeErrors ← cleanupCreatedVolumes volumes
  return machineErrors ++ volumeErrors

/-- The loop that creates the machines. -/
def createMachines (tenantId : String) (volumes : List String) :
    List CreateMachineRequest → List String → TenantApi (Except Error (List String))
  | [], created => pure (.ok created)
  | request :: rest, created => do
      let text := s!"create machine for tenant '{tenantId}'"
      match ← createMachine request with
      | .error e => do
          let cleanupErrors ← cleanupCreated created volumes
          return .error (withCleanupErrors (e.withContext text) cleanupErrors text)
      | .ok machine => do
          report (.createdMachine machine.id)
          createMachines tenantId volumes rest (created ++ [machine.id])

/-- The loop that waits for the machines to start. -/
def waitMachines (tenantId : String) (waitTimeout : Nat) (machines volumes : List String) :
    List String → TenantApi (Except Error Unit)
  | [] => pure (.ok ())
  | machineId :: rest => do
      match ← client (waitForState machineId "started" waitTimeout none) with
      | .error e => do
          let cleanupErrors ← cleanupCreated machines volumes
          return .error (withCleanupErrors
            (e.withContext s!"wait for machine {machineId} to start") cleanupErrors
            s!"wait for tenant '{tenantId}' machines to start")
      | .ok () => waitMachines tenantId waitTimeout machines volumes rest

/-- The part of `create_tenant` after the dry run. -/
def launchMachines (tenantId : String) (waitTimeout : Nat) (requests : List CreateMachineRequest)
    (volumes : List String) : TenantApi (Except Error Unit) := do
  match ← createMachines tenantId volumes requests [] with
  | .error e => return .error e
  | .ok machines =>
      match ← waitMachines tenantId waitTimeout machines volumes machines with
      | .error e => return .error e
      | .ok () => do
          report (.created tenantId machines.length)
          return .ok ()

/-- `create_tenant`, for a client of the given app. -/
def createTenant (app tenantId : String) (templateName : Option String)
    (parsed : Except Error TenantTemplate) (order : Nat → Vars → Vars)
    (accessToken : Option String) (extraVars : Vars) (dryRun : Bool) (waitTimeout : Nat) :
    TenantApi (Except Error Unit) :=
  match loadTemplate parsed with
  | .error e => pure (.error e)
  | .ok template =>
      if template.version ≠ 1 then
        pure (.error (anyhow s!"unsupported template version {template.version} (expected 1)"))
      else if template.app ≠ app then
        pure (.error (anyhow
          s!"template app '{template.app}' does not match configured app '{app}'"))
      else
        match renderTemplate order template tenantId accessToken extraVars with
        | .error e => pure (.error e)
        | .ok rendered => do
            match ← prepareRequests tenantId (templateName.getD "template") dryRun rendered [] []
              with
            | .error e => return .error e
            | .ok (requests, volumes) =>
                if dryRun then do
                  report (.payload requests)
                  return .ok ()
                else launchMachines tenantId waitTimeout requests volumes

/-! ## delete_tenant -/

/-- `BTreeSet::insert`. -/
def insertId (id : String) : List String → List String
  | [] => [id]
  | other :: rest =>
      if other = id then other :: rest
      else if id < other then id :: other :: rest
      else other :: insertId id rest

/-- The volumes mounted by the machines. -/
def volumeIds (machines : List Machine) : List String :=
  (machines.flatMap mountedVolumeIds).foldl (fun ids id => insertId id ids) []

def reportEach (note : String → TenantNote) : List String → TenantApi Unit
  | [] => pure ()
  | id :: rest => do
      report (note id)
      reportEach note rest

def reportPlan (machines : List Machine) : TenantApi Unit :=
  match machines with
  | [] => pure ()
  | machine :: rest => do
      report (.planMachine machine.id machine.state)
      reportPlan rest

/-- Stop a machine that is started, and wait until it has stopped. -/
def stopStarted (machine : Machine) (waitTimeout : Nat) : TenantApi (List String) := do
  if machine.state ≠ "started" then return []
  else
    match ← stopMachine machine.id with
    | .error e => return actionErrors .stop s!"stop {machine.id}" (.error e)
    | .ok () =>
        match ← client (waitForState machine.id "stopped" waitTimeout machine.instanceId) with
        | .error e => return [s!"wait stopped {machine.id}: {e.display}"]
        | .ok () => return []

def deleteOneMachine (machine : Machine) (waitTimeout : Nat) : TenantApi (List String) := do
  let cordonErrors := match ← client (cordonMachine machine.id none) with
    | .error e => [s!"cordon {machine.id}: {e.display}"]
    | .ok () => []
  let stopErrors ← stopStarted machine waitTimeout
  let result ← deleteMachine machine.id true
  let deleteErrors := actionErrors .deleteMachine s!"delete machine {machine.id}" result
  return cordonErrors ++ stopErrors ++ deleteErrors

/-- The loop over the machines. -/
def deleteMachines (waitTimeout : Nat) : List Machine → TenantApi (List String)
  | [] => pure []
  | machine :: rest => do
      let errors ← deleteOneMachine machine waitTimeout
      let others ← deleteMachines waitTimeout rest
      return errors ++ others

def deleteTenant (tenantId : String) (yes : Bool) (waitTimeout : Nat) :
    TenantApi (Except Error Unit) := do
  match ← client (listManagedMachines (some tenantId)) with
  | .error e => return .error e
  | .ok machines =>
      if machines.isEmpty then do
        report (.noMachines tenantId)
        return .ok ()
      else do
        report (.plan tenantId)
        reportPlan machines
        reportEach .planVolume (volumeIds machines)
        if !yes then return .error (anyhow "refusing delete without --yes")
        else do
          let machineErrors ← deleteMachines waitTimeout machines
          -- The loop over the volumes is that of the cleanup.
          let volumeErrors ← cleanupCreatedVolumes (volumeIds machines)
          match ← client (listManagedMachines (some tenantId)) with
          | .error e => return .error e
          | .ok remaining =>
              let remainErrors := if remaining.isEmpty then []
                else [s!"{remaining.length} machine(s) still remain for tenant {tenantId}"]
              let errors := machineErrors ++ volumeErrors ++ remainErrors
              if errors.isEmpty then do
                report (.deleted tenantId)
                return .ok ()
              else return .error (anyhow
                ("tenant delete completed with errors:\n" ++ "\n".intercalate errors))

end FlyVault.Admin
