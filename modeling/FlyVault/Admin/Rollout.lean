/-
  Updating the image of a fleet: `update_image` of `crates/admin/src/rollout.rs`, with the choice
  of canaries, the batches, the update of one machine and the rollback.

  `update_image` starts one task for each machine of a batch and waits for all of them; its other
  calls are made one after the other. A task that panics gives a join error, and a panic of
  `update_image` itself ends it without a result. What both `update_one_machine` and
  `rollback_one_machine` do, in the same words, is one definition: store a configuration with an
  image, verify the machine, and give the lease back.
-/
import Mathlib.Algebra.Ring.Nat
import FlyVault.Admin.Machines

namespace FlyVault.Admin

open FlyVault.Lib FlyVault.Lib.Script

/-- Durations in nanoseconds. -/
structure UpdateImageOptions where
  image : String
  tenants : List String
  allTenants : Bool
  concurrency : Nat
  canary : Nat
  soak : Nat
  startTimeout : Nat
  healthTimeout : Nat
  leaseTtlSecs : UInt32

structure MachineSnapshot where
  machineId : String
  tenantId : String
  name : Option String
  region : Option String
  metadata : List (String × String)
  config : Json
  currentVersion : String
  previousImage : String

structure UpdateFailure where
  error : Error
  rollbackTarget : Option MachineSnapshot

/-! ## Choosing the targets -/

def validateSelectors (options : UpdateImageOptions) : Except Error Unit :=
  if options.allTenants && !options.tenants.isEmpty then
    .error (anyhow "use either --all-tenants or --tenant <id>..., not both")
  else if !options.allTenants && options.tenants.isEmpty then
    .error (anyhow "select tenants with --tenant <id>... or use --all-tenants")
  else .ok ()

/-- The machines of the selected tenants. -/
def retainTenants (options : UpdateImageOptions) (machines : List Machine) : List Machine :=
  if options.allTenants then machines
  else machines.filter fun machine =>
    match machine.metadata.lookup tenantIdKey with
    | some tenant => options.tenants.contains tenant
    | none => false

def snapshotFromMachine (machine : Machine) : Except Error MachineSnapshot :=
  let metadata := machine.metadata
  match metadata.lookup tenantIdKey with
  | none => .error (anyhow s!"machine {machine.id} missing {tenantIdKey} metadata")
  | some tenantId =>
      if (metadata.lookup managedByKey).getD "" ≠ managedByValue then
        .error (anyhow s!"machine {machine.id} not managed by fly-vault-admin")
      else
        match machine.instanceId with
        | none => .error (anyhow s!"machine {machine.id} missing instance_id")
        | some currentVersion =>
            match configImage machine.config with
            | none => .error (anyhow s!"machine {machine.id} config.image missing")
            | some previousImage => .ok {
                machineId := machine.id
                tenantId, name := machine.name, region := machine.region, metadata
                config := machine.config
                currentVersion, previousImage }

/-- The order the targets are sorted in: by tenant, then by machine. -/
def MachineSnapshot.le (left right : MachineSnapshot) : Bool :=
  ((compare left.tenantId right.tenantId).then (compare left.machineId right.machineId)).isLE

/-- The first loop of `select_canary_indices`: the first machine of each tenant, `count` at most. -/
def pickTenants (count : Nat) :
    List (MachineSnapshot × Nat) → List String → List Nat → List Nat
  | [], _, picked => picked
  | (snapshot, idx) :: rest, seen, picked =>
      if seen.contains snapshot.tenantId then pickTenants count rest seen picked
      else if picked.length + 1 = count then picked ++ [idx]
      else pickTenants count rest (snapshot.tenantId :: seen) (picked ++ [idx])

/-- The second loop: any other machines, until there are `count`. It does nothing when the first
    one has returned. -/
def pickOthers (count : Nat) : List Nat → List Nat → List Nat
  | [], picked => picked
  | idx :: rest, picked =>
      if picked.length = count then picked
      else if picked.contains idx then pickOthers count rest picked
      else pickOthers count rest (picked ++ [idx])

def selectCanaryIndices (targets : List MachineSnapshot) (count : Nat) : List Nat :=
  if count = 0 || targets.isEmpty then []
  else pickOthers count (List.range targets.length) (pickTenants count targets.zipIdx [] [])

/-- Add a rollback target unless its machine is there. -/
def addTarget (targets : List MachineSnapshot) (snapshot : MachineSnapshot) :
    List MachineSnapshot :=
  if targets.any (·.machineId = snapshot.machineId) then targets else targets ++ [snapshot]

def rollbackTargets (updated : List MachineSnapshot) (failures : List UpdateFailure) :
    List MachineSnapshot :=
  (failures.filterMap UpdateFailure.rollbackTarget).foldl addTarget updated

/-! ## One machine -/

section

variable (polls : Nat)

/-- Cordon a machine and store its configuration with another image. The two texts are the
    contexts in which the update and the rollback differ. -/
def storeImage (machineId nonce : String) (config : Json) (image : String)
    (metadata : List (String × String)) (name region : Option String)
    (currentVersion : Option String) (setText updateText : String) : Fallible Unit := do
  withContext s!"cordon machine {machineId}" (cordonMachine machineId (some nonce))
  let config ← withContext setText (ExceptT.mk (pure (withImage config image)))
  let config ← withContext s!"set metadata for machine {machineId}"
    (ExceptT.mk (pure (withMetadata config metadata)))
  let request := { name, region, config, currentVersion }
  let _ ← withContext updateText (updateMachine machineId request (some nonce))

/-- Wait until a machine is up, healthy and has been so for the soak window; uncordon it. -/
def verifyMachine (machineId nonce : String) (options : UpdateImageOptions) : Fallible Unit := do
  withContext s!"wait started for machine {machineId}"
    (waitForState machineId "started" options.startTimeout none)
  withContext s!"health checks for machine {machineId}"
    (waitForHealth polls machineId options.healthTimeout)
  withContext s!"soak window for machine {machineId}"
    (verifySoakWindow polls machineId options.soak)
  withContext s!"uncordon machine {machineId}" (uncordonMachine machineId (some nonce))

def uncordonAfterFailure {α : Type} (machineId nonce : String)
    (operationResult : Except Error α) : Api (Except Error Unit) :=
  if operationResult.isOk then pure (.ok ()) else (uncordonMachine machineId (some nonce)).run

/-- Uncordon after a failure, and release the lease: a release that fails after a success is a
    failure. -/
def giveBack {α : Type} (machineId nonce : String) (operationResult : Except Error α) :
    Api (Except Error α) := do
  let _ ← uncordonAfterFailure machineId nonce operationResult
  let releaseResult ← (withContext s!"release lease for machine {machineId}"
    (releaseLease machineId nonce)).run
  match releaseResult, operationResult with
  | .error e, .ok _ => return .error e
  | .error e, .error _ => do
      print (.warning e)
      return operationResult
  | .ok _, _ => return operationResult

/-- The operation of `update_one_machine`, with the rollback target, which is set between
    its two parts. -/
def updateOperation (snapshot : MachineSnapshot) (image nonce : String)
    (options : UpdateImageOptions) :
    Api (Option MachineSnapshot × Except Error MachineSnapshot) := do
  let id := snapshot.machineId
  match ← (storeImage id nonce snapshot.config image snapshot.metadata snapshot.name
    snapshot.region (some snapshot.currentVersion) s!"set image for machine {id}"
    s!"update image for machine {id}").run with
  | .error e => return (none, .error e)
  | .ok () =>
      let result ← (verifyMachine polls id nonce options).run
      return (some snapshot, result.map fun _ => snapshot)

def updateOneMachine (snapshot : MachineSnapshot) (image : String)
    (options : UpdateImageOptions) : Api (Except UpdateFailure MachineSnapshot) := do
  let id := snapshot.machineId
  match ← (withContext s!"lease machine {id}" (createLease id options.leaseTtlSecs)).run with
  | .error error => return .error { error, rollbackTarget := none }
  | .ok nonce =>
      let (rollbackTarget, operationResult) ← updateOperation polls snapshot image nonce options
      let operationResult ← giveBack id nonce operationResult
      return operationResult.mapError fun error => { error, rollbackTarget }

def rollbackOneMachine (snapshot : MachineSnapshot) (options : UpdateImageOptions) :
    Fallible Unit := do
  let id := snapshot.machineId
  let current ← withContext s!"fetch machine {id} for rollback" (getMachine id)
  match current.instanceId with
  | none => throw (anyhow s!"machine {id} missing instance_id for rollback")
  | some currentVersion =>
      let nonce ← withContext s!"lease machine {id} for rollback"
        (createLease id options.leaseTtlSecs)
      ExceptT.mk do
        let operationResult ← (do
          storeImage id nonce current.config snapshot.previousImage current.metadata current.name
            current.region (some currentVersion) s!"set rollback image for machine {id}"
            s!"rollback update for machine {id}"
          verifyMachine polls id nonce options : Fallible Unit).run
        giveBack id nonce operationResult

/-! ## The rollout -/

/-- The task of a batch: `update_one_machine` on a snapshot. -/
def rolloutTask (options : UpdateImageOptions) (snapshot : MachineSnapshot) :
    Api (Except UpdateFailure MachineSnapshot) :=
  updateOneMachine polls snapshot options.image options

/-- `update_image` starts such tasks. A join error is its text. -/
abbrev Rollout :=
  Fork Call Answer String MachineSnapshot (Except UpdateFailure MachineSnapshot)

/-- What is printed after the rollback of a machine. -/
def rollbackNote (machineId : String) : Except Error Unit → Note
  | .ok () => .rolledBack machineId
  | .error e => .rollbackFailed machineId e

def rollbackEach (options : UpdateImageOptions) : List MachineSnapshot → Api Unit
  | [] => pure ()
  | snapshot :: rest => do
      let result ← (rollbackOneMachine polls snapshot options).run
      print (rollbackNote snapshot.machineId result)
      rollbackEach options rest

def rollback (updated : List MachineSnapshot) (options : UpdateImageOptions) : Api Unit :=
  if updated.isEmpty then pure ()
  else do
    print (.rollbackStarted updated.length)
    rollbackEach polls options updated.reverse

/-- The canary stage, one machine after the other. Returns the updated machines. -/
def canaryStage (options : UpdateImageOptions) (count : Nat) :
    List MachineSnapshot → List MachineSnapshot → Api (Except Error (List MachineSnapshot))
  | [], updated => pure (.ok updated)
  | snapshot :: rest, updated => do
      print (.canary (updated.length + 1) count snapshot.machineId snapshot.tenantId)
      match ← updateOneMachine polls snapshot options.image options with
      | .error failure => do
          rollback polls (rollbackTargets updated [failure]) options
          return .error (failure.error.withContext "canary stage failed")
      | .ok _ => canaryStage options count rest (updated ++ [snapshot])

/-- The queues of the tenants, in the order of the tenants. -/
abbrev Queues := List (String × List MachineSnapshot)

def enqueue (snapshot : MachineSnapshot) : Queues → Queues
  | [] => [(snapshot.tenantId, [snapshot])]
  | (tenant, queue) :: rest =>
      if tenant = snapshot.tenantId then (tenant, queue ++ [snapshot]) :: rest
      else if snapshot.tenantId < tenant then
        (snapshot.tenantId, [snapshot]) :: (tenant, queue) :: rest
      else (tenant, queue) :: enqueue snapshot rest

/-- The next batch, at most one machine of each tenant and `room` in all, and what is left. -/
def takeBatch : Nat → Queues → List MachineSnapshot × Queues
  | _, [] => ([], [])
  | 0, queues => ([], queues)
  | room + 1, (tenant, []) :: rest =>
      let (batch, rest) := takeBatch (room + 1) rest
      (batch, (tenant, []) :: rest)
  | room + 1, (tenant, snapshot :: queue) :: rest =>
      let (batch, rest) := takeBatch room rest
      (snapshot :: batch, (tenant, queue) :: rest)

/-- The number of machines in the queues. -/
def Queues.size (queues : Queues) : Nat := (queues.map fun entry => entry.2.length).sum

theorem takeBatch_size (room : Nat) (queues : Queues) :
    (takeBatch room queues).1.length + Queues.size (takeBatch room queues).2 =
      Queues.size queues := by
  fun_induction takeBatch with
  | case1 => rfl
  | case2 => simp
  | case3 room tenant rest batch rest' heq ih =>
      rw [heq] at ih
      simpa [Queues.size] using ih
  | case4 room tenant snapshot queue rest batch rest' heq ih =>
      rw [heq] at ih
      simp only [Queues.size, List.map_cons, List.sum_cons, List.length_cons] at ih ⊢
      omega

/-- What a joined task adds to the updated machines. -/
def succeeded : Except String (Except UpdateFailure MachineSnapshot) → Option MachineSnapshot
  | .ok (.ok snapshot) => some snapshot
  | _ => none

/-- What a joined task adds to the failures. -/
def failed : Except String (Except UpdateFailure MachineSnapshot) → Option UpdateFailure
  | .ok (.ok _) => none
  | .ok (.error failure) => some failure
  | .error err => some ⟨anyhow s!"rollout task join error: {err}", none⟩

/-- The rolling stage, batch by batch. Returns the updated machines. -/
def rollingStage (options : UpdateImageOptions) (queues : Queues)
    (updated : List MachineSnapshot) : Rollout (Except Error (List MachineSnapshot)) :=
  if queues.any fun entry => !entry.2.isEmpty then
    if _hbatch : (takeBatch options.concurrency queues).1.isEmpty then pure (.ok updated)
    else do
      let joined ← join (takeBatch options.concurrency queues).1
      let updated := updated ++ joined.filterMap succeeded
      let failures := joined.filterMap failed
      if failures.isEmpty then rollingStage options (takeBatch options.concurrency queues).2 updated
      else do
        lift (rollback polls (rollbackTargets updated failures) options)
        let lines := failures.map fun failure => s!"- {failure.error.display}"
        return .error (anyhow ("rolling stage failed:\n" ++ "\n".intercalate lines))
  else pure (.ok updated)
termination_by Queues.size queues
decreasing_by
  have hsize := takeBatch_size options.concurrency queues
  have hpos := List.length_pos_iff.mpr (fun h => _hbatch (List.isEmpty_iff.mpr h))
  omega

/-- The two stages, on sorted targets. -/
def rollout (options : UpdateImageOptions) (targets : List MachineSnapshot) :
    Rollout (Except Error Unit) := do
  let indices := selectCanaryIndices targets (min options.canary targets.length)
  let canaries := (targets.zipIdx.filter fun (_, idx) => indices.contains idx).map Prod.fst
  let remaining := (targets.zipIdx.filter fun (_, idx) => !indices.contains idx).map Prod.fst
  lift (print (.canaryStage canaries.length (canaries.length + remaining.length)))
  match ← lift (canaryStage polls options canaries.length canaries []) with
  | .error e => return .error e
  | .ok updated =>
      lift (print .canaryPassed)
      if remaining.isEmpty then
        lift (print (.completed updated.length))
        return .ok ()
      else
        lift (print (.rolling remaining.length options.concurrency))
        let queues := remaining.foldl (fun queues snapshot => enqueue snapshot queues) []
        match ← rollingStage polls options queues updated with
        | .error e => return .error e
        | .ok updated =>
            lift (print (.completed updated.length))
            return .ok ()

def updateImage (options : UpdateImageOptions) : Rollout (Except Error Unit) :=
  match validateSelectors options with
  | .error e => pure (.error e)
  | .ok () =>
      if options.concurrency = 0 then pure (.error (anyhow "--concurrency must be >= 1"))
      else do
        match ← lift (listManagedMachines none).run with
        | .error e => return .error e
        | .ok machines =>
            let machines := retainTenants options machines
            if machines.isEmpty then return .error (anyhow "no target machines selected")
            else
              match machines.mapM snapshotFromMachine with
              | .error e => return .error e
              | .ok targets => rollout polls options (targets.mergeSort MachineSnapshot.le)

end

end FlyVault.Admin
