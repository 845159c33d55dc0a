/-
  The setup manager of init (`crates/init/src/setup.rs`): staging a rootfs, activating it,
  restoring the previous one, and starting the runtime.

  The data directory has five kinds of places: the active rootfs, the staged and the previous
  one, the provision marker and the persistent directories. Every operation on them goes
  through `perform`, which asks the environment whether it fails or whether the process dies
  there. A failed removal, extraction or write may leave anything behind at the path it worked
  on; the other operations fail without an effect. The process dies just before an operation, or
  in the middle of a removal or an extraction; renames and writes are atomic. `exists` answers
  `false` when its `stat` fails. `World.failed` lists the steps of the failures, latest first.

  Extraction of an archive is the function `unpack` of the environment. The child of the clone
  runs on its own and is not part of a call; the runtime is the process id.
-/
import FlyVault.Lib.FileTree
import FlyVault.Lib.Prog
import FlyVault.Protocol.Control

namespace FlyVault.Init.Setup

open FlyVault.Lib FlyVault.Protocol

/-! ## The data directory -/

/-- `persistent_mounts`. -/
inductive Mount
  | root
  | home
  deriving DecidableEq, Repr

/-- `target_relative`. -/
def Mount.name : Mount → String
  | .root => "root"
  | .home => "home"

inductive Slot
  | root
  | staging
  | previous
  | provisioned
  | persist (m : Mount)
  deriving DecidableEq, Repr

structure Config where
  dataDir : String
  rootMountDir : String
  testMode : Bool
  deriving DecidableEq, Repr

/-- `SetupManager::new`: where the places are. -/
def Config.path (cfg : Config) : Slot → String
  | .root => cfg.rootMountDir
  | .staging => cfg.dataDir ++ "/rootfs.staging"
  | .previous => cfg.dataDir ++ "/rootfs.previous"
  | .provisioned => cfg.dataDir ++ "/.provisioned"
  | .persist m => cfg.dataDir ++ "/persist/" ++ m.name

/-- `display`. -/
def Config.display (cfg : Config) (p : Path Slot) : String :=
  match p.entry with
  | none => cfg.path p.place
  | some name => cfg.path p.place ++ "/" ++ name

/-- The file name of `fallback_marker_file`. -/
def fallbackMarker : String := ".fly-vault-fallback-init"

/-! ## Operations that may fail -/

/-- The steps of the setup, as labels of their operations. -/
inductive Step
  | detect
  | stage
  | inspect
  | stop
  | dropStale
  | setAside
  | promote
  | mark
  | start
  | discard
  | clearNew
  | putBack
  | remark
  | cleanup
  | restart
  deriving DecidableEq, Repr

inductive Fault
  /-- The operation fails; `residue` is what a failed removal, extraction or write leaves. -/
  | error (residue : Option Node)
  /-- The process dies before the operation, or in the middle of a removal or an extraction,
      when the directory it works on has come to be `left`. -/
  | crash (left : Option Entries)

inductive RuntimePoll
  | alive
  | exited (reason : String)

/-- The environment: what happens to the `n`-th operation, what an archive extracts to over
    given entries and whether that succeeds, where links lead, and the state of a runtime. -/
structure Env where
  cfg : Config
  plan : Nat → Option Fault
  unpack : Bytes → Entries → Entries × Bool
  links : String → Option Kind
  poll : Nat → RuntimePoll

structure World where
  fs : Fs Slot
  runtime : Option Nat
  ops : Nat
  failed : List Step

/-- Where the process died, and what the operation it interrupted left. -/
structure Death where
  step : Step
  left : Option Entries

inductive Stop
  | error (message : String)
  | crash (death : Death)

abbrev M (α : Type) := Prog World Stop α

variable {α : Type}

/-- After an operation that took place. -/
def World.next (w : World) (fs : Fs Slot) : World := { w with fs := fs, ops := w.ops + 1 }

/-- After an operation that failed. -/
def World.fail (w : World) (step : Step) (fs : Fs Slot) : World :=
  { w.next fs with failed := step :: w.failed }

/-- What an operation may leave that does not complete. -/
inductive Damage
  /-- It has no effect. -/
  | intact
  /-- It may leave anything at the path it works on. -/
  | leave (p : Path Slot)
  /-- It may leave a file with other content, also where there was none. -/
  | leaveFile (p : Path Slot)

def Damage.apply : Damage → Option Node → Fs Slot → Fs Slot
  | .leave p, some n, fs => fs.put p (some n)
  | .leaveFile p, some (.file content), fs =>
      match fs.get p with
      | some (.file _) | none => fs.put p (some (.file content))
      | _ => fs
  | _, _, fs => fs

/-- The process dies at an operation. -/
def World.die (w : World) (step : Step) (damage : Damage) (left : Option Entries) :
    Death × World :=
  match damage, left with
  | .leave p, some es => (⟨step, some es⟩, { w with fs := w.fs.put p (some (.dir es)) })
  | _, _ => (⟨step, none⟩, w)

def perform (env : Env) (step : Step) (damage : Damage)
    (op : Fs Slot → Except String (α × Fs Slot)) : M α :=
  .prim fun w =>
    match env.plan w.ops with
    | some (.error residue) =>
        (.error (.error "i/o error"), w.fail step (damage.apply residue w.fs))
    | some (.crash left) => (.error (.crash (w.die step damage left).1), (w.die step damage left).2)
    | none =>
        match op w.fs with
        | .ok (a, fs) => (.ok a, w.next fs)
        | .error e => (.error (.error e), w.fail step w.fs)

/-- A result that the caller looks at. -/
def attempt (x : M α) : M (Except String α) :=
  tryCatch (do let a ← x; pure (.ok a)) fun
    | .error e => pure (.error e)
    | stop => throw stop

/-- `with_context`. -/
def context (text : String) (x : M α) : M α :=
  tryCatch x fun
    | .error e => throw (.error (text ++ ": " ++ e))
    | stop => throw stop

def getRuntime : M (Option Nat) := .prim fun w => (.ok w.runtime, w)

def setRuntime (runtime : Option Nat) : M Unit :=
  .prim fun w => (.ok (), { w with runtime := runtime })

section Manager

variable (env : Env) (step : Step)

/-- `Path::exists`. -/
def pathExists (p : Path Slot) : M Bool := do
  match ← attempt (perform env step .intact fun fs => .ok (fs.pathExists env.links p, fs)) with
  | .ok b => pure b
  | .error _ => pure false

/-- `fs::symlink_metadata`, `none` for `NotFound`. -/
def symlinkMetadata (p : Path Slot) : M (Option Kind) :=
  perform env step .intact fun fs => .ok (fs.lstat p, fs)

/-- `if let Ok(metadata) = fs::symlink_metadata(p)`. -/
def peek (p : Path Slot) : M (Option Kind) := do
  match ← attempt (symlinkMetadata env step p) with
  | .ok kind => pure kind
  | .error _ => pure none

/-- `fs::remove_file`, `false` for `NotFound`. -/
def removeFile (p : Path Slot) : M Bool := perform env step .intact (Fs.removeFile p)

def removeDirAll (p : Path Slot) : M Unit := perform env step (.leave p) (Fs.removeDirAll p)

def createDirAll (p : Path Slot) : M Unit :=
  perform env step .intact (Fs.createDirAll env.links p)

def rename (p q : Path Slot) : M Unit := perform env step .intact (Fs.rename p q)

/-! ## Helpers of the setup manager -/

/-- `fs::remove_file` where the file is expected to be there. -/
def unlink (p : Path Slot) : M Unit := do
  if ← removeFile env step p then pure () else throw (.error "no such file or directory")

/-- `remove_path_if_exists`. -/
def removePathIfExists (p : Path Slot) : M Unit := do
  match ← context ("stat " ++ env.cfg.display p) (symlinkMetadata env step p) with
  | none => pure ()
  | some .file => context ("remove " ++ env.cfg.display p) (unlink env step p)
  | some .symlink => context ("remove " ++ env.cfg.display p) (unlink env step p)
  | some _ => context ("remove " ++ env.cfg.display p) (removeDirAll env step p)

/-- `reset_dir`. -/
def resetDir (p : Path Slot) : M Unit := do
  removePathIfExists env step p
  context ("create " ++ env.cfg.display p) (createDirAll env step p)

/-- `ensure_directory`. -/
def ensureDirectory (p : Path Slot) : M Unit := do
  if ← pathExists env step p then
    match ← context ("stat " ++ env.cfg.display p) (symlinkMetadata env step p) with
    | some .dir => pure ()
    | some _ => throw (.error (env.cfg.display p ++ " must be a directory"))
    | none => throw (.error ("stat " ++ env.cfg.display p ++ ": no such file or directory"))
  else context ("create " ++ env.cfg.display p) (createDirAll env step p)

/-- The first half of `ensure_persistent_source_dir`: a persistent directory that is missing
    is taken from the rootfs. The parent directory holds no data of its own. -/
def adoptSource (m : Mount) (target : Path Slot) : M Unit := do
  if ← pathExists env step (.at (.persist m)) then pure ()
  else
    match ← peek env step target with
    | some .dir => do
        context ("create " ++ env.cfg.dataDir ++ "/persist")
          (perform env step .intact fun fs => .ok ((), fs))
        context ("move " ++ env.cfg.display target ++ " to " ++ env.cfg.path (.persist m))
          (rename env step target (.at (.persist m)))
    | some _ =>
        throw (.error ("persistent target " ++ env.cfg.display target ++ " must be a directory"))
    | none => pure ()

/-- `ensure_persistent_source_dir`. -/
def ensurePersistentSourceDir (m : Mount) (target : Path Slot) : M Unit := do
  adoptSource env step m target
  ensureDirectory env step (.at (.persist m))

/-- The first half of `replace_with_symlink`. -/
def clearTarget (target : Path Slot) : M Unit := do
  match ← peek env step target with
  | some .symlink => context ("remove " ++ env.cfg.display target) (unlink env step target)
  | some .file => context ("remove " ++ env.cfg.display target) (unlink env step target)
  | some .dir => context ("remove " ++ env.cfg.display target) (removeDirAll env step target)
  | some .special =>
      throw (.error ("cannot replace unsupported target type at " ++ env.cfg.display target))
  | none => pure ()

/-- `replace_with_symlink`. -/
def replaceWithSymlink (m : Mount) (target : Path Slot) : M Unit := do
  clearTarget env step target
  context ("symlink " ++ env.cfg.display target ++ " -> " ++ env.cfg.path (.persist m))
    (perform env step .intact (Fs.symlink (env.cfg.path (.persist m)) target))

/-- One turn of `prepare_persistent_layout`. -/
def prepareMount (dir : Slot) (m : Mount) : M Unit := do
  ensurePersistentSourceDir env step m (.in dir m.name)
  if env.cfg.testMode then replaceWithSymlink env step m (.in dir m.name)
  else ensureDirectory env step (.in dir m.name)

/-- `prepare_persistent_layout`. -/
def preparePersistentLayout (dir : Slot) : M Unit := do
  prepareMount env step dir .root
  prepareMount env step dir .home

/-- One turn of `materialize_test_mode_persistent_links`. -/
def linkMount (dir : Slot) (m : Mount) : M Unit := do
  ensurePersistentSourceDir env step m (.in dir m.name)
  replaceWithSymlink env step m (.in dir m.name)

/-- `materialize_test_mode_persistent_links`. -/
def materializeTestModePersistentLinks (dir : Slot) : M Unit := do
  linkMount env step dir .root
  linkMount env step dir .home

/-- `clear_fallback_marker`. -/
def clearFallbackMarker : M Unit := do
  let _ ← context ("remove " ++ env.cfg.display (.in .root fallbackMarker))
    (removeFile env step (.in .root fallbackMarker))
  pure ()

/-- `store_provision_marker`. -/
def storeProvisionMarker : M Unit :=
  context ("write " ++ env.cfg.path .provisioned)
    (perform env step (.leaveFile (.at .provisioned)) (Fs.write (.at .provisioned) [0x31]))

/-- `clear_provision_marker`. -/
def clearProvisionMarker : M Unit := do
  let _ ← context ("remove " ++ env.cfg.path .provisioned)
    (removeFile env step (.at .provisioned))
  pure ()

/-! ## The runtime -/

/-- The end of `ensure_runtime_started`. The number of operations so far stands for the process
    id `launch_namespaced_init` returns. -/
def launch : M Unit := do
  clearFallbackMarker env step
  context "launch namespaced runtime" (perform env step .intact fun fs => .ok ((), fs))
  .prim fun w => (.ok (), { w with runtime := some w.ops })

/-- `ensure_runtime_started`. -/
def ensureRuntimeStarted : M Unit := do
  if env.cfg.testMode then do
    materializeTestModePersistentLinks env step .root
    setRuntime (some 1)
  else
    match ← getRuntime with
    | none => launch env step
    | some pid => do
        match ← context ("poll inner pid " ++ toString pid)
            (perform env step .intact fun fs => .ok (env.poll pid, fs)) with
        | .alive => pure ()
        | .exited _ => do
            setRuntime none
            launch env step

/-- `stop_runtime`; the results of `kill` and `waitpid` are ignored. -/
def stopRuntime : M Unit := do
  match ← getRuntime with
  | none => pure ()
  | some _ => do
      setRuntime none
      if env.cfg.testMode then pure () else clearFallbackMarker env step

end Manager

/-! ## Provisioning -/

section Provisioning

variable (env : Env)

/-- `extract_rootfs` into the staged rootfs. -/
def extractRootfs (data : Bytes) : M Unit :=
  context ("extract rootfs into " ++ env.cfg.path .staging)
    (do
      let success ← perform env .stage (.leave (.at .staging)) fun fs =>
        match fs .staging with
        | some (.dir es) =>
            let (es', success) := env.unpack data es
            .ok (success, fs.put (.at .staging) (some (.dir es')))
        | _ => .error "not a directory"
      if success then pure () else throw (.error "failed to unpack"))

/-- `stage_rootfs`. -/
def stageRootfs (data : Bytes) : M Unit := do
  resetDir env .stage (.at .staging)
  extractRootfs env data
  preparePersistentLayout env .stage .staging

/-- `had_existing_root`. -/
def hadExistingRoot : M Bool := do
  if ← pathExists env .inspect (.at .provisioned) then pure true
  else pathExists env .inspect (.at .root)

/-- The move of the active rootfs to `rootfs.previous`. -/
def setAside (hadRoot : Bool) : M Unit := do
  if hadRoot then
    if ← pathExists env .setAside (.at .root) then
      context ("rename " ++ env.cfg.path .root ++ " -> " ++ env.cfg.path .previous)
        (rename env .setAside (.at .root) (.at .previous))
    else pure ()
  else pure ()

/-- The middle of `restore_previous_root`. -/
def putBack (hadRoot : Bool) : M Unit := do
  if hadRoot then
    if ← pathExists env .putBack (.at .previous) then do
      context ("restore " ++ env.cfg.path .previous ++ " -> " ++ env.cfg.path .root)
        (rename env .putBack (.at .previous) (.at .root))
      storeProvisionMarker env .remark
    else clearProvisionMarker env .remark
  else clearProvisionMarker env .remark

/-- `restore_previous_root`. -/
def restorePreviousRoot (hadRoot : Bool) : M Unit := do
  removePathIfExists env .clearNew (.at .root)
  putBack env hadRoot
  removePathIfExists env .cleanup (.at .staging)

/-- The move of the staged rootfs to its place. -/
def promote (hadRoot : Bool) : M Unit := do
  match ← attempt
      (context ("rename " ++ env.cfg.path .staging ++ " -> " ++ env.cfg.path .root)
        (rename env .promote (.at .staging) (.at .root))) with
  | .ok () => pure ()
  | .error err => do
      restorePreviousRoot env hadRoot
      throw (.error err)

/-- The error of a start that failed, with the one of `restore_previous_root` around it if that
    failed as well. -/
def activationError (restored : Except String Unit) (err : String) : String :=
  match restored with
  | .ok () => "start new runtime after rootfs activation: " ++ err
  | .error restoreErr =>
      "restore previous rootfs failed: " ++ restoreErr ++
        ": start new runtime after rootfs activation: " ++ err

/-- What `activate_staged_root` does when the new runtime does not start. -/
def recover (hadRoot : Bool) (err : String) : M Unit := do
  let restored ← attempt (restorePreviousRoot env hadRoot)
  let _ ← attempt (if hadRoot then ensureRuntimeStarted env .restart else pure ())
  throw (.error (activationError restored err))

/-- The last part of `activate_staged_root`. -/
def startNew (hadRoot : Bool) : M Unit := do
  match ← attempt (ensureRuntimeStarted env .start) with
  | .ok () => removePathIfExists env .discard (.at .previous)
  | .error err => recover env hadRoot err

/-- `activate_staged_root`. -/
def activateStagedRoot : M Unit := do
  let hadRoot ← hadExistingRoot env
  stopRuntime env .stop
  removePathIfExists env .dropStale (.at .previous)
  setAside env hadRoot
  promote env hadRoot
  storeProvisionMarker env .mark
  startNew env hadRoot

/-- `setup_and_prepare`. -/
def setupAndPrepare (rootfsTarball : Option Bytes) : M Unit := do
  let provisioned ← pathExists env .detect (.at .provisioned)
  match rootfsTarball with
  | some data => do
      stageRootfs env data
      activateStagedRoot env
  | none =>
      if provisioned then ensureRuntimeStarted env .start
      else throw (.error "cold boot requires a rootfs payload")

/-! ## The other operations -/

/-- `start_ready_runtime`. -/
def startReadyRuntime : M Unit := do
  if ← pathExists env .detect (.at .provisioned) then ensureRuntimeStarted env .start
  else pure ()

/-- `ensure_live_inner_init_pid`. -/
def ensureLiveInnerInitPid : M Nat := do
  ensureRuntimeStarted env .start
  match ← getRuntime with
  | some pid => pure pid
  | none => throw (.error "runtime missing after startup")

/-- `runtime_status`. -/
def runtimeStatus : M RuntimeStatus := do
  if env.cfg.testMode then do
    let runtime ← getRuntime
    pure (if runtime.isSome then .systemInit else .notStarted)
  else
    match ← getRuntime with
    | none => pure .notStarted
    | some pid => do
        match ← context ("poll inner pid " ++ toString pid)
            (perform env .inspect .intact fun fs => .ok (env.poll pid, fs)) with
        | .alive => do
            if ← pathExists env .inspect (.in .root fallbackMarker) then pure .fallbackInit
            else pure .systemInit
        | .exited _ => do
            setRuntime none
            clearFallbackMarker env .inspect
            pure .notStarted

/-- `shutdown`; the result of `stop_runtime` is ignored. -/
def shutdown : M Unit := do
  match ← getRuntime with
  | none => pure ()
  | some _ => do
      let _ ← attempt (stopRuntime env .stop)
      pure ()

end Provisioning

/-- `detect_state`. -/
def detectState (env : Env) (fs : Fs Slot) : VmState :=
  if fs.pathExists env.links (.at .provisioned) then .ready else .cold

end FlyVault.Init.Setup
