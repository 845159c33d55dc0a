/-
  The inner init as a process: how the setup manager launches, polls and kills it.

  `Setup` has the handle of the runtime but no processes. Here a state has in addition the inits
  that were launched and are alive, and the functions of `crates/init/src/setup.rs` that touch the
  runtime are given with what they do to them: `clone` starts one, `kill` with `waitpid` ends the
  one it is given, and `waitpid` with `WNOHANG` reports truthfully whether it is alive. All other
  functions are those of `Setup`. An init may exit at any time: within a call before one of its
  operations (`Host.exits`), which only a poll notices, or between two calls. `run_projects`:
  without the processes each operation is the one of `Setup`.

  `one_inner_init`: outside test mode, after any operations with any failures, at most one init
  is alive, it is the recorded one, and there never were two.
-/
import FlyVault.Init.SetupFiles
import FlyVault.Lib.Run

namespace FlyVault.Init.InnerInit

open FlyVault.Lib FlyVault.Protocol
open FlyVault.Init.Setup (Env World Stop Step M RuntimePoll Mount OnFiles Steady getRuntime
  setRuntime clearFallbackMarker materializeTestModePersistentLinks removePathIfExists pathExists
  restorePreviousRoot activationError hadExistingRoot setAside promote storeProvisionMarker
  stageRootfs fallbackMarker)
open Prog (wp wp_bind wp_pure wp_throw wp_tryCatch wp_mono)

/-! ## Processes -/

/-- What a call meets. The answers of its polls are not those of `env` but the truth. -/
structure Host where
  env : Env
  /-- By the `n`-th operation this init has exited. -/
  exits : Nat → Nat → Bool
  reason : String

structure State where
  world : World
  /-- The inits that were launched and are alive. -/
  alive : List Nat
  /-- The largest number of inits that were alive at a time. -/
  peak : Nat

abbrev PM (α : Type) := Prog State Stop α

variable {α β : Type}

/-- A part of the manager that has nothing to do with processes. -/
def lift (x : M α) : PM α :=
  .prim fun s => ((x.exec s.world).1, { s with world := (x.exec s.world).2 })

def attempt (x : PM α) : PM (Except String α) :=
  tryCatch (do let a ← x; pure (.ok a)) fun
    | .error e => pure (.error e)
    | stop => throw stop

/-- The inits that have exited by now are gone. -/
def State.settle (host : Host) (s : State) : State :=
  { s with alive := s.alive.filter fun pid => !host.exits s.world.ops pid }

/-- What a poll finds. -/
def State.truth (host : Host) (s : State) (pid : Nat) : RuntimePoll :=
  if (s.settle host).alive.contains pid then .alive else .exited host.reason

section Manager

variable (host : Host) (step : Step)

/-- `poll_runtime`. -/
def pollRuntime (pid : Nat) : PM RuntimePoll := do
  let found ← .prim fun s => (.ok (s.truth host pid), s.settle host)
  lift (Setup.context ("poll inner pid " ++ toString pid)
    (Setup.perform host.env step .intact fun fs => .ok (found, fs)))

/-- `kill` and `waitpid`. -/
def killAndWait (pid : Nat) : PM Unit :=
  .prim fun s => (.ok (), { s with alive := s.alive.filter (· != pid) })

/-- `launch_namespaced_init`: an error means that there is no child. -/
def launchNamespacedInit : PM Nat := do
  lift (Setup.context "launch namespaced runtime"
    (Setup.perform host.env step .intact fun fs => .ok ((), fs)))
  .prim fun s => (.ok s.world.ops,
    { s with alive := s.world.ops :: s.alive, peak := max s.peak (s.alive.length + 1) })

/-- The end of `ensure_runtime_started`. -/
def launch : PM Unit := do
  lift (clearFallbackMarker host.env step)
  let pid ← launchNamespacedInit host step
  lift (setRuntime (some pid))

def ensureRuntimeStarted : PM Unit := do
  if host.env.cfg.testMode then
    lift (do
      materializeTestModePersistentLinks host.env step .root
      setRuntime (some 1))
  else
    match ← lift getRuntime with
    | none => launch host step
    | some pid => do
        match ← pollRuntime host step pid with
        | .alive => pure ()
        | .exited _ => do
            lift (setRuntime none)
            launch host step

def stopRuntime : PM Unit := do
  match ← lift getRuntime with
  | none => pure ()
  | some pid => do
      lift (setRuntime none)
      if host.env.cfg.testMode then pure ()
      else do
        killAndWait pid
        lift (clearFallbackMarker host.env step)

end Manager

/-! ## The operations -/

section Operations

variable (host : Host)

def recover (hadRoot : Bool) (err : String) : PM Unit := do
  let restored ← lift (Setup.attempt (restorePreviousRoot host.env hadRoot))
  let _ ← attempt (if hadRoot then ensureRuntimeStarted host .restart else pure ())
  throw (.error (activationError restored err))

def startNew (hadRoot : Bool) : PM Unit := do
  match ← attempt (ensureRuntimeStarted host .start) with
  | .ok () => lift (removePathIfExists host.env .discard (.at .previous))
  | .error err => recover host hadRoot err

def activateStagedRoot : PM Unit := do
  let hadRoot ← lift (hadExistingRoot host.env)
  stopRuntime host .stop
  lift (removePathIfExists host.env .dropStale (.at .previous))
  lift (setAside host.env hadRoot)
  lift (promote host.env hadRoot)
  lift (storeProvisionMarker host.env .mark)
  startNew host hadRoot

def setupAndPrepare (rootfsTarball : Option Bytes) : PM Unit := do
  let provisioned ← lift (pathExists host.env .detect (.at .provisioned))
  match rootfsTarball with
  | some data => do
      lift (stageRootfs host.env data)
      activateStagedRoot host
  | none =>
      if provisioned then ensureRuntimeStarted host .start
      else throw (.error "cold boot requires a rootfs payload")

def startReadyRuntime : PM Unit := do
  if ← lift (pathExists host.env .detect (.at .provisioned)) then
    ensureRuntimeStarted host .start
  else pure ()

def ensureLiveInnerInitPid : PM Nat := do
  ensureRuntimeStarted host .start
  match ← lift getRuntime with
  | some pid => pure pid
  | none => throw (.error "runtime missing after startup")

def runtimeStatus : PM RuntimeStatus := do
  if host.env.cfg.testMode then do
    let runtime ← lift getRuntime
    pure (if runtime.isSome then .systemInit else .notStarted)
  else
    match ← lift getRuntime with
    | none => pure .notStarted
    | some pid => do
        match ← pollRuntime host .inspect pid with
        | .alive => do
            if ← lift (pathExists host.env .inspect (.in .root fallbackMarker)) then
              pure .fallbackInit
            else pure .systemInit
        | .exited _ => do
            lift (setRuntime none)
            lift (clearFallbackMarker host.env .inspect)
            pure .notStarted

def shutdown : PM Unit := do
  match ← lift getRuntime with
  | none => pure ()
  | some _ => do
      let _ ← attempt (stopRuntime host .stop)
      pure ()

end Operations

inductive Op
  | setupAndPrepare (rootfsTarball : Option Bytes)
  | startReadyRuntime
  | ensureLiveInnerInitPid
  | runtimeStatus
  | stopRuntime
  | shutdown

def Op.run (host : Host) : Op → PM Unit
  | .setupAndPrepare rootfsTarball => InnerInit.setupAndPrepare host rootfsTarball
  | .startReadyRuntime => InnerInit.startReadyRuntime host
  | .ensureLiveInnerInitPid => do let _ ← InnerInit.ensureLiveInnerInitPid host
  | .runtimeStatus => do let _ ← InnerInit.runtimeStatus host
  | .stopRuntime => InnerInit.stopRuntime host .stop
  | .shutdown => InnerInit.shutdown host

/-- The same operation of `Setup`. -/
def Op.plain (env : Env) : Op → M Unit
  | .setupAndPrepare rootfsTarball => Setup.setupAndPrepare env rootfsTarball
  | .startReadyRuntime => Setup.startReadyRuntime env
  | .ensureLiveInnerInitPid => do let _ ← Setup.ensureLiveInnerInitPid env
  | .runtimeStatus => do let _ ← Setup.runtimeStatus env
  | .stopRuntime => Setup.stopRuntime env .stop
  | .shutdown => Setup.shutdown env

inductive Label
  | call (host : Host) (op : Op)
  /-- An init exits between two calls. -/
  | exit (pid : Nat)

/-- When the process of the manager dies, there is no manager any more. -/
def step (s : State) : Label → Option State
  | .call host op =>
      match (op.run host).exec s with
      | (.error (.crash _), _) => none
      | (_, s') => some s'
  | .exit pid => some { s with alive := s.alive.filter (· != pid) }

/-- Outside test mode. -/
def Namespaced (_ : State) : Label → Prop
  | .call host _ => host.env.cfg.testMode = false
  | .exit _ => True

/-! ## Rules -/

section Rules

variable {s : State} {P : State → Prop} {x : PM α}

theorem wp_lift {x : M α} {Q : α → State → Prop} {E : Stop → State → Prop} :
    wp (lift x) Q E s ↔ wp x (fun a w' => Q a { s with world := w' })
      (fun e w' => E e { s with world := w' }) s.world := by
  unfold wp lift
  rw [Prog.exec_prim]
  cases x.exec s.world with
  | mk r w' =>
      cases r with
      | ok a => exact Iff.rfl
      | error e => exact Iff.rfl

/-- Operations on files change nothing but the files and the number of operations. -/
theorem wp_files {env : Env} {x : M α} (hx : OnFiles env x)
    (h : ∀ w', Steady s.world w' → P { s with world := w' }) :
    wp (lift x) (fun _ => P) (fun _ => P) s :=
  wp_lift.mpr (wp_mono (hx.steady s.world) (fun _ w' hw => h w' hw) fun _ w' hw => h w' hw)

theorem wp_attempt {Q : Except String α → State → Prop} {E F : Stop → State → Prop}
    (hx : wp x (fun a => Q (.ok a)) F s) (herror : ∀ e s', F (.error e) s' → Q (.error e) s')
    (hcrash : ∀ d s', F (.crash d) s' → E (.crash d) s') : wp (attempt x) Q E s := by
  unfold attempt
  rw [wp_tryCatch, wp_bind]
  refine wp_mono hx (fun _ _ hq => hq) fun stop s' he => ?_
  cases stop with
  | error e => exact herror e s' he
  | crash d => exact hcrash d s' he

theorem wp_getRuntime {Q : Option Nat → State → Prop} {E : Stop → State → Prop} :
    wp (lift getRuntime) Q E s ↔ Q s.world.runtime s := Iff.rfl

theorem wp_setRuntime {runtime : Option Nat} {Q : Unit → State → Prop}
    {E : Stop → State → Prop} : wp (lift (setRuntime runtime)) Q E s ↔
      Q () { s with world := { s.world with runtime := runtime } } := Iff.rfl

end Rules

/-! ## What the operations do to the inits -/

/-- No init is alive, and none is recorded. -/
structure Idle (s : State) : Prop where
  alive : s.alive = []
  runtime : s.world.runtime = none
  peak : s.peak ≤ 1

/-- At most one init is alive, and it is the recorded one. -/
structure Inv (s : State) : Prop where
  single : s.alive.length ≤ 1
  recorded : ∀ pid ∈ s.alive, s.world.runtime = some pid
  peak : s.peak ≤ 1

/-- The recorded init is alive; it was recorded before or launched in between. -/
def Live (s s' : State) : Prop :=
  ∃ pid, s'.world.runtime = some pid ∧ pid ∈ s'.alive ∧
    (s.world.runtime = some pid ∨ s.world.ops < pid)

theorem Idle.inv {s : State} (h : Idle s) : Inv s := by
  refine ⟨?_, ?_, h.peak⟩
  · rw [h.alive]
    exact Nat.zero_le 1
  · rw [h.alive]
    exact List.forall_mem_nil _

theorem Inv.idle {s : State} (h : Inv s) (hnone : s.world.runtime = none) : Idle s := by
  refine ⟨List.eq_nil_iff_forall_not_mem.mpr fun pid hpid => ?_, hnone, h.peak⟩
  have hsome := h.recorded pid hpid
  rw [hnone] at hsome
  cases hsome

theorem Idle.steady {s : State} (h : Idle s) (w' : World) (hw : Steady s.world w') :
    Idle { s with world := w' } := ⟨h.alive, hw.1.trans h.runtime, h.peak⟩

theorem Inv.steady {s : State} (h : Inv s) (w' : World) (hw : Steady s.world w') :
    Inv { s with world := w' } :=
  ⟨h.single, fun pid hpid => hw.1.trans (h.recorded pid hpid), h.peak⟩

theorem Inv.filter {s : State} (h : Inv s) (keep : Nat → Bool) :
    Inv { s with alive := s.alive.filter keep } :=
  ⟨Nat.le_trans (List.length_filter_le _ _) h.single,
    fun pid hpid => h.recorded pid (List.mem_of_mem_filter hpid), h.peak⟩

/-- Once the recorded init is gone, so is the handle. -/
theorem Inv.idle_of_gone {s : State} (h : Inv s) {pid : Nat} (hpid : s.world.runtime = some pid)
    (hgone : pid ∉ s.alive) : Idle { s with world := { s.world with runtime := none } } := by
  refine ⟨List.eq_nil_iff_forall_not_mem.mpr fun other hother => ?_, rfl, h.peak⟩
  have hsame := h.recorded other hother
  rw [hpid, Option.some.injEq] at hsame
  exact hgone (hsame ▸ hother)

variable {host : Host} {stp : Step} {s : State}

theorem launchNamespacedInit_spec (h : Idle s) :
    wp (launchNamespacedInit host stp)
      (fun pid s' => s'.alive = [pid] ∧ s'.peak ≤ 1 ∧ s.world.ops < pid) (fun _ => Idle) s := by
  unfold launchNamespacedInit
  rw [wp_bind, wp_lift]
  refine wp_mono (Setup.wp_context (Setup.wp_perform (F := fun w' => Idle { s with world := w' })
    (C := fun _ w' => Idle { s with world := w' })
    (Q := fun _ w' => w'.ops = s.world.ops + 1) ?_ ?_ ?_ ?_)) ?_ ?_
  · intro _ fs _
    rfl
  · exact fun _ _ => h.steady _ ⟨rfl, Nat.le_succ _⟩
  · exact fun _ _ => h.steady _ ⟨rfl, Nat.le_succ _⟩
  · exact fun _ => h
  · intro _ w' hops
    refine ⟨by rw [h.alive], ?_, ?_⟩
    · show max s.peak (s.alive.length + 1) ≤ 1
      rw [h.alive]
      exact Nat.max_le.mpr ⟨h.peak, Nat.le_refl 1⟩
    · show s.world.ops < w'.ops
      omega
  · intro stop w' hend
    cases stop with
    | error e => exact hend
    | crash d => exact hend

theorem launch_spec (h : Idle s) :
    wp (launch host stp) (fun _ s' => Inv s' ∧ Live s s') (fun _ => Idle) s := by
  unfold launch
  rw [wp_bind]
  refine wp_mono (wp_files Setup.onFiles_clearFallbackMarker
    (P := fun s' => Idle s' ∧ s.world.ops ≤ s'.world.ops) fun w' hw => ⟨h.steady w' hw, hw.2⟩)
    ?_ fun _ _ h => h.1
  intro _ s₁ hs₁
  obtain ⟨hidle, hops⟩ := hs₁
  rw [wp_bind]
  refine wp_mono (launchNamespacedInit_spec hidle) ?_ fun _ _ h => h
  intro pid s₂ hs₂
  obtain ⟨halive, hpeak, hpid⟩ := hs₂
  rw [wp_setRuntime]
  refine ⟨⟨?_, ?_, hpeak⟩, pid, rfl, ?_, .inr (by omega)⟩
  · show s₂.alive.length ≤ 1
    rw [halive]
    exact Nat.le_refl 1
  · intro other hother
    have hmem : other ∈ s₂.alive := hother
    rw [halive, List.mem_singleton] at hmem
    rw [hmem]
  · show pid ∈ s₂.alive
    rw [halive]
    exact List.mem_singleton.mpr rfl

/-- A truthful answer of a poll. -/
def Told (pid : Nat) (alive : List Nat) : RuntimePoll → Prop
  | .alive => pid ∈ alive
  | .exited _ => pid ∉ alive

theorem pollRuntime_spec (h : Inv s) (pid : Nat) :
    wp (pollRuntime host stp pid)
      (fun found s' => Inv s' ∧ Steady s.world s'.world ∧ Told pid s'.alive found)
      (fun _ => Inv) s := by
  have hsettled : Inv (s.settle host) := h.filter _
  unfold pollRuntime
  rw [wp_bind]
  show wp (lift _) _ _ (s.settle host)
  rw [wp_lift]
  refine wp_mono (Setup.wp_context (Setup.wp_perform
    (F := fun w' => Inv { s.settle host with world := w' })
    (C := fun _ w' => Inv { s.settle host with world := w' })
    (Q := fun found w' => found = s.truth host pid ∧ Steady s.world w') ?_ ?_ ?_ ?_)) ?_ ?_
  · intro found fs hop
    cases hop
    exact ⟨rfl, rfl, Nat.le_succ _⟩
  · exact fun _ _ => hsettled.steady _ ⟨rfl, Nat.le_succ _⟩
  · exact fun _ _ => hsettled.steady _ ⟨rfl, Nat.le_succ _⟩
  · exact fun _ => hsettled
  · intro found w' hfound
    obtain ⟨rfl, hw⟩ := hfound
    refine ⟨hsettled.steady w' hw, hw, ?_⟩
    unfold State.truth
    by_cases hmem : (s.settle host).alive.contains pid = true
    · rw [if_pos hmem]
      exact List.contains_iff_mem.mp hmem
    · rw [if_neg hmem]
      exact fun hpid => hmem (List.contains_iff_mem.mpr hpid)
  · intro stop w' hend
    cases stop with
    | error e => exact hend
    | crash d => exact hend

section

variable (htest : host.env.cfg.testMode = false)
include htest

theorem stopRuntime_spec (h : Inv s) :
    wp (stopRuntime host stp) (fun _ => Idle) (fun _ => Idle) s := by
  unfold stopRuntime
  rw [wp_bind, wp_getRuntime]
  cases hruntime : s.world.runtime with
  | none => exact h.idle hruntime
  | some pid =>
      rw [wp_bind, wp_setRuntime, if_neg (ne_true_of_eq_false htest)]
      have hgone : pid ∉ s.alive.filter (· != pid) := by simp
      have hidle := (h.filter (· != pid)).idle_of_gone hruntime hgone
      exact wp_files Setup.onFiles_clearFallbackMarker hidle.steady

theorem ensureRuntimeStarted_spec (h : Inv s) :
    wp (ensureRuntimeStarted host stp) (fun _ s' => Inv s' ∧ Live s s') (fun _ => Inv) s := by
  unfold ensureRuntimeStarted
  rw [if_neg (ne_true_of_eq_false htest), wp_bind, wp_getRuntime]
  cases hruntime : s.world.runtime with
  | none => exact wp_mono (launch_spec (h.idle hruntime)) (fun _ _ h => h) fun _ _ h => h.inv
  | some pid =>
      rw [wp_bind]
      refine wp_mono (pollRuntime_spec h pid) ?_ fun _ _ h => h
      intro found s₁ hs₁
      obtain ⟨hinv, hsteady, hfound⟩ := hs₁
      have hpid : s₁.world.runtime = some pid := hsteady.1.trans hruntime
      cases found with
      | alive => exact ⟨hinv, pid, hpid, hfound, .inl hruntime⟩
      | exited reason =>
          rw [wp_bind, wp_setRuntime]
          refine wp_mono (launch_spec (hinv.idle_of_gone hpid hfound)) ?_ fun _ _ h => h.inv
          intro _ s₂ hs₂
          obtain ⟨hinv₂, other, hother, hlive, hsame | hnew⟩ := hs₂
          · cases hsame
          · exact ⟨hinv₂, other, hother, hlive, .inr (Nat.lt_of_le_of_lt hsteady.2 hnew)⟩

/-- Without a handle a start that fails leaves none. -/
theorem ensureRuntimeStarted_idle (h : Idle s) :
    wp (ensureRuntimeStarted host stp) (fun _ => Inv) (fun _ => Idle) s := by
  unfold ensureRuntimeStarted
  rw [if_neg (ne_true_of_eq_false htest), wp_bind, wp_getRuntime, h.runtime]
  exact wp_mono (launch_spec h) (fun _ _ h => h.1) fun _ _ h => h

theorem recover_spec (h : Idle s) (hadRoot : Bool) (err : String) :
    wp (recover host hadRoot err) (fun _ => Inv) (fun _ => Inv) s := by
  unfold recover
  rw [wp_bind]
  refine wp_mono (wp_files (Setup.onFiles_restorePreviousRoot hadRoot).attempt h.steady) ?_
    fun _ _ h => h.inv
  intro restored s₁ hs₁
  rw [wp_bind]
  refine wp_attempt (F := fun _ => Inv) ?_ (fun _ _ h => h) fun _ _ h => h
  cases hadRoot with
  | true => exact wp_mono (ensureRuntimeStarted_idle htest hs₁) (fun _ _ h => h) fun _ _ h => h.inv
  | false => exact hs₁.inv

theorem startNew_spec (h : Idle s) (hadRoot : Bool) :
    wp (startNew host hadRoot) (fun _ => Inv) (fun _ => Inv) s := by
  unfold startNew
  rw [wp_bind]
  have hstart : wp (ensureRuntimeStarted host .start) (fun _ => Inv) (fun _ => Idle) s :=
    ensureRuntimeStarted_idle htest h
  refine wp_attempt (wp_mono hstart ?_ fun _ _ h => h) ?_ fun _ _ h => h.inv
  · intro _ s₁ hs₁
    exact wp_files (Setup.onFiles_removePathIfExists _) hs₁.steady
  · intro err s₁ hs₁
    exact recover_spec htest hs₁ hadRoot err

theorem activateStagedRoot_spec (h : Inv s) :
    wp (activateStagedRoot host) (fun _ => Inv) (fun _ => Inv) s := by
  unfold activateStagedRoot
  rw [wp_bind]
  refine wp_mono (wp_files Setup.onFiles_hadExistingRoot h.steady) ?_ fun _ _ h => h
  intro hadRoot s₁ hs₁
  rw [wp_bind]
  refine wp_mono (stopRuntime_spec htest hs₁) ?_ fun _ _ h => h.inv
  intro _ s₂ hs₂
  rw [wp_bind]
  refine wp_mono (wp_files (Setup.onFiles_removePathIfExists _) hs₂.steady) ?_ fun _ _ h => h.inv
  intro _ s₃ hs₃
  rw [wp_bind]
  refine wp_mono (wp_files (Setup.onFiles_setAside hadRoot) hs₃.steady) ?_ fun _ _ h => h.inv
  intro _ s₄ hs₄
  rw [wp_bind]
  refine wp_mono (wp_files (Setup.onFiles_promote hadRoot) hs₄.steady) ?_ fun _ _ h => h.inv
  intro _ s₅ hs₅
  rw [wp_bind]
  refine wp_mono (wp_files Setup.onFiles_storeProvisionMarker hs₅.steady) ?_ fun _ _ h => h.inv
  intro _ s₆ hs₆
  exact startNew_spec htest hs₆ hadRoot

theorem setupAndPrepare_spec (h : Inv s) (rootfsTarball : Option Bytes) :
    wp (setupAndPrepare host rootfsTarball) (fun _ => Inv) (fun _ => Inv) s := by
  unfold setupAndPrepare
  rw [wp_bind]
  refine wp_mono (wp_files (Setup.onFiles_pathExists _) h.steady) ?_ fun _ _ h => h
  intro provisioned s₁ hs₁
  cases rootfsTarball with
  | some data =>
      rw [wp_bind]
      refine wp_mono (wp_files (Setup.onFiles_stageRootfs data) hs₁.steady) ?_ fun _ _ h => h
      intro _ s₂ hs₂
      exact activateStagedRoot_spec htest hs₂
  | none =>
      dsimp only
      split
      · exact wp_mono (ensureRuntimeStarted_spec htest hs₁) (fun _ _ h => h.1) fun _ _ h => h
      · exact hs₁

theorem startReadyRuntime_spec (h : Inv s) :
    wp (startReadyRuntime host) (fun _ => Inv) (fun _ => Inv) s := by
  unfold startReadyRuntime
  rw [wp_bind]
  refine wp_mono (wp_files (Setup.onFiles_pathExists _) h.steady) ?_ fun _ _ h => h
  intro provisioned s₁ hs₁
  split
  · exact wp_mono (ensureRuntimeStarted_spec htest hs₁) (fun _ _ h => h.1) fun _ _ h => h
  · exact hs₁

theorem ensureLiveInnerInitPid_spec (h : Inv s) :
    wp (ensureLiveInnerInitPid host)
      (fun pid s' => Inv s' ∧ s'.world.runtime = some pid ∧ pid ∈ s'.alive ∧
        (s.world.runtime = some pid ∨ s.world.ops < pid)) (fun _ => Inv) s := by
  unfold ensureLiveInnerInitPid
  rw [wp_bind]
  refine wp_mono (ensureRuntimeStarted_spec htest h) ?_ fun _ _ h => h
  intro _ s₁ hs₁
  obtain ⟨hinv, pid, hpid, hlive⟩ := hs₁
  rw [wp_bind, wp_getRuntime, hpid]
  exact ⟨hinv, hpid, hlive⟩

theorem runtimeStatus_spec (h : Inv s) :
    wp (runtimeStatus host) (fun _ => Inv) (fun _ => Inv) s := by
  unfold runtimeStatus
  rw [if_neg (ne_true_of_eq_false htest), wp_bind, wp_getRuntime]
  cases hruntime : s.world.runtime with
  | none => exact h
  | some pid =>
      rw [wp_bind]
      refine wp_mono (pollRuntime_spec h pid) ?_ fun _ _ h => h
      intro found s₁ hs₁
      obtain ⟨hinv, hsteady, hfound⟩ := hs₁
      cases found with
      | alive =>
          rw [wp_bind]
          refine wp_mono (wp_files (Setup.onFiles_pathExists _) hinv.steady) ?_ fun _ _ h => h
          intro fallback s₂ hs₂
          split
          · exact hs₂
          · exact hs₂
      | exited reason =>
          have hidle := hinv.idle_of_gone (hsteady.1.trans hruntime) hfound
          rw [wp_bind, wp_setRuntime, wp_bind]
          exact wp_mono (wp_files Setup.onFiles_clearFallbackMarker hidle.steady)
            (fun _ _ h => h.inv) fun _ _ h => h.inv

theorem shutdown_spec (h : Inv s) : wp (shutdown host) (fun _ => Inv) (fun _ => Inv) s := by
  unfold shutdown
  rw [wp_bind, wp_getRuntime]
  cases s.world.runtime with
  | none => exact h
  | some pid =>
      rw [wp_bind]
      exact wp_attempt (wp_mono (stopRuntime_spec htest h) (fun _ _ h => h.inv) fun _ _ h => h)
        (fun _ _ h => h.inv) fun _ _ h => h.inv

theorem Op.run_spec (h : Inv s) (op : Op) :
    wp (op.run host) (fun _ => Inv) (fun _ => Inv) s := by
  cases op with
  | setupAndPrepare rootfsTarball => exact setupAndPrepare_spec htest h rootfsTarball
  | startReadyRuntime => exact startReadyRuntime_spec htest h
  | ensureLiveInnerInitPid =>
      show wp (_ >>= _) _ _ _
      rw [wp_bind]
      exact wp_mono (ensureLiveInnerInitPid_spec htest h) (fun _ _ h => h.1) fun _ _ h => h
  | runtimeStatus =>
      show wp (_ >>= _) _ _ _
      rw [wp_bind]
      exact runtimeStatus_spec htest h
  | stopRuntime =>
      exact wp_mono (stopRuntime_spec htest h) (fun _ _ h => h.inv) fun _ _ h => h.inv
  | shutdown => exact shutdown_spec htest h

end

/-! ## Every run -/

theorem inv_step (s : State) (a : Label) (s' : State) (hs : Inv s) (hok : Namespaced s a)
    (h : step s a = some s') : Inv s' := by
  cases a with
  | call host op =>
      have hspec := op.run_spec hok hs
      unfold wp at hspec
      simp only [step] at h
      split at h
      · cases h
      · next hexec =>
          cases h
          rw [hexec] at hspec
          split at hspec
          · next heq =>
              cases heq
              exact hspec
          · next heq =>
              cases heq
              exact hspec
  | exit pid =>
      cases h
      exact hs.filter _

/-- Outside test mode, in every run of the operations from a new manager, with any failures and
    with exits at any time: at most one init is alive, it is the recorded one, and no two have
    been alive at a time. A pid that `ensure_live_inner_init_pid` returns is the recorded one, and
    is the recorded one of before that its poll has found alive, or launched by the call. -/
theorem one_inner_init (as : List Label) (s₀ s : State) (hnew : s₀.world.runtime = none)
    (halive : s₀.alive = []) (hpeak : s₀.peak = 0) (hrun : Run step Namespaced s₀ as s) :
    s.alive.length ≤ 1 ∧ s.peak ≤ 1 ∧ (∀ pid ∈ s.alive, s.world.runtime = some pid) ∧
    ∀ (host : Host) (pid : Nat) (s' : State), host.env.cfg.testMode = false →
      (ensureLiveInnerInitPid host).exec s = (.ok pid, s') →
      s'.world.runtime = some pid ∧ pid ∈ s'.alive ∧
        (s.world.runtime = some pid ∨ s.world.ops < pid) := by
  have hidle : Idle s₀ := ⟨halive, hnew, hpeak ▸ Nat.zero_le 1⟩
  have hinv := hrun.inv Inv inv_step hidle.inv
  refine ⟨hinv.single, hinv.peak, hinv.recorded, ?_⟩
  intro host pid s' htest hexec
  have hspec := ensureLiveInnerInitPid_spec htest hinv
  unfold wp at hspec
  rw [hexec] at hspec
  exact hspec.2

/-- An init that exits is replaced by the next call. -/
def calmHost : Host where
  env := ⟨⟨"/data", "/data/rootfs", false⟩, fun _ => none, fun _ es => (es, true), fun _ => none,
    fun _ => .alive⟩
  exits := fun _ _ => false
  reason := "exit status 0"

def newManager : State := ⟨⟨fun _ => none, none, 0, []⟩, [], 0⟩

theorem one_inner_init_replaced : ∃ s,
    Run step Namespaced newManager [.call calmHost .ensureLiveInnerInitPid, .exit 2,
      .call calmHost .ensureLiveInnerInitPid] s ∧
    s.alive = [5] ∧ s.peak = 1 ∧ ∀ pid ∈ s.alive, s.world.runtime = some pid := by
  obtain ⟨s, hrun, halive, hpeak⟩ : ∃ s,
      Run step Namespaced newManager [.call calmHost .ensureLiveInnerInitPid, .exit 2,
        .call calmHost .ensureLiveInnerInitPid] s ∧ s.alive = [5] ∧ s.peak = 1 :=
    ⟨_, .cons rfl rfl (.cons trivial rfl (.cons rfl rfl (.nil _))), rfl, rfl⟩
  exact ⟨s, hrun, halive, hpeak, (one_inner_init _ newManager s rfl rfl rfl hrun).2.2.1⟩

/-! ## Without the processes -/

/-- The environment in which the polls are answered by `poll`. -/
def Host.told (host : Host) (poll : Nat → RuntimePoll) : Env := { host.env with poll := poll }

/-- Up to the processes `x` does from here what `y` does. -/
def Projects (x : PM α) (y : M α) (s : State) : Prop :=
  y.exec s.world = ((x.exec s).1, (x.exec s).2.world)

theorem projects_lift (x : M α) : Projects (lift x) x s := rfl

theorem Projects.bind {x : PM α} {y : M α} {f : α → PM β} {g : α → M β}
    {Q : α → State → Prop} {E : Stop → State → Prop} (hx : Projects x y s) (hwp : wp x Q E s)
    (hf : ∀ a s', Q a s' → Projects (f a) (g a) s') : Projects (x >>= f) (y >>= g) s := by
  unfold Projects at hx ⊢
  unfold wp at hwp
  rw [Prog.exec_bind, Prog.exec_bind, hx]
  cases hexec : x.exec s with
  | mk r s' =>
      rw [hexec] at hwp
      cases r with
      | ok a => exact hf a s' hwp
      | error e => rfl

theorem Projects.attempt {x : PM α} {y : M α} (hx : Projects x y s) :
    Projects (attempt x) (Setup.attempt y) s := by
  unfold Projects at hx ⊢
  unfold InnerInit.attempt Setup.attempt
  rw [Prog.exec_tryCatch, Prog.exec_tryCatch, Prog.exec_bind, Prog.exec_bind, hx]
  cases x.exec s with
  | mk r s' =>
      cases r with
      | ok a => rfl
      | error e =>
          cases e with
          | error e => rfl
          | crash d => rfl

/-- A spec that says nothing. -/
theorem wp_true (x : PM α) : wp x (fun _ _ => True) (fun _ _ => True) s := by
  unfold wp
  split
  · trivial
  · trivial

section

variable {poll : Nat → RuntimePoll}

theorem launch_projects : Projects (launch host stp) (Setup.launch (host.told poll) stp) s := by
  refine (projects_lift _).bind (wp_true _) fun _ s₁ _ => ?_
  unfold launchNamespacedInit
  rw [bind_assoc]
  exact (projects_lift _).bind (wp_true _) fun _ s₂ _ => rfl

theorem pollRuntime_projects {pid : Nat} (hpoll : poll pid = s.truth host pid) :
    Projects (pollRuntime host stp pid)
      (Setup.context ("poll inner pid " ++ toString pid)
        (Setup.perform (host.told poll) stp .intact fun fs => .ok ((host.told poll).poll pid, fs)))
      s := by
  have htold : (host.told poll).poll pid = s.truth host pid := hpoll
  rw [htold]
  rfl

/-- What the environment of `Setup` answers is the truth, if the handle is polled. -/
def Truthful (host : Host) (poll : Nat → RuntimePoll) (s : State) : Prop :=
  ∀ pid, s.world.runtime = some pid → poll pid = s.truth host pid

theorem Idle.truthful (h : Idle s) : Truthful host poll s := by
  intro pid hpid
  rw [h.runtime] at hpid
  cases hpid

theorem stopRuntime_projects :
    Projects (stopRuntime host stp) (Setup.stopRuntime (host.told poll) stp) s := by
  refine (projects_lift _).bind (wp_true _) fun runtime s₁ _ => ?_
  cases runtime with
  | none => rfl
  | some pid =>
      refine (projects_lift _).bind (wp_true _) fun _ s₂ _ => ?_
      show Projects (if host.env.cfg.testMode then _ else _)
        (if host.env.cfg.testMode then _ else _) s₂
      split
      · rfl
      · rfl

section

variable (htest : host.env.cfg.testMode = false)
include htest

theorem ensureRuntimeStarted_projects (hpoll : Truthful host poll s) :
    Projects (ensureRuntimeStarted host stp) (Setup.ensureRuntimeStarted (host.told poll) stp)
      s := by
  have htest' : ¬(host.told poll).cfg.testMode = true := ne_true_of_eq_false htest
  unfold ensureRuntimeStarted Setup.ensureRuntimeStarted
  rw [if_neg (ne_true_of_eq_false htest), if_neg htest']
  refine (projects_lift _).bind
    (Q := fun runtime s' => s' = s ∧ runtime = s.world.runtime) (E := fun _ _ => True) ⟨rfl, rfl⟩ ?_
  intro runtime s₁ hs₁
  obtain ⟨rfl, hruntime⟩ := hs₁
  cases runtime with
  | none => exact launch_projects
  | some pid =>
      refine (pollRuntime_projects (hpoll pid hruntime.symm)).bind (wp_true _) fun found s₂ _ => ?_
      cases found with
      | alive => rfl
      | exited reason =>
          exact (projects_lift _).bind (wp_true _) fun _ s₃ _ => launch_projects

theorem recover_projects (h : Idle s) (hadRoot : Bool) (err : String) :
    Projects (recover host hadRoot err) (Setup.recover (host.told poll) hadRoot err) s := by
  refine (projects_lift _).bind
    (wp_files (Setup.onFiles_restorePreviousRoot hadRoot).attempt h.steady) ?_
  intro restored s₁ hs₁
  refine Projects.bind (Projects.attempt ?_) (wp_true _) fun _ s₂ _ => rfl
  cases hadRoot with
  | true => exact ensureRuntimeStarted_projects htest hs₁.truthful
  | false => rfl

theorem startNew_projects (h : Idle s) (hadRoot : Bool) :
    Projects (startNew host hadRoot) (Setup.startNew (host.told poll) hadRoot) s := by
  have hstart : wp (ensureRuntimeStarted host .start) (fun _ => Inv) (fun _ => Idle) s :=
    ensureRuntimeStarted_idle htest h
  have hattempt : wp (attempt (ensureRuntimeStarted host .start))
      (fun r s' => ∀ e, r = .error e → Idle s') (fun _ _ => True) s := by
    refine wp_attempt (wp_mono hstart ?_ fun _ _ h => h) ?_ fun _ _ _ => trivial
    · intro _ s₁ _ e he
      cases he
    · intro e s₁ hs₁ _ _
      exact hs₁
  refine (ensureRuntimeStarted_projects htest h.truthful).attempt.bind hattempt ?_
  intro r s₁ hs₁
  cases r with
  | ok => exact projects_lift _
  | error err => exact recover_projects htest (hs₁ err rfl) hadRoot err

theorem activateStagedRoot_projects (h : Inv s) :
    Projects (activateStagedRoot host) (Setup.activateStagedRoot (host.told poll)) s := by
  refine (projects_lift _).bind (wp_files Setup.onFiles_hadExistingRoot h.steady) ?_
  intro hadRoot s₁ hs₁
  refine stopRuntime_projects.bind (stopRuntime_spec htest hs₁) ?_
  intro _ s₂ hs₂
  refine (projects_lift _).bind (wp_files (Setup.onFiles_removePathIfExists _) hs₂.steady) ?_
  intro _ s₃ hs₃
  refine (projects_lift _).bind (wp_files (Setup.onFiles_setAside hadRoot) hs₃.steady) ?_
  intro _ s₄ hs₄
  refine (projects_lift _).bind (wp_files (Setup.onFiles_promote hadRoot) hs₄.steady) ?_
  intro _ s₅ hs₅
  refine (projects_lift _).bind (wp_files Setup.onFiles_storeProvisionMarker hs₅.steady) ?_
  intro _ s₆ hs₆
  exact startNew_projects htest hs₆ hadRoot

end

/-- The truth one operation later. -/
def State.nextTruth (host : Host) (s : State) : Nat → RuntimePoll :=
  State.truth host { s with world := { s.world with ops := s.world.ops + 1 } }

/-- After a look at a path a poll comes one operation later. -/
theorem truthful_of_pathExists (p : Path Setup.Slot) :
    wp (lift (pathExists host.env stp p)) (fun _ => Truthful host (s.nextTruth host))
      (fun _ _ => True) s := by
  rw [wp_lift]
  refine wp_mono (Q := fun _ w' => w'.runtime = s.world.runtime ∧ w'.ops = s.world.ops + 1)
    (E := fun _ _ => True) ?_ ?_ fun _ _ _ => trivial
  · unfold pathExists
    rw [wp_bind]
    refine wp_mono (Setup.wp_attempt (F := fun _ => True) (C := fun _ _ => True)
      (Q := fun _ w' => w'.runtime = s.world.runtime ∧ w'.ops = s.world.ops + 1)
      (Setup.wp_perform ?_ ?_ ?_ ?_)) ?_ fun _ _ _ => trivial
    · exact fun _ _ _ => ⟨rfl, rfl⟩
    · exact fun _ _ _ => ⟨rfl, rfl⟩
    · exact fun _ _ _ => ⟨rfl, rfl⟩
    · exact fun _ => trivial
    · intro r w' hw
      cases r with
      | ok b => exact hw
      | error e => exact hw
  · intro _ w' hw pid _
    show _ = State.truth host { s with world := w' } pid
    unfold State.nextTruth State.truth State.settle
    dsimp only
    rw [hw.2]

theorem setupAndPrepare_projects (htest : host.env.cfg.testMode = false) (h : Inv s)
    (rootfsTarball : Option Bytes) :
    Projects (setupAndPrepare host rootfsTarball)
      (Setup.setupAndPrepare (host.told (s.nextTruth host)) rootfsTarball) s := by
  have hfiles : OnFiles host.env (pathExists host.env .detect (.at .provisioned)) :=
    Setup.onFiles_pathExists _
  refine (projects_lift _).bind
    (Prog.wp_and (wp_files hfiles h.steady) (truthful_of_pathExists _)) ?_
  intro provisioned s₁ hs₁
  obtain ⟨hinv, htruth⟩ := hs₁
  cases rootfsTarball with
  | some data =>
      refine (projects_lift _).bind (wp_files (Setup.onFiles_stageRootfs data) hinv.steady) ?_
      intro _ s₂ hs₂
      exact activateStagedRoot_projects htest hs₂
  | none =>
      cases provisioned with
      | true => exact ensureRuntimeStarted_projects htest htruth
      | false => rfl

theorem runtimeStatus_projects (htest : host.env.cfg.testMode = false) :
    Projects (runtimeStatus host) (Setup.runtimeStatus (host.told (s.truth host))) s := by
  have htest' : ¬(host.told (s.truth host)).cfg.testMode = true := ne_true_of_eq_false htest
  unfold runtimeStatus Setup.runtimeStatus
  rw [if_neg (ne_true_of_eq_false htest), if_neg htest']
  refine (projects_lift _).bind (Q := fun _ s' => s' = s) (E := fun _ _ => True) rfl ?_
  intro runtime s₁ hs₁
  subst hs₁
  cases runtime with
  | none => rfl
  | some pid =>
      refine (pollRuntime_projects rfl).bind (wp_true _) fun found s₂ _ => ?_
      cases found with
      | alive =>
          refine (projects_lift _).bind (wp_true _) fun fallback s₃ _ => ?_
          cases fallback with
          | true => rfl
          | false => rfl
      | exited reason =>
          refine (projects_lift _).bind (wp_true _) fun _ s₃ _ => ?_
          exact (projects_lift _).bind (wp_true _) fun _ s₄ _ => rfl

/-- Without the processes each operation is that of `Setup`, for polls that are answered with the
    truth. -/
theorem run_projects (htest : host.env.cfg.testMode = false) (h : Inv s) (op : Op) :
    ∃ poll, Projects (op.run host) (op.plain (host.told poll)) s := by
  cases op with
  | setupAndPrepare rootfsTarball =>
      exact ⟨s.nextTruth host, setupAndPrepare_projects htest h rootfsTarball⟩
  | startReadyRuntime =>
      refine ⟨s.nextTruth host, ?_⟩
      refine (projects_lift _).bind (truthful_of_pathExists _) ?_
      intro provisioned s₁ htruth
      cases provisioned with
      | true => exact ensureRuntimeStarted_projects htest htruth
      | false => rfl
  | ensureLiveInnerInitPid =>
      refine ⟨s.truth host, ?_⟩
      refine Projects.bind ?_ (wp_true _) fun _ s₁ _ => rfl
      refine (ensureRuntimeStarted_projects htest fun _ _ => rfl).bind (wp_true _) fun _ s₁ _ => ?_
      refine (projects_lift _).bind (wp_true _) fun runtime s₂ _ => ?_
      cases runtime with
      | none => rfl
      | some pid => rfl
  | runtimeStatus =>
      exact ⟨s.truth host, (runtimeStatus_projects htest).bind (wp_true _) fun _ s₁ _ => rfl⟩
  | stopRuntime => exact ⟨host.env.poll, stopRuntime_projects⟩
  | shutdown =>
      refine ⟨host.env.poll, (projects_lift _).bind (wp_true _) fun runtime s₁ _ => ?_⟩
      cases runtime with
      | none => rfl
      | some pid => exact stopRuntime_projects.attempt.bind (wp_true _) fun _ s₂ _ => rfl

end

end FlyVault.Init.InnerInit
