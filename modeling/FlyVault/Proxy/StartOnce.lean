/-
  The tasks of `maybe_start_machine` (`crates/proxy/src/proxy.rs`), with `start_machine` and
  `wait_for_started` (`crates/proxy/src/machines.rs`).

  A task looks its machine up, enters it in the set `starting`, starts it, waits until it runs,
  refreshes the routing tables and takes it out of the set again. The step of a task ends where
  it gives up the processor: each critical section is one step and each answer of the API is
  one. The tables and the refreshes, the poller's among them, are those of `RoutingTables`: the
  poller's refresh has the number 0, that of task `c` the number `c + 1`.

  `start_deduplicated`: in every run a machine is in the set exactly if one task for it is
  between its insertion and its removal.
-/
import FlyVault.Lib.Owned
import FlyVault.Proxy.RoutingTables

namespace FlyVault.Proxy.StartOnce

open FlyVault.Lib
open FlyVault.Proxy.RoutingTables (MachineEntry shouldStart)

/-! ## The requests -/

inductive Reply
  /-- `send` failed. -/
  | failed
  | status (code : Nat)
  deriving DecidableEq, Repr

/-- `error_for_status` with the contexts of the two errors. -/
def request (unsent refused : String) : Reply → Except String Unit
  | .failed => .error unsent
  | .status code => if 400 ≤ code ∧ code < 600 then .error refused else .ok ()

def startMachine : Reply → Except String Unit :=
  request "start machine request" "start machine error status"

def waitForStarted : Reply → Except String Unit :=
  request "wait for machine started" "wait for started error status"

/-! ## The tasks -/

/-- What a task does next. -/
inductive Phase
  /-- It reads `full_map`. -/
  | reading
  /-- It found a state from which the machine can be started, and locks `starting`. -/
  | checking
  /-- It has entered the machine; the start request is outstanding. -/
  | starting
  | waiting
  | refreshing
  /-- It takes the machine out of `starting`. -/
  | releasing
  | ended
  deriving DecidableEq, Repr

/-- Between insertion and removal. -/
def Phase.holding : Phase → Bool
  | .starting | .waiting | .refreshing | .releasing => true
  | .reading | .checking | .ended => false

structure Task where
  machineId : String
  phase : Phase
  deriving DecidableEq, Repr

variable {Ip : Type}

structure Sys (Ip : Type) where
  routing : RoutingTables.Sys Ip
  starting : String → Bool
  tasks : Nat → Option Task

def init : Sys Ip := ⟨RoutingTables.init, fun _ => false, fun _ => none⟩

inductive Label
  /-- `maybe_start_machine` is called. -/
  | spawn (c : Nat) (machineId : String)
  | read (c : Nat)
  | enter (c : Nat)
  | started (c : Nat) (reply : Reply)
  | waited (c : Nat) (reply : Reply)
  | fetch (c : Nat) (answer : Except String (List MachineEntry))
  | writeMap (c : Nat)
  | writeFull (c : Nat)
  | release (c : Nat)
  /-- A step of the poller's refresh. -/
  | poll (a : RoutingTables.Label)

def Sys.setTask (s : Sys Ip) (c : Nat) (task : Task) : Sys Ip :=
  { s with tasks := Function.update s.tasks c (some task) }

/-- The step of task `c` if it is in this phase. -/
def Sys.when (s : Sys Ip) (c : Nat) (phase : Phase) (next : String → Option (Sys Ip)) :
    Option (Sys Ip) :=
  match s.tasks c with
  | some task => if task.phase = phase then next task.machineId else none
  | none => none

/-- Where the answer of a request takes a task. -/
def afterReply (next : Phase) {α : Type} : Except String α → Phase
  | .ok _ => next
  | .error _ => .releasing

def ofPoller : RoutingTables.Label → Bool
  | .fetch i _ | .writeMap i | .writeFull i => i == 0

def step (parseIp : String → Option Ip) (s : Sys Ip) : Label → Option (Sys Ip)
  | .spawn c id =>
      match s.tasks c with
      | none => some (s.setTask c ⟨id, .reading⟩)
      | some _ => none
  | .read c => s.when c .reading fun id =>
      some (s.setTask c ⟨id, if shouldStart s.routing.tables id then .checking else .ended⟩)
  | .enter c => s.when c .checking fun id =>
      if s.starting id then some (s.setTask c ⟨id, .ended⟩)
      else some { s.setTask c ⟨id, .starting⟩ with
        starting := Function.update s.starting id true }
  | .started c reply => s.when c .starting fun id =>
      some (s.setTask c ⟨id, afterReply .waiting (startMachine reply)⟩)
  | .waited c reply => s.when c .waiting fun id =>
      some (s.setTask c ⟨id, afterReply .refreshing (waitForStarted reply)⟩)
  | .fetch c answer => s.when c .refreshing fun id =>
      (RoutingTables.step parseIp s.routing (.fetch (c + 1) answer)).map fun routing =>
        { s.setTask c ⟨id, afterReply .refreshing answer⟩ with routing := routing }
  | .writeMap c => s.when c .refreshing fun _ =>
      (RoutingTables.step parseIp s.routing (.writeMap (c + 1))).map fun routing =>
        { s with routing := routing }
  | .writeFull c => s.when c .refreshing fun id =>
      (RoutingTables.step parseIp s.routing (.writeFull (c + 1))).map fun routing =>
        { s.setTask c ⟨id, .releasing⟩ with routing := routing }
  | .release c => s.when c .releasing fun id =>
      some { s.setTask c ⟨id, .ended⟩ with starting := Function.update s.starting id false }
  | .poll a =>
      if ofPoller a then
        (RoutingTables.step parseIp s.routing a).map fun routing => { s with routing := routing }
      else none

variable {parseIp : String → Option Ip} {s s' : Sys Ip}

theorem when_eq_some {c : Nat} {phase : Phase} {next : String → Option (Sys Ip)} :
    s.when c phase next = some s' ↔
      ∃ id, s.tasks c = some ⟨id, phase⟩ ∧ next id = some s' := by
  unfold Sys.when
  cases htask : s.tasks c with
  | none => simp
  | some task =>
      obtain ⟨id, p⟩ := task
      by_cases hp : p = phase
      · simp [hp]
      · simp [hp]

theorem when_of_task {c : Nat} {id : String} {phase : Phase} {next : String → Option (Sys Ip)}
    (htask : s.tasks c = some ⟨id, phase⟩) : s.when c phase next = next id := by
  unfold Sys.when
  rw [htask]
  exact if_pos rfl

theorem setTask_self (s : Sys Ip) (c : Nat) (task : Task) :
    (s.setTask c task).tasks c = some task := Function.update_self ..

/-- The steps of task `c`. -/
def Label.ofTask (c : Nat) : Label → Bool
  | .spawn d _ | .read d | .enter d | .started d _ | .waited d _ | .fetch d _ | .writeMap d
  | .writeFull d | .release d => d == c
  | .poll _ => false

/-- No task waits for another one: each has a step until it has ended. -/
theorem task_enabled (parseIp : String → Option Ip) {c : Nat} {task : Task}
    (htask : s.tasks c = some task) (hphase : task.phase ≠ .ended) :
    ∃ a, a.ofTask c = true ∧ (step parseIp s a).isSome = true := by
  obtain ⟨id, phase⟩ := task
  cases phase with
  | reading =>
      refine ⟨.read c, beq_self_eq_true c, ?_⟩
      simp only [step, when_of_task htask, Option.isSome_some]
  | checking =>
      refine ⟨.enter c, beq_self_eq_true c, ?_⟩
      simp only [step, when_of_task htask]
      split
      · rfl
      · rfl
  | starting =>
      refine ⟨.started c .failed, beq_self_eq_true c, ?_⟩
      simp only [step, when_of_task htask, Option.isSome_some]
  | waiting =>
      refine ⟨.waited c .failed, beq_self_eq_true c, ?_⟩
      simp only [step, when_of_task htask, Option.isSome_some]
  | refreshing =>
      -- the refresh goes on from where it is
      cases hrefresh : s.routing.phase (c + 1) with
      | idle =>
          refine ⟨.fetch c (.error ""), beq_self_eq_true c, ?_⟩
          simp only [step, when_of_task htask, RoutingTables.step, hrefresh, Option.isSome_map,
            Option.isSome_some]
      | fetched t =>
          refine ⟨.writeMap c, beq_self_eq_true c, ?_⟩
          simp only [step, when_of_task htask, RoutingTables.step, hrefresh, Option.isSome_map,
            Option.isSome_some]
      | between t =>
          refine ⟨.writeFull c, beq_self_eq_true c, ?_⟩
          simp only [step, when_of_task htask, RoutingTables.step, hrefresh, Option.isSome_map,
            Option.isSome_some]
  | releasing =>
      refine ⟨.release c, beq_self_eq_true c, ?_⟩
      simp only [step, when_of_task htask, Option.isSome_some]
  | ended => exact absurd rfl hphase

theorem routing_of_map {next : RoutingTables.Sys Ip → Sys Ip} {b : RoutingTables.Label}
    (hnext : ∀ r, (next r).routing = r)
    (h : (RoutingTables.step parseIp s.routing b).map next = some s') :
    RoutingTables.step parseIp s.routing b = some s'.routing := by
  obtain ⟨r, hr, rfl⟩ := Option.map_eq_some_iff.mp h
  rw [hr, hnext]

/-- A step leaves the tables and the refreshes alone, or is a step of theirs. -/
theorem step_routing {a : Label} (h : step parseIp s a = some s') :
    s'.routing = s.routing ∨ ∃ b, RoutingTables.step parseIp s.routing b = some s'.routing := by
  cases a with
  | spawn c id =>
      simp only [step] at h
      split at h
      · cases h
        exact .inl rfl
      · cases h
  | read c | started c reply | waited c reply | release c =>
      simp only [step] at h
      obtain ⟨id, -, h⟩ := when_eq_some.mp h
      cases h
      exact .inl rfl
  | enter c =>
      simp only [step] at h
      obtain ⟨id, -, h⟩ := when_eq_some.mp h
      split at h
      · cases h
        exact .inl rfl
      · cases h
        exact .inl rfl
  | fetch c answer | writeMap c | writeFull c =>
      simp only [step] at h
      obtain ⟨id, -, h⟩ := when_eq_some.mp h
      exact .inr ⟨_, routing_of_map (fun _ => rfl) h⟩
  | poll a =>
      simp only [step] at h
      split at h
      · exact .inr ⟨_, routing_of_map (fun _ => rfl) h⟩
      · cases h

/-- What is proved of the tables for every run of `RoutingTables` holds with the tasks. -/
theorem routing_run {as : List Label} (hrun : Run (step parseIp) Any s as s') :
    ∃ bs, Run (RoutingTables.step parseIp) Any s.routing bs s'.routing := by
  induction hrun with
  | nil s => exact ⟨[], .nil _⟩
  | cons _ hstep _ ih =>
      obtain ⟨bs, hbs⟩ := ih
      obtain hsame | ⟨b, hb⟩ := step_routing hstep
      · exact ⟨bs, hsame ▸ hbs⟩
      · exact ⟨b :: bs, .cons trivial hb hbs⟩

/-! ## The owners of the set -/

/-- The machine whose entry in the set is this task's. -/
def Task.holds (task : Task) : Option String :=
  if task.phase.holding then some task.machineId else none

def owner (tasks : Nat → Option Task) (c : Nat) : Option String := (tasks c).bind Task.holds

theorem owner_update (tasks : Nat → Option Task) (c : Nat) (task : Task) :
    owner (Function.update tasks c (some task)) = Function.update (owner tasks) c task.holds := by
  funext d
  unfold owner
  by_cases h : d = c
  · subst h
    rw [Function.update_self, Function.update_self, Option.bind_some]
  · rw [Function.update_of_ne h, Function.update_of_ne h]

theorem owner_eq_some {tasks : Nat → Option Task} {c : Nat} {id : String} :
    owner tasks c = some id ↔
      ∃ phase, tasks c = some ⟨id, phase⟩ ∧ phase.holding = true := by
  unfold owner Task.holds
  constructor
  · intro h
    obtain ⟨task, htask, hid⟩ := Option.bind_eq_some_iff.mp h
    split at hid
    · next hholding =>
        cases hid
        exact ⟨task.phase, htask, hholding⟩
    · cases hid
  · intro h
    obtain ⟨phase, htask, hholding⟩ := h
    rw [htask, Option.bind_some, if_pos hholding]

/-- The entries of the set are those of the tasks between insertion and removal. -/
def Inv (s : Sys Ip) : Prop := Owned s.starting (owner s.tasks)

theorem inv_init : Inv (init : Sys Ip) := Owned.empty

/-- A task that goes on without the set keeps its entry or its lack of one. -/
theorem Inv.setTask (hs : Inv s) {c : Nat} {task : Task} (h : task.holds = owner s.tasks c) :
    Inv (s.setTask c task) := by
  unfold Inv Sys.setTask
  rw [owner_update, h, Function.update_eq_self]
  exact hs

theorem owner_of_task {c : Nat} {task : Task} (h : s.tasks c = some task) :
    owner s.tasks c = task.holds := by
  unfold owner
  rw [h, Option.bind_some]

theorem Inv.advance (hs : Inv s) {c : Nat} {task next : Task} (htask : s.tasks c = some task)
    (h : next.holds = task.holds) : Inv (s.setTask c next) :=
  hs.setTask (h.trans (owner_of_task htask).symm)

theorem holds_afterReply {α : Type} (id : String) {next : Phase} (hnext : next.holding = true)
    (answer : Except String α) : Task.holds ⟨id, afterReply next answer⟩ = some id := by
  cases answer with
  | ok _ => exact if_pos hnext
  | error _ => rfl

theorem inv_enter (hs : Inv s) {c : Nat} {id : String} (htask : s.tasks c = some ⟨id, .checking⟩)
    (hfree : s.starting id = false) :
    Inv { s.setTask c ⟨id, .starting⟩ with starting := Function.update s.starting id true } := by
  unfold Inv Sys.setTask
  rw [owner_update]
  exact Owned.acquire hs (owner_of_task htask) hfree

theorem inv_release (hs : Inv s) {c : Nat} {id : String}
    (htask : s.tasks c = some ⟨id, .releasing⟩) :
    Inv { s.setTask c ⟨id, .ended⟩ with starting := Function.update s.starting id false } := by
  unfold Inv Sys.setTask
  rw [owner_update]
  exact Owned.release hs (owner_of_task htask)

theorem inv_step (s : Sys Ip) (a : Label) (s' : Sys Ip) (hs : Inv s) (_ : Any s a)
    (h : step parseIp s a = some s') : Inv s' := by
  cases a with
  | spawn c id =>
      simp only [step] at h
      split at h
      · next hnone =>
          cases h
          refine hs.setTask ?_
          unfold owner
          rw [hnone]
          rfl
      · cases h
  | read c =>
      simp only [step] at h
      obtain ⟨id, htask, h⟩ := when_eq_some.mp h
      cases h
      refine hs.advance htask ?_
      split
      · rfl
      · rfl
  | enter c =>
      simp only [step] at h
      obtain ⟨id, htask, h⟩ := when_eq_some.mp h
      split at h
      · cases h
        exact hs.advance htask rfl
      · next hfree =>
          cases h
          exact inv_enter hs htask (eq_false_of_ne_true hfree)
  | started c reply =>
      simp only [step] at h
      obtain ⟨id, htask, h⟩ := when_eq_some.mp h
      cases h
      exact hs.advance htask (holds_afterReply id rfl _)
  | waited c reply =>
      simp only [step] at h
      obtain ⟨id, htask, h⟩ := when_eq_some.mp h
      cases h
      exact hs.advance htask (holds_afterReply id rfl _)
  | fetch c answer =>
      simp only [step] at h
      obtain ⟨id, htask, h⟩ := when_eq_some.mp h
      obtain ⟨routing, -, rfl⟩ := Option.map_eq_some_iff.mp h
      have hholds : Task.holds ⟨id, afterReply .refreshing answer⟩ = some id :=
        holds_afterReply id rfl answer
      exact hs.advance htask hholds
  | writeMap c =>
      simp only [step] at h
      obtain ⟨id, -, h⟩ := when_eq_some.mp h
      obtain ⟨routing, -, rfl⟩ := Option.map_eq_some_iff.mp h
      exact hs
  | writeFull c =>
      simp only [step] at h
      obtain ⟨id, htask, h⟩ := when_eq_some.mp h
      obtain ⟨routing, -, rfl⟩ := Option.map_eq_some_iff.mp h
      have hholds : Task.holds ⟨id, .releasing⟩ = some id := rfl
      exact hs.advance htask hholds
  | release c =>
      simp only [step] at h
      obtain ⟨id, htask, h⟩ := when_eq_some.mp h
      cases h
      exact inv_release hs htask
  | poll a =>
      simp only [step] at h
      split at h
      · obtain ⟨routing, -, rfl⟩ := Option.map_eq_some_iff.mp h
        exact hs
      · cases h

theorem step_read (parseIp : String → Option Ip) {c : Nat} {id : String}
    (htask : s.tasks c = some ⟨id, .reading⟩)
    (hstate : shouldStart s.routing.tables id = true) :
    step parseIp s (.read c) = some (s.setTask c ⟨id, .checking⟩) := by
  simp only [step, when_of_task htask, hstate, if_true]

theorem step_enter (parseIp : String → Option Ip) {c : Nat} {id : String}
    (htask : s.tasks c = some ⟨id, .checking⟩) (hfree : s.starting id = false) :
    step parseIp s (.enter c) = some { s.setTask c ⟨id, .starting⟩ with
      starting := Function.update s.starting id true } := by
  simp only [step, when_of_task htask, hfree, Bool.false_eq_true, if_false]

/-- Where the machine is not in the set, a task that finds it startable gets to start it. -/
theorem run_to_starting (parseIp : String → Option Ip) {c : Nat} {machineId : String}
    (hfree : s.starting machineId = false) (hnew : s.tasks c = none)
    (hstate : shouldStart s.routing.tables machineId = true) :
    ∃ s', Run (step parseIp) Any s [.spawn c machineId, .read c, .enter c] s' ∧
      s'.tasks c = some ⟨machineId, .starting⟩ := by
  have hspawn : step parseIp s (.spawn c machineId) =
      some (s.setTask c ⟨machineId, .reading⟩) := by
    simp only [step, hnew]
  have hread := step_read parseIp (setTask_self s c ⟨machineId, .reading⟩) hstate
  have henter := step_enter parseIp
    (setTask_self (s.setTask c ⟨machineId, .reading⟩) c ⟨machineId, .checking⟩) hfree
  exact ⟨_, .cons trivial hspawn (.cons trivial hread (.cons trivial henter (.nil _))),
    setTask_self ..⟩

/-- In every run a machine is in the set exactly if one task for it is between insertion and
    removal. So at most one start request for it is outstanding, and once all its tasks have
    ended it is not in the set and the next task for it may start it. -/
theorem start_deduplicated (parseIp : String → Option Ip) (as : List Label) (s : Sys Ip)
    (hrun : Run (step parseIp) Any init as s) (machineId : String) :
    (s.starting machineId = true ↔
      ∃! c, ∃ phase, s.tasks c = some ⟨machineId, phase⟩ ∧ phase.holding = true) ∧
    (∀ c d, s.tasks c = some ⟨machineId, .starting⟩ → s.tasks d = some ⟨machineId, .starting⟩ →
      c = d) ∧
    ((∀ c phase, s.tasks c = some ⟨machineId, phase⟩ → phase = .ended) →
      s.starting machineId = false ∧
      ∀ c, s.tasks c = none → shouldStart s.routing.tables machineId = true →
        ∃ s', Run (step parseIp) Any s [.spawn c machineId, .read c, .enter c] s' ∧
          s'.tasks c = some ⟨machineId, .starting⟩) := by
  have hinv : Inv s := hrun.inv Inv inv_step inv_init
  refine ⟨?_, ?_, ?_⟩
  · have hmem := hinv.mem_iff machineId
    simp only [owner_eq_some] at hmem
    exact hmem
  · intro c d hc hd
    exact hinv.unique c d machineId (owner_eq_some.mpr ⟨_, hc, rfl⟩)
      (owner_eq_some.mpr ⟨_, hd, rfl⟩)
  · intro hended
    have hfree : s.starting machineId = false := by
      rw [← Bool.not_eq_true]
      intro hset
      obtain ⟨c, hc⟩ := hinv.owned machineId hset
      obtain ⟨phase, htask, hholding⟩ := owner_eq_some.mp hc
      rw [hended c phase htask] at hholding
      cases hholding
    exact ⟨hfree, fun c hnew hstate => run_to_starting parseIp hfree hnew hstate⟩

/-- Two packets for a stopped machine: the second task finds the first one's entry. -/
def twoPackets : List Label :=
  [.poll (.fetch 0 (.ok RoutingTables.stopped)), .poll (.writeMap 0), .poll (.writeFull 0),
    .spawn 0 "m", .spawn 1 "m", .read 0, .read 1, .enter 1, .enter 0]

theorem start_deduplicated_two : ∃ s : Sys String, Run (step some) Any init twoPackets s ∧
    s.tasks 1 = some ⟨"m", .starting⟩ ∧ s.tasks 0 = some ⟨"m", .ended⟩ ∧
    (s.starting "m" = true ↔
      ∃! c, ∃ phase, s.tasks c = some ⟨"m", phase⟩ ∧ phase.holding = true) := by
  have hrun : ∃ s : Sys String, Run (step some) Any init twoPackets s ∧
      s.tasks 1 = some ⟨"m", .starting⟩ ∧ s.tasks 0 = some ⟨"m", .ended⟩ := by
    refine ⟨_, run_of_exec rfl, ?_, ?_⟩
    · decide
    · decide
  obtain ⟨s, hrun, hfirst, hsecond⟩ := hrun
  exact ⟨s, hrun, hfirst, hsecond, (start_deduplicated some _ s hrun "m").1⟩

end FlyVault.Proxy.StartOnce
