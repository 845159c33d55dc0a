/-
  The shell of the shared console (`SharedConsoleManager::attach`, `crates/init/src/forward.rs`).

  Any number of calls of `attach` are under way, each with a number. A call is cut where another
  task can come in between: its two sections under the lock of the manager, the subscription, and
  the look at the exit code after it. A shell may exit at any time, also one that nobody has got
  yet, and a call or an attachment may be dropped at any time. What is kept of a session is its
  exit code; a session is known by its number, which stands for the identity `Arc::ptr_eq`
  compares.

  `single_live_shell`: in every reachable state a shell that has not finished is the one stored in
  the manager, so there is at most one, and all clients attached to an unfinished shell are
  attached to that one. `Sys.choose` and `Sys.clear` of `SharedConsole` are the two sections here
  (`managerOf_choose`, `managerOf_clear`).
-/
import FlyVault.Init.SharedConsole
import FlyVault.Lib.Update

namespace FlyVault.Init.SharedShell

open FlyVault.Lib

/-- `SharedConsoleManager`, with the exit code of every session ever spawned. -/
structure Manager where
  exitCodes : List (Option UInt32)
  session : Option Nat
  deriving DecidableEq, Repr

/-- `is_finished`. -/
def Manager.isFinished (m : Manager) (k : Nat) : Bool :=
  match m.exitCodes[k]? with
  | some exitCode => exitCode.isSome
  | none => false

/-- `SharedConsoleSession::spawn` and the store; `spawnError` is what it fails with. -/
def Manager.spawn (m : Manager) : Option String → Except String Nat × Manager
  | some error => (.error error, m)
  | none => (.ok m.exitCodes.length,
      { exitCodes := m.exitCodes ++ [none], session := some m.exitCodes.length })

/-- The first section under the lock. -/
def Manager.choose (m : Manager) (spawnError : Option String) : Except String Nat × Manager :=
  match m.session with
  | some existing => if m.isFinished existing then m.spawn spawnError else (.ok existing, m)
  | none => m.spawn spawnError

/-- The second section under the lock. -/
def Manager.clear (m : Manager) (k : Nat) : Manager :=
  if m.session = some k then { m with session := none } else m

/-- A call of `attach` between two of its steps, and after it. -/
inductive Phase
  | choosing
  | chosen (k : Nat)
  | subscribed (k : Nat)
  /-- The session it has got is finished. -/
  | clearing (k : Nat)
  | attached (k : Nat)
  | failed (error : String)
  deriving DecidableEq, Repr

structure Sys where
  manager : Manager
  calls : Nat → Option Phase

def init : Sys := ⟨⟨[], none⟩, fun _ => none⟩

inductive Label
  | call (c : Nat)
  | choose (c : Nat) (spawnError : Option String)
  | subscribe (c : Nat)
  | check (c : Nat)
  | clear (c : Nat)
  /-- A call or an attachment is dropped. -/
  | drop (c : Nat)
  | exit (k : Nat) (code : UInt32)
  deriving DecidableEq, Repr

def Sys.goTo (s : Sys) (c : Nat) (phase : Phase) : Sys :=
  { s with calls := Function.update s.calls c (some phase) }

/-- Where a call goes with the result of its first section. -/
def Phase.afterChoice : Except String Nat → Phase
  | .ok k => .chosen k
  | .error error => .failed error

def step (s : Sys) : Label → Option Sys
  | .call c => if s.calls c = none then some (s.goTo c .choosing) else none
  | .choose c spawnError =>
      if s.calls c = some .choosing then
        let (result, manager) := s.manager.choose spawnError
        some ({ s with manager }.goTo c (.afterChoice result))
      else none
  | .subscribe c =>
      match s.calls c with
      | some (.chosen k) => some (s.goTo c (.subscribed k))
      | _ => none
  | .check c =>
      match s.calls c with
      | some (.subscribed k) =>
          some (s.goTo c (if s.manager.isFinished k then .clearing k else .attached k))
      | _ => none
  | .clear c =>
      match s.calls c with
      | some (.clearing k) => some ({ s with manager := s.manager.clear k }.goTo c .choosing)
      | _ => none
  | .drop c => some { s with calls := Function.update s.calls c none }
  | .exit k code =>
      if s.manager.exitCodes[k]? = some none then
        some { s with manager :=
          { s.manager with exitCodes := s.manager.exitCodes.set k (some code) } }
      else none

/-! ## The invariant -/

/-- The shell has not exited. -/
def Manager.Live (m : Manager) (k : Nat) : Prop := m.exitCodes[k]? = some none

theorem Manager.isFinished_iff {m : Manager} {k : Nat} :
    m.isFinished k = true ↔ k < m.exitCodes.length ∧ ¬ m.Live k := by
  unfold Manager.isFinished Manager.Live
  by_cases hk : k < m.exitCodes.length
  · rw [List.getElem?_eq_getElem hk]
    cases m.exitCodes[k] <;> simp [hk]
  · rw [List.getElem?_eq_none (Nat.le_of_not_lt hk)]
    simp [hk]

/-- What the manager stores is a session, and the only one that may be live. -/
structure Manager.Ok (m : Manager) : Prop where
  stored : ∀ k, m.session = some k → k < m.exitCodes.length
  live : ∀ k, m.Live k → m.session = some k

theorem Manager.Ok.spawn {m : Manager} (h : m.Ok) (spawnError : Option String)
    (hdead : ∀ k, ¬ m.Live k) : (m.spawn spawnError).2.Ok := by
  cases spawnError with
  | some error => exact h
  | none =>
      have hlength : (m.exitCodes ++ [none]).length = m.exitCodes.length + 1 := by simp
      refine ⟨fun k hk => ?_, fun k hlive => ?_⟩
      · cases hk
        exact Nat.lt_of_lt_of_eq (Nat.lt_succ_self _) hlength.symm
      · obtain ⟨hk, hcode⟩ := List.getElem?_eq_some_iff.mp hlive
        by_cases hold : k < m.exitCodes.length
        · refine absurd ?_ (hdead k)
          have hget : (m.exitCodes ++ [none])[k]? = m.exitCodes[k]? :=
            List.getElem?_append_left hold
          exact hget.symm.trans hlive
        · have heq : m.exitCodes.length = k := by
            have hk' : k < (m.exitCodes ++ [none]).length := hk
            omega
          exact congrArg some heq

theorem Manager.Ok.choose {m : Manager} (h : m.Ok) (spawnError : Option String) :
    (m.choose spawnError).2.Ok := by
  unfold Manager.choose
  split
  · next existing hsession =>
      split
      · next hfinished =>
          refine h.spawn spawnError fun k hlive => ?_
          have heq : existing = k := Option.some.inj (hsession.symm.trans (h.live k hlive))
          subst heq
          exact (Manager.isFinished_iff.mp hfinished).2 hlive
      · exact h
  · next hsession =>
      refine h.spawn spawnError fun k hlive => ?_
      have hstored := h.live k hlive
      rw [hsession] at hstored
      cases hstored

theorem Manager.Ok.clear {m : Manager} (h : m.Ok) {k : Nat} (hdead : ¬ m.Live k) :
    (m.clear k).Ok := by
  unfold Manager.clear
  split
  · next hsession =>
      refine ⟨fun j hj => (by cases hj), fun j hlive => ?_⟩
      have heq : k = j := Option.some.inj (hsession.symm.trans (h.live j hlive))
      subst heq
      exact absurd hlive hdead
  · exact h

/-- The exit of a shell makes no other one live. -/
theorem Manager.live_set {m : Manager} {j k : Nat} {code : UInt32}
    (h : ({ m with exitCodes := m.exitCodes.set j (some code) } : Manager).Live k) :
    m.Live k := by
  unfold Manager.Live at h ⊢
  dsimp only at h
  rw [List.getElem?_set] at h
  split at h
  · split at h
    · cases h
    · cases h
  · exact h

theorem Manager.Ok.exit {m : Manager} (h : m.Ok) (k : Nat) (code : UInt32) :
    ({ m with exitCodes := m.exitCodes.set k (some code) } : Manager).Ok := by
  refine ⟨fun j hj => ?_, fun j hlive => h.live j (Manager.live_set hlive)⟩
  show j < (m.exitCodes.set k (some code)).length
  rw [List.length_set]
  exact h.stored j hj

/-! ## Finished sessions stay finished -/

theorem Manager.isFinished_spawn {m : Manager} {k : Nat} (h : m.isFinished k = true)
    (spawnError : Option String) : (m.spawn spawnError).2.isFinished k = true := by
  cases spawnError with
  | some error => exact h
  | none =>
      have hget : (m.exitCodes ++ [none])[k]? = m.exitCodes[k]? :=
        List.getElem?_append_left (Manager.isFinished_iff.mp h).1
      unfold Manager.isFinished Manager.spawn
      dsimp only
      rw [hget]
      exact h

theorem Manager.isFinished_choose {m : Manager} {k : Nat} (h : m.isFinished k = true)
    (spawnError : Option String) : (m.choose spawnError).2.isFinished k = true := by
  unfold Manager.choose
  split
  · split
    · exact Manager.isFinished_spawn h spawnError
    · exact h
  · exact Manager.isFinished_spawn h spawnError

theorem Manager.isFinished_clear {m : Manager} {j k : Nat} (h : m.isFinished k = true) :
    (m.clear j).isFinished k = true := by
  unfold Manager.clear
  split
  · exact h
  · exact h

theorem Manager.isFinished_exit {m : Manager} {j k : Nat} (h : m.isFinished k = true)
    (code : UInt32) :
    ({ m with exitCodes := m.exitCodes.set j (some code) } : Manager).isFinished k = true := by
  obtain ⟨hk, hdead⟩ := Manager.isFinished_iff.mp h
  refine Manager.isFinished_iff.mpr ⟨?_, fun hlive => hdead (Manager.live_set hlive)⟩
  show k < (m.exitCodes.set j (some code)).length
  rw [List.length_set]
  exact hk

/-! ## Runs -/

/-- The manager is in order, and a call that clears a session has found it finished. -/
structure Inv (s : Sys) : Prop where
  manager : s.manager.Ok
  clearing : ∀ c phase, s.calls c = some phase → ∀ k, phase = .clearing k →
    s.manager.isFinished k = true

theorem inv_init : Inv init :=
  ⟨⟨fun _ h => (by cases h), fun _ h => (by cases h)⟩, fun _ _ h => (by cases h)⟩

/-- A call goes on, and finished sessions stay finished. -/
theorem Inv.goTo {s : Sys} {manager : Manager} {c : Nat} {phase : Phase} (h : Inv s)
    (hmanager : manager.Ok)
    (hfinished : ∀ k, s.manager.isFinished k = true → manager.isFinished k = true)
    (hphase : ∀ k, phase = .clearing k → manager.isFinished k = true) :
    Inv ({ s with manager }.goTo c phase) :=
  ⟨hmanager, forall_update (fun c phase hc k hk => hfinished k (h.clearing c phase hc k hk)) hphase⟩

theorem inv_step (s : Sys) (a : Label) (s' : Sys) (hs : Inv s) (_ : Any s a)
    (h : step s a = some s') : Inv s' := by
  cases a with
  | call c =>
      simp only [step, Option.ite_none_right_eq_some, Option.some.injEq] at h
      obtain ⟨-, rfl⟩ := h
      exact hs.goTo hs.manager (fun _ h => h) fun k hk => (by cases hk)
  | choose c spawnError =>
      simp only [step, Option.ite_none_right_eq_some, Option.some.injEq] at h
      obtain ⟨-, rfl⟩ := h
      refine hs.goTo (hs.manager.choose spawnError)
        (fun _ h => Manager.isFinished_choose h spawnError) fun k hk => ?_
      cases hresult : (s.manager.choose spawnError).1 with
      | ok j =>
          rw [hresult] at hk
          cases hk
      | error error =>
          rw [hresult] at hk
          cases hk
  | subscribe c =>
      simp only [step] at h
      split at h
      · cases h
        exact hs.goTo hs.manager (fun _ h => h) fun k hk => (by cases hk)
      · cases h
  | check c =>
      simp only [step] at h
      split at h
      · next j _ =>
          cases h
          refine hs.goTo hs.manager (fun _ h => h) fun k hk => ?_
          split at hk
          · next hfinished =>
              cases hk
              exact hfinished
          · cases hk
      · cases h
  | clear c =>
      simp only [step] at h
      split at h
      · next k hcall =>
          cases h
          have hfinished := hs.clearing c _ hcall k rfl
          refine hs.goTo (hs.manager.clear (Manager.isFinished_iff.mp hfinished).2)
            (fun _ h => Manager.isFinished_clear h) fun k hk => (by cases hk)
      · cases h
  | drop c =>
      cases h
      refine ⟨hs.manager, fun j phase hj => ?_⟩
      exact hs.clearing j phase (update_none_iff.mp hj).2
  | exit k code =>
      simp only [step, Option.ite_none_right_eq_some, Option.some.injEq] at h
      obtain ⟨-, rfl⟩ := h
      exact ⟨hs.manager.exit k code, fun c phase hc j hj =>
        Manager.isFinished_exit (hs.clearing c phase hc j hj) code⟩

/-- In every reachable state every shell other than the stored one is finished, so at most one is
    live, and clients attached to live shells are attached to the same one. -/
theorem single_live_shell (as : List Label) (s : Sys) (hrun : Run step Any init as s) :
    (∀ k, k < s.manager.exitCodes.length → s.manager.session ≠ some k →
      s.manager.isFinished k = true) ∧
    (∀ j k, s.manager.Live j → s.manager.Live k → j = k) ∧
    ∀ c d j k, s.calls c = some (.attached j) → s.calls d = some (.attached k) →
      s.manager.Live j → s.manager.Live k → j = k := by
  have hinv := hrun.inv Inv inv_step inv_init
  have hsame : ∀ j k, s.manager.Live j → s.manager.Live k → j = k := fun j k hj hk =>
    Option.some.inj ((hinv.manager.live j hj).symm.trans (hinv.manager.live k hk))
  refine ⟨fun k hk hother => ?_, hsame, fun _ _ j k _ _ hj hk => hsame j k hj hk⟩
  exact Manager.isFinished_iff.mpr ⟨hk, fun hlive => hother (hinv.manager.live k hlive)⟩

/-- Two clients get the first shell, which exits before they have looked at it. The first one
    clears it and spawns another; the second one finds its session replaced already. -/
def respawnedForTwo : List Label :=
  [.call 0, .choose 0 none, .call 1, .choose 1 none, .exit 0 7, .subscribe 0, .check 0,
    .subscribe 1, .check 1, .clear 0, .choose 0 none, .clear 1, .choose 1 none, .subscribe 0,
    .subscribe 1, .check 0, .check 1]

theorem single_live_shell_respawned : ∃ s, Run step Any init respawnedForTwo s ∧
    s.manager = ⟨[some 7, none], some 1⟩ ∧ s.calls 0 = some (.attached 1) ∧
    s.calls 1 = some (.attached 1) ∧ ∀ j k, s.manager.Live j → s.manager.Live k → j = k := by
  have hrun : ∃ s, Run step Any init respawnedForTwo s ∧ s.manager = ⟨[some 7, none], some 1⟩ ∧
      s.calls 0 = some (.attached 1) ∧ s.calls 1 = some (.attached 1) :=
    ⟨_, .cons trivial rfl (.cons trivial rfl (.cons trivial rfl (.cons trivial rfl
      (.cons trivial rfl (.cons trivial rfl (.cons trivial rfl (.cons trivial rfl
      (.cons trivial rfl (.cons trivial rfl (.cons trivial rfl (.cons trivial rfl
      (.cons trivial rfl (.cons trivial rfl (.cons trivial rfl (.cons trivial rfl
      (.cons trivial rfl (.nil _))))))))))))))))), rfl, rfl, rfl⟩
  obtain ⟨s, hrun, hmanager, hfirst, hsecond⟩ := hrun
  exact ⟨s, hrun, hmanager, hfirst, hsecond, (single_live_shell _ s hrun).2.1⟩

/-! ## The sessions with their output -/

/-- The manager of `SharedConsole`, without the output of its sessions. -/
def managerOf (s : SharedConsole.Sys) : Manager :=
  ⟨s.sessions.map fun session => session.sys.exitCode, s.session⟩

theorem managerOf_isFinished (s : SharedConsole.Sys) (k : Nat) :
    (managerOf s).isFinished k = s.isFinished k := by
  unfold Manager.isFinished SharedConsole.Sys.isFinished managerOf
  rw [List.getElem?_map]
  cases s.sessions[k]? <;> rfl

theorem managerOf_spawn (s : SharedConsole.Sys) :
    (managerOf s).spawn none = (.ok s.spawn.1, managerOf s.spawn.2) := by
  simp [Manager.spawn, SharedConsole.Sys.spawn, managerOf, ConsoleStream.Traced.init,
    ConsoleStream.init]

/-- The first section, with the output of the sessions. -/
theorem managerOf_choose (s : SharedConsole.Sys) :
    (managerOf s).choose none = (.ok s.choose.1, managerOf s.choose.2) := by
  have hsession : (managerOf s).session = s.session := rfl
  unfold Manager.choose SharedConsole.Sys.choose
  rw [hsession]
  cases s.session with
  | none => exact managerOf_spawn s
  | some existing =>
      dsimp only
      rw [managerOf_isFinished]
      by_cases hfinished : s.isFinished existing = true
      · rw [if_pos hfinished, if_pos hfinished]
        exact managerOf_spawn s
      · rw [if_neg hfinished, if_neg hfinished]

/-- The second section, with the output of the sessions. -/
theorem managerOf_clear (s : SharedConsole.Sys) (k : Nat) :
    (managerOf s).clear k = managerOf (s.clear k) := by
  have hsession : (managerOf s).session = s.session := rfl
  unfold Manager.clear SharedConsole.Sys.clear
  rw [hsession]
  split
  · rfl
  · rfl

end FlyVault.Init.SharedShell
