/-
  Running exec sessions are in the table (`ExecSessionManager`, `crates/init/src/forward.rs`).

  A session id is free again once its session has left the table, and a late `detach` of the
  old object races with the creation of the new one. What keeps them apart is that every way
  out of the table looks at the object: `detach` decides to remove a session only after its
  exit code is set, `remove_if_same` compares the object, and the reaper asks each entry for
  its own exit time. `Registered` links the table, the objects and the handlers that are about
  to remove one.

  A session is running while its exit code is unset; the process itself has then not been
  reaped. A call of `ExecSession::spawn` that fails makes no session.
-/
import FlyVault.Init.ExecAttachment

namespace FlyVault.Init.ExecSession

open FlyVault.Lib FlyVault.Protocol

/-- The process of the session has not exited. -/
def Session.Running (session : Session) : Prop := session.exitCode = none

/-- Object `o` is a running session. -/
def Manager.Runs (m : Manager) (o : Nat) (session : Session) : Prop :=
  m.objs o = some session ∧ session.Running

/-- Running sessions are in the table; an exit time, or a handler about to remove the session,
    means that its exit code is set. -/
structure Registered (m : Manager) : Prop where
  stored : ∀ o session, m.objs o = some session → session.Running →
    m.sessions session.sessionId = some o
  stamped : ∀ o session, m.objs o = some session → session.exitedAt.isSome = true →
    ¬ session.Running
  removing : ∀ o session, m.objs o = some session → ∀ h hd, m.handlers h = some hd →
    hd.phase = .removing o → ¬ session.Running

theorem registered_new : Registered .new :=
  ⟨by intros; contradiction, by intros; contradiction, by intros; contradiction⟩

/-- A handler that does not come to remove anything does not matter. -/
theorem registered_setPhase {m : Manager} (hm : Registered m) (h : Nat) (hd : Handler)
    {p : Phase} (hp : ∀ o, p ≠ .removing o) : Registered (m.setPhase h hd p) :=
  ⟨hm.stored, hm.stamped,
    fun o session ho => forall_update (hm.removing o session ho) fun hr => absurd hr (hp o)⟩

/-- A session may change as long as it does not run again. -/
theorem registered_setSession {m : Manager} (hm : Registered m) {o : Nat}
    {session session' : Session} (ho : m.objs o = some session)
    (hid : session'.sessionId = session.sessionId) (hrun : session'.Running → session.Running)
    (hstamped : session'.exitedAt.isSome = true → ¬ session'.Running) :
    Registered (m.setSession o session') := by
  refine ⟨forall_update hm.stored fun hr => ?_, forall_update hm.stamped hstamped,
    forall_update hm.removing fun h hd hh hp hr => ?_⟩
  · rw [hid]
    exact hm.stored o session ho (hrun hr)
  · exact hm.removing o session ho h hd hh hp (hrun hr)

theorem detach_fields (session : Session) (g now : Nat) :
    (session.detach g now).1.sessionId = session.sessionId ∧
      (session.detach g now).1.exitCode = session.exitCode ∧
      (session.detach g now).1.exitedAt = session.exitedAt := by
  unfold Session.detach
  split <;> exact ⟨rfl, rfl, rfl⟩

/-- `detach` goes on to the removal only when the exit code is set. -/
theorem registered_detach {m : Manager} (hm : Registered m) {h : Nat} {hd : Handler} {o g : Nat}
    {session : Session} (ho : m.objs o = some session) :
    Registered ((m.setSession o (session.detach g m.now).1).setPhase h hd
      (if (session.detach g m.now).2 then .removing o else .done)) := by
  obtain ⟨hid, hcode, hat⟩ := detach_fields session g m.now
  have hset : Registered (m.setSession o (session.detach g m.now).1) := by
    refine registered_setSession hm ho hid (fun hr => hcode.symm.trans hr) fun hs => ?_
    unfold Session.Running
    rw [hcode]
    exact hm.stamped o session ho (hat ▸ hs)
  by_cases hexited : session.exitCode.isSome = true
  · rw [if_pos (by rw [shouldRemove_detach]; exact hexited)]
    refine ⟨hset.stored, hset.stamped, fun o' s ho' => forall_update (hset.removing o' s ho') ?_⟩
    intro hp hr
    cases hp
    rcases update_some_iff.mp ho' with ⟨-, rfl⟩ | ⟨hne, -⟩
    · unfold Session.Running at hr
      rw [hcode] at hr
      rw [hr] at hexited
      cases hexited
    · exact absurd rfl hne
  · rw [if_neg (by rw [shouldRemove_detach]; exact hexited)]
    exact registered_setPhase hset h hd (by simp)

/-- A new session enters the table under an id that no running session has. -/
theorem registered_insert {m : Manager} (hm : Registered m) (ha : Allocated m) {sid : String}
    (hfree : m.sessions sid = none) (argv : List String) (context : Option String) :
    Registered (m.insert sid (.spawn sid argv context m.now)) := by
  refine ⟨forall_update (fun o session ho hr => ?_) fun _ => Function.update_self _ _ _,
    forall_update hm.stamped (by intros; contradiction),
    forall_update hm.removing fun h hd hh hp => ?_⟩
  · have hstored := hm.stored o session ho hr
    have hne : session.sessionId ≠ sid := by
      intro heq
      rw [heq, hfree] at hstored
      cases hstored
    exact update_some_iff.mpr (.inr ⟨hne, hstored⟩)
  · -- nobody removes an object that is only being made
    exact absurd (ha.handlers h hd hh m.nextObj (by rw [hp]; rfl)) (Nat.lt_irrefl _)

/-- `remove_if_same` takes out the object it was called for, which has exited. -/
theorem registered_remove {m : Manager} (hm : Registered m) {h : Nat} {hd : Handler} {obj : Nat}
    {session : Session} (hh : m.handlers h = some hd) (hp : hd.phase = .removing obj)
    (hs : m.sessions session.sessionId = some obj) :
    Registered { m with sessions := Function.update m.sessions session.sessionId none } := by
  refine ⟨fun o s hos hr => ?_, hm.stamped, hm.removing⟩
  have hstored := hm.stored o s hos hr
  refine update_none_iff.mpr ⟨fun heq => ?_, hstored⟩
  rw [heq, hs] at hstored
  cases hstored
  exact hm.removing obj s hos h hd hh hp hr

theorem not_running_of_expired {m : Manager} (hm : Registered m) {o : Nat}
    (hexp : m.expired o = true) {session : Session} (ho : m.objs o = some session) :
    ¬ session.Running := by
  apply hm.stamped o session ho
  unfold Manager.expired at hexp
  rw [ho, Option.bind_some] at hexp
  cases hat : session.exitedAt with
  | none => rw [hat] at hexp; cases hexp
  | some t => rfl

theorem registered_reap {m : Manager} (hm : Registered m) :
    Registered m.reapCompletedSessions := by
  refine ⟨fun o session ho hr => ?_, hm.stamped, hm.removing⟩
  refine Option.filter_eq_some_iff.mpr ⟨hm.stored o session ho hr, ?_⟩
  by_contra hexp
  exact not_running_of_expired hm (by simpa using hexp) ho hr

theorem registered_step {m m' : Manager} {a : Label} (ha : Allocated m) (hm : Registered m)
    (h : step m a = some m') : Registered m' := by
  cases Step.of_step h with
  | accept request =>
      have hr := registered_setPhase hm m.nextHandler ⟨request, .requested, false⟩
        (p := .requested) (by simp)
      exact ⟨hr.stored, hr.stamped, hr.removing⟩
  | found hk hp hs => exact registered_setPhase hm _ _ (by simp)
  | refused error hk hp => exact registered_setPhase hm _ _ (by simp)
  | @spawnFailed k hd error hk hp hs =>
      have hr := registered_setPhase hm k hd (p := .failed error) (by simp)
      exact ⟨hr.stored, hr.stamped, hr.removing⟩
  | @spawned k hd argv hk hp hs =>
      have hr := registered_setPhase (registered_insert hm ha hs argv hd.request.context) k hd
        (p := .found m.nextObj) (by simp)
      exact ⟨hr.stored, hr.stamped, hr.removing⟩
  | @attach k hd obj session hk hp ho =>
      have hset : Registered (m.setSession obj session.attach.1) :=
        registered_setSession hm ho rfl id (hm.stamped obj session ho)
      exact registered_setPhase hset k hd (by simp)
  | finish hk hp ho hw => exact registered_setPhase hm _ _ (by simp)
  | detach hk hp ho => exact registered_detach hm ho
  | remove hk hp ho hs =>
      exact registered_setPhase (registered_remove hm hk hp hs) _ _ (by simp)
  | removeOther hk hp => exact registered_setPhase hm _ _ (by simp)
  | exit ho hc =>
      exact registered_setSession hm ho rfl (by intro hr; cases hr) (fun _ hr => by cases hr)
  | stamp ho hc ht =>
      refine registered_setSession hm ho rfl id fun _ hr => ?_
      rw [show Session.exitCode _ = none from hr] at hc
      cases hc
  | sweep => exact registered_reap hm
  | tick nanos => exact ⟨hm.stored, hm.stamped, hm.removing⟩

theorem registered_of_run {as : List Label} {m : Manager} (hrun : Run step Any .new as m) :
    Registered m := by
  have hinv := hrun.inv (fun m => Allocated m ∧ Registered m)
    (fun m a m' hm _ h => ⟨allocated_step m a m' hm.1 h, registered_step hm.1 hm.2 h⟩)
    ⟨allocated_new, registered_new⟩
  exact hinv.2

/-- In every reachable state: a running session is in the table under its own id; so no two
    run under one id; and whatever takes a session out of the table is the removal after a
    `detach` of this very object, or a sweep that finds this object expired, and the session
    has exited. -/
theorem running_sessions_stored (as : List Label) (m : Manager)
    (hrun : Run step Any .new as m) :
    (∀ o session, m.Runs o session → m.sessions session.sessionId = some o) ∧
      (∀ o o' session session', m.Runs o session → m.Runs o' session' →
        session.sessionId = session'.sessionId → o = o') ∧
      (∀ a m' sid o, step m a = some m' → m.sessions sid = some o → m'.sessions sid ≠ some o →
        ((∃ h hd, a = .remove h ∧ m.handlers h = some hd ∧ hd.phase = .removing o) ∨
          a = .sweep ∧ m.expired o = true) ∧
        ∀ session, ¬ m.Runs o session) := by
  have hm := registered_of_run hrun
  refine ⟨fun o session hr => hm.stored o session hr.1 hr.2, ?_, ?_⟩
  · intro o o' session session' hr hr' hid
    have hstored := hm.stored o session hr.1 hr.2
    rw [hid, hm.stored o' session' hr'.1 hr'.2] at hstored
    exact (Option.some.inj hstored).symm
  · intro a m' sid o h hin hout
    rcases dropped_cases h hin hout with ⟨k, hd, session, ha, hk, hp, -⟩ | ⟨ha, hexp⟩
    · exact ⟨.inl ⟨k, hd, ha, hk, hp⟩, fun s hr => hm.removing o s hr.1 k hd hk hp hr.2⟩
    · exact ⟨.inr ⟨ha, hexp⟩, fun s hr => not_running_of_expired hm hexp hr.1 hr.2⟩

/-- A session exits with two handlers attached, and both decide to remove it. The first does, a
    third handler starts a new session under the id, and only then the second one removes. -/
def reusedId : List Label :=
  [.accept request, .lookup 0 none, .attach 0, .accept request, .lookup 1 none, .attach 1,
    .exit 0 0, .finish 0 false, .finish 1 false, .detach 0, .detach 1, .remove 0,
    .accept request, .lookup 2 none, .remove 1]

theorem running_sessions_stored_reusedId :
    ∃ m session, Run step Any .new reusedId m ∧ m.Runs 1 session ∧
      session.sessionId = "s" ∧ m.sessions "s" = some 1 := by
  have hrun : Run step Any .new reusedId _ := run_of_exec rfl
  have h := (running_sessions_stored reusedId _ hrun).1 1 (.spawn "s" ["true"] none 0) ⟨rfl, rfl⟩
  exact ⟨_, _, hrun, ⟨rfl, rfl⟩, rfl, h⟩

end FlyVault.Init.ExecSession
