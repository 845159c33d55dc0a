/-
  One exec invocation of a client (`run_exec_with_reconnect` and
  `run_exec_streaming_with_reconnect`, `crates/client/src/quic.rs`) against the session manager
  of one init process.

  The client opens a stream, sends its request and waits for the exit frame; when the
  connection is lost it opens another one and sends the same request, argv included, with only
  `rendered_bytes` changed. The server side is the manager with all its handlers, whose
  steps interleave freely with the client's: a request that the client has given up on may
  still be waiting for its lookup. Other clients use other session ids.

  A second request finds the session as long as it is in the table. It starts the command
  again when the session has been dropped after the command's exit and the exit frame did not
  reach the client (`command_started_twice`). `spawned_at_most_once`: every run in which the
  session stays in the table until the invocation is over, and in which no spawn fails,
  spawns at most once.
-/
import FlyVault.Init.ExecSession

namespace FlyVault.Client.ExecInvocation

open FlyVault.Lib FlyVault.Protocol
open FlyVault.Init.ExecSession (Manager Step)

/-- The reconnect loop: connecting, waiting for frames on the stream of handler `h`, ended. -/
inductive Phase
  | connecting
  | streaming (h : Nat)
  | ended
  deriving DecidableEq, Repr

structure Sys where
  manager : Manager
  client : Phase
  request : ExecSessionRequest

/-- A fresh init process and a client that is about to connect. -/
def init (request : ExecSessionRequest) : Sys := ⟨.new, .connecting, request⟩

inductive Label
  /-- The client connects and its request reaches the server. -/
  | connect
  /-- The connection is lost after `renderedBytes` bytes (`Disconnected`). -/
  | lose (renderedBytes : UInt64)
  /-- The client reads the exit frame. -/
  | exited
  /-- The client gives up: a connection or a session ends with an error of another kind. -/
  | fail
  /-- A request of another client. -/
  | other (request : ExecSessionRequest)
  /-- A step of the server that is not the arrival of a request. -/
  | server (a : Init.ExecSession.Label)
  deriving DecidableEq, Repr

/-- Whether the server has written the exit frame on the stream of handler `h`. -/
def exitWritten (m : Manager) (h : Nat) : Bool := (m.handlers h).any (·.exitWritten)

def step (s : Sys) : Label → Option Sys
  | .connect =>
      if s.client = .connecting then do
        let manager ← Init.ExecSession.step s.manager (.accept s.request)
        some { s with manager := manager, client := .streaming s.manager.nextHandler }
      else none
  | .lose renderedBytes =>
      match s.client with
      | .streaming _ =>
          some { s with
            client := .connecting
            request := { s.request with renderedBytes := renderedBytes } }
      | _ => none
  | .exited =>
      match s.client with
      | .streaming h =>
          if exitWritten s.manager h then some { s with client := .ended } else none
      | _ => none
  | .fail => if s.client = .ended then none else some { s with client := .ended }
  | .other request =>
      if request.sessionId = s.request.sessionId then none
      else do
        let manager ← Init.ExecSession.step s.manager (.accept request)
        some { s with manager := manager }
  | .server (.accept _) => none
  | .server a => do
      let manager ← Init.ExecSession.step s.manager a
      some { s with manager := manager }

/-- The session id of the invocation. -/
abbrev Sys.sid (s : Sys) : String := s.request.sessionId

/-- The invocation is over: the client has ended, and none of its requests is still waiting for
    its lookup. -/
def Over (s : Sys) : Prop :=
  s.client = .ended ∧ ∀ h hd, s.manager.handlers h = some hd → hd.request.sessionId = s.sid →
    hd.phase ≠ .requested

/-- No spawn for the invocation fails, and its session leaves the table only when the
    invocation is over. -/
def KeptUntilOver (s : Sys) : Label → Prop
  | .server a =>
      (∀ h hd error, a = .lookup h (some error) → s.manager.handlers h = some hd →
        hd.request.sessionId ≠ s.sid) ∧
      (∀ m', Init.ExecSession.step s.manager a = some m' → s.manager.sessions s.sid ≠ none →
        m'.sessions s.sid = none → Over s)
  | _ => True

/-! ## What the manager does to one session id -/

/-- Only the arrival of a request makes a handler that waits for its lookup. -/
theorem requested_of_step {m m' : Manager} {a : Init.ExecSession.Label}
    (h : Init.ExecSession.step m a = some m') (ha : ∀ r, a ≠ .accept r) {k : Nat}
    {hd : Init.ExecSession.Handler} (hk : m'.handlers k = some hd)
    (hp : hd.phase = .requested) : m.handlers k = some hd := by
  have hmove : ∀ {j : Nat} {hj : Init.ExecSession.Handler} {p : Init.ExecSession.Phase},
      p ≠ .requested → Function.update m.handlers j (some { hj with phase := p }) k = some hd →
      m.handlers k = some hd := by
    intro j hj p hne hupd
    rcases update_some_iff.mp hupd with ⟨-, rfl⟩ | ⟨-, hk⟩
    · exact absurd hp hne
    · exact hk
  cases Step.of_step h with
  | accept request => exact absurd rfl (ha request)
  | found | refused | spawnFailed | spawned | attach | remove | removeOther =>
      exact hmove (by simp) hk
  | finish hh => exact hmove (by simp) hk
  | detach =>
      refine hmove ?_ hk
      split <;> simp
  | exit | stamp | sweep | tick => exact hk

/-- A step spawns for a session id only in the lookup of a request for it, when the table
    does not have it. -/
theorem spawns_of_step {m m' : Manager} {a : Init.ExecSession.Label}
    (h : Init.ExecSession.step m a = some m') (sid : String) :
    m'.spawns sid = m.spawns sid ∨
    ∃ k hd e, a = .lookup k e ∧ m.handlers k = some hd ∧ hd.phase = .requested ∧
      hd.request.sessionId = sid ∧ m.sessions sid = none ∧
      m'.spawns sid = m.spawns sid + 1 ∧ (e = none → m'.sessions sid ≠ none) := by
  cases Step.of_step h with
  | @spawnFailed k hd error hh hp hs =>
      by_cases heq : hd.request.sessionId = sid
      · subst heq
        refine .inr ⟨k, hd, some error, rfl, hh, hp, rfl, hs, ?_, fun he => by cases he⟩
        exact Function.update_self ..
      · exact .inl (Function.update_of_ne (Ne.symm heq) _ _)
  | @spawned k hd argv hh hp hs =>
      by_cases heq : hd.request.sessionId = sid
      · subst heq
        refine .inr ⟨k, hd, none, rfl, hh, hp, rfl, hs, Function.update_self .., fun _ => ?_⟩
        intro hnone
        have hin : Function.update m.sessions hd.request.sessionId (some m.nextObj)
            hd.request.sessionId = none := hnone
        rw [Function.update_self] at hin
        cases hin
      · exact .inl (Function.update_of_ne (Ne.symm heq) _ _)
  | _ => exact .inl rfl

/-! ## The whole system -/

/-- Nothing spawned yet, or spawned once and either still in the table or no longer wanted. -/
def SpawnedOnce (s : Sys) : Prop :=
  s.manager.spawns s.sid = 0 ∨
    s.manager.spawns s.sid = 1 ∧ (s.manager.sessions s.sid ≠ none ∨ Over s)

theorem spawnedOnce_server {s : Sys} {a : Init.ExecSession.Label} {m' : Manager}
    (hs : SpawnedOnce s) (hok : KeptUntilOver s (.server a)) (ha : ∀ r, a ≠ .accept r)
    (h : Init.ExecSession.step s.manager a = some m') :
    SpawnedOnce { s with manager := m' } := by
  obtain ⟨hspawn, hdrop⟩ := hok
  -- what is over stays over: no request comes back to wait
  have hover : Over s → Over { s with manager := m' } := fun ho =>
    ⟨ho.1, fun k hd hk hsid hp => ho.2 k hd (requested_of_step h ha hk hp) hsid hp⟩
  rcases spawns_of_step h s.sid with hsame | ⟨k, hd, e, rfl, hk, hp, hsid, hnone, hinc, hin⟩
  · rcases hs with hzero | ⟨hone, hkept⟩
    · exact .inl (hsame.trans hzero)
    · refine .inr ⟨hsame.trans hone, ?_⟩
      rcases hkept with hkept | ho
      · by_cases hgone : m'.sessions s.sid = none
        · exact .inr (hover (hdrop m' h hkept hgone))
        · exact .inl hgone
      · exact .inr (hover ho)
  · have he : e = none := by
      cases e with
      | none => rfl
      | some error => exact absurd hsid (hspawn k hd error rfl hk)
    rcases hs with hzero | ⟨-, hkept | ho⟩
    · exact .inr ⟨hinc.trans (by rw [hzero]), .inl (hin he)⟩
    · exact absurd hnone hkept
    · exact absurd hp (ho.2 k hd hk hsid)

/-- The client's own moves: one that has ended stays so. -/
theorem spawnedOnce_client {s : Sys} (hs : SpawnedOnce s) {client : Phase}
    (hc : s.client = .ended → client = .ended) (renderedBytes : UInt64) :
    SpawnedOnce { s with
      client := client
      request := { s.request with renderedBytes := renderedBytes } } := by
  rcases hs with hzero | ⟨hone, hkept | ho⟩
  · exact .inl hzero
  · exact .inr ⟨hone, .inl hkept⟩
  · exact .inr ⟨hone, .inr ⟨hc ho.1, ho.2⟩⟩

/-- The arrival of a request leaves table and spawns alone. Once the client has ended, none
    arrives for its session. -/
theorem spawnedOnce_accept {s : Sys} (hs : SpawnedOnce s) {client : Phase}
    {r : ExecSessionRequest} {m' : Manager}
    (hm : Init.ExecSession.step s.manager (.accept r) = some m')
    (hc : s.client = .ended → client = .ended ∧ r.sessionId ≠ s.sid) :
    SpawnedOnce { s with manager := m', client := client } := by
  cases hm
  rcases hs with hzero | ⟨hone, hkept | ho⟩
  · exact .inl hzero
  · exact .inr ⟨hone, .inl hkept⟩
  · obtain ⟨hend, hne⟩ := hc ho.1
    exact .inr ⟨hone, .inr ⟨hend, forall_update ho.2 fun hsid => absurd hsid hne⟩⟩

theorem spawnedOnce_step (s : Sys) (a : Label) (s' : Sys) (hs : SpawnedOnce s)
    (hok : KeptUntilOver s a) (h : step s a = some s') :
    SpawnedOnce s' ∧ s'.sid = s.sid := by
  cases a with
  | connect =>
      simp only [step, Option.ite_none_right_eq_some] at h
      obtain ⟨hc, h⟩ := h
      obtain ⟨m', hm, h⟩ := Option.bind_eq_some_iff.mp h
      cases h
      refine ⟨spawnedOnce_accept hs hm fun hend => ?_, rfl⟩
      cases hc.symm.trans hend
  | lose renderedBytes =>
      simp only [step] at h
      split at h
      · next k hc =>
          cases h
          refine ⟨spawnedOnce_client hs (fun hend => ?_) renderedBytes, rfl⟩
          cases hc.symm.trans hend
      · cases h
  | exited =>
      simp only [step] at h
      split at h
      · split at h
        · cases h
          exact ⟨spawnedOnce_client hs (fun _ => rfl) s.request.renderedBytes, rfl⟩
        · cases h
      · cases h
  | fail =>
      simp only [step, Option.ite_none_left_eq_some, Option.some.injEq] at h
      obtain ⟨-, rfl⟩ := h
      exact ⟨spawnedOnce_client hs (fun _ => rfl) s.request.renderedBytes, rfl⟩
  | other request =>
      simp only [step, Option.ite_none_left_eq_some] at h
      obtain ⟨hne, h⟩ := h
      obtain ⟨m', hm, h⟩ := Option.bind_eq_some_iff.mp h
      cases h
      exact ⟨spawnedOnce_accept hs hm fun hend => ⟨hend, hne⟩, rfl⟩
  | server a =>
      have hserver : (∀ r, a ≠ .accept r) ∧ ∃ m', Init.ExecSession.step s.manager a = some m' ∧
          s' = { s with manager := m' } := by
        cases a with
        | accept r => cases h
        | sweep | tick =>
            cases h
            exact ⟨fun r hr => (by cases hr), _, rfl, rfl⟩
        | _ =>
            obtain ⟨m', hm, h⟩ := Option.bind_eq_some_iff.mp h
            cases h
            exact ⟨fun r hr => (by cases hr), m', hm, rfl⟩
      obtain ⟨ha, m', hm, rfl⟩ := hserver
      exact ⟨spawnedOnce_server hs hok ha hm, rfl⟩

/-- In every run in which the session stays in the table until the invocation is over, and in
    which no spawn for it fails, the command is started at most once. -/
theorem spawned_at_most_once (request : ExecSessionRequest) (as : List Label) (s : Sys)
    (hrun : Run step KeptUntilOver (init request) as s) :
    s.manager.spawns request.sessionId ≤ 1 := by
  have hs : SpawnedOnce s ∧ s.sid = request.sessionId :=
    hrun.inv (fun s => SpawnedOnce s ∧ s.sid = request.sessionId)
      (fun s a s' hi hok h =>
        have hstep := spawnedOnce_step s a s' hi.1 hok h
        ⟨hstep.1, hstep.2.trans hi.2⟩)
      ⟨.inl rfl, rfl⟩
  rw [← hs.2]
  rcases hs.1 with hzero | ⟨hone, -⟩
  · omega
  · omega

/-- The client loses its connection before its first request is looked up, and tries again. -/
def lateLookup : List Label :=
  [.connect, .lose 0, .connect, .server (.lookup 0 none), .server (.lookup 1 none)]

theorem spawned_at_most_once_lateLookup :
    ∃ s, Run step KeptUntilOver (init Init.ExecSession.request) lateLookup s ∧
      s.manager.spawns "s" = 1 ∧ s.manager.spawns "s" ≤ 1 := by
  have hkept : ∀ s h, KeptUntilOver s (.server (.lookup h none)) := by
    intro s h
    refine ⟨fun _ _ _ he => (by cases he), fun m' hm hin hgone => ?_⟩
    obtain ⟨o, ho⟩ := Option.ne_none_iff_exists'.mp hin
    rcases Init.ExecSession.dropped_cases hm ho (by rw [hgone]; simp) with
      ⟨_, _, _, he, -⟩ | ⟨he, -⟩ <;> cases he
  have hrun : ∃ s, Run step KeptUntilOver (init Init.ExecSession.request) lateLookup s ∧
      s.manager.spawns "s" = 1 :=
    ⟨_, .cons trivial rfl (.cons trivial rfl (.cons trivial rfl (.cons (hkept _ _) rfl
      (.cons (hkept _ _) rfl (.nil _))))), rfl⟩
  obtain ⟨s, hrun, hone⟩ := hrun
  exact ⟨s, hrun, hone, spawned_at_most_once Init.ExecSession.request lateLookup s hrun⟩

/-- The command exits and the exit frame is written, but the connection is lost before the
    client reads it. The handler drops the session; the client comes back with the same
    request. -/
def lostExitFrame : List Label :=
  [.connect, .server (.lookup 0 none), .server (.attach 0), .server (.exit 0 0),
    .server (.stamp 0), .server (.finish 0 true), .lose 0, .server (.detach 0),
    .server (.remove 0), .connect, .server (.lookup 1 none)]

/-- The reconnect starts the command a second time. -/
theorem command_started_twice :
    ∃ s, Run step Any (init Init.ExecSession.request) lostExitFrame s ∧
      s.manager.spawns "s" = 2 ∧ s.client = .streaming 1 :=
  ⟨_, run_of_exec rfl, rfl, rfl⟩

end FlyVault.Client.ExecInvocation
