/-
  The exec session manager (`ExecSessionManager` and `ExecSession`,
  `crates/init/src/forward.rs`) under any interleaving of its clients' stream handlers, the
  children's exits and the reaper.

  A step is what one party does under one lock. `attach_or_create` is two steps: the lookup,
  with the spawn, under the lock of the table, then `attach` under the lock of the session.
  `detach` is two steps as well: it decides under the lock of the session whether to remove
  it, and removes it under the lock of the table. The exit code and the exit time of a session
  are set one after the other. A session is known by its object number, which stands for the
  identity `Arc::ptr_eq` compares.

  When a handler's `select!` ends is left open: the label `finish` covers the exit frame
  written, the takeover token and every transport error. Instants are nanoseconds; generations
  do not wrap (that takes 2^64 attaches).

  `idleSince`, `attachedSinceExit` and `spawns` are ghosts: when the session last lost its
  attachment, whether it had one at its exit time or later, and how often `ExecSession::spawn`
  was called for a session id.
-/
import FlyVault.Lib.Run
import FlyVault.Lib.Update
import FlyVault.Protocol.Console

namespace FlyVault.Init.ExecSession

open FlyVault.Lib FlyVault.Protocol

/-- `COMPLETED_SESSION_TTL`. -/
def completedSessionTtl : Nat := 60 * 10 ^ 9

/-- `ExecSession`, with the parts of its runtime and attachment state that decide its life. -/
structure Session where
  sessionId : String
  argv : List String
  context : Option String
  exitCode : Option UInt32
  exitedAt : Option Nat
  nextGeneration : Nat
  current : Option Nat
  idleSince : Nat
  attachedSinceExit : Bool

/-- `ExecSession::spawn`, when `spawn_persistent_console` succeeds. -/
def Session.spawn (sessionId : String) (argv : List String) (context : Option String)
    (now : Nat) : Session where
  sessionId := sessionId
  argv := argv
  context := context
  exitCode := none
  exitedAt := none
  nextGeneration := 0
  current := none
  idleSince := now
  attachedSinceExit := false

/-- `ExecSession::attach`: the newest attachment takes over. -/
def Session.attach (session : Session) : Session × Nat :=
  let generation := session.nextGeneration + 1
  ({ session with
      nextGeneration := generation
      current := some generation
      attachedSinceExit := session.attachedSinceExit || session.exitedAt.isSome },
    generation)

/-- `ExecSession::detach` under its lock: the session, and whether to remove it. -/
def Session.detach (session : Session) (generation now : Nat) : Session × Bool :=
  let session :=
    if session.current = some generation then
      { session with current := none, idleSince := now }
    else session
  (session, session.exitCode.isSome)

/-- A stream handler, `handle_exec_session_stream`, between two of its steps. -/
inductive Phase
  | requested
  | found (obj : Nat)
  | attached (obj generation : Nat)
  /-- The `select!` has ended; `detach` has not taken its lock yet. -/
  | leaving (obj generation : Nat)
  /-- `detach` has decided to remove the session. -/
  | removing (obj : Nat)
  | done
  | failed (error : String)
  deriving DecidableEq, Repr

structure Handler where
  request : ExecSessionRequest
  phase : Phase
  /-- The exit frame has been written to the client. -/
  exitWritten : Bool
  deriving DecidableEq, Repr

/-- The manager, the sessions it has ever made and the handlers of all streams. -/
structure Manager where
  now : Nat
  sessions : String → Option Nat
  objs : Nat → Option Session
  nextObj : Nat
  handlers : Nat → Option Handler
  nextHandler : Nat
  spawns : String → Nat

/-- `ExecSessionManager::new_arced`. -/
def Manager.new : Manager where
  now := 0
  sessions := fun _ => none
  objs := fun _ => none
  nextObj := 0
  handlers := fun _ => none
  nextHandler := 0
  spawns := fun _ => 0

namespace Manager

def countSpawn (m : Manager) (sessionId : String) : Manager :=
  { m with spawns := Function.update m.spawns sessionId (m.spawns sessionId + 1) }

/-- Make a new object and enter it into the table. -/
def insert (m : Manager) (sessionId : String) (session : Session) : Manager :=
  { m with
    sessions := Function.update m.sessions sessionId (some m.nextObj)
    objs := Function.update m.objs m.nextObj (some session)
    nextObj := m.nextObj + 1 }

/-- The lookup of `attach_or_create`; `spawnError` is what `ExecSession::spawn` fails with, if
    it comes to that. -/
def lookupOrCreate (m : Manager) (request : ExecSessionRequest) (spawnError : Option String) :
    Except String Nat × Manager :=
  match m.sessions request.sessionId with
  | some existing => (.ok existing, m)
  | none =>
    match request.argv with
    | none => (.error s!"exec session {request.sessionId} not found", m)
    | some argv =>
      if argv.isEmpty then
        (.error "exec request must include at least one argv element", m)
      else
        let m := m.countSpawn request.sessionId
        match spawnError with
        | some error => (.error error, m)
        | none =>
          let session := .spawn request.sessionId argv request.context m.now
          (.ok m.nextObj, m.insert request.sessionId session)

/-- `remove_if_same`. -/
def removeIfSame (m : Manager) (sessionId : String) (obj : Nat) : Manager :=
  if m.sessions sessionId = some obj then
    { m with sessions := Function.update m.sessions sessionId none }
  else m

/-- Whether `reap_completed_sessions` drops the session. -/
def expired (m : Manager) (obj : Nat) : Bool :=
  match (m.objs obj).bind Session.exitedAt with
  | some exitedAt => completedSessionTtl ≤ m.now - exitedAt
  | none => false

/-- One sweep of `reap_completed_sessions`. -/
def reapCompletedSessions (m : Manager) : Manager :=
  { m with sessions := fun sessionId =>
      (m.sessions sessionId).filter fun obj => !m.expired obj }

/-- Move handler `h` to another phase. -/
def setPhase (m : Manager) (h : Nat) (hd : Handler) (phase : Phase) : Manager :=
  { m with handlers := Function.update m.handlers h (some { hd with phase := phase }) }

def setSession (m : Manager) (obj : Nat) (session : Session) : Manager :=
  { m with objs := Function.update m.objs obj (some session) }

end Manager

inductive Label
  /-- A stream arrives with an exec request. -/
  | accept (request : ExecSessionRequest)
  | lookup (h : Nat) (spawnError : Option String)
  | attach (h : Nat)
  /-- The handler's `select!` ends, after the exit frame or without it. -/
  | finish (h : Nat) (exitWritten : Bool)
  | detach (h : Nat)
  | remove (h : Nat)
  /-- The child of a session exits: its exit code is set. -/
  | exit (obj : Nat) (code : UInt32)
  /-- Its exit time is set. -/
  | stamp (obj : Nat)
  | sweep
  | tick (nanos : Nat)
  deriving DecidableEq, Repr

/-- One step of one party. -/
def step (m : Manager) : Label → Option Manager
  | .accept request =>
      some { m with
        handlers := Function.update m.handlers m.nextHandler (some ⟨request, .requested, false⟩)
        nextHandler := m.nextHandler + 1 }
  | .lookup h spawnError => do
      let hd ← m.handlers h
      if hd.phase = .requested then
        match m.lookupOrCreate hd.request spawnError with
        | (.ok obj, m) => some (m.setPhase h hd (.found obj))
        | (.error error, m) => some (m.setPhase h hd (.failed error))
      else none
  | .attach h => do
      let hd ← m.handlers h
      match hd.phase with
      | .found obj =>
          let session ← m.objs obj
          let (session, generation) := session.attach
          some ((m.setSession obj session).setPhase h hd (.attached obj generation))
      | _ => none
  | .finish h exitWritten => do
      let hd ← m.handlers h
      match hd.phase with
      | .attached obj generation =>
          let session ← m.objs obj
          if exitWritten = true → session.exitCode.isSome = true then
            some (m.setPhase h { hd with exitWritten := exitWritten } (.leaving obj generation))
          else none
      | _ => none
  | .detach h => do
      let hd ← m.handlers h
      match hd.phase with
      | .leaving obj generation =>
          let session ← m.objs obj
          let (session, shouldRemove) := session.detach generation m.now
          some ((m.setSession obj session).setPhase h hd
            (if shouldRemove then .removing obj else .done))
      | _ => none
  | .remove h => do
      let hd ← m.handlers h
      match hd.phase with
      | .removing obj =>
          let session ← m.objs obj
          some ((m.removeIfSame session.sessionId obj).setPhase h hd .done)
      | _ => none
  | .exit obj code => do
      let session ← m.objs obj
      if session.exitCode = none then
        some (m.setSession obj { session with exitCode := some code })
      else none
  | .stamp obj => do
      let session ← m.objs obj
      if session.exitCode.isSome ∧ session.exitedAt = none then
        some (m.setSession obj { session with
          exitedAt := some m.now
          attachedSinceExit := session.current.isSome })
      else none
  | .sweep => some m.reapCompletedSessions
  | .tick nanos => some { m with now := m.now + nanos }

/-- A request to start a command in session `s`. -/
def request : ExecSessionRequest := ⟨"s", some ["true"], none, 0⟩

/-! ## What a step can do -/

/-- The four outcomes of a lookup. -/
theorem lookupOrCreate_cases (m : Manager) (request : ExecSessionRequest)
    (spawnError : Option String) :
    (∃ obj, m.sessions request.sessionId = some obj ∧
      m.lookupOrCreate request spawnError = (.ok obj, m)) ∨
    (∃ error, m.lookupOrCreate request spawnError = (.error error, m)) ∨
    (m.sessions request.sessionId = none ∧ ∃ error, spawnError = some error ∧
      m.lookupOrCreate request spawnError =
        (.error error, m.countSpawn request.sessionId)) ∨
    (m.sessions request.sessionId = none ∧ spawnError = none ∧ ∃ argv,
      m.lookupOrCreate request spawnError =
        (.ok m.nextObj, (m.countSpawn request.sessionId).insert request.sessionId
          (.spawn request.sessionId argv request.context m.now))) := by
  unfold Manager.lookupOrCreate
  cases hs : m.sessions request.sessionId with
  | some obj => exact .inl ⟨obj, rfl, rfl⟩
  | none =>
      cases request.argv with
      | none => exact .inr (.inl ⟨_, rfl⟩)
      | some argv =>
          by_cases he : argv.isEmpty
          · simp only [he, if_true]
            exact .inr (.inl ⟨_, rfl⟩)
          · simp only [he]
            cases spawnError with
            | some error => exact .inr (.inr (.inl ⟨trivial, error, rfl, rfl⟩))
            | none => exact .inr (.inr (.inr ⟨trivial, rfl, argv, rfl⟩))

/-- The steps, as a relation with one case for each thing that can happen. -/
inductive Step (m : Manager) : Label → Manager → Prop
  | accept (request : ExecSessionRequest) :
      Step m (.accept request) { m with
        handlers := Function.update m.handlers m.nextHandler (some ⟨request, .requested, false⟩)
        nextHandler := m.nextHandler + 1 }
  | found {h : Nat} {hd : Handler} {e : Option String} {obj : Nat}
      (hh : m.handlers h = some hd) (hp : hd.phase = .requested)
      (hs : m.sessions hd.request.sessionId = some obj) :
      Step m (.lookup h e) (m.setPhase h hd (.found obj))
  | refused {h : Nat} {hd : Handler} {e : Option String} (error : String)
      (hh : m.handlers h = some hd) (hp : hd.phase = .requested) :
      Step m (.lookup h e) (m.setPhase h hd (.failed error))
  | spawnFailed {h : Nat} {hd : Handler} (error : String)
      (hh : m.handlers h = some hd) (hp : hd.phase = .requested)
      (hs : m.sessions hd.request.sessionId = none) :
      Step m (.lookup h (some error))
        ((m.countSpawn hd.request.sessionId).setPhase h hd (.failed error))
  | spawned {h : Nat} {hd : Handler} (argv : List String)
      (hh : m.handlers h = some hd) (hp : hd.phase = .requested)
      (hs : m.sessions hd.request.sessionId = none) :
      Step m (.lookup h none)
        (((m.countSpawn hd.request.sessionId).insert hd.request.sessionId
          (.spawn hd.request.sessionId argv hd.request.context m.now)).setPhase h hd
            (.found m.nextObj))
  | attach {h : Nat} {hd : Handler} {obj : Nat} {session : Session}
      (hh : m.handlers h = some hd) (hp : hd.phase = .found obj)
      (ho : m.objs obj = some session) :
      Step m (.attach h)
        ((m.setSession obj session.attach.1).setPhase h hd (.attached obj session.attach.2))
  | finish {h : Nat} {hd : Handler} {obj generation : Nat} {session : Session}
      {exitWritten : Bool} (hh : m.handlers h = some hd)
      (hp : hd.phase = .attached obj generation) (ho : m.objs obj = some session)
      (hw : exitWritten = true → session.exitCode.isSome = true) :
      Step m (.finish h exitWritten)
        (m.setPhase h { hd with exitWritten := exitWritten } (.leaving obj generation))
  | detach {h : Nat} {hd : Handler} {obj generation : Nat} {session : Session}
      (hh : m.handlers h = some hd) (hp : hd.phase = .leaving obj generation)
      (ho : m.objs obj = some session) :
      Step m (.detach h)
        ((m.setSession obj (session.detach generation m.now).1).setPhase h hd
          (if (session.detach generation m.now).2 then .removing obj else .done))
  | remove {h : Nat} {hd : Handler} {obj : Nat} {session : Session}
      (hh : m.handlers h = some hd) (hp : hd.phase = .removing obj)
      (ho : m.objs obj = some session) (hs : m.sessions session.sessionId = some obj) :
      Step m (.remove h)
        ({ m with sessions := Function.update m.sessions session.sessionId none }.setPhase h hd
          .done)
  | removeOther {h : Nat} {hd : Handler} {obj : Nat}
      (hh : m.handlers h = some hd) (hp : hd.phase = .removing obj) :
      Step m (.remove h) (m.setPhase h hd .done)
  | exit {obj : Nat} {session : Session} {code : UInt32} (ho : m.objs obj = some session)
      (hc : session.exitCode = none) :
      Step m (.exit obj code) (m.setSession obj { session with exitCode := some code })
  | stamp {obj : Nat} {session : Session} (ho : m.objs obj = some session)
      (hc : session.exitCode.isSome = true) (ht : session.exitedAt = none) :
      Step m (.stamp obj) (m.setSession obj { session with
        exitedAt := some m.now
        attachedSinceExit := session.current.isSome })
  | sweep : Step m .sweep m.reapCompletedSessions
  | tick (nanos : Nat) : Step m (.tick nanos) { m with now := m.now + nanos }

theorem Step.of_step {m m' : Manager} {a : Label} (h : step m a = some m') : Step m a m' := by
  cases a with
  | accept request => cases h; exact .accept request
  | sweep => cases h; exact .sweep
  | tick nanos => cases h; exact .tick nanos
  | lookup k e =>
      obtain ⟨hd, hh, h⟩ := Option.bind_eq_some_iff.mp h
      by_cases hp : hd.phase = .requested
      · rw [if_pos hp] at h
        rcases lookupOrCreate_cases m hd.request e with ⟨obj, hs, he⟩ | ⟨error, he⟩ |
          ⟨hs, error, rfl, he⟩ | ⟨hs, rfl, argv, he⟩
        · rw [he] at h; cases h; exact .found hh hp hs
        · rw [he] at h; cases h; exact .refused error hh hp
        · rw [he] at h; cases h; exact .spawnFailed error hh hp hs
        · rw [he] at h; cases h; exact .spawned argv hh hp hs
      · rw [if_neg hp] at h; cases h
  | attach k =>
      obtain ⟨hd, hh, h⟩ := Option.bind_eq_some_iff.mp h
      split at h
      · next obj hp =>
          obtain ⟨session, ho, h⟩ := Option.bind_eq_some_iff.mp h
          cases h
          exact .attach hh hp ho
      · cases h
  | finish k exitWritten =>
      obtain ⟨hd, hh, h⟩ := Option.bind_eq_some_iff.mp h
      split at h
      · next obj generation hp =>
          obtain ⟨session, ho, h⟩ := Option.bind_eq_some_iff.mp h
          split at h
          · next hw => cases h; exact .finish hh hp ho hw
          · cases h
      · cases h
  | detach k =>
      obtain ⟨hd, hh, h⟩ := Option.bind_eq_some_iff.mp h
      split at h
      · next obj generation hp =>
          obtain ⟨session, ho, h⟩ := Option.bind_eq_some_iff.mp h
          cases h
          exact .detach hh hp ho
      · cases h
  | remove k =>
      obtain ⟨hd, hh, h⟩ := Option.bind_eq_some_iff.mp h
      split at h
      · next obj hp =>
          obtain ⟨session, ho, h⟩ := Option.bind_eq_some_iff.mp h
          unfold Manager.removeIfSame at h
          split at h
          · next hs => cases h; exact .remove hh hp ho hs
          · cases h; exact .removeOther hh hp
      · cases h
  | exit obj code =>
      obtain ⟨session, ho, h⟩ := Option.bind_eq_some_iff.mp h
      split at h
      · next hc => cases h; exact .exit ho hc
      · cases h
  | stamp obj =>
      obtain ⟨session, ho, h⟩ := Option.bind_eq_some_iff.mp h
      split at h
      · next hc => cases h; exact .stamp ho hc.1 hc.2
      · cases h

/-- How a session can leave the table. -/
theorem dropped_cases {m m' : Manager} {a : Label} (h : step m a = some m') {sid : String}
    {o : Nat} (hin : m.sessions sid = some o) (hout : m'.sessions sid ≠ some o) :
    (∃ h hd session, a = .remove h ∧ m.handlers h = some hd ∧ hd.phase = .removing o ∧
      m.objs o = some session) ∨
    (a = .sweep ∧ m.expired o = true) := by
  cases Step.of_step h with
  | spawned argv hk hp hs =>
      refine absurd (update_some_iff.mpr (.inr ⟨fun heq => ?_, hin⟩)) hout
      rw [← heq, hin] at hs
      cases hs
  | @remove k hd obj session hk hp ho hs =>
      by_cases heq : sid = session.sessionId
      · rw [heq, hs] at hin
        cases hin
        exact .inl ⟨k, hd, session, rfl, hk, hp, ho⟩
      · exact absurd (update_none_iff.mpr ⟨heq, hin⟩) hout
  | sweep =>
      refine .inr ⟨rfl, ?_⟩
      by_contra hne
      exact hout (Option.filter_eq_some_iff.mpr ⟨hin, by simpa using hne⟩)
  | _ => exact absurd hin hout

end FlyVault.Init.ExecSession
