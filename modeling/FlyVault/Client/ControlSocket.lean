/-
  The forwards of the control socket: `handle_create_forward`, `handle_list_forwards` and
  `handle_delete_forward` (`crates/client/src/control.rs`).

  A request has a number and is cut where it waits: for the lock of the table, and for `bind`,
  over which `POST` holds the lock. Its connection may go away meanwhile. `bind`, the spawn of
  the accept loop and the new entry are one step, because nothing is awaited between them. An
  accept loop has a number; it ends by an error, or some time after it was aborted. Each
  connection it accepts is bridged by a task of its own. The body of a request is what `serde`
  makes of it, with its error text.

  `forwards_truthful` has the contract of the table, for runs in which no forward is made for
  port 0, no loop of an entry fails to accept, a forward is deleted only while none of its
  connections is open, and an aborted loop accepts nothing more. `forwards_untruthful` has a run
  for each of the first three without which the contract fails.
-/
import FlyVault.Client.ForwardTarget
import FlyVault.Lib.Run
import FlyVault.Lib.Update

namespace FlyVault.Client.ControlSocket

open FlyVault.Lib FlyVault.Client.ForwardTarget

inductive LoopState
  | accepting
  /-- Aborted, not dropped yet. -/
  | aborting
  | ended
  deriving DecidableEq, Repr

/-- An accept loop. -/
structure Loop where
  /-- The port its listener is bound to. -/
  port : UInt16
  target : String
  state : LoopState
  deriving DecidableEq, Repr

/-- The listener is there. -/
def Loop.live (x : Loop) : Bool := x.state ≠ .ended

structure ForwardEntry where
  target : String
  /-- The number of its accept loop. -/
  task : Nat
  deriving DecidableEq, Repr

/-- An open connection of a forward. -/
structure Bridge where
  task : Nat
  target : String
  deriving DecidableEq, Repr

/-- `ControlState.forwards`, with the tasks that the requests have spawned. -/
structure Table where
  forwards : UInt16 → Option ForwardEntry
  loop : Nat → Option Loop
  /-- The number of the next loop. -/
  next : Nat
  bridge : Nat → Option Bridge
  /-- The loops of the forwards that `DELETE` has removed. -/
  deleted : List Nat

namespace Table

/-- No listener of this process is bound to the port. -/
def portFree (t : Table) (port : UInt16) : Bool :=
  (List.range t.next).all fun n => (t.loop n).all fun x => !x.live || x.port != port

/-- The listener is bound to `actual`. -/
def create (t : Table) (port actual : UInt16) (target : String) : Table :=
  { t with
    forwards := Function.update t.forwards port (some ⟨target, t.next⟩)
    loop := Function.update t.loop t.next (some ⟨actual, target, .accepting⟩)
    next := t.next + 1 }

def setState (t : Table) (n : Nat) (x : Loop) (state : LoopState) : Table :=
  { t with loop := Function.update t.loop n (some { x with state }) }

/-- `task.abort()`. -/
def abort (t : Table) (n : Nat) : Table :=
  match t.loop n with
  | some x => if x.state = .accepting then t.setState n x .aborting else t
  | none => t

def delete (t : Table) (port : UInt16) (entry : ForwardEntry) : Table :=
  { t.abort entry.task with
    forwards := Function.update t.forwards port none
    deleted := entry.task :: t.deleted }

end Table

structure ForwardInfo where
  localPort : UInt16
  target : String
  deriving DecidableEq, Repr

inductive Body
  | error (message : String)
  | forward (info : ForwardInfo)
  | list (infos : List ForwardInfo)
  deriving DecidableEq, Repr

structure Response where
  status : Nat
  body : Body
  deriving DecidableEq, Repr

def jsonError (status : Nat) (message : String) : Response := ⟨status, .error message⟩

/-- Where a request is. -/
inductive Phase
  | idle
  /-- `POST`, waiting for the lock. -/
  | creating (port : UInt16) (target : String)
  /-- `POST` in `bind`, with the lock. -/
  | binding (port : UInt16) (target : String)
  /-- `DELETE`, waiting for the lock. -/
  | deleting (port : UInt16)
  deriving DecidableEq, Repr

structure Sys where
  table : Table
  lock : Option Nat
  phase : Nat → Phase
  responses : List (Nat × Response)

def init : Sys := ⟨⟨fun _ => none, fun _ => none, 0, fun _ => none, []⟩, none, fun _ => .idle, []⟩

inductive Label
  | post (i : Nat) (body : Except String String)
  /-- `POST` gets the lock. -/
  | lockPost (i : Nat)
  /-- The port that the listener is bound to. -/
  | bind (i : Nat) (result : Except String UInt16)
  | get (i : Nat)
  | delete (i : Nat) (body : Except String UInt16)
  /-- `DELETE` gets the lock. -/
  | lockDelete (i : Nat)
  /-- The connection of the request goes away and its handler is dropped. -/
  | hangUp (i : Nat)
  /-- The loop `n` accepts a connection; its bridge gets the number `k`. -/
  | accept (n k : Nat)
  | acceptFailed (n : Nat)
  /-- The aborted loop `n` is dropped. -/
  | dropped (n : Nat)
  | bridgeEnded (k : Nat)

namespace Sys

def goTo (s : Sys) (i : Nat) (p : Phase) : Sys := { s with phase := Function.update s.phase i p }

def respond (s : Sys) (i : Nat) (r : Response) : Sys :=
  { s.goTo i .idle with responses := (i, r) :: s.responses }

def unlock (s : Sys) : Sys := { s with lock := none }

end Sys

/-- The list of `handle_list_forwards`, sorted by port. -/
def listForwards (t : Table) : List ForwardInfo :=
  (List.range 65536).filterMap fun p =>
    (t.forwards (UInt16.ofNat p)).map fun entry => ⟨UInt16.ofNat p, entry.target⟩

def handlePost (s : Sys) (i : Nat) : Except String String → Sys
  | .error err => s.respond i (jsonError 400 s!"invalid json: {err}")
  | .ok spec =>
      match parseForward spec with
      | .error err => s.respond i (jsonError 400 err.text)
      | .ok (port, target) => s.goTo i (.creating port target)

/-- What `bind` may give: the requested port, or for port 0 any other one, if it is free. -/
def bindable (t : Table) (port actual : UInt16) : Bool :=
  (if port = 0 then actual != 0 else actual == port) && t.portFree actual

def step (s : Sys) : Label → Option Sys
  | .post i body =>
      match s.phase i with
      | .idle => some (handlePost s i body)
      | _ => none
  | .lockPost i =>
      match s.phase i, s.lock with
      | .creating port target, none =>
          match s.table.forwards port with
          | some _ => some (s.respond i (jsonError 409 s!"forward on port {port} already exists"))
          | none => some { s.goTo i (.binding port target) with lock := some i }
      | _, _ => none
  | .bind i result =>
      match s.phase i, result with
      | .binding port _, .error err =>
          some (s.unlock.respond i (jsonError 400 s!"bind local port {port}: {err}"))
      | .binding port target, .ok actual =>
          if bindable s.table port actual then
            some { s.unlock.respond i ⟨200, .forward ⟨port, target⟩⟩ with
              table := s.table.create port actual target }
          else none
      | _, _ => none
  | .get i =>
      match s.phase i, s.lock with
      | .idle, none => some (s.respond i ⟨200, .list (listForwards s.table)⟩)
      | _, _ => none
  | .delete i body =>
      match s.phase i, body with
      | .idle, .error err => some (s.respond i (jsonError 400 s!"invalid json: {err}"))
      | .idle, .ok port => some (s.goTo i (.deleting port))
      | _, _ => none
  | .lockDelete i =>
      match s.phase i, s.lock with
      | .deleting port, none =>
          match s.table.forwards port with
          | some entry =>
              some { s.respond i ⟨200, .forward ⟨port, entry.target⟩⟩ with
                table := s.table.delete port entry }
          | none => some (s.respond i (jsonError 404 s!"no forward on port {port}"))
      | _, _ => none
  | .hangUp i =>
      match s.phase i with
      | .idle => none
      | .binding _ _ => some (s.unlock.goTo i .idle)
      | _ => some (s.goTo i .idle)
  | .accept n k =>
      match s.table.loop n, s.table.bridge k with
      | some x, none =>
          if x.live then
            some { s with table := { s.table with
              bridge := Function.update s.table.bridge k (some ⟨n, x.target⟩) } }
          else none
      | _, _ => none
  | .acceptFailed n =>
      match s.table.loop n with
      | some x => if x.live then some { s with table := s.table.setState n x .ended } else none
      | none => none
  | .dropped n =>
      match s.table.loop n with
      | some x =>
          if x.state = .aborting then some { s with table := s.table.setState n x .ended } else none
      | none => none
  | .bridgeEnded k =>
      some { s with table := { s.table with bridge := Function.update s.table.bridge k none } }

/-- `GET` lists exactly the table. -/
theorem mem_listForwards {t : Table} {info : ForwardInfo} :
    info ∈ listForwards t ↔
      ∃ entry, t.forwards info.localPort = some entry ∧ entry.target = info.target := by
  unfold listForwards
  rw [List.mem_filterMap]
  constructor
  · intro h
    obtain ⟨p, -, h⟩ := h
    obtain ⟨entry, hentry, rfl⟩ := Option.map_eq_some_iff.mp h
    exact ⟨entry, hentry, rfl⟩
  · intro h
    obtain ⟨entry, hentry, htarget⟩ := h
    refine ⟨info.localPort.toNat, List.mem_range.mpr info.localPort.toNat_lt, ?_⟩
    rw [UInt16.ofNat_toNat, hentry, Option.map_some, htarget]

/-! ## What a step does -/

/-- The request a label belongs to. -/
def Label.request : Label → Option Nat
  | .post i _ | .lockPost i | .bind i _ | .get i | .delete i _ | .lockDelete i | .hangUp i => some i
  | _ => none

/-- What a step does to the table. -/
inductive Effect (s : Sys) : Label → Sys → Prop
  | kept {a : Label} {s' : Sys} (h : s'.table = s.table) : Effect s a s'
  | create {s' : Sys} (i : Nat) (port actual : UInt16) (target : String)
      (hphase : s.phase i = .binding port target) (hbind : bindable s.table port actual = true)
      (hanswer : s'.responses = (i, ⟨200, .forward ⟨port, target⟩⟩) :: s.responses)
      (h : s'.table = s.table.create port actual target) : Effect s (.bind i (.ok actual)) s'
  | delete {s' : Sys} (i : Nat) (port : UInt16) (entry : ForwardEntry)
      (hphase : s.phase i = .deleting port) (hentry : s.table.forwards port = some entry)
      (hanswer : s'.responses = (i, ⟨200, .forward ⟨port, entry.target⟩⟩) :: s.responses)
      (h : s'.table = s.table.delete port entry) : Effect s (.lockDelete i) s'
  | accept {s' : Sys} (n k : Nat) (x : Loop) (hx : s.table.loop n = some x)
      (h : s'.table = { s.table with
        bridge := Function.update s.table.bridge k (some ⟨n, x.target⟩) }) :
      Effect s (.accept n k) s'
  | failed {s' : Sys} (n : Nat) (x : Loop) (hx : s.table.loop n = some x)
      (h : s'.table = s.table.setState n x .ended) : Effect s (.acceptFailed n) s'
  | dropped {s' : Sys} (n : Nat) (x : Loop) (hx : s.table.loop n = some x)
      (hstate : x.state = .aborting) (h : s'.table = s.table.setState n x .ended) :
      Effect s (.dropped n) s'
  | ended {s' : Sys} (k : Nat)
      (h : s'.table = { s.table with bridge := Function.update s.table.bridge k none }) :
      Effect s (.bridgeEnded k) s'

theorem handlePost_table (s : Sys) (i : Nat) (body : Except String String) :
    (handlePost s i body).table = s.table := by
  unfold handlePost
  split
  · rfl
  · split
    · rfl
    · rfl

section

variable {s s' : Sys} {i : Nat}

theorem table_of_lockPost (h : step s (.lockPost i) = some s') : s'.table = s.table := by
  unfold step at h
  dsimp only at h
  split at h
  · split at h
    · cases h
      rfl
    · cases h
      rfl
  · cases h

theorem table_of_delete {body : Except String UInt16} (h : step s (.delete i body) = some s') :
    s'.table = s.table := by
  unfold step at h
  dsimp only at h
  split at h
  · cases h
    rfl
  · cases h
    rfl
  · cases h

theorem table_of_hangUp (h : step s (.hangUp i) = some s') : s'.table = s.table := by
  unfold step at h
  dsimp only at h
  split at h
  · cases h
  · cases h
    rfl
  · cases h
    rfl

theorem effect_of_bind {result : Except String UInt16} (h : step s (.bind i result) = some s') :
    Effect s (.bind i result) s' := by
  unfold step at h
  dsimp only at h
  split at h
  · cases h
    exact .kept rfl
  · next port target actual hphase =>
      obtain ⟨hbind, h⟩ := Option.ite_none_right_eq_some.mp h
      cases h
      exact .create i port actual target hphase hbind rfl rfl
  · cases h

theorem effect_of_lockDelete (h : step s (.lockDelete i) = some s') :
    Effect s (.lockDelete i) s' := by
  unfold step at h
  dsimp only at h
  split at h
  · next port hphase _ =>
      split at h
      · next entry hentry =>
          cases h
          exact .delete i port entry hphase hentry rfl rfl
      · cases h
        exact .kept rfl
  · cases h

end

theorem effect_of_step {s s' : Sys} {a : Label} (h : step s a = some s') : Effect s a s' := by
  cases a with
  | post i body =>
      simp only [step] at h
      split at h
      · cases h
        exact .kept (handlePost_table s i body)
      · cases h
  | lockPost i => exact .kept (table_of_lockPost h)
  | bind i result => exact effect_of_bind h
  | get i =>
      simp only [step] at h
      split at h
      · cases h
        exact .kept rfl
      · cases h
  | delete i body => exact .kept (table_of_delete h)
  | lockDelete i => exact effect_of_lockDelete h
  | hangUp i => exact .kept (table_of_hangUp h)
  | accept n k =>
      simp only [step] at h
      split at h
      · next x hx _ =>
          obtain ⟨-, h⟩ := Option.ite_none_right_eq_some.mp h
          cases h
          exact .accept n k x hx rfl
      · cases h
  | acceptFailed n =>
      simp only [step] at h
      split at h
      · next x hx =>
          obtain ⟨-, h⟩ := Option.ite_none_right_eq_some.mp h
          cases h
          exact .failed n x hx rfl
      · cases h
  | dropped n =>
      simp only [step] at h
      split at h
      · next x hx =>
          obtain ⟨hstate, h⟩ := Option.ite_none_right_eq_some.mp h
          cases h
          exact .dropped n x hx hstate rfl
      · cases h
  | bridgeEnded k =>
      cases h
      exact .ended k rfl

/-- A step of a request that is not answered with success leaves the table as it is. -/
theorem Effect.table_eq {s s' : Sys} {a : Label} {i : Nat} (h : Effect s a s')
    (hrequest : a.request = some i)
    (hanswer : ∀ r, s'.responses = (i, r) :: s.responses → r.status ≠ 200) :
    s'.table = s.table := by
  cases h with
  | kept h => exact h
  | create j port actual target _ _ hok _ =>
      cases hrequest
      exact absurd rfl (hanswer _ hok)
  | delete j port entry _ _ hok _ =>
      cases hrequest
      exact absurd rfl (hanswer _ hok)
  | accept n k x _ _ => cases hrequest
  | failed n x _ _ => cases hrequest
  | dropped n x _ _ _ => cases hrequest
  | ended k _ => cases hrequest

/-! ## The contract -/

/-- No forward is made for port 0, no loop of an entry fails to accept, no forward is deleted
    while one of its connections is open, and an aborted loop accepts nothing more. -/
def Careful (s : Sys) : Label → Prop
  | .bind i (.ok _) => ∀ target, s.phase i ≠ .binding 0 target
  | .lockDelete i => ∀ port entry, s.phase i = .deleting port →
      s.table.forwards port = some entry → ∀ k b, s.table.bridge k = some b → b.task ≠ entry.task
  | .accept n _ => ∀ x, s.table.loop n = some x → x.state = .accepting
  | .acceptFailed n => ∀ x, s.table.loop n = some x → x.state ≠ .accepting
  | _ => True

structure Table.Ok (t : Table) : Prop where
  entry : ∀ port e, t.forwards port = some e → t.loop e.task = some ⟨port, e.target, .accepting⟩
  accepting : ∀ n x, t.loop n = some x → x.state = .accepting →
    t.forwards x.port = some ⟨x.target, n⟩
  fresh : ∀ n, t.next ≤ n → t.loop n = none
  bridge : ∀ k b, t.bridge k = some b →
    ∃ x, t.loop b.task = some x ∧ x.state = .accepting ∧ b.target = x.target
  deleted : ∀ n ∈ t.deleted, ∃ x, t.loop n = some x ∧ x.state ≠ .accepting

/-- No aborted loop is still to be dropped. -/
def Table.Settled (t : Table) : Prop := ∀ n x, t.loop n = some x → x.state ≠ .aborting

/-- A listener accepts connections on the port. -/
def Table.Listening (t : Table) (port : UInt16) : Prop :=
  ∃ n x, t.loop n = some x ∧ x.live = true ∧ x.port = port

namespace Table

variable {t : Table}

theorem ok_init : init.table.Ok := by
  refine ⟨?_, ?_, fun _ _ => rfl, ?_, ?_⟩
  · intro port e h
    cases h
  · intro n x h
    cases h
  · intro k b h
    cases h
  · intro n h
    cases h

theorem Ok.lt_next (ht : t.Ok) {n : Nat} {x : Loop} (h : t.loop n = some x) : n < t.next := by
  rcases Nat.lt_or_ge n t.next with hlt | hge
  · exact hlt
  · rw [ht.fresh n hge] at h
    cases h

theorem Ok.port_ne (ht : t.Ok) {port : UInt16} (hfree : t.portFree port = true) {n : Nat}
    {x : Loop} (h : t.loop n = some x) (hlive : x.live = true) : x.port ≠ port := by
  have hall := List.all_eq_true.mp hfree n (List.mem_range.mpr (ht.lt_next h))
  rw [h, Option.all_some, hlive] at hall
  simpa using hall

/-- A new listener on a free port, with its entry under the same port. -/
theorem Ok.create (ht : t.Ok) {port : UInt16} {target : String}
    (hfree : t.portFree port = true) : (t.create port port target).Ok := by
  have hold : ∀ n x, t.loop n = some x → n ≠ t.next := by
    intro n x h heq
    have hlt := ht.lt_next h
    omega
  have hkeep : ∀ n x, t.loop n = some x → (t.create port port target).loop n = some x := by
    intro n x h
    exact (Function.update_of_ne (hold n x h) ..).trans h
  refine ⟨?_, ?_, ?_, ?_, ?_⟩
  · intro p e h
    obtain ⟨rfl, rfl⟩ | ⟨-, h⟩ := update_some_iff.mp h
    · exact Function.update_self ..
    · exact hkeep _ _ (ht.entry p e h)
  · intro n x h hstate
    obtain ⟨rfl, rfl⟩ | ⟨-, h⟩ := update_some_iff.mp h
    · exact Function.update_self ..
    · have hne : x.port ≠ port := ht.port_ne hfree h (by simp [Loop.live, hstate])
      exact (Function.update_of_ne hne ..).trans (ht.accepting n x h hstate)
  · intro n hn
    have hn : t.next + 1 ≤ n := hn
    have hne : n ≠ t.next := by omega
    exact (Function.update_of_ne hne ..).trans (ht.fresh n (by omega))
  · intro k b h
    obtain ⟨x, hx, hstate, htarget⟩ := ht.bridge k b h
    exact ⟨x, hkeep _ _ hx, hstate, htarget⟩
  · intro n hn
    obtain ⟨x, hx, hstate⟩ := ht.deleted n hn
    exact ⟨x, hkeep n x hx, hstate⟩

/-- A loop that no longer accepts ends. -/
theorem Ok.setEnded (ht : t.Ok) {n : Nat} {x : Loop} (hx : t.loop n = some x)
    (hstate : x.state ≠ .accepting) : (t.setState n x .ended).Ok := by
  have hkeep : ∀ m y, t.loop m = some y → y.state = .accepting →
      (t.setState n x .ended).loop m = some y := by
    intro m y hy hacc
    have hne : m ≠ n := by
      intro heq
      rw [heq, hx] at hy
      cases hy
      exact hstate hacc
    exact (Function.update_of_ne hne ..).trans hy
  refine ⟨?_, ?_, ?_, ?_, ?_⟩
  · intro port e h
    exact hkeep _ _ (ht.entry port e h) rfl
  · intro m y h hacc
    obtain ⟨-, rfl⟩ | ⟨-, h⟩ := update_some_iff.mp h
    · cases hacc
    · exact ht.accepting m y h hacc
  · intro m hm
    have hne : m ≠ n := by
      have hlt := ht.lt_next hx
      have hm : t.next ≤ m := hm
      omega
    exact (Function.update_of_ne hne ..).trans (ht.fresh m hm)
  · intro k b h
    obtain ⟨y, hy, hacc, htarget⟩ := ht.bridge k b h
    exact ⟨y, hkeep _ _ hy hacc, hacc, htarget⟩
  · intro m hm
    obtain ⟨y, hy, hne⟩ := ht.deleted m hm
    by_cases hmn : m = n
    · rw [hmn]
      exact ⟨_, Function.update_self .., by simp⟩
    · exact ⟨y, (Function.update_of_ne hmn ..).trans hy, hne⟩

theorem Ok.delete_eq (ht : t.Ok) {port : UInt16} {e : ForwardEntry}
    (he : t.forwards port = some e) :
    t.delete port e = { t with
      forwards := Function.update t.forwards port none
      loop := Function.update t.loop e.task (some ⟨port, e.target, .aborting⟩)
      deleted := e.task :: t.deleted } := by
  have habort : t.abort e.task = t.setState e.task ⟨port, e.target, .accepting⟩ .aborting := by
    unfold Table.abort
    rw [ht.entry port e he]
    exact if_pos rfl
  unfold Table.delete
  rw [habort]
  rfl

/-- An entry without open connections is removed and its loop aborted. -/
theorem Ok.delete (ht : t.Ok) {port : UInt16} {e : ForwardEntry}
    (he : t.forwards port = some e) (hnone : ∀ k b, t.bridge k = some b → b.task ≠ e.task) :
    (t.delete port e).Ok := by
  have hloop := ht.entry port e he
  rw [ht.delete_eq he]
  refine ⟨?_, ?_, ?_, ?_, ?_⟩
  · intro p f h
    obtain ⟨hne, h⟩ := update_none_iff.mp h
    have hf := ht.entry p f h
    refine update_some_iff.mpr (.inr ⟨?_, hf⟩)
    intro heq
    rw [heq, hloop] at hf
    exact hne (Loop.mk.inj (Option.some.inj hf)).1.symm
  · intro m y h hacc
    obtain ⟨-, rfl⟩ | ⟨hm, h⟩ := update_some_iff.mp h
    · cases hacc
    · have hentry := ht.accepting m y h hacc
      refine update_none_iff.mpr ⟨?_, hentry⟩
      intro hport
      rw [hport, he] at hentry
      cases hentry
      exact hm rfl
  · intro m hm
    have hne : m ≠ e.task := by
      have hlt := ht.lt_next hloop
      have hm : t.next ≤ m := hm
      omega
    exact (Function.update_of_ne hne ..).trans (ht.fresh m hm)
  · intro k b h
    obtain ⟨y, hy, hacc, htarget⟩ := ht.bridge k b h
    exact ⟨y, update_some_iff.mpr (.inr ⟨hnone k b h, hy⟩), hacc, htarget⟩
  · intro m hm
    by_cases hme : m = e.task
    · rw [hme]
      exact ⟨_, Function.update_self .., by simp⟩
    · obtain ⟨y, hy, hne⟩ := ht.deleted m ((List.mem_cons.mp hm).resolve_left hme)
      exact ⟨y, update_some_iff.mpr (.inr ⟨hme, hy⟩), hne⟩

end Table

theorem accepting_of_live {t : Table} (hsettled : t.Settled) {n : Nat} {x : Loop}
    (hx : t.loop n = some x) (hlive : x.live = true) : x.state = .accepting := by
  have hne := hsettled n x hx
  cases hstate : x.state with
  | accepting => rfl
  | aborting => exact absurd hstate hne
  | ended => simp [Loop.live, hstate] at hlive

theorem ok_step (s : Sys) (a : Label) (s' : Sys) (hs : s.table.Ok) (hok : Careful s a)
    (h : step s a = some s') : s'.table.Ok := by
  cases effect_of_step h with
  | kept h => exact h ▸ hs
  | create i port actual target hphase hbind _ h =>
      have hport : port ≠ 0 := by
        intro heq
        rw [heq] at hphase
        exact hok target hphase
      unfold bindable at hbind
      rw [if_neg hport, Bool.and_eq_true, beq_iff_eq] at hbind
      obtain ⟨rfl, hfree⟩ := hbind
      rw [h]
      exact hs.create hfree
  | delete i port entry hphase hentry _ h =>
      rw [h]
      exact hs.delete hentry (hok port entry hphase hentry)
  | accept n k x hx h =>
      rw [h]
      refine ⟨hs.entry, hs.accepting, hs.fresh, ?_, hs.deleted⟩
      intro j b hb
      obtain ⟨-, rfl⟩ | ⟨-, hb⟩ := update_some_iff.mp hb
      · exact ⟨x, hx, hok x hx, rfl⟩
      · exact hs.bridge j b hb
  | failed n x hx h =>
      rw [h]
      exact hs.setEnded hx (hok x hx)
  | dropped n x hx hstate h =>
      rw [h]
      exact hs.setEnded hx (by simp [hstate])
  | ended k h =>
      rw [h]
      refine ⟨hs.entry, hs.accepting, hs.fresh, ?_, hs.deleted⟩
      intro j b hb
      exact hs.bridge j b (update_none_iff.mp hb).2

theorem Table.Ok.listening_iff {t : Table} (ht : t.Ok) (hsettled : t.Settled) (port : UInt16) :
    t.forwards port ≠ none ↔ t.Listening port := by
  rw [Option.ne_none_iff_exists']
  constructor
  · intro h
    obtain ⟨e, he⟩ := h
    exact ⟨e.task, _, ht.entry port e he, rfl, rfl⟩
  · intro h
    obtain ⟨n, x, hx, hlive, rfl⟩ := h
    exact ⟨_, ht.accepting n x hx (accepting_of_live hsettled hx hlive)⟩

/-- In every settled state the table has exactly the ports that are listened on, with the target
    that their connections are bridged to; a request that is not answered with success leaves
    the table and the tasks as they are; of a deleted forward neither the listener nor a
    connection is left. -/
theorem forwards_truthful (as : List Label) (s : Sys) (hrun : Run step Careful init as s)
    (hsettled : s.table.Settled) :
    (∀ port, s.table.forwards port ≠ none ↔ s.table.Listening port) ∧
    (∀ n x, s.table.loop n = some x → x.live = true →
      s.table.forwards x.port = some ⟨x.target, n⟩ ∧
      ∀ k b, s.table.bridge k = some b → b.task = n → b.target = x.target) ∧
    (∀ a i s', a.request = some i → step s a = some s' →
      (∀ r, s'.responses = (i, r) :: s.responses → r.status ≠ 200) → s'.table = s.table) ∧
    ∀ n ∈ s.table.deleted, (∀ x, s.table.loop n = some x → x.live = false) ∧
      ∀ k b, s.table.bridge k = some b → b.task ≠ n := by
  have hok := hrun.inv (fun s => s.table.Ok) ok_step Table.ok_init
  refine ⟨hok.listening_iff hsettled, ?_, ?_, ?_⟩
  · intro n x hx hlive
    refine ⟨hok.accepting n x hx (accepting_of_live hsettled hx hlive), ?_⟩
    intro k b hb hn
    obtain ⟨y, hy, -, htarget⟩ := hok.bridge k b hb
    rw [hn, hx] at hy
    cases hy
    exact htarget
  · intro a i s' hrequest hstep hanswer
    exact (effect_of_step hstep).table_eq hrequest hanswer
  · intro n hn
    obtain ⟨x, hx, hstate⟩ := hok.deleted n hn
    constructor
    · intro y hy
      rw [hx] at hy
      cases hy
      cases hlive : x.live with
      | false => rfl
      | true => exact absurd (accepting_of_live hsettled hx hlive) hstate
    · intro k b hb heq
      obtain ⟨y, hy, hacc, -⟩ := hok.bridge k b hb
      rw [heq, hx] at hy
      cases hy
      exact hstate hacc

/-! ## Fixed runs -/

/-- A request for a forward, for which `bind` gives the port `actual`. -/
def openForward (spec : String) (actual : UInt16) : List Label :=
  [.post 0 (.ok spec), .lockPost 0, .bind 0 (.ok actual)]

/-- The only loop of the table. -/
def Table.Only (t : Table) (y : Loop) : Prop := ∀ n x, t.loop n = some x → x = y

theorem Table.Only.settled {t : Table} {y : Loop} (h : t.Only y) (hy : y.state ≠ .aborting) :
    t.Settled := by
  intro n x hx
  rw [h n x hx]
  exact hy

theorem only_of_update {t : Table} {f : Nat → Option Loop} {y : Loop}
    (hloop : t.loop = Function.update f 0 (some y)) (hf : ∀ n, n ≠ 0 → f n = none) :
    t.Only y := by
  intro n x h
  rw [hloop] at h
  obtain ⟨-, rfl⟩ | ⟨hn, h⟩ := update_some_iff.mp h
  · rfl
  · rw [hf n hn] at h
    cases h

/-- A forward is open and bridges a connection. -/
theorem forwards_truthful_open : ∃ s : Sys,
    Run step Careful init (openForward "8080:a:1" 8080 ++ [.accept 0 0]) s ∧ s.table.Settled ∧
    s.table.forwards 8080 = some ⟨"a:1", 0⟩ ∧ s.table.bridge 0 = some ⟨0, "a:1"⟩ ∧
    ∀ port, s.table.forwards port ≠ none ↔ s.table.Listening port := by
  have hrun : ∃ s : Sys,
      Run step Careful init (openForward "8080:a:1" 8080 ++ [.accept 0 0]) s ∧
      s.table.Only ⟨8080, "a:1", .accepting⟩ ∧ s.table.forwards 8080 = some ⟨"a:1", 0⟩ ∧
      s.table.bridge 0 = some ⟨0, "a:1"⟩ := by
    refine ⟨_, .cons trivial rfl (.cons trivial rfl (.cons ?_ rfl (.cons ?_ rfl (.nil _)))), ?_,
      rfl, rfl⟩
    · intro target h
      have h : Phase.binding 8080 "a:1" = .binding 0 target := h
      exact absurd (Phase.binding.inj h).1 (by decide)
    · intro x h
      have h : some (⟨8080, "a:1", .accepting⟩ : Loop) = some x := h
      cases h
      rfl
    · exact only_of_update rfl fun _ _ => rfl
  obtain ⟨s, hrun, honly, hentry, hbridge⟩ := hrun
  have hsettled : s.table.Settled := honly.settled (by simp)
  exact ⟨s, hrun, hsettled, hentry, hbridge, (forwards_truthful _ s hrun hsettled).1⟩

/-- A forward for port 0 is recorded under port 0, although the system has chosen another one. A
    forward whose loop has failed to accept stays in the table. A deleted forward keeps a
    connection that was open. -/
theorem forwards_untruthful :
    (∃ s : Sys, Run step Any init (openForward "0:a:1" 40000) s ∧ s.table.Settled ∧
      s.table.forwards 0 = some ⟨"a:1", 0⟩ ∧ ¬s.table.Listening 0 ∧
      s.table.forwards 40000 = none ∧ s.table.Listening 40000) ∧
    (∃ s : Sys, Run step Any init (openForward "8080:a:1" 8080 ++ [.acceptFailed 0]) s ∧
      s.table.Settled ∧ s.table.forwards 8080 = some ⟨"a:1", 0⟩ ∧ ¬s.table.Listening 8080) ∧
    ∃ s : Sys, Run step Any init (openForward "8080:a:1" 8080 ++
        [.accept 0 0, .delete 1 (.ok 8080), .lockDelete 1, .dropped 0]) s ∧
      s.table.Settled ∧ s.responses.head? = some (1, ⟨200, .forward ⟨8080, "a:1"⟩⟩) ∧
      s.table.deleted = [0] ∧ s.table.bridge 0 = some ⟨0, "a:1"⟩ := by
  refine ⟨?_, ?_, ?_⟩
  · have hrun : ∃ s : Sys, Run step Any init (openForward "0:a:1" 40000) s ∧
        s.table.Only ⟨40000, "a:1", .accepting⟩ ∧ s.table.forwards 0 = some ⟨"a:1", 0⟩ ∧
        s.table.forwards 40000 = none ∧ s.table.Listening 40000 :=
      ⟨_, .cons trivial rfl (.cons trivial rfl (.cons trivial rfl (.nil _))),
        only_of_update rfl fun _ _ => rfl, rfl, rfl, 0, _, rfl, rfl, rfl⟩
    obtain ⟨s, hrun, honly, hentry, hnone, hlisten⟩ := hrun
    refine ⟨s, hrun, honly.settled (by simp), hentry, ?_, hnone, hlisten⟩
    intro h
    obtain ⟨n, x, hx, -, hport⟩ := h
    rw [honly n x hx] at hport
    exact absurd hport (by decide)
  · have hrun : ∃ s : Sys,
        Run step Any init (openForward "8080:a:1" 8080 ++ [.acceptFailed 0]) s ∧
        s.table.Only ⟨8080, "a:1", .ended⟩ ∧ s.table.forwards 8080 = some ⟨"a:1", 0⟩ :=
      ⟨_, .cons trivial rfl (.cons trivial rfl (.cons trivial rfl (.cons trivial rfl (.nil _)))),
        only_of_update rfl fun n hn => Function.update_of_ne hn .., rfl⟩
    obtain ⟨s, hrun, honly, hentry⟩ := hrun
    refine ⟨s, hrun, honly.settled (by simp), hentry, ?_⟩
    intro h
    obtain ⟨n, x, hx, hlive, -⟩ := h
    rw [honly n x hx] at hlive
    cases hlive
  · have honly : ∀ n, n ≠ 0 → Function.update (Function.update (fun _ => none) 0
        (some (⟨8080, "a:1", .accepting⟩ : Loop))) 0 (some ⟨8080, "a:1", .aborting⟩) n = none := by
      intro n hn
      rw [Function.update_of_ne hn, Function.update_of_ne hn]
    exact ⟨_, .cons trivial rfl (.cons trivial rfl (.cons trivial rfl (.cons trivial rfl
      (.cons trivial rfl (.cons trivial rfl (.cons trivial rfl (.nil _))))))),
      (only_of_update rfl honly).settled (by simp), rfl, rfl, rfl⟩

end FlyVault.Client.ControlSocket
