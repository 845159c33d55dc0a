/-
  The session table of the proxy: `get_or_create_session`, `create_session`, `spawn_relay` and
  `cleanup_sessions` (`crates/proxy/src/session.rs`).

  A call is a task with a number. It is cut where it waits: for the read lock, for the write
  lock, for `bind` and for `connect`; `create_session` holds the write lock over the last two.
  Spawning the relay and storing the session are one step, because nothing is awaited between
  them. A session has a number, given when its relay is spawned. `abort` stops a relay at once.

  `table_integrity`: in every reachable state a relay that runs is that of the session stored
  for its client, and every session handed out has the requested backend.
  `returned_relay_running`: while no relay of a stored session ends by itself, every session
  handed out has a relay that runs. `dead_session_returned` is a run in which a relay has ended
  after an error of its socket and its session is still handed out.
-/
import FlyVault.Lib.Run
import FlyVault.Lib.Update

namespace FlyVault.Proxy.Sessions

open FlyVault.Lib

/-- The task of `spawn_relay`. -/
inductive Relay
  /-- In `backend_sock.recv`. -/
  | receiving
  /-- In `frontend.send_to`. -/
  | sending
  /-- The loop has ended after an error. -/
  | ended
  | aborted
  deriving DecidableEq, Repr

def Relay.running : Relay → Bool
  | .receiving | .sending => true
  | .ended | .aborted => false

/-- `relay_handle.abort()`. -/
def Relay.abort (r : Relay) : Relay := if r.running then .aborted else r

/-- `SocketAddr`s are compared and nothing else. -/
structure Session (Addr : Type) where
  clientAddr : Addr
  backendAddr : Addr
  lastActivity : Nat
  relay : Relay
  deriving DecidableEq

/-- Where a call of `get_or_create_session` is. -/
inductive Phase (Addr : Type)
  | idle
  /-- Waiting for the read lock of the fast path. -/
  | lookup (client backend : Addr)
  /-- The backend has changed: waiting for the write lock, to remove the old session. -/
  | remove (client backend : Addr)
  /-- In `create_session`, waiting for the write lock. -/
  | create (client backend : Addr)
  /-- In `UdpSocket::bind`, with the write lock. -/
  | binding (client backend : Addr)
  /-- In `connect`, with the write lock. -/
  | connecting (client backend : Addr)
  deriving DecidableEq

/-- What a call returns, with the session as it is at that moment. -/
structure Returned (Addr : Type) where
  client : Addr
  backend : Addr
  result : Option (Nat × Session Addr)

/-- The map, and all sessions by their numbers. -/
structure Table (Addr : Type) where
  sessions : Addr → Option Nat
  session : Nat → Option (Session Addr)
  /-- The number of the next session. -/
  next : Nat

structure Sys (Addr : Type) where
  table : Table Addr
  /-- The call that holds the write lock over an await. -/
  writer : Option Nat
  phase : Nat → Phase Addr
  returned : List (Returned Addr)

variable {Addr : Type}

def init : Sys Addr := ⟨⟨fun _ => none, fun _ => none, 0⟩, none, fun _ => .idle, []⟩

inductive RelayEvent
  | received (now : Nat)
  | recvFailed
  | sent
  | sendFailed
  deriving DecidableEq, Repr

inductive Label (Addr : Type)
  | request (i : Nat) (client backend : Addr)
  | lookup (i now : Nat)
  | remove (i : Nat)
  | create (i now : Nat)
  | bind (i : Nat) (ok : Bool)
  | connect (i : Nat) (ok : Bool) (now : Nat)
  | relay (n : Nat) (e : RelayEvent)
  | sweep (timeout now : Nat)

/-- One step of the relay's loop. -/
def Session.relayStep (x : Session Addr) : RelayEvent → Option (Session Addr)
  | .received now =>
      if x.relay = .receiving then some { x with lastActivity := now, relay := .sending } else none
  | .recvFailed => if x.relay = .receiving then some { x with relay := .ended } else none
  | .sent => if x.relay = .sending then some { x with relay := .receiving } else none
  | .sendFailed => if x.relay = .sending then some { x with relay := .ended } else none

def Session.abort (x : Session Addr) : Session Addr := { x with relay := x.relay.abort }

/-- The test of `cleanup_sessions`. -/
def Session.expired (timeout now : Nat) (x : Session Addr) : Bool :=
  timeout < now - x.lastActivity

namespace Table

/-- `map.get`, with the session's number. -/
def get (t : Table Addr) (client : Addr) : Option (Nat × Session Addr) :=
  (t.sessions client).bind fun n => (t.session n).map (n, ·)

def set (t : Table Addr) (n : Nat) (x : Session Addr) : Table Addr :=
  { t with session := Function.update t.session n (some x) }

/-- `map.retain` of the sweep. -/
def sweep (t : Table Addr) (timeout now : Nat) : Table Addr :=
  { t with
    sessions := fun client =>
      (t.get client).bind fun p => if p.2.expired timeout now then none else some p.1
    session := fun n => (t.session n).map fun x =>
      if t.sessions x.clientAddr = some n && x.expired timeout now then x.abort else x }

variable [DecidableEq Addr]

/-- `map.remove` and the abort that follows it. -/
def remove (t : Table Addr) (client : Addr) : Table Addr :=
  match t.get client with
  | some (n, x) => { t.set n x.abort with sessions := Function.update t.sessions client none }
  | none => t

/-- `map.insert` of a session whose relay has just been spawned. -/
def insert (t : Table Addr) (x : Session Addr) : Table Addr :=
  ⟨Function.update t.sessions x.clientAddr (some t.next),
    Function.update t.session t.next (some x), t.next + 1⟩

end Table

namespace Sys

def goTo (s : Sys Addr) (i : Nat) (p : Phase Addr) : Sys Addr :=
  { s with phase := Function.update s.phase i p }

/-- The call ends. -/
def finish (s : Sys Addr) (i : Nat) (r : Returned Addr) : Sys Addr :=
  { s.goTo i .idle with returned := r :: s.returned }

/-- A stored session with the requested backend is handed out again. -/
def reuse (s : Sys Addr) (i n now : Nat) (client backend : Addr) (x : Session Addr) :
    Sys Addr :=
  let x := { x with lastActivity := now }
  { s.finish i ⟨client, backend, some (n, x)⟩ with table := s.table.set n x }

/-- The call ends with an error and releases the write lock. -/
def fail (s : Sys Addr) (i : Nat) (client backend : Addr) : Sys Addr :=
  { s.finish i ⟨client, backend, none⟩ with writer := none }

variable [DecidableEq Addr]

def remove (s : Sys Addr) (client : Addr) : Sys Addr :=
  { s with table := s.table.remove client }

/-- The relay is spawned, the session is stored and the write lock is released. -/
def insert (s : Sys Addr) (i now : Nat) (client backend : Addr) : Sys Addr :=
  let x : Session Addr := ⟨client, backend, now, .receiving⟩
  { s.finish i ⟨client, backend, some (s.table.next, x)⟩ with
    table := s.table.insert x
    writer := none }

end Sys

section

variable [DecidableEq Addr]

def step (s : Sys Addr) : Label Addr → Option (Sys Addr)
  | .request i client backend =>
      match s.phase i with
      | .idle => some (s.goTo i (.lookup client backend))
      | _ => none
  | .lookup i now =>
      match s.phase i, s.writer with
      | .lookup client backend, none =>
          match s.table.get client with
          | some (n, x) =>
              if x.backendAddr = backend then some (s.reuse i n now client backend x)
              else some (s.goTo i (.remove client backend))
          | none => some (s.goTo i (.create client backend))
      | _, _ => none
  | .remove i =>
      match s.phase i, s.writer with
      | .remove client backend, none => some ((s.remove client).goTo i (.create client backend))
      | _, _ => none
  | .create i now =>
      match s.phase i, s.writer with
      | .create client backend, none =>
          match s.table.get client with
          | some (n, x) =>
              if x.backendAddr = backend then some (s.reuse i n now client backend x)
              else some { (s.remove client).goTo i (.binding client backend) with writer := some i }
          | none => some { s.goTo i (.binding client backend) with writer := some i }
      | _, _ => none
  | .bind i ok =>
      match s.phase i with
      | .binding client backend =>
          if ok then some (s.goTo i (.connecting client backend))
          else some (s.fail i client backend)
      | _ => none
  | .connect i ok now =>
      match s.phase i with
      | .connecting client backend =>
          if ok then some (s.insert i now client backend)
          else some (s.fail i client backend)
      | _ => none
  | .relay n e =>
      match (s.table.session n).bind (·.relayStep e) with
      | some x => some { s with table := s.table.set n x }
      | none => none
  | .sweep timeout now =>
      if s.writer = none then some { s with table := s.table.sweep timeout now } else none

end

/-! ## The table -/

/-- A relay that runs is that of the session stored for its client. -/
structure Table.Ok (t : Table Addr) : Prop where
  stored : ∀ client n, t.sessions client = some n →
    ∃ x, t.session n = some x ∧ x.clientAddr = client
  running : ∀ n x, t.session n = some x → x.relay.running → t.sessions x.clientAddr = some n
  fresh : ∀ n, t.next ≤ n → t.session n = none

namespace Table

variable {t : Table Addr} {client : Addr} {n : Nat} {x y : Session Addr}

theorem get_eq_some_iff :
    t.get client = some (n, x) ↔ t.sessions client = some n ∧ t.session n = some x := by
  unfold get
  rw [Option.bind_eq_some_iff]
  constructor
  · intro h
    obtain ⟨m, hm, h⟩ := h
    obtain ⟨y, hy, heq⟩ := Option.map_eq_some_iff.mp h
    cases heq
    exact ⟨hm, hy⟩
  · intro h
    exact ⟨n, h.1, by rw [h.2, Option.map_some]⟩

theorem Ok.get_eq_none (ht : t.Ok) (h : t.get client = none) : t.sessions client = none := by
  cases hn : t.sessions client with
  | none => rfl
  | some n =>
      obtain ⟨x, hx, -⟩ := ht.stored client n hn
      rw [get_eq_some_iff.mpr ⟨hn, hx⟩] at h
      cases h

theorem running_abort : x.abort.relay.running = false := by
  unfold Session.abort Relay.abort
  dsimp only
  split
  · rfl
  · next h => simpa using h

/-- A session may change as long as it stays with its client and no dead relay runs again. -/
theorem Ok.set (ht : t.Ok) (hx : t.session n = some x) (hclient : y.clientAddr = x.clientAddr)
    (hrun : y.relay.running → x.relay.running) : (t.set n y).Ok := by
  refine ⟨?_, ?_, ?_⟩
  · intro client m hm
    obtain ⟨z, hz, hzc⟩ := ht.stored client m hm
    by_cases hmn : m = n
    · subst hmn
      rw [hx] at hz
      cases hz
      exact ⟨y, Function.update_self .., hclient.trans hzc⟩
    · exact ⟨z, (Function.update_of_ne hmn ..).trans hz, hzc⟩
  · intro m z hz hzrun
    obtain ⟨rfl, rfl⟩ | ⟨-, hz⟩ := update_some_iff.mp hz
    · rw [hclient]
      exact ht.running m x hx (hrun hzrun)
    · exact ht.running m z hz hzrun
  · intro m hm
    have hmn : m ≠ n := by
      intro heq
      rw [heq] at hm
      rw [ht.fresh n hm] at hx
      cases hx
    exact (Function.update_of_ne hmn ..).trans (ht.fresh m hm)

theorem Ok.sweep (ht : t.Ok) (timeout now : Nat) : (t.sweep timeout now).Ok := by
  refine ⟨?_, ?_, ?_⟩
  · intro client m hm
    obtain ⟨p, hget, hp⟩ := Option.bind_eq_some_iff.mp hm
    obtain ⟨n, x⟩ := p
    obtain ⟨hn, hx⟩ := get_eq_some_iff.mp hget
    split at hp
    · cases hp
    · cases hp
      obtain ⟨y, hy, hyc⟩ := ht.stored client n hn
      refine ⟨_, congrArg (Option.map _) hy, ?_⟩
      dsimp only
      split
      · exact hyc
      · exact hyc
  · intro m y hy hrun
    obtain ⟨x, hx, hxy⟩ := Option.map_eq_some_iff.mp hy
    split at hxy
    · subst hxy
      rw [running_abort] at hrun
      cases hrun
    · next hkept =>
        subst hxy
        have hm := ht.running m x hx hrun
        have hget := get_eq_some_iff.mpr ⟨hm, hx⟩
        have hlive : ¬x.expired timeout now = true := by
          intro hexp
          exact hkept (by simp [hm, hexp])
        refine Option.bind_eq_some_iff.mpr ⟨(m, x), hget, ?_⟩
        rw [if_neg hlive]
  · intro m hm
    exact congrArg (Option.map _) (ht.fresh m hm)

variable [DecidableEq Addr]

theorem Ok.remove (ht : t.Ok) : (t.remove client).Ok := by
  unfold Table.remove
  split
  · next n x hget =>
      obtain ⟨hn, hx⟩ := get_eq_some_iff.mp hget
      have hrun : x.abort.relay.running → x.relay.running := by simp [running_abort]
      have hset : (t.set n x.abort).Ok := ht.set hx rfl hrun
      obtain ⟨y, hy, hclient⟩ := ht.stored client n hn
      rw [hx] at hy
      cases hy
      refine ⟨?_, ?_, hset.fresh⟩
      · intro c m hm
        exact hset.stored c m (update_none_iff.mp hm).2
      · intro m z hz hzrun
        refine update_none_iff.mpr ⟨?_, hset.running m z hz hzrun⟩
        intro hzc
        -- the session stored for this client is the one that was aborted
        have hm := hset.running m z hz hzrun
        rw [hzc] at hm
        have hmn : m = n := Option.some.inj (hm.symm.trans hn)
        subst hmn
        have hzx : z = x.abort := Option.some.inj (hz.symm.trans (Function.update_self ..))
        rw [hzx, running_abort] at hzrun
        cases hzrun
  · exact ht

theorem Ok.remove_sessions (ht : t.Ok) : (t.remove client).sessions client = none := by
  unfold Table.remove
  split
  · exact Function.update_self ..
  · next h => exact ht.get_eq_none h

theorem Ok.insert (ht : t.Ok) (hfree : t.sessions x.clientAddr = none) : (t.insert x).Ok := by
  have hold : ∀ m y, t.session m = some y → m ≠ t.next := by
    intro m y hy heq
    rw [heq, ht.fresh t.next (Nat.le_refl _)] at hy
    cases hy
  refine ⟨?_, ?_, ?_⟩
  · intro client m hm
    obtain ⟨hc, hm⟩ | ⟨-, hm⟩ := update_some_iff.mp hm
    · rw [hc, ← hm]
      exact ⟨x, Function.update_self .., rfl⟩
    · obtain ⟨y, hy, hyc⟩ := ht.stored client m hm
      exact ⟨y, (Function.update_of_ne (hold m y hy) ..).trans hy, hyc⟩
  · intro m y hy hrun
    obtain ⟨rfl, rfl⟩ | ⟨-, hy⟩ := update_some_iff.mp hy
    · exact Function.update_self ..
    · have hm := ht.running m y hy hrun
      refine update_some_iff.mpr (.inr ⟨?_, hm⟩)
      intro heq
      rw [heq, hfree] at hm
      cases hm
  · intro m hm
    have hm : t.next + 1 ≤ m := hm
    have hne : m ≠ t.next := by omega
    exact (Function.update_of_ne hne ..).trans (ht.fresh m (by omega))

end Table

/-! ## What a step does -/

theorem Session.relayStep_spec {x y : Session Addr} {e : RelayEvent}
    (h : x.relayStep e = some y) :
    y.clientAddr = x.clientAddr ∧ x.relay.running ∧
      (e ≠ .recvFailed → e ≠ .sendFailed → y.relay.running) := by
  cases e with
  | received now =>
      obtain ⟨hr, hy⟩ := Option.ite_none_right_eq_some.mp h
      cases hy
      exact ⟨rfl, by rw [hr]; rfl, fun _ _ => rfl⟩
  | recvFailed =>
      obtain ⟨hr, hy⟩ := Option.ite_none_right_eq_some.mp h
      cases hy
      exact ⟨rfl, by rw [hr]; rfl, fun hne _ => absurd rfl hne⟩
  | sent =>
      obtain ⟨hr, hy⟩ := Option.ite_none_right_eq_some.mp h
      cases hy
      exact ⟨rfl, by rw [hr]; rfl, fun _ _ => rfl⟩
  | sendFailed =>
      obtain ⟨hr, hy⟩ := Option.ite_none_right_eq_some.mp h
      cases hy
      exact ⟨rfl, by rw [hr]; rfl, fun _ hne => absurd rfl hne⟩

/-- The client of a call that holds the write lock. -/
def Phase.holding : Phase Addr → Option Addr
  | .binding client _ | .connecting client _ => some client
  | _ => none

section

variable [DecidableEq Addr]

inductive Effect (s : Sys Addr) : Label Addr → Sys Addr → Prop
  | goTo {a : Label Addr} (i : Nat) (p : Phase Addr)
      (h : p.holding = none ∨ p.holding = (s.phase i).holding) : Effect s a (s.goTo i p)
  | reuse {a : Label Addr} (i n now : Nat) (client : Addr) (x : Session Addr)
      (hget : s.table.get client = some (n, x)) :
      Effect s a (s.reuse i n now client x.backendAddr x)
  | remove {a : Label Addr} (i : Nat) (client backend : Addr) (hfree : s.writer = none) :
      Effect s a ((s.remove client).goTo i (.create client backend))
  | acquire {a : Label Addr} (i : Nat) (client backend : Addr) (hfree : s.writer = none) :
      Effect s a { (s.remove client).goTo i (.binding client backend) with writer := some i }
  | fail {a : Label Addr} (i : Nat) (client backend : Addr)
      (hheld : (s.phase i).holding = some client) : Effect s a (s.fail i client backend)
  | insert {a : Label Addr} (i now : Nat) (client backend : Addr)
      (hheld : (s.phase i).holding = some client) : Effect s a (s.insert i now client backend)
  | relay (n : Nat) (e : RelayEvent) (x y : Session Addr) (hx : s.table.session n = some x)
      (hy : x.relayStep e = some y) : Effect s (.relay n e) { s with table := s.table.set n y }
  | sweep (timeout now : Nat) (hfree : s.writer = none) :
      Effect s (.sweep timeout now) { s with table := s.table.sweep timeout now }

theorem effect_of_step {s s' : Sys Addr} {a : Label Addr} (h : step s a = some s') :
    Effect s a s' := by
  cases a with
  | request i client backend =>
      simp only [step] at h
      split at h
      · next hp =>
          cases h
          exact .goTo i _ (.inl rfl)
      · cases h
  | lookup i now =>
      simp only [step] at h
      split at h
      · next client backend hp hfree =>
          split at h
          · next n x hget =>
              split at h
              · next hb =>
                  cases h
                  subst hb
                  exact .reuse i n now client x hget
              · cases h
                exact .goTo i _ (.inl rfl)
          · cases h
            exact .goTo i _ (.inl rfl)
      · cases h
  | remove i =>
      simp only [step] at h
      split at h
      · next client backend hp hfree =>
          cases h
          exact .remove i client backend hfree
      · cases h
  | create i now =>
      simp only [step] at h
      split at h
      · next client backend hp hfree =>
          split at h
          · next n x hget =>
              split at h
              · next hb =>
                  cases h
                  subst hb
                  exact .reuse i n now client x hget
              · cases h
                exact .acquire i client backend hfree
          · next hget =>
              cases h
              have hsame : s.remove client = s := by
                unfold Sys.remove Table.remove
                rw [hget]
              have hacquire : Effect s (.create i now)
                  { (s.remove client).goTo i (.binding client backend) with writer := some i } :=
                .acquire i client backend hfree
              rwa [hsame] at hacquire
      · cases h
  | bind i ok =>
      simp only [step] at h
      split at h
      · next client backend hp =>
          have hheld : (s.phase i).holding = some client := by rw [hp]; rfl
          split at h
          · cases h
            exact .goTo i _ (.inr hheld.symm)
          · cases h
            exact .fail i client backend hheld
      · cases h
  | connect i ok now =>
      simp only [step] at h
      split at h
      · next client backend hp =>
          have hheld : (s.phase i).holding = some client := by rw [hp]; rfl
          split at h
          · cases h
            exact .insert i now client backend hheld
          · cases h
            exact .fail i client backend hheld
      · cases h
  | relay n e =>
      simp only [step] at h
      split at h
      · next y hy =>
          cases h
          obtain ⟨x, hx, hy⟩ := Option.bind_eq_some_iff.mp hy
          exact .relay n e x y hx hy
      · cases h
  | sweep timeout now =>
      simp only [step] at h
      split at h
      · next hfree =>
          cases h
          exact .sweep timeout now hfree
      · cases h

end

/-! ## Integrity of the table -/

structure Inv (s : Sys Addr) : Prop where
  table : s.table.Ok
  /-- A call that holds the write lock has no session stored for its client yet. -/
  holding : ∀ i client, (s.phase i).holding = some client →
    s.writer = some i ∧ s.table.sessions client = none
  returned : ∀ r ∈ s.returned, ∀ n x, r.result = some (n, x) → x.backendAddr = r.backend

theorem inv_init : Inv (init : Sys Addr) := by
  refine ⟨⟨?_, ?_, fun _ _ => rfl⟩, ?_, ?_⟩
  · intro client n h
    cases h
  · intro n x h
    cases h
  · intro i client h
    cases h
  · intro r h
    cases h

theorem Inv.not_holding {s : Sys Addr} (hs : Inv s) (hfree : s.writer = none) (i : Nat)
    (client : Addr) : (s.phase i).holding ≠ some client := by
  intro h
  have hw := (hs.holding i client h).1
  rw [hfree] at hw
  cases hw

/-- The write lock has one holder. -/
theorem Inv.holding_unique {s : Sys Addr} (hs : Inv s) {i j : Nat} {c d : Addr}
    (hi : (s.phase i).holding = some c) (hj : (s.phase j).holding = some d) : j = i := by
  have hw := (hs.holding i c hi).1
  rw [(hs.holding j d hj).1] at hw
  exact Option.some.inj hw

theorem holding_update {phase : Nat → Phase Addr} {i j : Nat} {p : Phase Addr} {c : Addr}
    (h : (Function.update phase i p j).holding = some c) :
    (j = i ∧ p.holding = some c) ∨ (j ≠ i ∧ (phase j).holding = some c) := by
  by_cases hj : j = i
  · subst hj
    rw [Function.update_self] at h
    exact .inl ⟨rfl, h⟩
  · rw [Function.update_of_ne hj] at h
    exact .inr ⟨hj, h⟩

theorem holding_finish {phase : Nat → Phase Addr} {i j : Nat} {c : Addr}
    (h : (Function.update phase i .idle j).holding = some c) :
    j ≠ i ∧ (phase j).holding = some c := by
  obtain ⟨-, h⟩ | h := holding_update h
  · cases h
  · exact h

section

variable [DecidableEq Addr]

theorem inv_effect {s s' : Sys Addr} {a : Label Addr} (hs : Inv s) (h : Effect s a s') :
    Inv s' := by
  cases h with
  | goTo i p hp =>
      refine ⟨hs.table, ?_, hs.returned⟩
      intro j client hj
      obtain ⟨rfl, hheld⟩ | ⟨-, hheld⟩ := holding_update hj
      · obtain hp | hp := hp
        · rw [hp] at hheld
          cases hheld
        · exact hs.holding j client (hp.symm.trans hheld)
      · exact hs.holding j client hheld
  | reuse i n now client x hget =>
      obtain ⟨hn, hx⟩ := Table.get_eq_some_iff.mp hget
      refine ⟨hs.table.set hx rfl id, ?_, List.forall_mem_cons.mpr ⟨?_, hs.returned⟩⟩
      · intro j c hj
        exact hs.holding j c (holding_finish hj).2
      · intro m y hy
        cases hy
        rfl
  | remove i client backend hfree =>
      refine ⟨hs.table.remove, ?_, hs.returned⟩
      intro j c hj
      obtain ⟨-, hheld⟩ | ⟨-, hheld⟩ := holding_update hj
      · cases hheld
      · exact absurd hheld (hs.not_holding hfree j c)
  | acquire i client backend hfree =>
      refine ⟨hs.table.remove, ?_, hs.returned⟩
      intro j c hj
      obtain ⟨rfl, hheld⟩ | ⟨-, hheld⟩ := holding_update hj
      · cases hheld
        exact ⟨rfl, hs.table.remove_sessions⟩
      · exact absurd hheld (hs.not_holding hfree j c)
  | fail i client backend hheld =>
      refine ⟨hs.table, ?_, List.forall_mem_cons.mpr ⟨?_, hs.returned⟩⟩
      · intro j c hj
        obtain ⟨hne, hj⟩ := holding_finish hj
        exact absurd (hs.holding_unique hheld hj) hne
      · intro n x hx
        cases hx
  | insert i now client backend hheld =>
      refine ⟨hs.table.insert (hs.holding i client hheld).2, ?_,
        List.forall_mem_cons.mpr ⟨?_, hs.returned⟩⟩
      · intro j c hj
        obtain ⟨hne, hj⟩ := holding_finish hj
        exact absurd (hs.holding_unique hheld hj) hne
      · intro n x hx
        cases hx
        rfl
  | relay n e x y hx hy =>
      obtain ⟨hclient, hrun, -⟩ := Session.relayStep_spec hy
      exact ⟨hs.table.set hx hclient fun _ => hrun, hs.holding, hs.returned⟩
  | sweep timeout now hfree =>
      refine ⟨hs.table.sweep timeout now, ?_, hs.returned⟩
      intro j c hj
      exact absurd hj (hs.not_holding hfree j c)

theorem inv_run {ok : Sys Addr → Label Addr → Prop} {as : List (Label Addr)} {s : Sys Addr}
    (hrun : Run step ok init as s) : Inv s :=
  hrun.inv Inv (fun _ _ _ hs _ h => inv_effect hs (effect_of_step h)) inv_init

/-- In every reachable state each client has at most one relay that runs, every relay that runs
    is that of the session stored for its client, and every session handed out had the
    requested backend. -/
theorem table_integrity (as : List (Label Addr)) (s : Sys Addr)
    (hrun : Run step Any init as s) :
    (∀ n m x y, s.table.session n = some x → s.table.session m = some y →
      x.relay.running → y.relay.running → x.clientAddr = y.clientAddr → n = m) ∧
    (∀ n x, s.table.session n = some x → x.relay.running →
      s.table.sessions x.clientAddr = some n) ∧
    ∀ r ∈ s.returned, ∀ n x, r.result = some (n, x) → x.backendAddr = r.backend := by
  have hinv := inv_run hrun
  refine ⟨?_, hinv.table.running, hinv.returned⟩
  intro n m x y hx hy hxrun hyrun hclient
  have hn := hinv.table.running n x hx hxrun
  have hm := hinv.table.running m y hy hyrun
  rw [hclient, hm] at hn
  exact (Option.some.inj hn).symm

end

/-! ## Sessions that can answer -/

/-- No relay of a stored session ends by itself. -/
def StaysUp (s : Sys Addr) : Label Addr → Prop
  | .relay n .recvFailed | .relay n .sendFailed => ∀ client, s.table.sessions client ≠ some n
  | _ => True

/-- Every stored session has a relay that runs. -/
def Table.Alive (t : Table Addr) : Prop :=
  ∀ client n, t.sessions client = some n → ∃ x, t.session n = some x ∧ x.relay.running

namespace Table

variable {t : Table Addr} {client : Addr} {n : Nat} {x y : Session Addr}

theorem Alive.set (ht : t.Alive) (hy : (∃ client, t.sessions client = some n) → y.relay.running) :
    (t.set n y).Alive := by
  intro c m hm
  by_cases hmn : m = n
  · subst hmn
    exact ⟨y, Function.update_self .., hy ⟨c, hm⟩⟩
  · obtain ⟨z, hz, hrun⟩ := ht c m hm
    exact ⟨z, (Function.update_of_ne hmn ..).trans hz, hrun⟩

theorem Alive.sweep (ht : t.Alive) (timeout now : Nat) : (t.sweep timeout now).Alive := by
  intro c m hm
  obtain ⟨p, hget, hp⟩ := Option.bind_eq_some_iff.mp hm
  obtain ⟨n, x⟩ := p
  split at hp
  · cases hp
  · next hlive =>
      cases hp
      obtain ⟨hn, hx⟩ := get_eq_some_iff.mp hget
      obtain ⟨y, hy, hrun⟩ := ht c n hn
      obtain rfl : x = y := Option.some.inj (hx.symm.trans hy)
      refine ⟨x, ?_, hrun⟩
      show (t.session n).map _ = some x
      rw [hx, Option.map_some, if_neg (by simp [hlive])]

section

variable [DecidableEq Addr]

theorem Alive.remove (ht : t.Alive) (hok : t.Ok) : (t.remove client).Alive := by
  unfold Table.remove
  split
  · next n x hget =>
      obtain ⟨hn, hx⟩ := get_eq_some_iff.mp hget
      intro c m hm
      obtain ⟨hne, hm⟩ := update_none_iff.mp hm
      obtain ⟨z, hz, hrun⟩ := ht c m hm
      have hmn : m ≠ n := by
        intro heq
        -- a session is stored for its own client only
        obtain ⟨u, hu, huc⟩ := hok.stored c m hm
        obtain ⟨v, hv, hvc⟩ := hok.stored client m (heq ▸ hn)
        rw [hu] at hv
        cases hv
        exact hne (huc.symm.trans hvc)
      exact ⟨z, (Function.update_of_ne hmn ..).trans hz, hrun⟩
  · exact ht

theorem Alive.insert (ht : t.Alive) (hok : t.Ok) (hx : x.relay.running) : (t.insert x).Alive := by
  intro c m hm
  obtain ⟨-, hm⟩ | ⟨-, hm⟩ := update_some_iff.mp hm
  · rw [← hm]
    exact ⟨x, Function.update_self .., hx⟩
  · obtain ⟨z, hz, hrun⟩ := ht c m hm
    have hne : m ≠ t.next := by
      intro heq
      rw [heq, hok.fresh t.next (Nat.le_refl _)] at hz
      cases hz
    exact ⟨z, (Function.update_of_ne hne ..).trans hz, hrun⟩

end

end Table

structure UpInv (s : Sys Addr) : Prop where
  inv : Inv s
  alive : s.table.Alive
  returned : ∀ r ∈ s.returned, ∀ n x, r.result = some (n, x) → x.relay.running

theorem upInv_init : UpInv (init : Sys Addr) := by
  refine ⟨inv_init, ?_, ?_⟩
  · intro client n h
    cases h
  · intro r h
    cases h

variable [DecidableEq Addr]

theorem upInv_effect {s s' : Sys Addr} {a : Label Addr} (hs : UpInv s) (hup : StaysUp s a)
    (h : Effect s a s') : UpInv s' := by
  have hinv := inv_effect hs.inv h
  cases h with
  | goTo i p hp => exact ⟨hinv, hs.alive, hs.returned⟩
  | reuse i n now client x hget =>
      obtain ⟨hn, hx⟩ := Table.get_eq_some_iff.mp hget
      obtain ⟨y, hy, hrun⟩ := hs.alive client n hn
      obtain rfl : x = y := Option.some.inj (hx.symm.trans hy)
      refine ⟨hinv, hs.alive.set fun _ => hrun, List.forall_mem_cons.mpr ⟨?_, hs.returned⟩⟩
      intro m y hy
      cases hy
      exact hrun
  | remove i client backend hfree =>
      exact ⟨hinv, hs.alive.remove hs.inv.table, hs.returned⟩
  | acquire i client backend hfree =>
      exact ⟨hinv, hs.alive.remove hs.inv.table, hs.returned⟩
  | fail i client backend hheld =>
      refine ⟨hinv, hs.alive, List.forall_mem_cons.mpr ⟨?_, hs.returned⟩⟩
      intro n x hx
      cases hx
  | insert i now client backend hheld =>
      refine ⟨hinv, hs.alive.insert hs.inv.table rfl, List.forall_mem_cons.mpr ⟨?_, hs.returned⟩⟩
      intro n x hx
      cases hx
      rfl
  | relay n e x y hx hy =>
      obtain ⟨-, -, hrun⟩ := Session.relayStep_spec hy
      refine ⟨hinv, hs.alive.set ?_, hs.returned⟩
      intro hstored
      obtain ⟨client, hclient⟩ := hstored
      refine hrun ?_ ?_
      · intro he
        subst he
        exact hup client hclient
      · intro he
        subst he
        exact hup client hclient
  | sweep timeout now hfree => exact ⟨hinv, hs.alive.sweep timeout now, hs.returned⟩

/-- While no relay of a stored session ends by itself, every session handed out has a relay that
    runs at that moment. -/
theorem returned_relay_running (as : List (Label Addr)) (s : Sys Addr)
    (hrun : Run step StaysUp init as s) :
    ∀ r ∈ s.returned, ∀ n x, r.result = some (n, x) → x.relay.running := by
  have hinv := hrun.inv UpInv (fun _ _ _ hs hup h => upInv_effect hs hup (effect_of_step h))
    upInv_init
  exact hinv.returned

/-! ## Fixed runs -/

/-- A call that opens a session for the client 1 with the backend 7, at time 0. -/
def openSession : List (Label Nat) :=
  [.request 0 1 7, .lookup 0 0, .create 0 0, .bind 0 true, .connect 0 true 0]

/-- The client 1 calls again, at time 5. -/
def callAgain : List (Label Nat) := [.request 0 1 7, .lookup 0 5]

/-- The client calls for another backend: the first relay is aborted, and a bind that fails
    leaves none. -/
theorem table_integrity_backend_changed : ∃ s : Sys Nat,
    Run step Any init (openSession ++ [.request 0 1 8, .lookup 0 5, .remove 0, .create 0 5,
      .bind 0 false]) s ∧
    s.returned.map (·.result) = [none, some (0, ⟨1, 7, 0, .receiving⟩)] ∧
    s.table.session 0 = some ⟨1, 7, 0, .aborted⟩ ∧
    (∀ n x, s.table.session n = some x → x.relay.running →
      s.table.sessions x.clientAddr = some n) := by
  have hrun : ∃ s : Sys Nat,
      Run step Any init (openSession ++ [.request 0 1 8, .lookup 0 5, .remove 0, .create 0 5,
        .bind 0 false]) s ∧
      s.returned.map (·.result) = [none, some (0, ⟨1, 7, 0, .receiving⟩)] ∧
      s.table.session 0 = some ⟨1, 7, 0, .aborted⟩ :=
    ⟨_, .cons trivial rfl (.cons trivial rfl (.cons trivial rfl (.cons trivial rfl
      (.cons trivial rfl (.cons trivial rfl (.cons trivial rfl (.cons trivial rfl
      (.cons trivial rfl (.cons trivial rfl (.nil _)))))))))), rfl, rfl⟩
  obtain ⟨s, hrun, hreturned, hsession⟩ := hrun
  exact ⟨s, hrun, hreturned, hsession, (table_integrity _ s hrun).2.1⟩

/-- The relay forwards a packet and the client calls again. -/
theorem returned_relay_running_again : ∃ s : Sys Nat,
    Run step StaysUp init (openSession ++ [.relay 0 (.received 3), .relay 0 .sent] ++ callAgain) s ∧
    s.returned.map (·.result) =
      [some (0, ⟨1, 7, 5, .receiving⟩), some (0, ⟨1, 7, 0, .receiving⟩)] ∧
    ∀ r ∈ s.returned, ∀ n x, r.result = some (n, x) → x.relay.running := by
  have hrun : ∃ s : Sys Nat,
      Run step StaysUp init
        (openSession ++ [.relay 0 (.received 3), .relay 0 .sent] ++ callAgain) s ∧
      s.returned.map (·.result) =
        [some (0, ⟨1, 7, 5, .receiving⟩), some (0, ⟨1, 7, 0, .receiving⟩)] :=
    ⟨_, .cons trivial rfl (.cons trivial rfl (.cons trivial rfl (.cons trivial rfl
      (.cons trivial rfl (.cons trivial rfl (.cons trivial rfl (.cons trivial rfl
      (.cons trivial rfl (.nil _))))))))), rfl⟩
  obtain ⟨s, hrun, hreturned⟩ := hrun
  exact ⟨s, hrun, hreturned, returned_relay_running _ s hrun⟩

/-- The backend socket fails once. The client's packets keep the session in the table: it is
    handed out with a relay that has ended, and the sweep does not remove it. -/
theorem dead_session_returned : ∃ s : Sys Nat,
    Run step Any init (openSession ++ [.relay 0 .recvFailed] ++ callAgain ++ [.sweep 30 31]) s ∧
    (∃ r ∈ s.returned, r.result = some (0, ⟨1, 7, 5, .ended⟩)) ∧
    s.table.sessions 1 = some 0 :=
  ⟨_, .cons trivial rfl (.cons trivial rfl (.cons trivial rfl (.cons trivial rfl
    (.cons trivial rfl (.cons trivial rfl (.cons trivial rfl (.cons trivial rfl
    (.cons trivial rfl (.nil _))))))))), ⟨_, List.mem_cons_self, rfl⟩, rfl⟩

end FlyVault.Proxy.Sessions
