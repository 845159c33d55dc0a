/-
  The proxy as a whole: the loop of `run_proxy` (`crates/proxy/src/proxy.rs`) beside the relays,
  the sweep, the start tasks and the refreshes.

  The loop is one task: it receives a datagram, decodes it, looks its machine up, gets or creates
  the session of the client and sends the payload on its socket. The sessions are those of
  `Sessions`, where the call of the loop has the number 0; the tables and the start tasks are
  those of `RoutingTables` and `StartOnce`. A step ends where the source waits, and the steps of
  all tasks interleave. The lists record every datagram that went in or out, in order.

  This module has the steps and what each component contributes: where the addresses of the
  table come from (`Sourced`), and what a step of the session table does for the call of the loop
  (`CallStep`).
-/
import FlyVault.Protocol.ProxyPacket
import FlyVault.Proxy.Sessions
import FlyVault.Proxy.StartOnce

namespace FlyVault.Proxy.Forwarding

open FlyVault.Lib FlyVault.Protocol
open FlyVault.Proxy.Sessions (Session RelayEvent)
open FlyVault.Proxy.RoutingTables (MachineEntry)

structure SocketAddr (Ip : Type) where
  ip : Ip
  port : Nat
  deriving DecidableEq

variable {Ip : Type}

/-- What a run depends on: the arithmetic of the build, the parser of addresses, and
    `backend_port`. -/
structure Config (Ip : Type) where
  arith : Arith
  parseIp : String → Option Ip
  backendPort : Nat

/-- Where `run_proxy` is. -/
inductive Loop (Ip : Type)
  /-- In `recv_from`. -/
  | receiving
  /-- Waiting for the read lock of `machine_map`. -/
  | routing (client : SocketAddr Ip) (packet : ProxyPacket)
  /-- In `get_or_create_session`. -/
  | session (client : SocketAddr Ip) (packet : ProxyPacket) (backend : SocketAddr Ip)
  /-- In `send` on the socket of session `n`. -/
  | sending (client : SocketAddr Ip) (packet : ProxyPacket) (n : Nat)
      (session : Session (SocketAddr Ip))
  | panicked

/-- A payload that was sent on the socket of session `n`. -/
structure Forwarded (Ip : Type) where
  client : SocketAddr Ip
  packet : ProxyPacket
  n : Nat
  backend : SocketAddr Ip

/-- A datagram that the relay of session `n` has sent to a client. -/
structure Delivered (Ip : Type) where
  n : Nat
  client : SocketAddr Ip
  payload : Bytes

structure World (Ip : Type) where
  starts : StartOnce.Sys Ip
  sessions : Sessions.Sys (SocketAddr Ip)
  loop : Loop Ip
  /-- What each relay has read last. -/
  buffer : Nat → Bytes
  received : List (SocketAddr Ip × Bytes)
  forwarded : List (Forwarded Ip)
  arrived : List (Nat × Bytes)
  delivered : List (Delivered Ip)

def init : World Ip :=
  ⟨StartOnce.init, Sessions.init, .receiving, fun _ => [], [], [], [], []⟩

inductive Label (Ip : Type)
  | recv (client : SocketAddr Ip) (bytes : Bytes)
  /-- The lookup; on a miss the start task gets the number `c`. -/
  | route (c : Nat)
  /-- A step of `get_or_create_session`, of the sweep, or an error of a relay's `recv`. -/
  | session (a : Sessions.Label (SocketAddr Ip))
  | send (ok : Bool)
  /-- A relay reads a datagram of its backend. -/
  | arrive (n : Nat) (bytes : Bytes) (now : Nat)
  /-- A relay sends what it has read. -/
  | deliver (n : Nat) (ok : Bool)
  /-- A step of a start task or of the poller. -/
  | start (a : StartOnce.Label)

/-- The session steps that are not part of another label; the loop makes the only call. -/
def internal {Addr : Type} : Sessions.Label Addr → Bool
  | .lookup i _ | .remove i | .create i _ | .bind i _ | .connect i _ _ => i == 0
  | .relay _ e => e = .recvFailed
  | .sweep _ _ => true
  | .request _ _ _ => false

def isSpawn : StartOnce.Label → Bool
  | .spawn _ _ => true
  | _ => false

/-- Where the loop goes on when the call of `get_or_create_session` has returned. -/
def returned (sessions : Sessions.Sys (SocketAddr Ip)) : Loop Ip → Loop Ip
  | .session client packet backend =>
      match sessions.phase 0, sessions.returned with
      | .idle, r :: _ =>
          match r.result with
          | some (n, session) => .sending client packet n session
          | none => .receiving
      | _, _ => .session client packet backend
  | loop => loop

section

variable [DecidableEq Ip] (cfg : Config Ip)

def step (w : World Ip) : Label Ip → Option (World Ip)
  | .recv client bytes =>
      match w.loop with
      | .receiving =>
          let w := { w with received := w.received ++ [(client, bytes)] }
          match decodeProxyPacket cfg.arith bytes with
          | .ok packet => some { w with loop := .routing client packet }
          | .err _ => some w
          | .panic _ => some { w with loop := .panicked }
      | _ => none
  | .route c =>
      match w.loop with
      | .routing client packet =>
          match RoutingTables.backend w.starts.routing.tables packet.machineId with
          | some ip => do
              let backend : SocketAddr Ip := ⟨ip, cfg.backendPort⟩
              let sessions ← Sessions.step w.sessions (.request 0 client backend)
              some { w with sessions := sessions, loop := .session client packet backend }
          | none => do
              let starts ← StartOnce.step cfg.parseIp w.starts (.spawn c packet.machineId)
              some { w with starts := starts, loop := .receiving }
      | _ => none
  | .session a =>
      if internal a then do
        let sessions ← Sessions.step w.sessions a
        some { w with sessions := sessions, loop := returned sessions w.loop }
      else none
  | .send ok =>
      match w.loop with
      | .sending client packet n session =>
          some { w with
            loop := .receiving
            forwarded := w.forwarded ++
              if ok then [⟨client, packet, n, session.backendAddr⟩] else [] }
      | _ => none
  | .arrive n bytes now => do
      let sessions ← Sessions.step w.sessions (.relay n (.received now))
      some { w with
        sessions := sessions
        buffer := Function.update w.buffer n bytes
        arrived := w.arrived ++ [(n, bytes)] }
  | .deliver n ok => do
      let x ← w.sessions.table.session n
      let sessions ← Sessions.step w.sessions (.relay n (if ok then .sent else .sendFailed))
      some { w with
        sessions := sessions
        delivered := w.delivered ++ if ok then [⟨n, x.clientAddr, w.buffer n⟩] else [] }
  | .start a =>
      if isSpawn a then none
      else do
        let starts ← StartOnce.step cfg.parseIp w.starts a
        some { w with starts := starts }

/-- The packets among the datagrams. -/
def decoded (arith : Arith) (received : List (SocketAddr Ip × Bytes)) :
    List (SocketAddr Ip × ProxyPacket) :=
  received.filterMap fun r =>
    match decodeProxyPacket arith r.2 with
    | .ok packet => some (r.1, packet)
    | _ => none

end

/-! ## The addresses in the table -/

/-- A listing has the machine, started, with this address. -/
def Listed (parseIp : String → Option Ip) (listings : List (List MachineEntry)) (id : String)
    (ip : Ip) : Prop :=
  ∃ entries ∈ listings, ∃ entry ∈ entries, entry.id = id ∧ entry.state = "started" ∧
    entry.privateIp.bind parseIp = some ip

/-- Every address in the table, and in the tables that a refresh is about to store, is listed. -/
structure Sourced (parseIp : String → Option Ip) (r : RoutingTables.Sys Ip) : Prop where
  tables : ∀ id ip, r.tables.machineMap id = some ip → Listed parseIp r.listings id ip
  fetched : ∀ i t, r.phase i = .fetched t → ∀ id ip, t.machineMap id = some ip →
    Listed parseIp r.listings id ip

section

variable {parseIp : String → Option Ip}

theorem Listed.mono {listings listings' : List (List MachineEntry)} {id : String} {ip : Ip}
    (h : Listed parseIp listings id ip) (hsub : ∀ l ∈ listings, l ∈ listings') :
    Listed parseIp listings' id ip := by
  obtain ⟨entries, hentries, hentry⟩ := h
  exact ⟨entries, hsub entries hentries, hentry⟩

theorem foldl_addEntry_listed {entries : List MachineEntry} {t : RoutingTables.Tables Ip}
    {id : String} {ip : Ip}
    (h : (entries.foldl (RoutingTables.addEntry parseIp) t).machineMap id = some ip) :
    t.machineMap id = some ip ∨ ∃ entry ∈ entries, entry.id = id ∧ entry.state = "started" ∧
      entry.privateIp.bind parseIp = some ip := by
  induction entries generalizing t with
  | nil => exact .inl h
  | cons entry rest ih =>
      obtain hadded | ⟨other, hother, hfound⟩ := ih h
      · rw [RoutingTables.addEntry_machineMap] at hadded
        split at hadded
        · next hid =>
            obtain hrouted | ⟨-, hold⟩ := Option.or_eq_some_iff.mp hadded
            · unfold RoutingTables.routed at hrouted
              obtain ⟨hstarted, hip⟩ := Option.ite_none_right_eq_some.mp hrouted
              exact .inr ⟨entry, List.mem_cons_self, hid.symm, hstarted, hip⟩
            · exact .inl hold
        · exact .inl hadded
      · exact .inr ⟨other, List.mem_cons_of_mem entry hother, hfound⟩

theorem sourced_init : Sourced parseIp (RoutingTables.init : RoutingTables.Sys Ip) := by
  refine ⟨?_, ?_⟩
  · intro id ip h
    cases h
  · intro i t h
    cases h

theorem sourced_step {r r' : RoutingTables.Sys Ip} {a : RoutingTables.Label}
    (hr : Sourced parseIp r) (h : RoutingTables.step parseIp r a = some r') :
    Sourced parseIp r' ∧ ∀ l ∈ r.listings, l ∈ r'.listings := by
  cases a with
  | fetch i answer =>
      simp only [RoutingTables.step] at h
      split at h
      · next entries _ =>
          cases h
          have hsub : ∀ l ∈ r.listings, l ∈ entries :: r.listings :=
            fun _ => List.mem_cons_of_mem entries
          refine ⟨⟨fun id ip hid => (hr.tables id ip hid).mono hsub, ?_⟩, hsub⟩
          intro j t hj id ip hid
          obtain ⟨-, hphase⟩ | ⟨-, hj⟩ := update_eq_iff.mp hj
          · cases hphase
            obtain hempty | hentry := foldl_addEntry_listed hid
            · cases hempty
            · exact ⟨entries, List.mem_cons_self, hentry⟩
          · exact (hr.fetched j t hj id ip hid).mono hsub
      · cases h
        exact ⟨hr, fun _ hl => hl⟩
      · cases h
  | writeMap i =>
      simp only [RoutingTables.step] at h
      split at h
      · next t ht =>
          cases h
          refine ⟨⟨hr.fetched i t ht, ?_⟩, fun _ hl => hl⟩
          intro j u hj
          obtain ⟨-, hphase⟩ | ⟨-, hj⟩ := update_eq_iff.mp hj
          · cases hphase
          · exact hr.fetched j u hj
      · cases h
  | writeFull i =>
      simp only [RoutingTables.step] at h
      split at h
      · cases h
        refine ⟨⟨hr.tables, ?_⟩, fun _ hl => hl⟩
        intro j u hj
        obtain ⟨-, hphase⟩ | ⟨-, hj⟩ := update_eq_iff.mp hj
        · cases hphase
        · exact hr.fetched j u hj
      · cases h

theorem startOnce_sourced {s s' : StartOnce.Sys Ip} {a : StartOnce.Label}
    (hs : Sourced parseIp s.routing) (h : StartOnce.step parseIp s a = some s') :
    Sourced parseIp s'.routing ∧ ∀ l ∈ s.routing.listings, l ∈ s'.routing.listings := by
  obtain hsame | ⟨b, hb⟩ := StartOnce.step_routing h
  · rw [hsame]
    exact ⟨hs, fun _ hl => hl⟩
  · exact sourced_step hs hb

end

/-! ## The session table, for the call of the loop -/

section

variable {Addr : Type}

/-- The client and the backend of a call. -/
def target : Sessions.Phase Addr → Option (Addr × Addr)
  | .idle => none
  | .lookup client backend | .remove client backend | .create client backend
  | .binding client backend | .connecting client backend => some (client, backend)

/-- Sessions stay, with their client and their backend. -/
def Kept (t t' : Sessions.Table Addr) : Prop :=
  ∀ n x, t.session n = some x → ∃ x', t'.session n = some x' ∧ x'.clientAddr = x.clientAddr ∧
    x'.backendAddr = x.backendAddr

/-- The session was there before, and its relay has not read anything since. -/
def Was (t : Sessions.Table Addr) (n : Nat) (x' : Session Addr) : Prop :=
  ∃ x, t.session n = some x ∧ x.clientAddr = x'.clientAddr ∧ x.backendAddr = x'.backendAddr ∧
    (x'.relay = .sending → x.relay = .sending)

/-- No session is new. -/
structure Same (t t' : Sessions.Table Addr) : Prop where
  kept : Kept t t'
  old : ∀ n x', t'.session n = some x' → Was t n x'

/-- What a step that is not a request does: sessions stay, a new one is for the call, and the call
    goes on or returns what it was asked for. -/
structure CallStep (s s' : Sessions.Sys Addr) : Prop where
  kept : Kept s.table s'.table
  origin : ∀ n x', s'.table.session n = some x' → Was s.table n x' ∨
    target (s.phase 0) = some (x'.clientAddr, x'.backendAddr) ∧ x'.relay = .receiving
  phase : target (s'.phase 0) = target (s.phase 0) ∧ s'.phase 0 ≠ .idle ∨
    s'.phase 0 = .idle ∧ s.phase 0 = .idle ∨
    s'.phase 0 = .idle ∧ ∃ client backend result, target (s.phase 0) = some (client, backend) ∧
      s'.returned = ⟨client, backend, result⟩ :: s.returned ∧
      ∀ n x, result = some (n, x) → s'.table.session n = some x ∧ x.clientAddr = client ∧
        x.backendAddr = backend

variable {t : Sessions.Table Addr} {n : Nat} {x y : Session Addr}

theorem same_refl : Same t t :=
  ⟨fun _ x hx => ⟨x, hx, rfl, rfl⟩, fun _ x hx => ⟨x, hx, rfl, rfl, id⟩⟩

theorem kept_set (hx : t.session n = some x) (hclient : y.clientAddr = x.clientAddr)
    (hbackend : y.backendAddr = x.backendAddr) : Kept t (t.set n y) := by
  intro m z hz
  by_cases hm : m = n
  · subst hm
    obtain rfl : x = z := Option.some.inj (hx.symm.trans hz)
    exact ⟨y, Function.update_self .., hclient, hbackend⟩
  · exact ⟨z, (Function.update_of_ne hm ..).trans hz, rfl, rfl⟩

theorem same_set (hx : t.session n = some x) (hclient : y.clientAddr = x.clientAddr)
    (hbackend : y.backendAddr = x.backendAddr) (hrelay : y.relay = .sending → x.relay = .sending) :
    Same t (t.set n y) := by
  refine ⟨kept_set hx hclient hbackend, fun m z hz => ?_⟩
  obtain ⟨rfl, rfl⟩ | ⟨-, hz⟩ := update_some_iff.mp hz
  · exact ⟨x, hx, hclient.symm, hbackend.symm, hrelay⟩
  · exact ⟨z, hz, rfl, rfl, id⟩

theorem abort_ne_sending : x.abort.relay ≠ .sending := by
  intro h
  have hrunning : x.abort.relay.running = false := Sessions.Table.running_abort
  rw [h] at hrunning
  cases hrunning

theorem same_sweep (timeout now : Nat) : Same t (t.sweep timeout now) := by
  refine ⟨fun m z hz => ⟨_, congrArg (Option.map _) hz, ?_⟩, fun m z hz => ?_⟩
  · dsimp only
    split
    · exact ⟨rfl, rfl⟩
    · exact ⟨rfl, rfl⟩
  · obtain ⟨x, hx, rfl⟩ := Option.map_eq_some_iff.mp hz
    refine ⟨x, hx, ?_⟩
    split
    · exact ⟨rfl, rfl, fun h => absurd h abort_ne_sending⟩
    · exact ⟨rfl, rfl, id⟩

theorem goTo_self (s : Sessions.Sys Addr) (i : Nat) (p : Sessions.Phase Addr) :
    (s.goTo i p).phase i = p := Function.update_self ..

/-- A call that goes on. -/
theorem callStep_goes {s s' : Sessions.Sys Addr} {client backend : Addr}
    (hsame : Same s.table s'.table) (htarget : target (s.phase 0) = some (client, backend))
    (htarget' : target (s'.phase 0) = some (client, backend)) : CallStep s s' := by
  refine ⟨hsame.kept, fun n x hx => .inl (hsame.old n x hx),
    .inl ⟨htarget'.trans htarget.symm, ?_⟩⟩
  intro hidle
  rw [hidle] at htarget'
  cases htarget'

/-- A step beside the call. -/
theorem callStep_beside {s s' : Sessions.Sys Addr} (hsame : Same s.table s'.table)
    (hphase : s'.phase = s.phase) : CallStep s s' := by
  refine ⟨hsame.kept, fun n x hx => .inl (hsame.old n x hx), ?_⟩
  by_cases hidle : s.phase 0 = .idle
  · exact .inr (.inl ⟨by rw [hphase, hidle], hidle⟩)
  · exact .inl ⟨by rw [hphase], by rw [hphase]; exact hidle⟩

theorem callStep_reuse {s : Sessions.Sys Addr} (hs : Sessions.Inv s) {client : Addr} (now : Nat)
    (hget : s.table.get client = some (n, x))
    (hphase : target (s.phase 0) = some (client, x.backendAddr)) :
    CallStep s (s.reuse 0 n now client x.backendAddr x) := by
  obtain ⟨hn, hx⟩ := Sessions.Table.get_eq_some_iff.mp hget
  obtain ⟨y, hy, hclient⟩ := hs.table.stored client n hn
  obtain rfl : x = y := Option.some.inj (hx.symm.trans hy)
  have hsame : Same s.table (s.table.set n { x with lastActivity := now }) :=
    same_set hx rfl rfl id
  refine ⟨hsame.kept, fun m z hz => .inl (hsame.old m z hz), ?_⟩
  refine .inr (.inr ⟨goTo_self s 0 .idle, client, x.backendAddr, _, hphase, rfl, ?_⟩)
  intro m z hz
  cases hz
  exact ⟨Function.update_self .., hclient, rfl⟩

theorem callStep_fail {s : Sessions.Sys Addr} {client backend : Addr}
    (hphase : target (s.phase 0) = some (client, backend)) :
    CallStep s (s.fail 0 client backend) := by
  refine ⟨same_refl.kept, fun m z hz => .inl (same_refl.old m z hz), ?_⟩
  refine .inr (.inr ⟨goTo_self s 0 .idle, client, backend, none, hphase, rfl, ?_⟩)
  intro m z hz
  cases hz

section

variable [DecidableEq Addr]

theorem same_remove (client : Addr) : Same t (t.remove client) := by
  unfold Sessions.Table.remove
  split
  · next n x hget =>
      have hset : Same t (t.set n x.abort) := same_set (Sessions.Table.get_eq_some_iff.mp hget).2
        rfl rfl fun h => absurd h abort_ne_sending
      exact ⟨hset.kept, hset.old⟩
  · exact same_refl

theorem kept_insert (ht : t.Ok) (x : Session Addr) : Kept t (t.insert x) := by
  intro m z hz
  have hm : m ≠ t.next := by
    intro heq
    rw [heq, ht.fresh t.next (Nat.le_refl _)] at hz
    cases hz
  exact ⟨z, (Function.update_of_ne hm ..).trans hz, rfl, rfl⟩

theorem callStep_insert {s : Sessions.Sys Addr} (hs : Sessions.Inv s) {client backend : Addr}
    (now : Nat) (hphase : target (s.phase 0) = some (client, backend)) :
    CallStep s (s.insert 0 now client backend) := by
  refine ⟨kept_insert hs.table _, ?_, ?_⟩
  · intro m z hz
    obtain ⟨-, rfl⟩ | ⟨-, hz⟩ := update_some_iff.mp hz
    · exact .inr ⟨hphase, rfl⟩
    · exact .inl ⟨z, hz, rfl, rfl, id⟩
  · refine .inr (.inr ⟨goTo_self s 0 .idle, client, backend, _, hphase, rfl, ?_⟩)
    intro m z hz
    cases hz
    exact ⟨Function.update_self .., rfl, rfl⟩

theorem call_step {s s' : Sessions.Sys Addr} {a : Sessions.Label Addr} (hs : Sessions.Inv s)
    (ha : internal a = true) (h : Sessions.step s a = some s') : CallStep s s' := by
  cases a with
  | request i client backend => cases ha
  | lookup i now =>
      obtain rfl : i = 0 := beq_iff_eq.mp ha
      simp only [Sessions.step] at h
      split at h
      · next client backend hphase _ =>
          have htarget : target (s.phase 0) = some (client, backend) := by rw [hphase]; rfl
          split at h
          · next n x hget =>
              split at h
              · next hbackend =>
                  cases h
                  subst hbackend
                  exact callStep_reuse hs now hget htarget
              · cases h
                exact callStep_goes same_refl htarget (by rw [goTo_self]; rfl)
          · cases h
            exact callStep_goes same_refl htarget (by rw [goTo_self]; rfl)
      · cases h
  | remove i =>
      obtain rfl : i = 0 := beq_iff_eq.mp ha
      simp only [Sessions.step] at h
      split at h
      · next client backend hphase _ =>
          have htarget : target (s.phase 0) = some (client, backend) := by rw [hphase]; rfl
          cases h
          exact callStep_goes (same_remove client) htarget (by rw [goTo_self]; rfl)
      · cases h
  | create i now =>
      obtain rfl : i = 0 := beq_iff_eq.mp ha
      simp only [Sessions.step] at h
      split at h
      · next client backend hphase _ =>
          have htarget : target (s.phase 0) = some (client, backend) := by rw [hphase]; rfl
          have hbinding : ∀ r : Sessions.Sys Addr,
              target ((r.goTo 0 (.binding client backend)).phase 0) = some (client, backend) := by
            intro r
            rw [goTo_self]
            rfl
          split at h
          · next n x hget =>
              split at h
              · next hbackend =>
                  cases h
                  subst hbackend
                  exact callStep_reuse hs now hget htarget
              · cases h
                exact callStep_goes (same_remove client) htarget
                  (hbinding (s.remove client))
          · cases h
            exact callStep_goes same_refl htarget (hbinding s)
      · cases h
  | bind i ok =>
      obtain rfl : i = 0 := beq_iff_eq.mp ha
      simp only [Sessions.step] at h
      split at h
      · next client backend hphase =>
          have htarget : target (s.phase 0) = some (client, backend) := by rw [hphase]; rfl
          split at h
          · cases h
            exact callStep_goes same_refl htarget (by rw [goTo_self]; rfl)
          · cases h
            exact callStep_fail htarget
      · cases h
  | connect i ok now =>
      obtain rfl : i = 0 := beq_iff_eq.mp ha
      simp only [Sessions.step] at h
      split at h
      · next client backend hphase =>
          have htarget : target (s.phase 0) = some (client, backend) := by rw [hphase]; rfl
          split at h
          · cases h
            exact callStep_insert hs now htarget
          · cases h
            exact callStep_fail htarget
      · cases h
  | relay n e =>
      obtain rfl : e = .recvFailed := of_decide_eq_true ha
      simp only [Sessions.step] at h
      split at h
      · next y hy =>
          cases h
          obtain ⟨x, hx, hy⟩ := Option.bind_eq_some_iff.mp hy
          obtain ⟨-, hy⟩ := Option.ite_none_right_eq_some.mp hy
          cases hy
          exact callStep_beside (same_set hx rfl rfl fun hsending => by cases hsending) rfl
      · cases h
  | sweep timeout now =>
      simp only [Sessions.step] at h
      split at h
      · cases h
        exact callStep_beside (same_sweep timeout now) rfl
      · cases h

end

end

end FlyVault.Proxy.Forwarding
