/-
  The readers of local stdin: `run_session` and `spawn_stdin_task`
  (`crates/client/src/console.rs`), under the loops `run_console_with_reconnect` and
  `run_exec_with_reconnect` (`crates/client/src/quic.rs`).

  Each session starts a thread that takes the lock of stdin, reads a chunk at a time and puts it
  into the channel of its session. The thread keeps the lock until a read or a send fails.
  Nothing stops it when the session ends. Local stdin is a queue of chunks; an empty one is the
  end of the input. Sessions and their threads have the same numbers, in the order in which they
  are attached. An attempt that fails before the thread is started changes nothing here.

  `input_queued`: if a session is attached only when the threads of all earlier ones have ended,
  and no connection is lost while a chunk is between the read and the channel, every chunk read
  while a session is connected is queued to that session, in order. `input_taken` is a run in
  which the thread of the first session takes a chunk from the second one.
-/
import FlyVault.Lib.Run
import FlyVault.Lib.Update
import FlyVault.Protocol.Console

namespace FlyVault.Client.StdinReaders

open FlyVault.Lib FlyVault.Protocol

/-- The thread of `spawn_stdin_task`. -/
inductive Thread
  /-- In `stdin.lock()`. -/
  | waiting
  /-- In `stdin.read`, with the lock. -/
  | reading
  /-- In `blocking_send`, with the lock. -/
  | sending (chunk : Bytes)
  | done
  deriving DecidableEq, Repr

inductive SendTask
  | running
  /-- All senders are gone and the stream is finished. -/
  | finished
  /-- Failed or aborted. -/
  | stopped
  deriving DecidableEq, Repr

structure Session where
  thread : Thread
  /-- All frames that were put into the channel. -/
  queued : List ConsoleFrame
  /-- How many of them the send task has taken. -/
  taken : Nat
  sendTask : SendTask
  /-- The resize task has its sender. -/
  resizing : Bool
  deriving DecidableEq, Repr

/-- A chunk that was read, by which thread, and the session that was connected. -/
structure Read where
  thread : Nat
  session : Option Nat
  chunk : Bytes
  deriving DecidableEq, Repr

structure Sessions where
  session : Nat → Option Session
  /-- The number of the next session. -/
  next : Nat
  current : Option Nat
  reads : List Read

structure Sys where
  sessions : Sessions
  lock : Option Nat
  stdin : List Bytes
  /-- The loop over the connections has returned. -/
  returned : Bool

def init : Sys := ⟨⟨fun _ => none, 0, none, []⟩, none, [], false⟩

inductive Label
  | attach
  | arrive (chunk : Bytes)
  | acquire (k : Nat)
  | read (k : Nat)
  | readFailed (k : Nat)
  | send (k : Nat)
  | resize (k : Nat) (rows cols : UInt16)
  | resizeEnd (k : Nat)
  /-- The send task takes a frame and writes it. -/
  | take (k : Nat)
  | sendFailed (k : Nat)
  | sendFinish (k : Nat)
  /-- The receive loop of the current session ends; the tasks are aborted and awaited. -/
  | detach (again : Bool)
  deriving DecidableEq, Repr

namespace Session

/-- What `run_session` starts with. -/
def fresh : Session := ⟨.waiting, [], 0, .running, true⟩

/-- The channel has room for a frame. -/
def room (x : Session) : Bool := x.queued.length - x.taken < 64

def push (x : Session) (frame : ConsoleFrame) : Session :=
  { x with queued := x.queued ++ [frame] }

end Session

namespace Sessions

def set (t : Sessions) (k : Nat) (x : Session) : Sessions :=
  { t with session := Function.update t.session k (some x) }

/-- The current session, while its send task has not failed. -/
def connected (t : Sessions) : Option Nat :=
  t.current.filter fun k => (t.session k).any fun x => x.sendTask ≠ .stopped

def attach (t : Sessions) : Sessions :=
  { t with
    session := Function.update t.session t.next (some .fresh)
    next := t.next + 1
    current := some t.next }

def detach (t : Sessions) (k : Nat) (x : Session) : Sessions :=
  { t.set k { x with sendTask := .stopped, resizing := false } with current := none }

def logRead (t : Sessions) (k : Nat) (x : Session) (chunk : Bytes) : Sessions :=
  { t.set k { x with thread := .sending chunk } with
    reads := t.reads ++ [⟨k, t.connected, chunk⟩] }

end Sessions

namespace Sys

def set (s : Sys) (k : Nat) (x : Session) : Sys := { s with sessions := s.sessions.set k x }

/-- The thread ends and releases the lock. -/
def endThread (s : Sys) (k : Nat) (x : Session) : Sys :=
  { s.set k { x with thread := .done } with lock := none }

end Sys

/-- A step of a session or of its thread. -/
def stepOf (s : Sys) (k : Nat) (x : Session) : Label → Option Sys
  | .acquire _ =>
      if x.thread = .waiting ∧ s.lock = none then
        some { s.set k { x with thread := .reading } with lock := some k }
      else none
  | .read _ =>
      match x.thread, s.stdin with
      | .reading, [] :: rest => some { s.endThread k x with stdin := rest }
      | .reading, chunk :: rest =>
          some { s with sessions := s.sessions.logRead k x chunk, stdin := rest }
      | _, _ => none
  | .readFailed _ => if x.thread = .reading then some (s.endThread k x) else none
  | .send _ =>
      match x.thread with
      | .sending chunk =>
          if x.sendTask = .running then
            if x.room then
              some (s.set k { x.push ⟨consoleData, chunk⟩ with thread := .reading })
            else none
          else some (s.endThread k x)
      | _ => none
  | .resize _ rows cols =>
      if x.resizing ∧ x.sendTask = .running ∧ x.room then
        some (s.set k (x.push ⟨consoleResize, encodeResize rows cols⟩))
      else none
  | .resizeEnd _ => some (s.set k { x with resizing := false })
  | .take _ =>
      if x.sendTask = .running ∧ x.taken < x.queued.length then
        some (s.set k { x with taken := x.taken + 1 })
      else none
  | .sendFailed _ =>
      if x.sendTask = .running then some (s.set k { x with sendTask := .stopped }) else none
  | .sendFinish _ =>
      if x.sendTask = .running ∧ x.thread = .done ∧ x.resizing = false ∧
          x.taken = x.queued.length then
        some (s.set k { x with sendTask := .finished })
      else none
  | .detach again => some { s with sessions := s.sessions.detach k x, returned := !again }
  | _ => none

/-- The session a label is about. -/
def Label.subject (s : Sys) : Label → Option Nat
  | .acquire k | .read k | .readFailed k | .send k | .resize k _ _ | .resizeEnd k | .take k
  | .sendFailed k | .sendFinish k => some k
  | .detach _ => s.sessions.current
  | .attach | .arrive _ => none

def step (s : Sys) (a : Label) : Option Sys :=
  match a with
  | .attach =>
      if s.sessions.current = none ∧ s.returned = false then
        some { s with sessions := s.sessions.attach }
      else none
  | .arrive chunk => some { s with stdin := s.stdin ++ [chunk] }
  | a =>
      match a.subject s with
      | some k =>
          match s.sessions.session k with
          | some x => stepOf s k x a
          | none => none
      | none => none

/-! ## The books of a session -/

/-- The chunk between the read and the channel. -/
def Thread.hand : Thread → List Bytes
  | .sending chunk => [chunk]
  | _ => []

/-- The chunks among the frames. -/
def dataOf (frames : List ConsoleFrame) : List Bytes :=
  (frames.filter fun f => f.ty = consoleData).map (·.payload)

theorem dataOf_push_data (frames : List ConsoleFrame) (chunk : Bytes) :
    dataOf (frames ++ [⟨consoleData, chunk⟩]) = dataOf frames ++ [chunk] := by
  simp [dataOf]

theorem dataOf_push_resize (frames : List ConsoleFrame) (payload : Bytes) :
    dataOf (frames ++ [⟨consoleResize, payload⟩]) = dataOf frames := by
  have hne : ¬consoleResize = consoleData := by decide
  simp [dataOf, hne]

namespace Sessions

/-- The chunks that were read while the session `k` was connected. -/
def chunks (t : Sessions) (k : Nat) : List Bytes :=
  (t.reads.filter fun r => r.session = some k).map (·.chunk)

/-- What the thread of the session `k` has in hand while the session is connected. -/
def pending (t : Sessions) (k : Nat) (x : Session) : List Bytes :=
  if t.connected = some k then x.thread.hand else []

/-- Which sessions run, and which threads. -/
structure Shape (t : Sessions) : Prop where
  fresh : ∀ k, t.next ≤ k → t.session k = none
  running : ∀ k x, t.session k = some x → x.sendTask = .running → t.current = some k
  finished : ∀ k x, t.session k = some x → x.sendTask = .finished → x.thread = .done
  /-- The threads of earlier sessions have ended. -/
  alone : ∀ k, t.current = some k → ∀ j x, t.session j = some x → j ≠ k → x.thread = .done

structure Inv (t : Sessions) : Prop extends Shape t where
  own : ∀ r ∈ t.reads, ∀ k, r.session = some k → r.thread = k ∧ k < t.next
  log : ∀ k x, t.session k = some x → t.chunks k = dataOf x.queued ++ t.pending k x

variable {t : Sessions} {k : Nat} {x y : Session}

theorem connected_eq_some_iff : t.connected = some k ↔
    t.current = some k ∧ ∃ x, t.session k = some x ∧ x.sendTask ≠ .stopped := by
  unfold connected
  rw [Option.filter_eq_some_iff]
  refine and_congr_right fun _ => ?_
  rw [Option.any_eq_true]
  simp

/-- Whether another session is connected does not depend on this one. -/
theorem connected_set_of_ne {j : Nat} (hj : j ≠ k) :
    (t.set k y).connected = some j ↔ t.connected = some j := by
  rw [connected_eq_some_iff, connected_eq_some_iff]
  have hsame : (t.set k y).session j = t.session j := Function.update_of_ne hj ..
  rw [hsame]
  rfl

theorem connected_set_self :
    (t.set k y).connected = some k ↔ t.current = some k ∧ y.sendTask ≠ .stopped := by
  rw [connected_eq_some_iff]
  have hself : (t.set k y).session k = some y := Function.update_self ..
  rw [hself]
  simp [set]

theorem connected_iff (hx : t.session k = some x) :
    t.connected = some k ↔ t.current = some k ∧ x.sendTask ≠ .stopped := by
  rw [connected_eq_some_iff, hx]
  simp

theorem pending_set_of_ne {j : Nat} {z : Session} (hj : j ≠ k) :
    (t.set k y).pending j z = t.pending j z := by
  unfold pending
  exact if_congr (connected_set_of_ne hj) rfl rfl

theorem inv_init : init.sessions.Inv := by
  refine ⟨⟨fun _ _ => rfl, ?_, ?_, ?_⟩, ?_, ?_⟩
  · intro k x h
    cases h
  · intro k x h
    cases h
  · intro k h
    cases h
  · intro r h
    cases h
  · intro k x h
    cases h

theorem Shape.set (ht : t.Shape) (hx : t.session k = some x)
    (hdone : x.thread = .done → y.thread = .done)
    (hrun : y.sendTask = .running → x.sendTask = .running)
    (hfin : y.sendTask = .finished → y.thread = .done) : (t.set k y).Shape := by
  refine ⟨?_, ?_, ?_, ?_⟩
  · intro j hj
    have hne : j ≠ k := by
      intro heq
      rw [← heq, ht.fresh j hj] at hx
      cases hx
    exact (Function.update_of_ne hne ..).trans (ht.fresh j hj)
  · intro j z hz hzrun
    obtain ⟨rfl, rfl⟩ | ⟨-, hz⟩ := update_some_iff.mp hz
    · exact ht.running j x hx (hrun hzrun)
    · exact ht.running j z hz hzrun
  · intro j z hz hzfin
    obtain ⟨rfl, rfl⟩ | ⟨-, hz⟩ := update_some_iff.mp hz
    · exact hfin hzfin
    · exact ht.finished j z hz hzfin
  · intro i hi j z hz hne
    obtain ⟨rfl, rfl⟩ | ⟨-, hz⟩ := update_some_iff.mp hz
    · exact hdone (ht.alone i hi j x hx hne)
    · exact ht.alone i hi j z hz hne

/-- A session changes, and its books stay right. -/
theorem Inv.set (ht : t.Inv) (hx : t.session k = some x)
    (hdone : x.thread = .done → y.thread = .done)
    (hrun : y.sendTask = .running → x.sendTask = .running)
    (hfin : y.sendTask = .finished → y.thread = .done)
    (hlog : dataOf y.queued ++ (t.set k y).pending k y = dataOf x.queued ++ t.pending k x) :
    (t.set k y).Inv := by
  refine ⟨ht.toShape.set hx hdone hrun hfin, ht.own, ?_⟩
  intro j z hz
  obtain ⟨rfl, rfl⟩ | ⟨hne, hz⟩ := update_some_iff.mp hz
  · rw [hlog]
    exact ht.log j x hx
  · rw [pending_set_of_ne hne]
    exact ht.log j z hz

/-- The same when the send task stays as it is, or finishes. -/
theorem Inv.set_same (ht : t.Inv) (hx : t.session k = some x)
    (hdone : x.thread = .done → y.thread = .done)
    (htask : y.sendTask = x.sendTask ∨
      x.sendTask = .running ∧ y.sendTask = .finished ∧ y.thread = .done)
    (hlog : t.connected = some k →
      dataOf y.queued ++ y.thread.hand = dataOf x.queued ++ x.thread.hand)
    (hoff : t.connected ≠ some k → dataOf y.queued = dataOf x.queued) : (t.set k y).Inv := by
  have hconn : (t.set k y).connected = some k ↔ t.connected = some k := by
    rw [connected_set_self, connected_iff hx]
    obtain htask | ⟨hxtask, hytask, -⟩ := htask
    · rw [htask]
    · rw [hxtask, hytask]
      simp
  refine ht.set hx hdone ?_ ?_ ?_
  · intro hy
    obtain htask | ⟨hxtask, -, -⟩ := htask
    · exact htask ▸ hy
    · exact hxtask
  · intro hy
    obtain htask | ⟨-, -, hthread⟩ := htask
    · exact hdone (ht.finished k x hx (htask ▸ hy))
    · exact hthread
  · unfold pending
    by_cases hc : t.connected = some k
    · rw [if_pos hc, if_pos (hconn.mpr hc)]
      exact hlog hc
    · rw [if_neg hc, if_neg (fun h => hc (hconn.mp h)), hoff hc]

/-- No chunk of the connected session is between the read and the channel. -/
def EmptyHanded (t : Sessions) : Prop :=
  ∀ k x, t.connected = some k → t.session k = some x → x.thread.hand = []

/-- The send task fails. -/
theorem Inv.stop (ht : t.Inv) (hx : t.session k = some x) (hempty : t.EmptyHanded)
    (hy : y.sendTask = .stopped) (hthread : y.thread = x.thread) (hqueued : y.queued = x.queued) :
    (t.set k y).Inv := by
  refine ht.set hx (fun h => hthread.trans h) (by simp [hy]) (by simp [hy]) ?_
  have hoff : (t.set k y).pending k y = [] := if_neg fun h => (connected_set_self.mp h).2 hy
  have hnone : t.pending k x = [] := by
    unfold pending
    split
    · next hc => exact hempty k x hc hx
    · rfl
  rw [hoff, hnone, hqueued]

theorem Inv.detach (ht : t.Inv) (hx : t.session k = some x) (hcurrent : t.current = some k)
    (hempty : t.EmptyHanded) : (t.detach k x).Inv := by
  have hstop : (t.set k { x with sendTask := .stopped, resizing := false }).Inv :=
    ht.stop hx hempty rfl rfl rfl
  -- no other session is running
  have hnone : ∀ j z, (t.detach k x).session j = some z → z.sendTask ≠ .running := by
    intro j z hz hrun
    obtain ⟨-, rfl⟩ | ⟨hne, hz⟩ := update_some_iff.mp hz
    · cases hrun
    · have hj := ht.running j z hz hrun
      rw [hcurrent] at hj
      exact hne (Option.some.inj hj).symm
  have hpending : ∀ j z, (t.set k { x with sendTask := .stopped, resizing := false }).session j =
      some z →
      (t.set k { x with sendTask := .stopped, resizing := false }).pending j z = [] := by
    intro j z hz
    refine if_neg fun h => ?_
    obtain ⟨hj, w, hw, htask⟩ := connected_eq_some_iff.mp h
    have hjk : j = k := Option.some.inj (hj.symm.trans hcurrent)
    subst hjk
    obtain rfl : w = _ := Option.some.inj (hw.symm.trans (Function.update_self ..))
    exact htask rfl
  refine ⟨⟨hstop.fresh, ?_, hstop.finished, ?_⟩, hstop.own, ?_⟩
  · intro j z hz hrun
    exact absurd hrun (hnone j z hz)
  · intro i hi
    cases hi
  · intro j z hz
    have hlog := hstop.log j z hz
    rw [hpending j z hz] at hlog
    exact hlog

theorem Inv.chunks_fresh (ht : t.Inv) : t.chunks t.next = [] := by
  unfold chunks
  rw [List.map_eq_nil_iff, List.filter_eq_nil_iff]
  intro r hr hsession
  have hlt := (ht.own r hr t.next (by simpa using hsession)).2
  omega

/-- A session is attached after the threads of the earlier ones have ended. -/
theorem Inv.attach (ht : t.Inv) (hnone : t.current = none)
    (hdone : ∀ j x, t.session j = some x → x.thread = .done) : t.attach.Inv := by
  have hold : ∀ j z, t.session j = some z → j ≠ t.next := by
    intro j z hz heq
    rw [heq, ht.fresh t.next (Nat.le_refl _)] at hz
    cases hz
  refine ⟨⟨?_, ?_, ?_, ?_⟩, ?_, ?_⟩
  · intro j hj
    have hj : t.next + 1 ≤ j := hj
    have hne : j ≠ t.next := by omega
    exact (Function.update_of_ne hne ..).trans (ht.fresh j (by omega))
  · intro j z hz hrun
    obtain ⟨rfl, -⟩ | ⟨-, hz⟩ := update_some_iff.mp hz
    · rfl
    · have hj := ht.running j z hz hrun
      rw [hnone] at hj
      cases hj
  · intro j z hz hfin
    obtain ⟨-, rfl⟩ | ⟨-, hz⟩ := update_some_iff.mp hz
    · cases hfin
    · exact ht.finished j z hz hfin
  · intro i hi j z hz hne
    obtain ⟨rfl, -⟩ | ⟨-, hz⟩ := update_some_iff.mp hz
    · exact absurd (Option.some.inj hi) hne
    · exact hdone j z hz
  · intro r hr j hj
    obtain ⟨hthread, hlt⟩ := ht.own r hr j hj
    exact ⟨hthread, Nat.lt_succ_of_lt hlt⟩
  · intro j z hz
    obtain ⟨rfl, rfl⟩ | ⟨hne, hz⟩ := update_some_iff.mp hz
    · have hpending : t.attach.pending t.next .fresh = [] := by
        unfold pending
        split
        · rfl
        · rfl
      rw [hpending]
      exact ht.chunks_fresh
    · have hlog := ht.log j z hz
      have hempty : t.pending j z = [] :=
        if_neg fun h => by simp [connected_eq_some_iff, hnone] at h
      have hempty' : t.attach.pending j z = [] :=
        if_neg fun h => hne (Option.some.inj (connected_eq_some_iff.mp h).1).symm
      rw [hempty] at hlog
      rw [hempty']
      exact hlog

/-- A thread that has not ended belongs to the connected session, if there is one. -/
theorem Shape.eq_of_connected (ht : t.Shape) (hx : t.session k = some x)
    (hthread : x.thread ≠ .done) {j : Nat} (hj : t.connected = some j) : j = k := by
  by_contra hne
  exact hthread (ht.alone j (connected_eq_some_iff.mp hj).1 k x hx fun h => hne h.symm)

theorem chunks_logRead (j : Nat) (chunk : Bytes) : (t.logRead k x chunk).chunks j =
    t.chunks j ++ if t.connected = some j then [chunk] else [] := by
  unfold chunks logRead
  rw [List.filter_append, List.map_append]
  split
  · next hc => simp [hc]
  · next hc => simp [hc]

/-- A thread reads a chunk: it is in the hand of the connected session's thread, or no session
    is connected. -/
theorem Inv.logRead (ht : t.Inv) (hx : t.session k = some x) (hthread : x.thread = .reading)
    (chunk : Bytes) : (t.logRead k x chunk).Inv := by
  have hnot : x.thread ≠ .done := by simp [hthread]
  have hshape : (t.set k { x with thread := .sending chunk }).Shape := by
    refine ht.toShape.set hx (fun h => absurd h hnot) id ?_
    intro hfin
    exact absurd (ht.finished k x hx hfin) hnot
  have hlt : k < t.next := by
    by_contra hge
    rw [ht.fresh k (by omega)] at hx
    cases hx
  have hconn : (t.set k { x with thread := .sending chunk }).connected = some k ↔
      t.connected = some k := by
    rw [connected_set_self, connected_iff hx]
  refine ⟨⟨hshape.fresh, hshape.running, hshape.finished, hshape.alone⟩, ?_, ?_⟩
  · intro r hr j hj
    obtain hr | hr := List.mem_append.mp hr
    · exact ht.own r hr j hj
    · obtain rfl := List.mem_singleton.mp hr
      have hjk := ht.eq_of_connected hx hnot hj
      exact ⟨hjk.symm, hjk ▸ hlt⟩
  · intro j z hz
    rw [chunks_logRead]
    obtain ⟨rfl, rfl⟩ | ⟨hne, hz⟩ := update_some_iff.mp hz
    · have hlog := ht.log j x hx
      have hold : t.pending j x = [] := by
        unfold pending
        rw [hthread]
        split
        · rfl
        · rfl
      rw [hlog, hold, List.append_nil]
      exact congrArg _ (if_congr hconn.symm rfl rfl)
    · have hoff : t.connected ≠ some j := fun h => hne (ht.eq_of_connected hx hnot h)
      rw [if_neg hoff, List.append_nil, ht.log j z hz]
      exact congrArg _ (pending_set_of_ne hne).symm

end Sessions

/-! ## Runs -/

/-- A session is attached only when the threads of the earlier ones have ended, and no connection
    is lost while a chunk is between the read and the channel. -/
def Careful (s : Sys) : Label → Prop
  | .attach => ∀ j x, s.sessions.session j = some x → x.thread = .done
  | .sendFailed _ | .detach _ => s.sessions.EmptyHanded
  | _ => True

theorem inv_read {s s' : Sys} {k : Nat} {x : Session} (hs : s.sessions.Inv)
    (hx : s.sessions.session k = some x) (h : stepOf s k x (.read k) = some s') :
    s'.sessions.Inv := by
  simp only [stepOf] at h
  split at h
  · next hthread _ =>
      cases h
      refine hs.set_same hx (fun _ => rfl) (.inl rfl) ?_ (fun _ => rfl)
      intro _
      rw [hthread]
      rfl
  · next hthread _ =>
      cases h
      exact hs.logRead hx hthread _
  · cases h

theorem inv_send {s s' : Sys} {k : Nat} {x : Session} (hs : s.sessions.Inv)
    (hx : s.sessions.session k = some x) (h : stepOf s k x (.send k) = some s') :
    s'.sessions.Inv := by
  simp only [stepOf] at h
  split at h
  · next chunk hthread =>
      split at h
      · next htask =>
          obtain ⟨-, h⟩ := Option.ite_none_right_eq_some.mp h
          cases h
          have hconn : s.sessions.connected = some k :=
            (Sessions.connected_iff hx).mpr ⟨hs.running k x hx htask, by simp [htask]⟩
          refine hs.set_same hx (by simp [hthread]) (.inl rfl) ?_ (fun h => absurd hconn h)
          intro _
          rw [hthread]
          exact (List.append_nil _).trans (dataOf_push_data x.queued chunk)
      · next htask =>
          cases h
          -- the receiver is gone, so the session is not connected and the chunk is lost
          refine hs.set_same hx (fun _ => rfl) (.inl rfl) ?_ (fun _ => rfl)
          intro hconn
          obtain ⟨-, hstopped⟩ := (Sessions.connected_iff hx).mp hconn
          have hfinished : x.sendTask = .finished := by
            cases htask' : x.sendTask with
            | running => exact absurd htask' htask
            | finished => rfl
            | stopped => exact absurd htask' hstopped
          rw [hs.finished k x hx hfinished] at hthread
          cases hthread
  · cases h

theorem inv_stepOf {s s' : Sys} {a : Label} {k : Nat} {x : Session} (hs : s.sessions.Inv)
    (hok : Careful s a) (hsubject : a.subject s = some k) (hx : s.sessions.session k = some x)
    (h : stepOf s k x a = some s') : s'.sessions.Inv := by
  cases a with
  | attach => cases h
  | arrive chunk => cases h
  | acquire _ =>
      obtain ⟨⟨hthread, -⟩, h⟩ := Option.ite_none_right_eq_some.mp h
      cases h
      refine hs.set_same hx (by simp [hthread]) (.inl rfl) ?_ (fun _ => rfl)
      intro _
      rw [hthread]
      rfl
  | read _ => exact inv_read hs hx h
  | readFailed _ =>
      obtain ⟨hthread, h⟩ := Option.ite_none_right_eq_some.mp h
      cases h
      refine hs.set_same hx (fun _ => rfl) (.inl rfl) ?_ (fun _ => rfl)
      intro _
      rw [hthread]
      rfl
  | send _ => exact inv_send hs hx h
  | resize _ rows cols =>
      obtain ⟨-, h⟩ := Option.ite_none_right_eq_some.mp h
      cases h
      have hdata : dataOf (x.push ⟨consoleResize, encodeResize rows cols⟩).queued =
          dataOf x.queued := dataOf_push_resize x.queued _
      exact hs.set_same hx id (.inl rfl) (fun _ => by rw [hdata]; rfl) (fun _ => hdata)
  | resizeEnd _ =>
      cases h
      exact hs.set_same hx id (.inl rfl) (fun _ => rfl) (fun _ => rfl)
  | take _ =>
      obtain ⟨-, h⟩ := Option.ite_none_right_eq_some.mp h
      cases h
      exact hs.set_same hx id (.inl rfl) (fun _ => rfl) (fun _ => rfl)
  | sendFailed _ =>
      obtain ⟨-, h⟩ := Option.ite_none_right_eq_some.mp h
      cases h
      exact hs.stop hx hok rfl rfl rfl
  | sendFinish _ =>
      obtain ⟨⟨htask, hdone, -⟩, h⟩ := Option.ite_none_right_eq_some.mp h
      cases h
      exact hs.set_same hx id (.inr ⟨htask, rfl, hdone⟩) (fun _ => rfl) (fun _ => rfl)
  | detach again =>
      cases h
      exact hs.detach hx hsubject hok

theorem inv_step (s : Sys) (a : Label) (s' : Sys) (hs : s.sessions.Inv) (hok : Careful s a)
    (h : step s a = some s') : s'.sessions.Inv := by
  unfold step at h
  split at h
  · obtain ⟨⟨hnone, -⟩, h⟩ := Option.ite_none_right_eq_some.mp h
    cases h
    exact hs.attach hnone hok
  · cases h
    exact hs
  · split at h
    · next k hsubject =>
        split at h
        · next x hx => exact inv_stepOf hs hok hsubject hx h
        · cases h
    · cases h

end FlyVault.Client.StdinReaders
