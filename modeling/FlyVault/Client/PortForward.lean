/-
  Port forwarding, from the local application to the target and back: `bridge_one`
  (`crates/client/src/forward.rs`) and `handle_port_forward_stream`
  (`crates/init/src/forward.rs`), after the target header has been read.

  Each direction is a lane of three pipes and two copy loops: the application's TCP
  connection, a loop at the end it enters, the QUIC stream, a loop at the other end, and the
  TCP connection out. Each end runs its two loops, one of each lane, under one `select!`: the
  first loop to finish ends the other, and dropping the streams closes what the end writes to
  and stops what it reads from. What was on its way there is lost. A closed TCP socket with
  unread bytes may in addition be reset, which is not modelled.

  A lane is named by its direction, and an end by the lane that enters there: `up` is from
  local to target and enters at the client, `down` is the other way and enters at the server.

  `forwarded_whole`: if an application closes its write half only when nothing the other has
  written is still inside the tunnel, and the other writes nothing after that, then no read or
  write fails, the loops come to rest, and each application has exactly what the other wrote.
  `half_close_cuts_answer` is a run without this condition.
-/
import FlyVault.Lib.Pipe
import FlyVault.Lib.Run
import FlyVault.Protocol.Console

namespace FlyVault.Client.PortForward

open FlyVault.Lib FlyVault.Protocol

inductive Way
  | up
  | down
  deriving DecidableEq, Repr

def Way.other : Way → Way
  | .up => .down
  | .down => .up

/-- One direction. `first` and `second` are the buffers of its two loops; `written` and
    `received` are everything its two applications have written and read. -/
structure Lane where
  written : Bytes
  tcpIn : Pipe UInt8
  first : Bytes
  quic : Pipe UInt8
  second : Bytes
  tcpOut : Pipe UInt8
  received : Bytes
  deriving DecidableEq, Repr

def Lane.empty : Lane := ⟨[], .empty, [], .empty, [], .empty, []⟩

/-- What has been written and has not entered the QUIC stream yet. -/
def Lane.before (l : Lane) : Bytes := l.first ++ l.tcpIn.items

/-- What has been written and has not left the second end yet, oldest first. -/
def Lane.inside (l : Lane) : Bytes := l.second ++ (l.quic.items ++ l.before)

/-- The end where the lane enters is gone. -/
def Lane.stopFirst (l : Lane) : Lane :=
  { l with
    tcpIn := { l.tcpIn with stopped := true }
    quic := { l.quic with closed := true } }

/-- The end where the lane leaves is gone. -/
def Lane.stopSecond (l : Lane) : Lane :=
  { l with
    quic := { l.quic with stopped := true }
    tcpOut := { l.tcpOut with closed := true } }

structure Sys where
  lane : Way → Lane
  /-- `bridge_one` for `up`, `handle_port_forward_stream` for `down`. -/
  running : Way → Bool
  /-- A read or write has failed. -/
  failed : Bool

def init : Sys := ⟨fun _ => .empty, fun _ => true, false⟩

/-- The four copy loops. -/
inductive Loop
  | toRemote
  | recvToTcp
  | tcpToSend
  | fromRemote
  deriving DecidableEq, Repr

inductive Label
  /-- The application at the head of the lane writes. -/
  | write (w : Way) (payload : Bytes)
  /-- It closes its write half. -/
  | closeWrite (w : Way)
  /-- The application at the end of the lane reads. -/
  | receive (w : Way) (n : Nat)
  | copy (l : Loop) (c : CopyStep)
  deriving DecidableEq, Repr

/-- The size of the loops' buffers. -/
def bufferBytes : Nat := 8192

def Sys.setLane (s : Sys) (w : Way) (l : Lane) : Sys :=
  { s with lane := Function.update s.lane w l }

/-- `select!` returns at the end `e`, and its streams are dropped. -/
def Sys.stop (s : Sys) (e : Way) : Sys :=
  { s with
    lane := fun w => if w = e then (s.lane w).stopFirst else (s.lane w).stopSecond
    running := Function.update s.running e false }

/-- What a loop's result means for the end `e` it runs at. -/
def Sys.settle (s : Sys) (e : Way) : CopyResult → Sys
  | .goesOn => s
  | .ends => s.stop e
  | .fails => { s.stop e with failed := true }

/-- The loop at the end where the lane `w` enters. -/
def firstLoop (s : Sys) (w : Way) (c : CopyStep) : Option Sys :=
  if s.running w then
    (copy bufferBytes (s.lane w).tcpIn (s.lane w).first (s.lane w).quic c).map
      fun (src, buf, dst, r) =>
        (s.setLane w { s.lane w with tcpIn := src, first := buf, quic := dst }).settle w r
  else none

/-- The loop at the end where the lane `w` leaves. -/
def secondLoop (s : Sys) (w : Way) (c : CopyStep) : Option Sys :=
  if s.running w.other then
    (copy bufferBytes (s.lane w).quic (s.lane w).second (s.lane w).tcpOut c).map
      fun (src, buf, dst, r) =>
        (s.setLane w { s.lane w with quic := src, second := buf, tcpOut := dst }).settle w.other r
  else none

/-- `to_remote` of `bridge_one`. -/
def toRemote (s : Sys) (c : CopyStep) : Option Sys := firstLoop s .up c

/-- `recv_to_tcp` of `handle_port_forward_stream`. -/
def recvToTcp (s : Sys) (c : CopyStep) : Option Sys := secondLoop s .up c

/-- `tcp_to_send` of `handle_port_forward_stream`. -/
def tcpToSend (s : Sys) (c : CopyStep) : Option Sys := firstLoop s .down c

/-- `from_remote` of `bridge_one`. -/
def fromRemote (s : Sys) (c : CopyStep) : Option Sys := secondLoop s .down c

def step (s : Sys) : Label → Option Sys
  | .write w payload =>
      let l := s.lane w
      if l.tcpIn.closed then none
      else if l.tcpIn.stopped then some { s with failed := true }
      else some (s.setLane w { l with
        written := l.written ++ payload
        tcpIn := { l.tcpIn with items := l.tcpIn.items ++ payload } })
  | .closeWrite w =>
      let l := s.lane w
      if l.tcpIn.closed then none
      else some (s.setLane w { l with tcpIn := { l.tcpIn with closed := true } })
  | .receive w n =>
      let l := s.lane w
      if 0 < n ∧ n ≤ l.tcpOut.items.length then
        some (s.setLane w { l with
          tcpOut := { l.tcpOut with items := l.tcpOut.items.drop n }
          received := l.received ++ l.tcpOut.items.take n })
      else none
  | .copy .toRemote c => toRemote s c
  | .copy .recvToTcp c => recvToTcp s c
  | .copy .tcpToSend c => tcpToSend s c
  | .copy .fromRemote c => fromRemote s c

/-- An application closes its write half only when nothing the other one has written is still
    inside, and the other one writes nothing after that. -/
def Orderly (s : Sys) : Label → Prop
  | .write w _ => (s.lane w.other).tcpIn.closed = false
  | .closeWrite w => (s.lane w.other).inside = []
  | _ => True

instance (s : Sys) (a : Label) : Decidable (Orderly s a) := by
  cases a with
  | write w _ => exact inferInstanceAs (Decidable (_ = false))
  | closeWrite w => exact inferInstanceAs (Decidable (_ = []))
  | receive | copy => exact isTrue trivial

/-- The steps of the loops and of the reading applications. -/
def Internal (_ : Sys) : Label → Prop
  | .receive _ _ | .copy _ _ => True
  | _ => False

/-- Nothing moves any more. -/
def Quiet (s : Sys) : Prop := ∀ a, Internal s a → step s a = none

/-! ## One lane -/

/-- A lane that has lost nothing, where the ends it enters and leaves at are running or not. -/
structure LaneInv (l : Lane) (enter leave : Bool) : Prop where
  whole : l.written = l.received ++ (l.tcpOut.items ++ l.inside)
  tcpInStopped : l.tcpIn.stopped = !enter
  quicClosed : l.quic.closed = !enter
  quicStopped : l.quic.stopped = !leave
  tcpOutClosed : l.tcpOut.closed = !leave
  reads : l.tcpOut.stopped = false
  entered : enter = false → l.before = []
  left : leave = false → l.inside = []

theorem laneInv_empty : LaneInv .empty true true :=
  ⟨rfl, rfl, rfl, rfl, rfl, rfl, (by simp), (by simp)⟩

theorem Lane.before_of_inside {l : Lane} (h : l.inside = []) : l.before = [] :=
  (List.append_eq_nil_iff.mp (List.append_eq_nil_iff.mp h).2).2

theorem LaneInv.stopFirst {l : Lane} {enter leave : Bool} (h : LaneInv l enter leave)
    (hnil : l.before = []) : LaneInv l.stopFirst false leave :=
  ⟨h.whole, rfl, rfl, h.quicStopped, h.tcpOutClosed, h.reads, fun _ => hnil, h.left⟩

theorem LaneInv.stopSecond {l : Lane} {enter leave : Bool} (h : LaneInv l enter leave)
    (hnil : l.inside = []) : LaneInv l.stopSecond enter false :=
  ⟨h.whole, h.tcpInStopped, h.quicClosed, rfl, rfl, h.reads, h.entered, fun _ => hnil⟩

/-- A step that goes on has something to move. -/
theorem nonempty_of_copied {src src' dst dst' : Pipe UInt8} {buf buf' : Bytes}
    (h : Copied src buf dst src' buf' dst' .goesOn) : buf ++ src.items ≠ [] := by
  intro hnil
  obtain ⟨hbuf, hitems⟩ := List.append_eq_nil_iff.mp hnil
  cases h with
  | read n _ hpos hn =>
      rw [hitems, List.length_nil] at hn
      omega
  | write n hpos hn _ =>
      rw [hbuf, List.length_nil] at hn
      omega

theorem LaneInv.firstLoop {l : Lane} {leave : Bool} {src dst : Pipe UInt8} {buf : Bytes}
    (h : LaneInv l true leave) (hcopied : Copied l.tcpIn l.first l.quic src buf dst .goesOn) :
    LaneInv { l with tcpIn := src, first := buf, quic := dst } true leave := by
  obtain ⟨hitems, -, hstopped, hclosed, hstopped'⟩ := hcopied.conserves
  have hinside : l.second ++ (dst.items ++ (buf ++ src.items)) = l.inside := by
    rw [Lane.inside, Lane.before, ← List.append_assoc dst.items, hitems, List.append_assoc]
  refine ⟨?_, hstopped.trans h.tcpInStopped, hclosed.trans h.quicClosed,
    hstopped'.trans h.quicStopped, h.tcpOutClosed, h.reads, (by simp), ?_⟩
  · show l.written =
      l.received ++ (l.tcpOut.items ++ (l.second ++ (dst.items ++ (buf ++ src.items))))
    rw [hinside]
    exact h.whole
  · intro hleave
    exact absurd (Lane.before_of_inside (h.left hleave)) (nonempty_of_copied hcopied)

theorem LaneInv.secondLoop {l : Lane} {enter : Bool} {src dst : Pipe UInt8} {buf : Bytes}
    (h : LaneInv l enter true) (hcopied : Copied l.quic l.second l.tcpOut src buf dst .goesOn) :
    LaneInv { l with quic := src, second := buf, tcpOut := dst } enter true := by
  obtain ⟨hitems, hclosed, hstopped, hclosed', hstopped'⟩ := hcopied.conserves
  refine ⟨?_, h.tcpInStopped, hclosed.trans h.quicClosed, hstopped.trans h.quicStopped,
    hclosed'.trans h.tcpOutClosed, hstopped'.trans h.reads, h.entered, (by simp)⟩
  have hmoved : dst.items ++ (buf ++ (src.items ++ l.before)) =
      l.tcpOut.items ++ (l.second ++ (l.quic.items ++ l.before)) := by
    rw [← List.append_assoc buf, ← List.append_assoc dst.items, ← List.append_assoc dst.items,
      hitems]
    simp only [List.append_assoc]
  show l.written = l.received ++ (dst.items ++ (buf ++ (src.items ++ l.before)))
  rw [hmoved]
  exact h.whole

/-! ## What a step does -/

inductive Effect (s : Sys) : Label → Sys → Prop
  | write (w : Way) (payload : Bytes) (hopen : (s.lane w).tcpIn.closed = false) :
      Effect s (.write w payload) (s.setLane w { s.lane w with
        written := (s.lane w).written ++ payload
        tcpIn := { (s.lane w).tcpIn with items := (s.lane w).tcpIn.items ++ payload } })
  | writeFails (w : Way) (payload : Bytes) (hopen : (s.lane w).tcpIn.closed = false)
      (hstopped : (s.lane w).tcpIn.stopped = true) :
      Effect s (.write w payload) { s with failed := true }
  | closeWrite (w : Way) :
      Effect s (.closeWrite w)
        (s.setLane w { s.lane w with tcpIn := { (s.lane w).tcpIn with closed := true } })
  | receive (w : Way) (n : Nat) (hpos : 0 < n) (hn : n ≤ (s.lane w).tcpOut.items.length) :
      Effect s (.receive w n) (s.setLane w { s.lane w with
        tcpOut := { (s.lane w).tcpOut with items := (s.lane w).tcpOut.items.drop n }
        received := (s.lane w).received ++ (s.lane w).tcpOut.items.take n })
  | first (l : Loop) (c : CopyStep) (w : Way) {src dst : Pipe UInt8} {buf : Bytes}
      {r : CopyResult} (hrunning : s.running w = true)
      (hcopied : Copied (s.lane w).tcpIn (s.lane w).first (s.lane w).quic src buf dst r) :
      Effect s (.copy l c)
        ((s.setLane w { s.lane w with tcpIn := src, first := buf, quic := dst }).settle w r)
  | second (l : Loop) (c : CopyStep) (w : Way) {src dst : Pipe UInt8} {buf : Bytes}
      {r : CopyResult} (hrunning : s.running w.other = true)
      (hcopied : Copied (s.lane w).quic (s.lane w).second (s.lane w).tcpOut src buf dst r) :
      Effect s (.copy l c)
        ((s.setLane w { s.lane w with quic := src, second := buf, tcpOut := dst }).settle
          w.other r)

theorem effect_of_firstLoop {s s' : Sys} {w : Way} {c : CopyStep} (l : Loop)
    (h : firstLoop s w c = some s') : Effect s (.copy l c) s' := by
  simp only [firstLoop, Option.ite_none_right_eq_some, Option.map_eq_some_iff] at h
  obtain ⟨hrunning, ⟨src, buf, dst, r⟩, hcopy, h⟩ := h
  subst h
  exact .first l c w hrunning (copied_of_copy hcopy)

theorem effect_of_secondLoop {s s' : Sys} {w : Way} {c : CopyStep} (l : Loop)
    (h : secondLoop s w c = some s') : Effect s (.copy l c) s' := by
  simp only [secondLoop, Option.ite_none_right_eq_some, Option.map_eq_some_iff] at h
  obtain ⟨hrunning, ⟨src, buf, dst, r⟩, hcopy, h⟩ := h
  subst h
  exact .second l c w hrunning (copied_of_copy hcopy)

theorem effect_of_step {s s' : Sys} {a : Label} (h : step s a = some s') : Effect s a s' := by
  cases a with
  | write w payload =>
      simp only [step, Option.ite_none_left_eq_some, Bool.not_eq_true] at h
      obtain ⟨hopen, h⟩ := h
      split at h
      · next hstopped =>
          cases h
          exact .writeFails w payload hopen hstopped
      · cases h
        exact .write w payload hopen
  | closeWrite w =>
      simp only [step, Option.ite_none_left_eq_some] at h
      cases h.2
      exact .closeWrite w
  | receive w n =>
      simp only [step, Option.ite_none_right_eq_some] at h
      obtain ⟨⟨hpos, hn⟩, h⟩ := h
      cases h
      exact .receive w n hpos hn
  | copy l c =>
      cases l with
      | toRemote => exact effect_of_firstLoop .toRemote h
      | recvToTcp => exact effect_of_secondLoop .recvToTcp h
      | tcpToSend => exact effect_of_firstLoop .tcpToSend h
      | fromRemote => exact effect_of_secondLoop .fromRemote h

/-! ## The invariant -/

@[simp] theorem Way.other_other (w : Way) : w.other.other = w := by
  cases w with
  | up => rfl
  | down => rfl

@[simp] theorem Way.other_ne (w : Way) : w.other ≠ w := by
  cases w with
  | up => decide
  | down => decide

@[simp] theorem Way.ne_other (w : Way) : w ≠ w.other := (Way.other_ne w).symm

theorem Way.eq_or_eq_other (v w : Way) : v = w ∨ v = w.other := by
  cases v <;> cases w <;> decide

/-- A fact about each way holds when it holds for one and for the other. -/
theorem Way.both {P : Way → Prop} (w : Way) (hw : P w) (hother : P w.other) (v : Way) : P v := by
  obtain rfl | rfl := Way.eq_or_eq_other v w
  · exact hw
  · exact hother

@[simp] theorem Sys.lane_setLane (s : Sys) (w : Way) (l : Lane) : (s.setLane w l).lane w = l := by
  simp [Sys.setLane]

@[simp] theorem Sys.lane_setLane_other (s : Sys) (w : Way) (l : Lane) :
    (s.setLane w l).lane w.other = s.lane w.other := by
  simp [Sys.setLane]

@[simp] theorem Sys.lane_stop (s : Sys) (e : Way) : (s.stop e).lane e = (s.lane e).stopFirst :=
  if_pos rfl

@[simp] theorem Sys.lane_stop_other (s : Sys) (e : Way) :
    (s.stop e).lane e.other = (s.lane e.other).stopSecond :=
  if_neg (Way.other_ne e)

@[simp] theorem Sys.running_stop (s : Sys) (e : Way) : (s.stop e).running e = false := by
  simp [Sys.stop]

@[simp] theorem Sys.running_stop_other (s : Sys) (e : Way) :
    (s.stop e).running e.other = s.running e.other := by
  simp [Sys.stop]

/-- Nothing has been lost, and an end that has stopped has stopped for an application to which
    nothing is on its way. -/
structure Inv (s : Sys) : Prop where
  unfailed : s.failed = false
  lanes : ∀ w, LaneInv (s.lane w) (s.running w) (s.running w.other)
  answered : ∀ w, (s.lane w).tcpIn.closed = true → (s.lane w.other).inside = []
  cause : ∀ w, s.running w = false → s.running w.other = true → (s.lane w).tcpIn.closed = true
  closed : ∀ w, s.running w = false → ∃ v, (s.lane v).tcpIn.closed = true

theorem inv_init : Inv init :=
  ⟨rfl, fun _ => laneInv_empty, by intros; contradiction, by intros; contradiction,
    by intros; contradiction⟩

theorem Inv.answered_other {s : Sys} (h : Inv s) (w : Way)
    (hclosed : (s.lane w.other).tcpIn.closed = true) : (s.lane w).inside = [] := by
  rw [← Way.other_other w]
  exact h.answered w.other hclosed

/-- A change of one lane that keeps its own invariant. -/
theorem Inv.setLane {s : Sys} {w : Way} {l : Lane} (h : Inv s)
    (hlane : LaneInv l (s.running w) (s.running w.other))
    (hkeep : (s.lane w).tcpIn.closed = true → l.tcpIn.closed = true)
    (hclosed : l.tcpIn.closed = true → (s.lane w.other).inside = [])
    (hanswered : (s.lane w.other).tcpIn.closed = true → l.inside = []) :
    Inv (s.setLane w l) := by
  have hmono : ∀ v, (s.lane v).tcpIn.closed = true →
      ((s.setLane w l).lane v).tcpIn.closed = true := by
    refine Way.both w ?_ ?_
    · rw [Sys.lane_setLane]
      exact hkeep
    · rw [Sys.lane_setLane_other]
      exact id
  refine ⟨h.unfailed, Way.both w ?_ ?_, Way.both w ?_ ?_, ?_, ?_⟩
  · rw [Sys.lane_setLane]
    exact hlane
  · rw [Sys.lane_setLane_other]
    exact h.lanes w.other
  · rw [Sys.lane_setLane, Sys.lane_setLane_other]
    exact hclosed
  · rw [Sys.lane_setLane_other, Way.other_other, Sys.lane_setLane]
    exact hanswered
  · intro v hstopped hrunning
    exact hmono v (h.cause v hstopped hrunning)
  · intro v hstopped
    obtain ⟨u, hu⟩ := h.closed v hstopped
    exact ⟨u, hmono u hu⟩

/-- An end may stop when nothing it has to bring in or out is left. -/
theorem Inv.stop {s : Sys} {e : Way} (h : Inv s) (henter : (s.lane e).before = [])
    (hleave : (s.lane e.other).inside = [])
    (hcause : (s.lane e).tcpIn.closed = true ∨ s.running e.other = false) : Inv (s.stop e) := by
  have hsame : ∀ v, ((s.stop e).lane v).tcpIn.closed = (s.lane v).tcpIn.closed := by
    refine Way.both e ?_ ?_
    · rw [Sys.lane_stop]
      rfl
    · rw [Sys.lane_stop_other]
      rfl
  refine ⟨h.unfailed, Way.both e ?_ ?_, Way.both e ?_ ?_, Way.both e ?_ ?_, Way.both e ?_ ?_⟩
  · rw [Sys.lane_stop, Sys.running_stop, Sys.running_stop_other]
    exact (h.lanes e).stopFirst henter
  · rw [Sys.lane_stop_other, Sys.running_stop_other, Way.other_other, Sys.running_stop]
    exact (h.lanes e.other).stopSecond hleave
  · rw [hsame, Sys.lane_stop_other]
    exact h.answered e
  · rw [hsame, Way.other_other, Sys.lane_stop]
    exact h.answered_other e
  · intro _ hrunning
    rw [Sys.running_stop_other] at hrunning
    rw [hsame]
    exact hcause.resolve_right (by simp [hrunning])
  · intro _ hrunning
    rw [Way.other_other, Sys.running_stop] at hrunning
    cases hrunning
  · intro _
    obtain hclosed | hstopped := hcause
    · exact ⟨e, (hsame e).trans hclosed⟩
    · obtain ⟨v, hv⟩ := h.closed e.other hstopped
      exact ⟨v, (hsame v).trans hv⟩
  · intro hstopped
    rw [Sys.running_stop_other] at hstopped
    obtain ⟨v, hv⟩ := h.closed e.other hstopped
    exact ⟨v, (hsame v).trans hv⟩

theorem Inv.live {s : Sys} (h : Inv s) (w : Way) (hopen : (s.lane w).tcpIn.closed = false)
    (hother : (s.lane w.other).tcpIn.closed = false) : ∀ v, s.running v = true := by
  have hnone : ∀ v, (s.lane v).tcpIn.closed = false := Way.both w hopen hother
  intro v
  by_contra hstopped
  obtain ⟨u, hu⟩ := h.closed v (Bool.eq_false_iff.mpr hstopped)
  rw [hnone u] at hu
  cases hu

/-- Closing the target of a loop is part of stopping the end it runs at. -/
theorem stop_firstLoop (s : Sys) (w : Way) :
    (s.setLane w { s.lane w with quic := { (s.lane w).quic with closed := true } }).stop w =
      s.stop w := by
  simp only [Sys.stop, Sys.setLane, Sys.mk.injEq, and_true]
  funext v
  by_cases hv : v = w
  · subst hv
    simp [Lane.stopFirst]
  · simp [hv]

theorem stop_secondLoop (s : Sys) (w : Way) :
    (s.setLane w { s.lane w with tcpOut := { (s.lane w).tcpOut with closed := true } }).stop
      w.other = s.stop w.other := by
  simp only [Sys.stop, Sys.setLane, Sys.mk.injEq, and_true]
  funext v
  by_cases hv : v = w
  · subst hv
    simp [Lane.stopSecond]
  · simp [hv]

theorem Inv.firstLoop {s : Sys} {w : Way} {src dst : Pipe UInt8} {buf : Bytes}
    {r : CopyResult} (h : Inv s) (hrunning : s.running w = true)
    (hcopied : Copied (s.lane w).tcpIn (s.lane w).first (s.lane w).quic src buf dst r) :
    Inv ((s.setLane w { s.lane w with tcpIn := src, first := buf, quic := dst }).settle w r) := by
  have hlane := h.lanes w
  cases r with
  | goesOn =>
      obtain ⟨-, hclosed, -⟩ := hcopied.conserves
      refine h.setLane ?_ hclosed.trans (fun hsrc => h.answered w (hclosed.symm.trans hsrc)) ?_
      · rw [hrunning] at hlane ⊢
        exact hlane.firstLoop hcopied
      · intro hother
        have hnil := Lane.before_of_inside (h.answered_other w hother)
        exact absurd hnil (nonempty_of_copied hcopied)
  | ends =>
      cases hcopied with
      | finish hbuf hitems hclosed =>
          show Inv (Sys.stop _ w)
          rw [stop_firstLoop]
          refine h.stop ?_ (h.answered w hclosed) (.inl hclosed)
          rw [Lane.before, hbuf, hitems]
          rfl
  | fails =>
      -- A stopped QUIC stream has a second end that took everything before it stopped.
      cases hcopied with
      | fail hbuf hdst =>
          rw [hlane.quicStopped, Bool.not_eq_true'] at hdst
          have hnil := Lane.before_of_inside (hlane.left hdst)
          exact absurd (List.append_eq_nil_iff.mp hnil).1 hbuf

theorem Inv.secondLoop {s : Sys} {w : Way} {src dst : Pipe UInt8} {buf : Bytes}
    {r : CopyResult} (h : Inv s) (hrunning : s.running w.other = true)
    (hcopied : Copied (s.lane w).quic (s.lane w).second (s.lane w).tcpOut src buf dst r) :
    Inv ((s.setLane w { s.lane w with quic := src, second := buf, tcpOut := dst }).settle
      w.other r) := by
  have hlane := h.lanes w
  cases r with
  | goesOn =>
      refine h.setLane ?_ id (h.answered w) ?_
      · rw [hrunning] at hlane ⊢
        exact hlane.secondLoop hcopied
      · intro hother
        have hnil := h.answered_other w hother
        rw [Lane.inside, ← List.append_assoc] at hnil
        exact absurd (List.append_eq_nil_iff.mp hnil).1 (nonempty_of_copied hcopied)
  | ends =>
      cases hcopied with
      | finish hbuf hitems hclosed =>
          show Inv (Sys.stop _ w.other)
          rw [stop_secondLoop]
          -- The stream ends because the first end has stopped, for its application.
          rw [hlane.quicClosed, Bool.not_eq_true'] at hclosed
          have hother := h.answered w (h.cause w hclosed hrunning)
          refine h.stop (Lane.before_of_inside hother) ?_ (.inr ?_)
          · rw [Way.other_other, Lane.inside, hbuf, hitems, hlane.entered hclosed]
            rfl
          · rw [Way.other_other]
            exact hclosed
  | fails =>
      cases hcopied with
      | fail _ hdst =>
          rw [hlane.reads] at hdst
          cases hdst

theorem inv_step (s : Sys) (a : Label) (s' : Sys) (h : Inv s) (hok : Orderly s a)
    (hstep : step s a = some s') : Inv s' := by
  cases effect_of_step hstep with
  | write w payload hopen =>
      have hlive := h.live w hopen hok
      have hlane := h.lanes w
      rw [hlive w, hlive w.other] at hlane
      refine h.setLane ?_ ?_ ?_ ?_
      · rw [hlive w, hlive w.other]
        refine ⟨?_, hlane.tcpInStopped, hlane.quicClosed, hlane.quicStopped, hlane.tcpOutClosed,
          hlane.reads, (by simp), (by simp)⟩
        simp only [hlane.whole, Lane.inside, Lane.before, List.append_assoc]
      · exact id
      · intro hclosed
        rw [show (s.lane w).tcpIn.closed = true from hclosed] at hopen
        cases hopen
      · intro hclosed
        rw [show (s.lane w.other).tcpIn.closed = false from hok] at hclosed
        cases hclosed
  | writeFails w payload hopen hstopped =>
      have hlive := h.live w hopen hok
      rw [(h.lanes w).tcpInStopped, hlive w] at hstopped
      cases hstopped
  | closeWrite w =>
      have hlane := h.lanes w
      exact h.setLane ⟨hlane.whole, hlane.tcpInStopped, hlane.quicClosed, hlane.quicStopped,
        hlane.tcpOutClosed, hlane.reads, hlane.entered, hlane.left⟩ (fun _ => rfl)
        (fun _ => hok) (h.answered_other w)
  | receive w n hpos hn =>
      have hlane := h.lanes w
      refine h.setLane ⟨?_, hlane.tcpInStopped, hlane.quicClosed, hlane.quicStopped,
        hlane.tcpOutClosed, hlane.reads, hlane.entered, hlane.left⟩ id (h.answered w)
        (h.answered_other w)
      show (s.lane w).written = ((s.lane w).received ++ (s.lane w).tcpOut.items.take n) ++
        ((s.lane w).tcpOut.items.drop n ++ (s.lane w).inside)
      rw [List.append_assoc, ← List.append_assoc (List.take n _), List.take_append_drop]
      exact hlane.whole
  | first l c w hrunning hcopied => exact h.firstLoop hrunning hcopied
  | second l c w hrunning hcopied => exact h.secondLoop hrunning hcopied

/-! ## Coming to rest -/

theorem Quiet.firstLoop {s : Sys} (h : Quiet s) (w : Way) (c : CopyStep) :
    firstLoop s w c = none := by
  cases w with
  | up => exact h (.copy .toRemote c) trivial
  | down => exact h (.copy .tcpToSend c) trivial

theorem Quiet.secondLoop {s : Sys} (h : Quiet s) (w : Way) (c : CopyStep) :
    secondLoop s w c = none := by
  cases w with
  | up => exact h (.copy .recvToTcp c) trivial
  | down => exact h (.copy .fromRemote c) trivial

theorem Quiet.tcpIn {s : Sys} {w : Way} (h : Quiet s) (hrunning : s.running w = true) :
    (s.lane w).first = [] ∧ (s.lane w).tcpIn.items = [] ∧ (s.lane w).tcpIn.closed = false := by
  have hidle : ∀ c,
      copy bufferBytes (s.lane w).tcpIn (s.lane w).first (s.lane w).quic c = none := by
    intro c
    have hnone := h.firstLoop w c
    rw [PortForward.firstLoop, if_pos hrunning] at hnone
    exact Option.map_eq_none_iff.mp hnone
  exact idle_of_copy (by decide) hidle

theorem Quiet.quic {s : Sys} {w : Way} (h : Quiet s) (hrunning : s.running w.other = true) :
    (s.lane w).second = [] ∧ (s.lane w).quic.items = [] ∧ (s.lane w).quic.closed = false := by
  have hidle : ∀ c,
      copy bufferBytes (s.lane w).quic (s.lane w).second (s.lane w).tcpOut c = none := by
    intro c
    have hnone := h.secondLoop w c
    rw [PortForward.secondLoop, if_pos hrunning] at hnone
    exact Option.map_eq_none_iff.mp hnone
  exact idle_of_copy (by decide) hidle

theorem Quiet.tcpOut {s : Sys} (h : Quiet s) (w : Way) : (s.lane w).tcpOut.items = [] := by
  by_contra hsome
  have hnone := h (.receive w 1) trivial
  have hpos := List.length_pos_iff.mpr hsome
  rw [step, if_pos ⟨Nat.one_pos, hpos⟩] at hnone
  cases hnone

theorem Inv.inside_of_quiet {s : Sys} (h : Inv s) (hquiet : Quiet s) (w : Way) :
    (s.lane w).inside = [] := by
  have hlane := h.lanes w
  have hbefore : (s.lane w).before = [] := by
    cases hrunning : s.running w with
    | false => exact hlane.entered hrunning
    | true =>
        obtain ⟨hfirst, hitems, -⟩ := hquiet.tcpIn hrunning
        rw [Lane.before, hfirst, hitems]
        rfl
  cases hrunning : s.running w.other with
  | false => exact hlane.left hrunning
  | true =>
      obtain ⟨hsecond, hitems, -⟩ := hquiet.quic hrunning
      rw [Lane.inside, hsecond, hitems, hbefore]
      rfl

/-- At rest everything has arrived, and the end of it too. -/
theorem Inv.rest {s : Sys} (h : Inv s) (hquiet : Quiet s) (w : Way) :
    (s.lane w).received = (s.lane w).written ∧
      ((s.lane w).tcpIn.closed = true → (s.lane w).tcpOut.closed = true) := by
  have hlane := h.lanes w
  constructor
  · rw [hlane.whole, hquiet.tcpOut w, h.inside_of_quiet hquiet w]
    simp
  · intro hclosed
    have hstopped : s.running w = false := by
      by_contra hrunning
      rw [(hquiet.tcpIn (Bool.not_eq_false _ ▸ hrunning)).2.2] at hclosed
      cases hclosed
    rw [hlane.tcpOutClosed, Bool.not_eq_true']
    by_contra hrunning
    have hquic := (hquiet.quic (Bool.not_eq_false _ ▸ hrunning)).2.2
    rw [hlane.quicClosed, hstopped] at hquic
    cases hquic

/-- The moves the bytes of a lane have still to make. -/
def Lane.work (l : Lane) : Nat :=
  5 * l.tcpIn.items.length + 4 * l.first.length + 3 * l.quic.items.length +
    2 * l.second.length + l.tcpOut.items.length

/-- What is left to do: the moves, and the ends still to stop. -/
def Sys.work (s : Sys) : Nat :=
  (s.lane .up).work + (s.running .up).toNat + ((s.lane .down).work + (s.running .down).toNat)

theorem Sys.work_eq (s : Sys) (w : Way) :
    s.work = (s.lane w).work + (s.running w).toNat +
      ((s.lane w.other).work + (s.running w.other).toNat) := by
  cases w with
  | up => rfl
  | down => exact Nat.add_comm _ _

theorem Sys.work_setLane (s : Sys) (w : Way) (l : Lane) :
    (s.setLane w l).work + (s.lane w).work = s.work + l.work := by
  rw [Sys.work_eq _ w, Sys.work_eq s w, Sys.lane_setLane, Sys.lane_setLane_other]
  show l.work + (s.running w).toNat + ((s.lane w.other).work + (s.running w.other).toNat) + _ = _
  omega

/-- Stopping drops no item, it only takes an end out. -/
theorem Sys.work_stop (s : Sys) (e : Way) (hrunning : s.running e = true) :
    (s.stop e).work + 1 = s.work := by
  rw [Sys.work_eq _ e, Sys.work_eq s e, Sys.lane_stop, Sys.lane_stop_other, Sys.running_stop,
    Sys.running_stop_other, hrunning]
  show (s.lane e).work + 0 + ((s.lane e.other).work + _) + 1 = _
  rw [Bool.toNat_true]
  omega

/-- A loop's step that goes on makes the lane's work less, and any other stops an end. -/
theorem Sys.work_settle (s : Sys) (w e : Way) (l : Lane) (r : CopyResult)
    (hrunning : s.running e = true) (hle : l.work ≤ (s.lane w).work)
    (hlt : r = .goesOn → l.work < (s.lane w).work) :
    ((s.setLane w l).settle e r).work < s.work := by
  have hset := s.work_setLane w l
  have hstop := (s.setLane w l).work_stop e hrunning
  cases r with
  | goesOn =>
      have hless := hlt rfl
      show (s.setLane w l).work < s.work
      omega
  | ends =>
      show ((s.setLane w l).stop e).work < s.work
      omega
  | fails =>
      show ((s.setLane w l).stop e).work < s.work
      omega

theorem work_step {s s' : Sys} {a : Label} (hint : Internal s a) (hstep : step s a = some s') :
    s'.work < s.work := by
  cases effect_of_step hstep with
  | write | writeFails | closeWrite => cases hint
  | receive w n hpos hn =>
      refine Nat.lt_of_add_lt_add_right (?_ : _ + (s.lane w).work < _)
      rw [Sys.work_setLane]
      simp only [Lane.work, List.length_drop]
      omega
  | first l c w hrunning hcopied =>
      obtain ⟨hle, hlt⟩ := hcopied.weight_lt 3
      simp only [copyWeight] at hle hlt
      refine s.work_settle w w _ _ hrunning ?_ (fun hr => ?_)
      · simp only [Lane.work]
        omega
      · have hless := hlt hr
        simp only [Lane.work]
        omega
  | second l c w hrunning hcopied =>
      obtain ⟨hle, hlt⟩ := hcopied.weight_lt 1
      simp only [copyWeight] at hle hlt
      refine s.work_settle w w.other _ _ hrunning ?_ (fun hr => ?_)
      · simp only [Lane.work]
        omega
      · have hless := hlt hr
        simp only [Lane.work]
        omega

/-- The loops and the reading applications come to rest. -/
theorem length_le_work {s t : Sys} {as : List Label} (hrun : Run step Internal s as t) :
    as.length + t.work ≤ s.work := by
  induction hrun with
  | nil s => exact Nat.le_of_eq (Nat.zero_add _)
  | cons hok hst _ ih =>
      have hless := work_step hok hst
      rw [List.length_cons]
      omega

/-- When applications close in order nothing fails, what has been received is always the
    beginning of what was written, and once nothing moves any more, which happens after
    finitely many steps, everything has been received, up to and with its end. -/
theorem forwarded_whole (as : List Label) (s : Sys) (hrun : Run step Orderly init as s) :
    s.failed = false ∧ (∀ w, (s.lane w).received <+: (s.lane w).written) ∧
      ∀ more t, Run step Internal s more t →
        t.failed = false ∧ more.length ≤ s.work ∧
          (Quiet t → ∀ w, (t.lane w).received = (t.lane w).written ∧
            ((t.lane w).tcpIn.closed = true → (t.lane w).tcpOut.closed = true)) := by
  have hinv : Inv s := hrun.inv Inv inv_step inv_init
  refine ⟨hinv.unfailed, fun w => ⟨_, (hinv.lanes w).whole.symm⟩, ?_⟩
  intro more t hmore
  have horderly : Run step Orderly s more t := by
    apply hmore.mono
    intro s a hint
    cases a with
    | write | closeWrite => cases hint
    | receive | copy => trivial
  have hrest : Inv t := horderly.inv Inv inv_step hinv
  have hlen := length_le_work hmore
  exact ⟨hrest.unfailed, by omega, fun hquiet w => hrest.rest hquiet w⟩

theorem quiet_of_stopped {s : Sys} (hstopped : ∀ w, s.running w = false)
    (hread : ∀ w, (s.lane w).tcpOut.items = []) : Quiet s := by
  intro a hint
  have hfirst : ∀ w c, firstLoop s w c = none := by
    intro w c
    rw [firstLoop, hstopped w]
    rfl
  have hsecond : ∀ w c, secondLoop s w c = none := by
    intro w c
    rw [secondLoop, hstopped w.other]
    rfl
  cases a with
  | write | closeWrite => cases hint
  | receive w n =>
      rw [step, hread w]
      apply if_neg
      intro h
      obtain ⟨hpos, hn⟩ := h
      rw [List.length_nil] at hn
      omega
  | copy l c =>
      cases l with
      | toRemote => exact hfirst .up c
      | recvToTcp => exact hsecond .up c
      | tcpToSend => exact hfirst .down c
      | fromRemote => exact hsecond .down c

/-- A request, its answer, and only then the close. -/
theorem forwarded_whole_answered : ∃ as s, Run step Orderly init as s ∧
    (s.lane .up).tcpIn.closed = true ∧ (s.lane .up).received = [1] ∧
    (s.lane .up).tcpOut.closed = true ∧ (s.lane .down).received = [2] := by
  obtain ⟨s, hrun, hstopped, hread, hclosed, hup, hdown⟩ : ∃ s, Run step Orderly init
      [.write .up [1], .copy .toRemote (.read 1), .copy .toRemote (.write 1),
        .copy .recvToTcp (.read 1), .copy .recvToTcp (.write 1), .receive .up 1,
        .write .down [2], .copy .tcpToSend (.read 1), .copy .tcpToSend (.write 1),
        .copy .fromRemote (.read 1), .copy .fromRemote (.write 1), .closeWrite .up,
        .copy .toRemote .finish, .copy .recvToTcp .finish, .receive .down 1] s ∧
      (∀ w, s.running w = false) ∧ (∀ w, (s.lane w).tcpOut.items = []) ∧
      (s.lane .up).tcpIn.closed = true ∧
      (s.lane .up).written = [1] ∧ (s.lane .down).written = [2] :=
    ⟨_, run_of_exec rfl, Way.both .up rfl rfl, Way.both .up rfl rfl, rfl, rfl, rfl⟩
  obtain ⟨-, -, hmore⟩ := forwarded_whole _ s hrun
  obtain ⟨-, -, hall⟩ := hmore [] s (.nil s)
  have hrest := hall (quiet_of_stopped hstopped hread)
  exact ⟨_, s, hrun, hclosed, (hrest .up).1.trans hup, (hrest .up).2 hclosed,
    (hrest .down).1.trans hdown⟩

/-- The local application sends its request and closes its write half, and the target answers
    and closes too. The loops of the client end with the request, and the answer, already in
    the QUIC stream, is dropped with it. No read and no write has failed. -/
theorem half_close_cuts_answer : ∃ as s, Run step Any init as s ∧ s.failed = false ∧ Quiet s ∧
    (∀ w, (s.lane w).tcpIn.closed = true) ∧ (s.lane .up).received = [1] ∧
    (s.lane .down).written = [2] ∧ (s.lane .down).received = [] := by
  obtain ⟨s, hrun, hstopped, hread, h⟩ : ∃ s, Run step Any init
      [.write .up [1], .closeWrite .up, .copy .toRemote (.read 1), .copy .toRemote (.write 1),
        .copy .recvToTcp (.read 1), .copy .recvToTcp (.write 1), .receive .up 1,
        .write .down [2], .closeWrite .down, .copy .tcpToSend (.read 1),
        .copy .tcpToSend (.write 1), .copy .toRemote .finish, .copy .recvToTcp .finish] s ∧
      (∀ w, s.running w = false) ∧ (∀ w, (s.lane w).tcpOut.items = []) ∧
      s.failed = false ∧ (∀ w, (s.lane w).tcpIn.closed = true) ∧
      (s.lane .up).received = [1] ∧ (s.lane .down).written = [2] ∧
      (s.lane .down).received = [] :=
    ⟨_, run_of_exec rfl, Way.both .up rfl rfl, Way.both .up rfl rfl, rfl, Way.both .up rfl rfl,
      rfl, rfl, rfl⟩
  obtain ⟨hfailed, hclosed, hup, hwritten, hreceived⟩ := h
  exact ⟨_, s, hrun, hfailed, quiet_of_stopped hstopped hread, hclosed, hup, hwritten, hreceived⟩

end FlyVault.Client.PortForward
