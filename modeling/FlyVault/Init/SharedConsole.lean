/-
  The shared console across shells (`SharedConsoleManager` in `crates/init/src/forward.rs`,
  `run_console_with_reconnect` in `crates/client/src/quic.rs`).

  The manager holds one shell session and replaces it when it has exited; any client's `attach`
  may do so. A client keeps one count of rendered bytes for its whole run and sends it with
  every attachment, to whichever session it meets. Offsets of a new session start at zero, so
  there the count means nothing, and `subscribe_from` clamps it to what the session has.

  Sessions are the consoles of `ConsoleOffsets`, one for each shell ever spawned. The steps of
  `attach` are the ones between its locks; what other clients do to the manager are its two
  locked sections. A client that is lost in the middle of `attach` leaves the rest of it to
  these. `owed` is a ghost: the retained bytes of the session that the client had not rendered
  when it subscribed.

  `gapless_step` is about one session: no retained byte is passed over as long as every count
  sent to it was earned on it or does not reach into the buffer. `unrendered_first` lifts this
  to the manager, and `respawn_skips_output` is the run that fails without the condition.
-/
import FlyVault.Init.ConsoleOffsets

namespace FlyVault.Init.ConsoleStream

open FlyVault.Lib FlyVault.Protocol

/-! ## No retained byte is passed over -/

/-- The first offset still in the buffer. -/
def Traced.start (t : Traced) : Nat := t.sys.output.state.retainedStart

/-- The count `n` was earned on this session, or it does not reach into the buffer, or there is
    nothing in the buffer. -/
def Applies (t : Traced) (n : Nat) : Prop :=
  n = t.sys.renderedBytes ∨ n ≤ t.start ∨ t.sys.output.state.buffer = []

/-- The output fits into 64 bits, and whenever the buffer is read for an attachment the count
    covers what the client has rendered of this session and applies to it. -/
def CountApplies (t : Traced) (a : Label) : Prop :=
  Fits t.sys a ∧
    (a = .stream → ∀ task ∈ t.sys.task, ∀ n, task.phase = .subscribing n →
      t.sys.renderedBytes ≤ n ∧ Applies t n)

/-- Below everything that has been read, what is still in the buffer has been read too; and
    the count of rendered bytes never runs ahead of their offsets. -/
structure Gapless (t : Traced) : Prop where
  tracks : Tracks t
  count : ∀ m, (∀ j ∈ t.renderedAt, j < m) → t.sys.renderedBytes ≤ m
  ahead : ∀ j ∈ t.wireAt ++ t.pendingAt, t.sys.renderedBytes ≤ j
  reach : ∀ task ∈ t.sys.task, ∀ n ∈ task.phase.reached, t.sys.renderedBytes ≤ n
  closed : ∀ j ∈ t.renderedAt, ∀ i, t.start ≤ i → i < j → i ∈ t.renderedAt
  cover : ∀ j ∈ t.wireAt ++ t.pendingAt, ∀ i, t.start ≤ i → i < j → i ∈ t.earlier ++ t.current
  full : ∀ task ∈ t.sys.task, ∀ n ∈ task.phase.reached, ∀ i, t.start ≤ i → i < n →
    i ∈ t.earlier ++ t.current

theorem gapless_init : Gapless Traced.init :=
  ⟨tracks_init, fun _ _ => Nat.zero_le _, by intros; contradiction, by intros; contradiction,
    by intros; contradiction, by intros; contradiction, by intros; contradiction⟩

theorem Gapless.count_le {t : Traced} (h : Gapless t) : t.sys.renderedBytes ≤ t.sys.log.length :=
  h.count _ fun _ hj => h.tracks.rendered.lt_length hj

/-- What is in the buffer below the count has been rendered. -/
theorem Gapless.mem_of_lt_count {t : Traced} (h : Gapless t) {i : Nat} (hi : t.start ≤ i)
    (hlt : i < t.sys.renderedBytes) : i ∈ t.renderedAt := by
  by_contra hnot
  have hbelow : ∀ j ∈ t.renderedAt, j < i := by
    intro j hj
    by_contra hge
    have hne : i ≠ j := by
      intro heq
      exact hnot (heq ▸ hj)
    exact hnot (h.closed j hj i hi (by omega))
  have := h.count i hbelow
  omega

theorem readAt_le_max (s : Sys) (n : Nat) :
    s.readAt n ≤ max s.output.state.retainedStart n := by
  unfold Sys.readAt clamp
  split
  · omega
  · split <;> omega

theorem start_eq_of_buffer_nil {t : Traced} (ht : Tracks t)
    (hnil : t.sys.output.state.buffer = []) : t.start = t.sys.log.length := by
  obtain ⟨w, hlog, hw⟩ := ht.buffered
  have hlen := w.length_retained
  rw [← hw.buffer, hnil, hlog] at hlen
  have hle := w.start_le
  rw [hlog] at hle
  rw [Traced.start, hw.retainedStart]
  simp at hlen
  omega

/-- What is in the buffer below the point an attachment starts at has been rendered. -/
theorem Gapless.mem_of_lt_readAt {t : Traced} (h : Gapless t) {n i : Nat} (happ : Applies t n)
    (hi : t.start ≤ i) (hlt : i < t.sys.readAt n) : i ∈ t.renderedAt := by
  have hmax := readAt_le_max t.sys n
  have hlen := readAt_le h.tracks.buffered n
  change _ ≤ max t.start n at hmax
  rcases happ with hown | hsmall | hnil
  · exact h.mem_of_lt_count hi (by omega)
  · omega
  · have := start_eq_of_buffer_nil h.tracks hnil
    omega

/-- Pushing evicts from the front only. -/
theorem start_le_push {s : Sys} {payload : Bytes} (hs : Shows s)
    (hfit : (s.log ++ payload).length ≤ u64Max) :
    s.output.state.retainedStart ≤ (s.output.store payload).state.retainedStart := by
  obtain ⟨w, hlog, hw⟩ := hs
  rw [← hlog] at hfit
  have hpush := BufferedConsoleState.push_refines hw payload s.output.limitBytes hfit
  show _ ≤ (s.output.state.push payload s.output.limitBytes).retainedStart
  rw [hw.retainedStart, hpush.retainedStart]
  exact Nat.le_max_left _ _

/-- Below the end of what is read, everything in the buffer has been read now or before. -/
theorem Gapless.mem_of_gets {t : Traced} {p q : Phase} {base i : Nat} {is : List Nat}
    (h : Gapless t) (hgets : Gets t.sys p q base is)
    (happ : ∀ n, p = .subscribing n → Applies t n)
    (hfull : ∀ n ∈ p.reached, ∀ i, t.start ≤ i → i < n → i ∈ t.earlier ++ t.current)
    (hi : t.start ≤ i) (hend : (∃ j ∈ is, i < j) ∨ ∃ n ∈ q.reached, i < n) :
    i ∈ t.earlier ++ (t.current ++ is) := by
  have hread : ∀ n, (i < t.sys.readAt n → i ∈ t.earlier ++ t.current) →
      i < t.sys.log.length → i ∈ t.earlier ++ (t.current ++
        List.range' (t.sys.readAt n) (t.sys.log.length - t.sys.readAt n)) := by
    intro n hbelow hlt
    rw [← List.append_assoc]
    by_cases hk : i < t.sys.readAt n
    · exact List.mem_append_left _ (hbelow hk)
    · apply List.mem_append_right
      rw [List.mem_range'_1]
      omega
  have hlast : ∀ n,
      (∃ j ∈ List.range' (t.sys.readAt n) (t.sys.log.length - t.sys.readAt n), i < j) ∨
      (∃ m ∈ q.reached, i < m) → (∀ m ∈ q.reached, m = t.sys.log.length) →
      i < t.sys.log.length := by
    intro n hor hto
    rcases hor with ⟨j, hj, hij⟩ | ⟨m, hm, him⟩
    · rw [List.mem_range'_1] at hj
      omega
    · rw [hto m hm] at him
      exact him
  cases hgets with
  | nothing _ hto =>
      rw [List.append_nil]
      rcases hend with ⟨j, hj, -⟩ | ⟨n, hn, hin⟩
      · cases hj
      · exact hfull n (hto n hn) i hi hin
  | first n hp _ hto =>
      apply hread n _ (hlast n hend hto)
      intro hlt
      have hmem := h.mem_of_lt_readAt (happ n hp) hi hlt
      rw [Traced.renderedAt] at hmem
      rw [Traced.current, ← List.append_assoc]
      exact List.mem_append_left _ hmem
  | more n hp _ hto =>
      apply hread n _ (hlast n hend hto)
      intro hlt
      have hmax := readAt_le_max t.sys n
      change _ ≤ max t.start n at hmax
      exact hfull n hp i hi (by omega)

/-- What is read lies ahead of the count. -/
theorem Gapless.count_le_gets {t : Traced} {p q : Phase} {base : Nat} {is : List Nat}
    (h : Gapless t) (hgets : Gets t.sys p q base is)
    (hasked : ∀ n, p = .subscribing n → t.sys.renderedBytes ≤ n)
    (hreach : ∀ n ∈ p.reached, t.sys.renderedBytes ≤ n) :
    (∀ j ∈ is, t.sys.renderedBytes ≤ j) ∧ ∀ n ∈ q.reached, t.sys.renderedBytes ≤ n := by
  have hcount := h.count_le
  have hread : ∀ n, t.sys.renderedBytes ≤ n → (∀ m ∈ q.reached, m = t.sys.log.length) →
      (∀ j ∈ List.range' (t.sys.readAt n) (t.sys.log.length - t.sys.readAt n),
        t.sys.renderedBytes ≤ j) ∧ ∀ m ∈ q.reached, t.sys.renderedBytes ≤ m := by
    intro n hn hto
    have hfrom := le_readAt_of_le h.tracks.buffered hn hcount
    constructor
    · intro j hj
      rw [List.mem_range'_1] at hj
      omega
    · intro m hm
      rw [hto m hm]
      exact hcount
  cases hgets with
  | nothing _ hto => exact ⟨by simp, fun n hn => hreach n (hto n hn)⟩
  | first n hp _ hto => exact hread n (hasked n hp) hto
  | more n hp _ hto => exact hread n (hreach n hp) hto

theorem gapless_stream {t t' : Traced} (ht : Gapless t) (htracks : Tracks t')
    (hok : CountApplies t .stream) (h : t.step .stream = some t') : Gapless t' := by
  have hs := ht.tracks.buffered
  cases effect_of_step hs h with
  | same ha => cases ha
  | @stream task task' wire sent base htask hwire hadv =>
      have hgets := (gets_of_advances hs hadv).1
      have happ : ∀ n, task.phase = .subscribing n → Applies t n :=
        fun n hn => (hok.2 rfl task htask n hn).2
      obtain ⟨hahead, hreach⟩ := ht.count_le_gets hgets
        (fun n hn => (hok.2 rfl task htask n hn).1) (ht.reach task htask)
      have hmem : ∀ i, t.start ≤ i →
          (∃ j ∈ lastAt t.sys.log task'.phase.pending.length, i < j) ∨
            (∃ n ∈ task'.phase.reached, i < n) →
          i ∈ t.earlier ++ (t.current ++ lastAt t.sys.log task'.phase.pending.length) :=
        fun i hi => ht.mem_of_gets hgets happ (ht.full task htask) hi
      refine ⟨htracks, ht.count, ?_, ?_, ht.closed, ?_, ?_⟩
      · intro j hj
        rcases List.mem_append.mp hj with hj | hj
        · exact ht.ahead j hj
        · exact hahead j hj
      · intro u hu n hn
        cases hu
        exact hreach n hn
      · rw [current_stream]
        intro j hj i hi hij
        rcases List.mem_append.mp hj with hj | hj
        · have hold := ht.cover j hj i hi hij
          rw [← List.append_assoc]
          exact List.mem_append_left _ hold
        · exact hmem i hi (.inl ⟨j, hj, hij⟩)
      · rw [current_stream]
        intro u hu n hn i hi hin
        cases hu
        exact hmem i hi (.inr ⟨n, hn, hin⟩)

theorem satAdd_le (a b : Nat) : satAdd a b ≤ a + b := Nat.min_le_left _ _

theorem gapless_recv {t t' : Traced} (ht : Gapless t) (htracks : Tracks t')
    (h : t.step .recv = some t') : Gapless t' := by
  cases effect_of_step ht.tracks.buffered h with
  | same ha => cases ha
  | other => exact ⟨htracks, ht.count, ht.ahead, ht.reach, ht.closed, ht.cover, ht.full⟩
  | @data frame rest hwire hty =>
      -- the offsets of the frame come first on the wire
      obtain ⟨taken, left, hsplit, hlen⟩ : ∃ taken left, t.wireAt = taken ++ left ∧
          taken.length = frame.payload.length := by
        have hpicks := ht.tracks.wired.length_eq
        rw [hwire, show wireData (frame :: rest) = frame.payload ++ wireData rest by
          simp [wireData, hty], List.length_append] at hpicks
        refine ⟨_, _, (List.take_append_drop frame.payload.length t.wireAt).symm, ?_⟩
        rw [List.length_take]
        omega
      have htake : t.wireAt.take frame.payload.length = taken := by
        rw [hsplit, ← hlen, List.take_left]
      have hdrop : t.wireAt.drop frame.payload.length = left := by
        rw [hsplit, ← hlen, List.drop_left]
      have hcur : t.current = t.here ++ (taken ++ (left ++ t.pendingAt)) := by
        rw [Traced.current, hsplit, List.append_assoc]
      have hord := ht.tracks.ordered
      rw [hcur] at hord
      obtain ⟨htaken, -, hafter⟩ :=
        List.pairwise_append.mp (List.pairwise_append.mp hord).2.1
      have hwired : ∀ j, j ∈ taken ∨ j ∈ left ++ t.pendingAt → j ∈ t.wireAt ++ t.pendingAt := by
        intro j hj
        rw [hsplit, List.append_assoc, List.mem_append]
        exact hj
      -- the count moves past the frame and no further
      have hsum : ∀ c, t.sys.renderedBytes ≤ c → (∀ j ∈ taken, j < c) →
          satAdd t.sys.renderedBytes frame.payload.length ≤ c := by
        intro c hle hlt
        have hadd := add_length_le htaken hle fun j hj =>
          ⟨ht.ahead j (hwired j (.inl hj)), hlt j hj⟩
        have hsat := satAdd_le t.sys.renderedBytes frame.payload.length
        omega
      have hsame := current_data t { t.sys with
        wire := rest
        renderedBytes := satAdd t.sys.renderedBytes frame.payload.length
        rendered := t.sys.rendered ++ frame.payload } frame.payload.length
      rw [htake, hdrop] at hsame htracks ⊢
      have hrendered : ∀ j, j ∈ t.earlier ++ (t.here ++ taken) ↔ j ∈ t.renderedAt ∨ j ∈ taken := by
        intro j
        rw [← List.append_assoc, List.mem_append]
        rfl
      refine ⟨htracks, ?_, ?_, ?_, ?_, ?_, ?_⟩
      · intro m hm
        apply hsum m
        · exact ht.count m fun j hj => hm j ((hrendered j).mpr (.inl hj))
        · exact fun j hj => hm j ((hrendered j).mpr (.inr hj))
      · intro j hj
        exact hsum j (ht.ahead j (hwired j (.inr hj))) fun i hi => hafter i hi j hj
      · intro task htask n hn
        apply hsum n (ht.reach task htask n hn)
        intro j hj
        apply (ht.tracks.behind task htask n hn).2
        rw [hcur]
        exact List.mem_append_right _ (List.mem_append_left _ hj)
      · intro j hj i hi hij
        refine (hrendered i).mpr ?_
        rcases (hrendered j).mp hj with hj | hj
        · exact .inl (ht.closed j hj i hi hij)
        · -- what is read but not rendered yet lies behind `j`
          have hread := ht.cover j (hwired j (.inl hj)) i hi hij
          rw [hcur, ← List.append_assoc, List.mem_append, List.mem_append (s := taken)] at hread
          rcases hread with hread | hread | hread
          · exact .inl hread
          · exact .inr hread
          · have := hafter j hj i hread
            omega
      · rw [hsame]
        intro j hj
        exact ht.cover j (hwired j (.inr hj))
      · rw [hsame]
        exact ht.full

theorem gapless_step (t : Traced) (a : Label) (t' : Traced) (ht : Gapless t)
    (hok : CountApplies t a) (h : t.step a = some t') : Gapless t' := by
  have htracks := tracks_step t a t' ht.tracks hok.1 h
  cases effect_of_step ht.tracks.buffered h with
  | same => exact ⟨htracks, ht.count, ht.ahead, ht.reach, ht.closed, ht.cover, ht.full⟩
  | push payload =>
      have hle := start_le_push ht.tracks.buffered hok.1
      refine ⟨htracks, ht.count, ht.ahead, ht.reach, ?_, ?_, ?_⟩
      · intro j hj i hi hij
        exact ht.closed j hj i (Nat.le_trans hle hi) hij
      · intro j hj i hi hij
        exact ht.cover j hj i (Nat.le_trans hle hi) hij
      · intro task htask n hn i hi hin
        exact ht.full task htask n hn i (Nat.le_trans hle hi) hin
  | attach n =>
      have hsame : t.earlier ++ t.here ++ [] = t.renderedAt := List.append_nil _
      refine ⟨htracks, ?_, by simp, ?_, ?_, by simp, ?_⟩
      · intro m hm
        exact ht.count m (hsame ▸ hm)
      · intro task htask n hn
        cases htask
        cases hn
      · show ∀ j ∈ t.earlier ++ t.here ++ [], ∀ i, t.start ≤ i → i < j →
          i ∈ t.earlier ++ t.here ++ []
        rw [hsame]
        exact ht.closed
      · intro task htask n hn
        cases htask
        cases hn
  | stream => exact gapless_stream ht htracks hok h
  | takeover htask =>
      refine ⟨htracks, ht.count, ht.ahead, ?_, ht.closed, ht.cover, ?_⟩
      · intro u hu n hn
        cases hu
        cases hn
      · intro u hu n hn
        cases hu
        cases hn
  | data => exact gapless_recv ht htracks h
  | other => exact gapless_recv ht htracks h
  | lose => exact ⟨htracks, ht.count, by simp, by simp, ht.closed, by simp, by simp⟩

end FlyVault.Init.ConsoleStream

namespace FlyVault.Init.SharedConsole

open FlyVault.Lib FlyVault.Protocol FlyVault.Init.ConsoleStream

/-! ## The manager and one of its clients -/

/-- `run_console_with_reconnect` of the client, and the `attach` that runs for it. A number is
    the place of a session in the list of all sessions. -/
inductive Client
  | disconnected
  /-- At the head of the loop of `attach`. -/
  | choosing
  /-- The session is chosen and the lock released. -/
  | chosen (k : Nat)
  /-- Inside `subscribe_from`. -/
  | subscribing (k : Nat)
  /-- Subscribed; `is_finished` comes next. -/
  | subscribed (k : Nat)
  /-- The session has exited meanwhile; the lock comes next. -/
  | finished (k : Nat)
  | attached (k : Nat)
  /-- `run_console_with_reconnect` has returned. -/
  | ended
  deriving DecidableEq, Repr

structure Sys where
  /-- Every shell ever spawned, oldest first. -/
  sessions : List Traced
  /-- `SharedConsoleManager::session`. -/
  session : Option Nat
  client : Client
  /-- `rendered_bytes` of `run_console_with_reconnect`. -/
  renderedBytes : Nat
  owed : List Nat
  deriving DecidableEq, Repr

def init : Sys := ⟨[], none, .disconnected, 0, []⟩

inductive Label
  | output (k : Nat) (e : Output)
  /-- The first locked section of another client's `attach`. -/
  | otherAttach
  /-- The second locked section of another client's `attach`, which found `k` finished. -/
  | otherClear (k : Nat)
  | connect
  /-- The client's `attach` takes its next step. -/
  | attach
  | stream
  | recv
  | lose
  deriving DecidableEq, Repr

/-- `is_finished`. -/
def Sys.isFinished (s : Sys) (k : Nat) : Bool :=
  match s.sessions[k]? with
  | some t => t.sys.exitCode.isSome
  | none => false

/-- `SharedConsoleSession::spawn`, stored in the manager. -/
def Sys.spawn (s : Sys) : Nat × Sys :=
  (s.sessions.length,
    { s with sessions := s.sessions ++ [Traced.init], session := some s.sessions.length })

/-- The first locked section of `attach`. -/
def Sys.choose (s : Sys) : Nat × Sys :=
  match s.session with
  | some existing => if s.isFinished existing then s.spawn else (existing, s)
  | none => s.spawn

/-- The second locked section of `attach`. -/
def Sys.clear (s : Sys) (k : Nat) : Sys :=
  if s.session = some k then { s with session := none } else s

/-- A step of one session. -/
def Sys.onSession (s : Sys) (k : Nat) (a : ConsoleStream.Label) : Option Sys :=
  match s.sessions[k]? with
  | some t => (t.step a).map fun t' => { s with sessions := s.sessions.set k t' }
  | none => none

/-- The bytes in the buffer of a session that the client has not rendered. -/
def Sys.unrendered (s : Sys) (k : Nat) : List Nat :=
  match s.sessions[k]? with
  | some t =>
      (lastAt t.sys.log t.sys.output.state.buffer.length).filter fun i => i ∉ t.renderedAt
  | none => []

/-- `SharedConsoleManager::attach` for the client. -/
def attachStep (s : Sys) : Option Sys :=
  match s.client with
  | .choosing => some { s.choose.2 with client := .chosen s.choose.1 }
  | .chosen k =>
      (s.onSession k (.attach s.renderedBytes)).map fun s' => { s' with client := .subscribing k }
  | .subscribing k =>
      (s.onSession k .stream).map fun s' =>
        { s' with client := .subscribed k, owed := s.unrendered k }
  | .subscribed k =>
      some { s with client := if s.isFinished k then .finished k else .attached k }
  | .finished k => (s.onSession k .lose).map fun s' => { s'.clear k with client := .choosing }
  | _ => none

/-- The client's own count when it reads the next frame. -/
def countFrame (renderedBytes : Nat) (wire : List ConsoleFrame) : Nat :=
  match wire with
  | frame :: _ =>
      if frame.ty = consoleData then satAdd renderedBytes frame.payload.length else renderedBytes
  | [] => renderedBytes

/-- `run_session` reads the next frame of session `k`. -/
def recvStep (s : Sys) (k : Nat) : Option Sys :=
  match s.sessions[k]? with
  | some t =>
      (t.step .recv).map fun t' =>
        { s with
          sessions := s.sessions.set k t'
          client := if t'.sys.client = .connected then .attached k else .ended
          renderedBytes := countFrame s.renderedBytes t.sys.wire }
  | none => none

def step (s : Sys) : Label → Option Sys
  | .output k e => s.onSession k e.label
  | .otherAttach => some s.choose.2
  | .otherClear k => if s.isFinished k then some (s.clear k) else none
  | .connect => if s.client = .disconnected then some { s with client := .choosing } else none
  | .attach => attachStep s
  | .stream =>
      match s.client with
      | .attached k => s.onSession k .stream
      | _ => none
  | .recv =>
      match s.client with
      | .attached k => recvStep s k
      | _ => none
  | .lose =>
      match s.client with
      | .disconnected | .ended => none
      | .choosing | .chosen _ => some { s with client := .disconnected }
      | .subscribing k | .subscribed k | .finished k | .attached k =>
          (s.onSession k .lose).map fun s' => { s' with client := .disconnected }

/-- Every session's output fits into 64 bits, and whenever a buffer is read for the client its
    count was earned on that session, or does not reach into the buffer, or there is nothing in
    the buffer. -/
def EarnedHere (s : Sys) : Label → Prop
  | .output k (.push payload) => ∀ t ∈ s.sessions[k]?, (t.sys.log ++ payload).length ≤ u64Max
  | .attach =>
      match s.client with
      | .subscribing k => ∀ t ∈ s.sessions[k]?, Applies t s.renderedBytes
      | _ => True
  | _ => True

instance (t : Traced) (n : Nat) : Decidable (Applies t n) := by
  unfold Applies
  infer_instance

instance (s : Sys) : (a : Label) → Decidable (EarnedHere s a)
  | .output k (.push payload) =>
      inferInstanceAs (Decidable (∀ t ∈ s.sessions[k]?, (t.sys.log ++ payload).length ≤ u64Max))
  | .attach => by
      unfold EarnedHere
      dsimp only
      split <;> infer_instance
  | .output _ .notify | .output _ (.recordExit _) | .output _ .pushExit | .otherAttach
  | .otherClear _ | .connect | .stream | .recv | .lose => isTrue trivial

/-! ## What a step leaves of a session -/

theorem step_output {t t' : Traced} {e : Output} (hs : Shows t.sys)
    (h : t.step e.label = some t') :
    t'.sys.task = t.sys.task ∧ t'.current = t.current ∧
      t'.sys.renderedBytes = t.sys.renderedBytes := by
  have heff := effect_of_step hs h
  cases e with
  | push payload =>
      cases heff with
      | same ha => cases ha
      | push => exact ⟨rfl, rfl, rfl⟩
  | notify | recordExit code | pushExit =>
      cases heff with
      | same ha => exact ⟨rfl, rfl, rfl⟩

theorem step_stream {t t' : Traced} (hs : Shows t.sys) (h : t.step .stream = some t') :
    (∀ task ∈ t'.sys.task, ∀ n, task.phase ≠ .subscribing n) ∧
      t.current ⊆ t'.current ∧ t'.sys.renderedBytes = t.sys.renderedBytes := by
  cases effect_of_step hs h with
  | same ha => cases ha
  | stream sent htask hwire hadv =>
      refine ⟨?_, ?_, rfl⟩
      · intro u hu
        cases hu
        exact (gets_of_advances hs hadv).2.2
      · rw [current_stream]
        exact List.subset_append_left _ _

theorem step_recv {t t' : Traced} (hs : Shows t.sys) (h : t.step .recv = some t') :
    t'.sys.task = t.sys.task ∧ t'.current = t.current ∧
      t'.sys.renderedBytes = countFrame t.sys.renderedBytes t.sys.wire := by
  cases effect_of_step hs h with
  | same ha => cases ha
  | data hwire hty =>
      refine ⟨rfl, current_data _ _ _, ?_⟩
      rw [hwire, countFrame, if_pos hty]
  | other client hwire hty =>
      refine ⟨rfl, rfl, ?_⟩
      rw [hwire, countFrame, if_neg hty]

theorem step_attach {t t' : Traced} {n : Nat} (hs : Shows t.sys)
    (h : t.step (.attach n) = some t') :
    (∃ seen, t'.sys.task = some ⟨.subscribing n, seen⟩) ∧
      t'.sys.renderedBytes = t.sys.renderedBytes := by
  cases effect_of_step hs h with
  | same ha => cases ha
  | attach => exact ⟨⟨_, rfl⟩, rfl⟩

theorem step_lose {t t' : Traced} (hs : Shows t.sys) (h : t.step .lose = some t') :
    t'.sys.renderedBytes = t.sys.renderedBytes := by
  cases effect_of_step hs h with
  | same ha => cases ha
  | lose => rfl

theorem countFrame_mono {a b : Nat} (hab : a ≤ b) (wire : List ConsoleFrame) :
    countFrame a wire ≤ countFrame b wire := by
  unfold countFrame
  split
  · split
    · unfold satAdd
      omega
    · exact hab
  · exact hab

theorem le_countFrame {a : Nat} (ha : a ≤ u64Max) (wire : List ConsoleFrame) :
    a ≤ countFrame a wire := by
  unfold countFrame
  split
  · split
    · unfold satAdd
      omega
    · exact Nat.le_refl a
  · exact Nat.le_refl a

/-! ## Every attachment starts with what is owed -/

/-- Every session is gapless, and the client's count covers what it has rendered of each. -/
def Each (sessions : List Traced) (renderedBytes : Nat) : Prop :=
  ∀ (k : Nat) (t : Traced), sessions[k]? = some t → Gapless t ∧ t.sys.renderedBytes ≤ renderedBytes

/-- How far the client's own session is: it has been asked for the client's count, or it has
    read what is owed. -/
def Staged (sessions : List Traced) (renderedBytes : Nat) (owed : List Nat) : Client → Prop
  | .subscribing k =>
      ∃ t seen, sessions[k]? = some t ∧ t.sys.task = some ⟨.subscribing renderedBytes, seen⟩
  | .subscribed k | .attached k =>
      ∃ t, sessions[k]? = some t ∧
        (∀ task ∈ t.sys.task, ∀ n, task.phase ≠ .subscribing n) ∧ owed ⊆ t.current
  | _ => True

structure Inv (s : Sys) : Prop where
  each : Each s.sessions s.renderedBytes
  staged : Staged s.sessions s.renderedBytes s.owed s.client

theorem inv_init : Inv init := ⟨fun _ _ ht => (by cases ht), trivial⟩

theorem onSession_eq_some {s s' : Sys} {k : Nat} {a : ConsoleStream.Label} :
    s.onSession k a = some s' ↔ ∃ t t', s.sessions[k]? = some t ∧ t.step a = some t' ∧
      { s with sessions := s.sessions.set k t' } = s' := by
  unfold Sys.onSession
  split
  · next t ht =>
      rw [Option.map_eq_some_iff]
      constructor
      · intro h
        obtain ⟨t', hstep, hs'⟩ := h
        exact ⟨t, t', ht, hstep, hs'⟩
      · intro h
        obtain ⟨u, t', hu, hstep, hs'⟩ := h
        obtain rfl : u = t := Option.some.inj (hu.symm.trans ht)
        exact ⟨t', hstep, hs'⟩
  · next hnone =>
      refine iff_of_false (by simp) ?_
      intro h
      obtain ⟨t, t', ht, _⟩ := h
      rw [hnone] at ht
      cases ht

theorem getElem?_set_cases {sessions : List Traced} {k j : Nat} {t' u : Traced}
    (h : (sessions.set k t')[j]? = some u) : j = k ∧ u = t' ∨ j ≠ k ∧ sessions[j]? = some u := by
  by_cases hjk : j = k
  · subst hjk
    rw [List.getElem?_set_self'] at h
    obtain ⟨_, _, hu⟩ := Option.map_eq_some_iff.mp h
    exact .inl ⟨rfl, hu.symm⟩
  · rw [List.getElem?_set_ne (Ne.symm hjk)] at h
    exact .inr ⟨hjk, h⟩

theorem getElem?_set_of_some {sessions : List Traced} {k : Nat} {t : Traced} (t' : Traced)
    (h : sessions[k]? = some t) : (sessions.set k t')[k]? = some t' := by
  rw [List.getElem?_set_self', h]
  rfl

/-- A step of one session keeps every session gapless. -/
theorem each_set {sessions : List Traced} {r : Nat} {k : Nat} {t t' : Traced}
    {a : ConsoleStream.Label} (heach : Each sessions r) (ht : sessions[k]? = some t)
    (hstep : t.step a = some t') (hok : CountApplies t a)
    (hcount : t'.sys.renderedBytes = t.sys.renderedBytes) : Each (sessions.set k t') r := by
  intro j u hu
  obtain ⟨hgapless, hle⟩ := heach k t ht
  rcases getElem?_set_cases hu with ⟨-, hu⟩ | ⟨-, hu⟩
  · subst hu
    refine ⟨gapless_step t a u hgapless hok hstep, ?_⟩
    rw [hcount]
    exact hle
  · exact heach j u hu

theorem each_spawn {sessions : List Traced} {r : Nat} (heach : Each sessions r) :
    Each (sessions ++ [Traced.init]) r := by
  intro k t ht
  rcases List.mem_append.mp (List.mem_of_getElem? ht) with hmem | hmem
  · obtain ⟨j, hj⟩ := List.mem_iff_getElem?.mp hmem
    exact heach j t hj
  · rw [List.mem_singleton.mp hmem]
    exact ⟨gapless_init, Nat.zero_le r⟩

/-- The client's session stays as far as it is when its task and what it has read stay. -/
theorem Staged.mono {sessions sessions' : List Traced} {r : Nat} {owed : List Nat}
    {client : Client} (h : Staged sessions r owed client)
    (hkeep : ∀ (k : Nat) (t : Traced), sessions[k]? = some t →
      ∃ t', sessions'[k]? = some t' ∧ t'.sys.task = t.sys.task ∧ t'.current = t.current) :
    Staged sessions' r owed client := by
  have hread : ∀ k, Staged sessions r owed (.attached k) →
      Staged sessions' r owed (.attached k) := by
    intro k h'
    obtain ⟨t, ht, hpast, howed⟩ := h'
    obtain ⟨t', ht', htask, hcur⟩ := hkeep k t ht
    exact ⟨t', ht', htask ▸ hpast, hcur ▸ howed⟩
  cases client with
  | subscribing k =>
      obtain ⟨t, seen, ht, hasked⟩ := h
      obtain ⟨t', ht', htask, -⟩ := hkeep k t ht
      exact ⟨t', seen, ht', htask.trans hasked⟩
  | subscribed k => exact hread k h
  | attached k => exact hread k h
  | _ => trivial

theorem staged_spawn {sessions : List Traced} {r : Nat} {owed : List Nat} {client : Client}
    (h : Staged sessions r owed client) : Staged (sessions ++ [Traced.init]) r owed client := by
  apply h.mono
  intro k t ht
  obtain ⟨hlt, -⟩ := List.getElem?_eq_some_iff.mp ht
  refine ⟨t, ?_, rfl, rfl⟩
  rw [List.getElem?_append_left hlt]
  exact ht

theorem inv_choose {s : Sys} (h : Inv s) : Inv s.choose.2 := by
  unfold Sys.choose
  split
  · split
    · exact ⟨each_spawn h.each, staged_spawn h.staged⟩
    · exact h
  · exact ⟨each_spawn h.each, staged_spawn h.staged⟩

theorem each_clear {s : Sys} (h : Each s.sessions s.renderedBytes) (k : Nat) :
    Each (s.clear k).sessions (s.clear k).renderedBytes := by
  unfold Sys.clear
  split <;> exact h

theorem staged_clear {s : Sys} (h : Staged s.sessions s.renderedBytes s.owed s.client) (k : Nat) :
    Staged (s.clear k).sessions (s.clear k).renderedBytes (s.clear k).owed (s.clear k).client := by
  unfold Sys.clear
  split <;> exact h

/-- Dropping an attachment keeps every session gapless. -/
theorem each_lose {s s' : Sys} {k : Nat} (heach : Each s.sessions s.renderedBytes)
    (h : s.onSession k .lose = some s') : Each s'.sessions s'.renderedBytes := by
  obtain ⟨t, t', ht, hstep, rfl⟩ := onSession_eq_some.mp h
  have hcount := step_lose (heach k t ht).1.tracks.buffered hstep
  exact each_set heach ht hstep ⟨trivial, by simp⟩ hcount

/-- A step of a session that leaves its task alone and forgets nothing it has read. -/
theorem staged_set {sessions : List Traced} {r k : Nat} {owed : List Nat} {client : Client}
    {t t' : Traced} (h : Staged sessions r owed client) (ht : sessions[k]? = some t)
    (htask : t'.sys.task = t.sys.task) (hcur : t'.current = t.current) :
    Staged (sessions.set k t') r owed client := by
  apply h.mono
  intro j u hu
  by_cases hjk : j = k
  · subst hjk
    obtain rfl : t = u := Option.some.inj (ht.symm.trans hu)
    exact ⟨t', getElem?_set_of_some t' ht, htask, hcur⟩
  · refine ⟨u, ?_, rfl, rfl⟩
    rw [List.getElem?_set_ne (Ne.symm hjk)]
    exact hu

theorem buffer_length {s : ConsoleStream.Sys} (hs : Shows s) :
    s.output.state.buffer.length = s.log.length - s.output.state.retainedStart ∧
      s.output.state.retainedStart ≤ s.log.length := by
  obtain ⟨w, hlog, hw⟩ := hs
  rw [hw.buffer, hw.retainedStart, w.length_retained, hlog]
  exact ⟨rfl, hlog ▸ w.start_le⟩

/-- What an attachment reads first contains everything it owes the client. -/
theorem unrendered_subset {s : Sys} {k n seen : Nat} {t t' : Traced} (ht : s.sessions[k]? = some t)
    (hgapless : Gapless t) (htask : t.sys.task = some ⟨.subscribing n, seen⟩)
    (happ : Applies t n) (h : t.step .stream = some t') : s.unrendered k ⊆ t'.current := by
  have hs := hgapless.tracks.buffered
  obtain ⟨hbuffer, hstart⟩ := buffer_length hs
  intro i hi
  rw [Sys.unrendered, ht] at hi
  obtain ⟨hmem, hnot⟩ := List.mem_filter.mp hi
  rw [lastAt, List.mem_range'_1, hbuffer] at hmem
  have hfrom : t.sys.readAt n ≤ i := by
    by_contra hlt
    have hretained : t.start ≤ i := by
      show t.sys.output.state.retainedStart ≤ i
      omega
    have hrendered := hgapless.mem_of_lt_readAt happ hretained (by omega)
    simp [hrendered] at hnot
  cases effect_of_step hs h with
  | same ha => cases ha
  | @stream task task' wire sent base htask' hwire hadv =>
      obtain rfl : task = ⟨.subscribing n, seen⟩ := Option.some.inj (htask'.symm.trans htask)
      rw [current_stream]
      apply List.mem_append_right
      obtain ⟨phase, seen'⟩ := task'
      cases hadv with
      | subscribe =>
          show i ∈ lastAt t.sys.log (t.sys.log.drop (t.sys.readAt n)).length
          rw [lastAt_drop (readAt_le hs n), List.mem_range'_1]
          omega
      | move hreq => cases hreq

theorem inv_attachStep {s s' : Sys} (hs : Inv s) (hok : EarnedHere s .attach)
    (h : attachStep s = some s') : Inv s' := by
  have hchoose := (inv_choose hs).each
  obtain ⟨heach, hstaged⟩ := hs
  unfold attachStep at h
  split at h
  · -- a session is chosen, or a new one spawned
    next hclient =>
      cases h
      exact ⟨hchoose, trivial⟩
  · next k hclient =>
      obtain ⟨s₁, hs₁, rfl⟩ := Option.map_eq_some_iff.mp h
      obtain ⟨t, t', ht, hstep, rfl⟩ := onSession_eq_some.mp hs₁
      have hshows := (heach k t ht).1.tracks.buffered
      obtain ⟨⟨seen, htask⟩, hcount⟩ := step_attach hshows hstep
      refine ⟨each_set heach ht hstep ⟨trivial, by simp⟩ hcount, t', seen, ?_, htask⟩
      exact getElem?_set_of_some t' ht
  · next k hclient =>
      obtain ⟨s₁, hs₁, rfl⟩ := Option.map_eq_some_iff.mp h
      obtain ⟨t, t', ht, hstep, rfl⟩ := onSession_eq_some.mp hs₁
      obtain ⟨hgapless, hle⟩ := heach k t ht
      rw [hclient] at hstaged
      obtain ⟨u, seen, hu, htask⟩ := hstaged
      obtain rfl : u = t := Option.some.inj (hu.symm.trans ht)
      have happ : Applies u s.renderedBytes := by
        unfold EarnedHere at hok
        rw [hclient] at hok
        exact hok u ht
      have hok' : CountApplies u .stream := by
        refine ⟨trivial, fun _ task htask' n hn => ?_⟩
        obtain rfl := Option.some.inj (htask.symm.trans htask')
        cases hn
        exact ⟨hle, happ⟩
      obtain ⟨hpast, -, hcount⟩ := step_stream hgapless.tracks.buffered hstep
      exact ⟨each_set heach ht hstep hok' hcount, t', getElem?_set_of_some t' ht, hpast,
        unrendered_subset ht hgapless htask happ hstep⟩
  · next k hclient =>
      cases h
      refine ⟨heach, ?_⟩
      rw [hclient] at hstaged
      show Staged _ _ _ (if s.isFinished k = true then _ else _)
      split
      · trivial
      · exact hstaged
  · next k hclient =>
      obtain ⟨s₁, hs₁, rfl⟩ := Option.map_eq_some_iff.mp h
      have heach' := each_clear (each_lose heach hs₁) k
      exact ⟨heach', trivial⟩
  · cases h

theorem inv_recvStep {s s' : Sys} {k : Nat} (hs : Inv s) (hclient : s.client = .attached k)
    (h : recvStep s k = some s') : Inv s' := by
  obtain ⟨heach, hstaged⟩ := hs
  unfold recvStep at h
  split at h
  · next t ht =>
      obtain ⟨t', hstep, rfl⟩ := Option.map_eq_some_iff.mp h
      obtain ⟨hgapless, hle⟩ := heach k t ht
      obtain ⟨htask, hcur, hcount⟩ := step_recv hgapless.tracks.buffered hstep
      refine ⟨?_, ?_⟩
      · intro j u hu
        rcases getElem?_set_cases hu with ⟨-, hu⟩ | ⟨-, hu⟩
        · subst hu
          refine ⟨gapless_step t .recv u hgapless ⟨trivial, by simp⟩ hstep, ?_⟩
          rw [hcount]
          exact countFrame_mono hle _
        · -- the count only grows, and what was rendered of another session fits below it
          obtain ⟨hgapless', hle'⟩ := heach j u hu
          have hfits := Nat.le_trans hgapless'.count_le hgapless'.tracks.fits
          have hmono := countFrame_mono hle' t.sys.wire
          have hgrow := le_countFrame hfits t.sys.wire
          exact ⟨hgapless', Nat.le_trans hgrow hmono⟩
      · have hset := staged_set hstaged ht htask hcur
        rw [hclient] at hset
        show Staged _ _ _ (if _ then _ else _)
        split
        · exact hset
        · trivial
  · cases h

theorem inv_step (s : Sys) (a : Label) (s' : Sys) (hs : Inv s) (hok : EarnedHere s a)
    (h : step s a = some s') : Inv s' := by
  cases a with
  | output k e =>
      obtain ⟨t, t', ht, hstep, rfl⟩ := onSession_eq_some.mp h
      obtain ⟨htask, hcur, hcount⟩ := step_output (hs.each k t ht).1.tracks.buffered hstep
      have hok' : CountApplies t e.label := by
        cases e with
        | push payload => exact ⟨hok t ht, by intros; contradiction⟩
        | _ => exact ⟨trivial, by intros; contradiction⟩
      exact ⟨each_set hs.each ht hstep hok' hcount, staged_set hs.staged ht htask hcur⟩
  | otherAttach =>
      cases h
      exact inv_choose hs
  | otherClear k =>
      simp only [step, Option.ite_none_right_eq_some, Option.some.injEq] at h
      obtain ⟨-, rfl⟩ := h
      exact ⟨each_clear hs.each k, staged_clear hs.staged k⟩
  | connect =>
      simp only [step, Option.ite_none_right_eq_some, Option.some.injEq] at h
      obtain ⟨-, rfl⟩ := h
      exact ⟨hs.each, trivial⟩
  | attach => exact inv_attachStep hs hok h
  | stream =>
      simp only [step] at h
      split at h
      · next k hclient =>
          obtain ⟨t, t', ht, hstep, rfl⟩ := onSession_eq_some.mp h
          have hstaged := hs.staged
          rw [hclient] at hstaged
          obtain ⟨u, hu, hpast, howed⟩ := hstaged
          obtain rfl : u = t := Option.some.inj (hu.symm.trans ht)
          have hok' : CountApplies u .stream :=
            ⟨trivial, fun _ task htask n hn => absurd hn (hpast task htask n)⟩
          obtain ⟨hpast', hsub, hcount⟩ := step_stream (hs.each k u ht).1.tracks.buffered hstep
          refine ⟨each_set hs.each ht hstep hok' hcount, ?_⟩
          show Staged _ _ _ s.client
          rw [hclient]
          exact ⟨t', getElem?_set_of_some t' ht, hpast', fun i hi => hsub (howed hi)⟩
      · cases h
  | recv =>
      simp only [step] at h
      split at h
      · next k hclient => exact inv_recvStep hs hclient h
      · cases h
  | lose =>
      simp only [step] at h
      split at h
      · cases h
      · cases h
      · cases h
        exact ⟨hs.each, trivial⟩
      · cases h
        exact ⟨hs.each, trivial⟩
      -- attached or on the way there
      all_goals
        obtain ⟨s₁, hs₁, rfl⟩ := Option.map_eq_some_iff.mp h
        have heach := each_lose hs.each hs₁
        exact ⟨heach, trivial⟩

/-- In every run in which the count applies whenever it is used: everything owed to the client
    when it subscribed has been rendered, is on the wire or is about to be sent; and nothing of
    it is rendered after a later byte of the session. -/
theorem unrendered_first (as : List Label) (s : Sys) (hrun : Run step EarnedHere init as s)
    (k : Nat) (t : Traced) (hclient : s.client = .attached k) (ht : s.sessions[k]? = some t) :
    (∀ i ∈ s.owed, i ∈ t.here ++ (t.wireAt ++ t.pendingAt)) ∧
      (∀ i ∈ s.owed, ∀ j ∈ t.here, i < j → i ∈ t.here) ∧
      Picks t.sys.log t.renderedAt t.sys.rendered ∧
      Picks t.sys.log t.wireAt (wireData t.sys.wire) := by
  have hs := hrun.inv Inv inv_step inv_init
  have htracks := (hs.each k t ht).1.tracks
  have hstaged := hs.staged
  rw [hclient] at hstaged
  obtain ⟨u, hu, -, howed⟩ := hstaged
  obtain rfl : u = t := Option.some.inj (hu.symm.trans ht)
  refine ⟨fun i hi => howed hi, ?_, htracks.rendered, htracks.wired⟩
  intro i hi j hj hij
  rcases List.mem_append.mp (howed hi) with hmem | hmem
  · exact hmem
  · -- what is still underway lies behind everything rendered
    have hlater := (List.pairwise_append.mp htracks.ordered).2.2 j hj i hmem
    omega

/-- The four steps of an `attach` that meets a running shell, or spawns one. -/
def attaching : List Label := [.connect, .attach, .attach, .attach, .attach]

/-- A client sees two bytes, loses the connection, misses one byte and comes back. -/
def comeBack : List Label :=
  attaching ++ [.output 0 (.push [1, 2]), .output 0 .notify, .stream, .stream, .stream, .stream,
    .stream, .recv, .lose, .output 0 (.push [3]), .output 0 .notify] ++ attaching ++ [.stream]

theorem unrendered_first_comeBack :
    ∃ s t, Run step EarnedHere init comeBack s ∧ s.client = .attached 0 ∧
      s.sessions[0]? = some t ∧ s.owed = [2] ∧ t.wireAt = [2] ∧
      (∀ i ∈ s.owed, i ∈ t.here ++ (t.wireAt ++ t.pendingAt)) ∧
      (∀ i ∈ s.owed, ∀ j ∈ t.here, i < j → i ∈ t.here) ∧
      Picks t.sys.log t.renderedAt t.sys.rendered ∧
      Picks t.sys.log t.wireAt (wireData t.sys.wire) :=
  ⟨_, _, run_of_exec rfl, rfl, rfl, rfl, rfl,
    unrendered_first comeBack _ (run_of_exec rfl) 0 _ rfl rfl⟩

/-- The client renders three bytes of a shell that exits while the client is away. Another
    client's `attach` spawns the next shell, which writes two bytes and, once the client is
    attached to it, a third. -/
def respawned : List Label :=
  attaching ++ [.output 0 (.push [1, 2, 3]), .output 0 .notify, .stream, .stream, .stream, .stream,
    .stream, .recv, .lose, .output 0 (.recordExit 0), .output 0 .pushExit, .otherAttach,
    .output 1 (.push [7, 8]), .output 1 .notify] ++ attaching ++
    [.output 1 (.push [9]), .output 1 .notify, .stream, .stream, .stream, .stream, .stream, .recv]

/-- The count of the old shell makes the client miss the first bytes of the new one. -/
theorem respawn_skips_output :
    ∃ s t, Run step Any init respawned s ∧ s.client = .attached 1 ∧ s.sessions[1]? = some t ∧
      s.owed = [0, 1] ∧ t.here = [2] ∧ t.wireAt ++ t.pendingAt = [] :=
  ⟨_, _, run_of_exec rfl, rfl, rfl, rfl, rfl, rfl⟩

end FlyVault.Init.SharedConsole
