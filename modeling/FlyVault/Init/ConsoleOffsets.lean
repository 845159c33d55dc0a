/-
  Which bytes of its output a persistent console delivers.

  `Traced` is the console of `ConsoleStream` with the offset of every byte kept beside it: of
  the bytes the streaming task has read and not sent yet, of those on the wire, and of those
  the client has rendered, on the present attachment and on earlier ones. What a task reads is
  always the end of the log, so the offsets are known from its length alone.

  `effect_of_step` says once what a step can do; `tracks_step` is the bookkeeping that holds
  in every run whose output fits into 64 bits: the offsets belong to the bytes, and within one
  attachment they increase, whatever is evicted.

  Across attachments this fails. The client's `rendered_bytes` counts bytes, the server takes
  it for an offset, and after an eviction the two differ: `offset_rendered_twice` is a run in
  which a byte comes again. `rendered_once` says when it cannot.
-/
import FlyVault.Init.ConsoleResume

namespace FlyVault.Init.ConsoleStream

open FlyVault.Lib FlyVault.Protocol

/-! ## Offsets beside the console -/

/-- The console, and the offset of every byte that is pending, on the wire or rendered. -/
structure Traced where
  sys : Sys
  pendingAt : List Nat
  wireAt : List Nat
  /-- Rendered on the present attachment. -/
  here : List Nat
  /-- Rendered on the attachments before it. -/
  earlier : List Nat
  deriving DecidableEq, Repr

namespace Traced

def init : Traced := ⟨ConsoleStream.init, [], [], [], []⟩

/-- Everything the client has rendered, in this order. -/
def renderedAt (t : Traced) : List Nat := t.earlier ++ t.here

/-- What the present attachment has read so far, in this order. -/
def current (t : Traced) : List Nat := t.here ++ (t.wireAt ++ t.pendingAt)

end Traced

/-- The bytes the streaming task has read and not sent yet. -/
def Sys.pending (s : Sys) : Bytes :=
  match s.task with
  | some t => t.phase.pending
  | none => []

/-- The offsets of the last `n` bytes of a log. -/
def lastAt (log : Bytes) (n : Nat) : List Nat := List.range' (log.length - n) n

/-- A step of the console, and where it moves the bytes. A streaming step sends what was
    pending; what is pending after it has just been read and is the end of the log. -/
def Traced.step (t : Traced) (a : Label) : Option Traced :=
  (ConsoleStream.step t.sys a).map fun sys =>
    match a with
    | .attach _ => ⟨sys, [], [], [], t.earlier ++ t.here⟩
    | .stream =>
        { t with
          sys
          wireAt := t.wireAt ++ t.pendingAt
          pendingAt := lastAt sys.log sys.pending.length }
    | .recv =>
        let n := sys.rendered.length - t.sys.rendered.length
        { t with
          sys
          wireAt := t.wireAt.drop n
          here := t.here ++ t.wireAt.take n }
    | .lose => { t with sys, pendingAt := [], wireAt := [] }
    | _ => { t with sys }

/-! ## What a step can do -/

/-- The steps that move no byte. -/
def Label.quiet : Label → Bool
  | .notify | .recordExit _ | .pushExit | .dropSender => true
  | _ => false

/-- Where a step takes the console. -/
inductive Effect (t : Traced) : Label → Traced → Prop
  | same {a : Label} (ha : a.quiet = true) (version : Nat)
      (unnotified senderDropped exitPushed : Bool) (exitCode : Option UInt32) (exitMark : Nat) :
      Effect t a { t with
        sys := { t.sys with
          output := { t.sys.output with version }
          unnotified, senderDropped, exitPushed, exitCode, exitMark } }
  | push (payload : Bytes) :
      Effect t (.push payload) { t with
        sys := { t.sys with
          output := t.sys.output.store payload
          unnotified := true
          log := t.sys.log ++ payload } }
  | attach (n : Nat) :
      Effect t (.attach n) ⟨{ t.sys with
          client := .connected
          task := some ⟨.subscribing n, t.sys.output.version⟩
          wire := []
          sent := []
          base := n }, [], [], [], t.earlier ++ t.here⟩
  | stream {task task' : Task} {wire : List ConsoleFrame} (sent : Bytes) {base : Nat}
      (htask : t.sys.task = some task)
      (hwire : wireData wire = wireData t.sys.wire ++ task.phase.pending)
      (hadv : Advances t.sys task.phase task'.phase base) :
      Effect t .stream { t with
        sys := { t.sys with task := some task', wire, sent, base }
        wireAt := t.wireAt ++ t.pendingAt
        pendingAt := lastAt t.sys.log task'.phase.pending.length }
  | takeover {n seen : Nat} (htask : t.sys.task = some ⟨.waiting n, seen⟩) :
      Effect t .takeover { t with sys := { t.sys with task := some ⟨.ended, seen⟩ } }
  | data {frame : ConsoleFrame} {rest : List ConsoleFrame} (hwire : t.sys.wire = frame :: rest)
      (hty : frame.ty = consoleData) :
      Effect t .recv { t with
        sys := { t.sys with
          wire := rest
          renderedBytes := satAdd t.sys.renderedBytes frame.payload.length
          rendered := t.sys.rendered ++ frame.payload }
        wireAt := t.wireAt.drop frame.payload.length
        here := t.here ++ t.wireAt.take frame.payload.length }
  | other {frame : ConsoleFrame} {rest : List ConsoleFrame} (client : Client)
      (hwire : t.sys.wire = frame :: rest) (hty : frame.ty ≠ consoleData) :
      Effect t .recv { t with sys := { t.sys with wire := rest, client } }
  | lose :
      Effect t .lose { t with
        sys := { t.sys with client := .disconnected, task := none, wire := [] }
        pendingAt := []
        wireAt := [] }

/-- Reading one frame. -/
theorem effect_handleFrame {t : Traced} {frame : ConsoleFrame} {rest : List ConsoleFrame}
    (hwire : t.sys.wire = frame :: rest) :
    Effect t .recv
      { t with
        sys := handleFrame { t.sys with wire := rest } frame
        wireAt := t.wireAt.drop
          ((handleFrame { t.sys with wire := rest } frame).rendered.length - t.sys.rendered.length)
        here := t.here ++ t.wireAt.take
          ((handleFrame { t.sys with wire := rest } frame).rendered.length -
            t.sys.rendered.length) } := by
  unfold handleFrame
  split
  · next hty =>
      rw [List.length_append, Nat.add_sub_cancel_left]
      exact .data hwire hty
  · next hty =>
      split
      · split
        · simpa using Effect.other (.exited _) hwire hty
        · simpa using Effect.other .failed hwire hty
      · simpa using Effect.other t.sys.client hwire hty

theorem effect_of_step {t t' : Traced} {a : Label} (hs : Shows t.sys)
    (h : t.step a = some t') : Effect t a t' := by
  obtain ⟨sys, hsys, ht'⟩ := Option.map_eq_some_iff.mp h
  cases a with
  | push payload =>
      simp only [step, Option.ite_none_left_eq_some, Option.some.injEq] at hsys
      obtain ⟨-, rfl⟩ := hsys
      subst ht'
      exact .push payload
  | attach n =>
      simp only [step, Option.ite_none_right_eq_some, Option.some.injEq] at hsys
      obtain ⟨-, rfl⟩ := hsys
      subst ht'
      exact .attach n
  | stream =>
      obtain ⟨task, htask, hst⟩ := Option.bind_eq_some_iff.mp hsys
      obtain ⟨task', htask', -, hwire, hadv⟩ := advances_streamStep hs hst
      obtain ⟨_, wire, sent, base, rfl⟩ := streamStep_frame hst
      cases htask'
      subst ht'
      exact .stream sent htask hwire hadv
  | takeover =>
      simp only [step] at hsys
      split at hsys
      · next n seen htask =>
          cases hsys
          subst ht'
          exact .takeover htask
      · cases hsys
  | recv =>
      simp only [step] at hsys
      split at hsys
      · next frame rest hconn hwire =>
          cases hsys
          subst ht'
          exact effect_handleFrame hwire
      · cases hsys
  | lose =>
      simp only [step, Option.ite_none_right_eq_some, Option.some.injEq] at hsys
      obtain ⟨-, rfl⟩ := hsys
      subst ht'
      exact .lose
  | notify | pushExit =>
      simp only [step, Option.ite_none_right_eq_some, Option.some.injEq] at hsys
      obtain ⟨-, rfl⟩ := hsys
      subst ht'
      exact .same rfl _ _ _ _ _ _
  | recordExit | dropSender =>
      simp only [step, Option.ite_none_left_eq_some, Option.some.injEq] at hsys
      obtain ⟨-, rfl⟩ := hsys
      subst ht'
      exact .same rfl _ _ _ _ _ _

/-! ## The offsets belong to the bytes -/

/-- How far the task has read; nothing yet while it subscribes. -/
def Phase.reached : Phase → Option Nat
  | .subscribing _ => none
  | p => p.cursor

theorem mem_cursor_of_reached {p : Phase} {n : Nat} (h : n ∈ p.reached) : n ∈ p.cursor := by
  cases p <;> first | exact h | cases h

theorem reached_of_cursor {p : Phase} {n : Nat} (h : n ∈ p.cursor)
    (hsub : ∀ m, p ≠ .subscribing m) : n ∈ p.reached := by
  cases p <;> first | exact h | exact absurd rfl (hsub _)

/-- The bookkeeping of one console: the offsets belong to the bytes, those of the present
    attachment increase, and all lie below the point the task has read to. -/
structure Tracks (t : Traced) : Prop where
  buffered : Shows t.sys
  fits : t.sys.log.length ≤ u64Max
  rendered : Picks t.sys.log t.renderedAt t.sys.rendered
  wired : Picks t.sys.log t.wireAt (wireData t.sys.wire)
  pending : Picks t.sys.log t.pendingAt t.sys.pending
  ordered : t.current.Pairwise (· < ·)
  fresh : ∀ task ∈ t.sys.task, ∀ n, task.phase = .subscribing n → t.current = []
  behind : ∀ task ∈ t.sys.task, ∀ n ∈ task.phase.reached,
    n ≤ t.sys.log.length ∧ ∀ i ∈ t.current, i < n

theorem tracks_init : Tracks Traced.init :=
  ⟨shows_init, Nat.zero_le _, rfl, rfl, rfl, .nil, by intros; contradiction,
    by intros; contradiction⟩

/-- What a read from `k` brings. -/
theorem lastAt_drop {log : Bytes} {k : Nat} (hk : k ≤ log.length) :
    lastAt log (log.drop k).length = List.range' k (log.length - k) := by
  rw [lastAt, List.length_drop, Nat.sub_sub_self hk]

theorem readAt_le {s : Sys} (hs : Shows s) (n : Nat) : s.readAt n ≤ s.log.length :=
  (subscribeFrom_clamp hs n).2

theorem le_readAt {s : Sys} (hs : Shows s) (n : Nat) :
    s.output.state.retainedStart ≤ s.readAt n := by
  obtain ⟨w, hlog, hw⟩ := hs
  apply BufferedConsoleState.le_clamp
  rw [hw.retainedStart, hw.nextOffset]
  exact w.start_le

/-- Inside the log a read starts at the offset asked for or later. -/
theorem le_readAt_of_le {s : Sys} (hs : Shows s) {m n : Nat} (hmn : m ≤ n)
    (hm : m ≤ s.log.length) : m ≤ s.readAt n := by
  obtain ⟨w, hlog, hw⟩ := hs
  have hnext := hw.nextOffset
  rw [hlog] at hnext
  unfold Sys.readAt clamp
  split
  · omega
  · split <;> omega

/-- The offsets one step of the task reads: none, those from the offset the client asked for,
    or those from the point it has reached. -/
inductive Gets (s : Sys) (p q : Phase) (base : Nat) : List Nat → Prop
  | nothing (hbase : base = s.base) (hto : ∀ n ∈ q.reached, n ∈ p.reached) : Gets s p q base []
  | first (n : Nat) (hp : p = .subscribing n) (hbase : base = s.readAt n)
      (hto : ∀ m ∈ q.reached, m = s.log.length) :
      Gets s p q base (List.range' (s.readAt n) (s.log.length - s.readAt n))
  | more (n : Nat) (hp : n ∈ p.reached) (hbase : base = s.base)
      (hto : ∀ m ∈ q.reached, m = s.log.length) :
      Gets s p q base (List.range' (s.readAt n) (s.log.length - s.readAt n))

theorem gets_of_advances {s : Sys} {p q : Phase} {base : Nat} (hs : Shows s)
    (hadv : Advances s p q base) :
    Gets s p q base (lastAt s.log q.pending.length) ∧
      Picks s.log (lastAt s.log q.pending.length) q.pending ∧ ∀ n, q ≠ .subscribing n := by
  have hpicks : ∀ n, Picks s.log (lastAt s.log (s.log.drop (s.readAt n)).length)
      (s.log.drop (s.readAt n)) := by
    intro n
    rw [lastAt_drop (readAt_le hs n)]
    exact picks_drop s.log _
  have hend : ∀ m ∈ some s.log.length, m = s.log.length := by
    intro m hm
    cases hm
    rfl
  cases hadv with
  | subscribe n =>
      refine ⟨?_, hpicks n, by simp⟩
      show Gets s _ _ _ (lastAt s.log (s.log.drop (s.readAt n)).length)
      rw [lastAt_drop (readAt_le hs n)]
      exact .first n rfl rfl hend
  | wake n =>
      refine ⟨?_, hpicks n, by simp⟩
      show Gets s _ _ _ (lastAt s.log (s.log.drop (s.readAt n)).length)
      rw [lastAt_drop (readAt_le hs n)]
      exact .more n rfl rfl hend
  | close n =>
      refine ⟨?_, hpicks n, by simp⟩
      show Gets s _ _ _ (lastAt s.log (s.log.drop (s.readAt n)).length)
      rw [lastAt_drop (readAt_le hs n)]
      exact .more n rfl rfl (by intros; contradiction)
  | move hreq hpend hcur hsub =>
      rw [hpend]
      refine ⟨.nothing rfl ?_, picks_nil s.log, hsub⟩
      intro n hn
      apply reached_of_cursor (hcur n (mem_cursor_of_reached hn))
      intro m hm
      rw [hm] at hreq
      cases hreq

/-- What is read continues increasing offsets that lie below the point it is read from. -/
theorem Gets.extend {s : Sys} {p q : Phase} {base : Nat} {cur is : List Nat} (hs : Shows s)
    (h : Gets s p q base is) (hord : cur.Pairwise (· < ·))
    (hfirst : ∀ n, p = .subscribing n → ∀ i ∈ cur, i < s.readAt n)
    (hbehind : ∀ n ∈ p.reached, n ≤ s.log.length ∧ ∀ i ∈ cur, i < n) :
    (cur ++ is).Pairwise (· < ·) ∧
      ∀ n ∈ q.reached, n ≤ s.log.length ∧ ∀ i ∈ cur ++ is, i < n := by
  have hread : ∀ n, (∀ i ∈ cur, i < s.readAt n) → (∀ m ∈ q.reached, m = s.log.length) →
      (cur ++ List.range' (s.readAt n) (s.log.length - s.readAt n)).Pairwise (· < ·) ∧
      ∀ m ∈ q.reached, m ≤ s.log.length ∧
        ∀ i ∈ cur ++ List.range' (s.readAt n) (s.log.length - s.readAt n), i < m := by
    intro n hlt hto
    have hle := readAt_le hs n
    refine ⟨List.pairwise_append.mpr ⟨hord, List.pairwise_lt_range', ?_⟩, ?_⟩
    · intro i hi j hj
      have := hlt i hi
      rw [List.mem_range'_1] at hj
      omega
    · intro m hm
      rw [hto m hm]
      refine ⟨Nat.le_refl _, ?_⟩
      intro i hi
      rw [List.mem_append, List.mem_range'_1] at hi
      rcases hi with hi | hi
      · have := hlt i hi
        omega
      · omega
  cases h with
  | nothing _ hto =>
      rw [List.append_nil]
      exact ⟨hord, fun n hn => hbehind n (hto n hn)⟩
  | first n hp _ hto => exact hread n (hfirst n hp) hto
  | more n hp _ hto =>
      obtain ⟨hin, hlt⟩ := hbehind n hp
      apply hread n _ hto
      intro i hi
      have hbelow := hlt i hi
      have hfrom := le_readAt_of_le hs (Nat.le_refl n) hin
      omega

/-- A streaming step appends what it reads to what the attachment has read. -/
theorem current_stream (t : Traced) (sys : Sys) (is : List Nat) :
    Traced.current { t with sys, wireAt := t.wireAt ++ t.pendingAt, pendingAt := is } =
      t.current ++ is := by
  simp [Traced.current]

/-- Rendering a frame moves its bytes and leaves what the attachment has read. -/
theorem current_data (t : Traced) (sys : Sys) (n : Nat) :
    Traced.current { t with sys, wireAt := t.wireAt.drop n, here := t.here ++ t.wireAt.take n } =
      t.current := by
  have hsplit := List.take_append_drop n t.wireAt
  simp only [Traced.current]
  rw [List.append_assoc, ← List.append_assoc (t.wireAt.take n), hsplit]

/-- What a streaming step reads comes after all that the attachment has read. -/
theorem Tracks.streamed {t : Traced} {task task' : Task} {wire : List ConsoleFrame} {sent : Bytes}
    {base : Nat} (ht : Tracks t) (htask : t.sys.task = some task)
    (hwire : wireData wire = wireData t.sys.wire ++ task.phase.pending)
    (hadv : Advances t.sys task.phase task'.phase base)
    (hbuf : Shows { t.sys with task := some task', wire, sent, base }) :
    Tracks { t with
      sys := { t.sys with task := some task', wire, sent, base }
      wireAt := t.wireAt ++ t.pendingAt
      pendingAt := lastAt t.sys.log task'.phase.pending.length } := by
  obtain ⟨hgets, hpicks, hsub⟩ := gets_of_advances ht.buffered hadv
  have hfirst : ∀ n, task.phase = .subscribing n → ∀ i ∈ t.current, i < t.sys.readAt n := by
    intro n hn
    rw [ht.fresh task htask n hn]
    simp
  obtain ⟨hord, hbehind⟩ := hgets.extend ht.buffered ht.ordered hfirst (ht.behind task htask)
  have hpend : Picks t.sys.log t.pendingAt task.phase.pending := by
    have hpend := ht.pending
    rw [Sys.pending, htask] at hpend
    exact hpend
  refine ⟨hbuf, ht.fits, ht.rendered, ?_, hpicks, ?_, ?_, ?_⟩
  · show Picks _ _ (wireData wire)
    rw [hwire]
    exact ht.wired.append hpend
  · rw [current_stream]
    exact hord
  · intro u hu n hn
    cases hu
    exact absurd hn (hsub n)
  · intro u hu
    cases hu
    rw [current_stream]
    exact hbehind

/-- Rendering a frame moves its bytes from the wire to what is rendered. -/
theorem Tracks.received {t : Traced} {frame : ConsoleFrame} {rest : List ConsoleFrame} {n : Nat}
    (ht : Tracks t) (hwire : t.sys.wire = frame :: rest) (hty : frame.ty = consoleData)
    (hbuf : Shows { t.sys with
      wire := rest
      renderedBytes := n
      rendered := t.sys.rendered ++ frame.payload }) :
    Tracks { t with
      sys := { t.sys with
        wire := rest
        renderedBytes := n
        rendered := t.sys.rendered ++ frame.payload }
      wireAt := t.wireAt.drop frame.payload.length
      here := t.here ++ t.wireAt.take frame.payload.length } := by
  have hsplit : wireData (frame :: rest) = frame.payload ++ wireData rest := by
    simp [wireData, hty]
  have hwired := ht.wired
  rw [hwire, hsplit] at hwired
  obtain ⟨hfirst, hrest⟩ := hwired.split
  refine ⟨hbuf, ht.fits, ?_, hrest, ht.pending, ?_, ?_, ?_⟩
  · show Picks _ (t.earlier ++ (t.here ++ _)) _
    rw [← List.append_assoc]
    exact ht.rendered.append hfirst
  · rw [current_data]
    exact ht.ordered
  · rw [current_data]
    exact ht.fresh
  · rw [current_data]
    exact ht.behind

/-- Every step keeps the offsets right, as long as the output fits into 64 bits. -/
theorem tracks_step (t : Traced) (a : Label) (t' : Traced) (ht : Tracks t) (hfit : Fits t.sys a)
    (h : t.step a = some t') : Tracks t' := by
  have hbuf : Shows t'.sys := by
    obtain ⟨sys, hsys, hval⟩ := Option.map_eq_some_iff.mp h
    have hshows := shows_step t.sys a sys ht.buffered hfit hsys
    subst hval
    cases a <;> exact hshows
  have heff := effect_of_step ht.buffered h
  cases heff with
  | same =>
      exact ⟨hbuf, ht.fits, ht.rendered, ht.wired, ht.pending, ht.ordered, ht.fresh, ht.behind⟩
  | push payload =>
      refine ⟨hbuf, hfit, ht.rendered.append_log payload, ht.wired.append_log payload,
        ht.pending.append_log payload, ht.ordered, ht.fresh, ?_⟩
      intro task htask n hn
      obtain ⟨hle, hlt⟩ := ht.behind task htask n hn
      refine ⟨?_, hlt⟩
      show n ≤ (t.sys.log ++ payload).length
      rw [List.length_append]
      omega
  | attach n =>
      refine ⟨hbuf, ht.fits, ?_, rfl, rfl, .nil, fun _ _ _ _ => rfl, ?_⟩
      · show Picks _ (t.earlier ++ t.here ++ []) _
        rw [List.append_nil]
        exact ht.rendered
      · intro task htask n hn
        cases htask
        cases hn
  | stream sent htask hwire hadv => exact ht.streamed htask hwire hadv hbuf
  | takeover htask =>
      refine ⟨hbuf, ht.fits, ht.rendered, ht.wired, ?_, ht.ordered, ?_, ?_⟩
      · have hpend := ht.pending
        rw [Sys.pending, htask] at hpend
        exact hpend
      · intro u hu n hn
        cases hu
        cases hn
      · intro u hu n hn
        cases hu
        cases hn
  | data hwire hty => exact ht.received hwire hty hbuf
  | @other frame rest client hwire hty =>
      have hskip : wireData (frame :: rest) = wireData rest := by simp [wireData, hty]
      have hwired := ht.wired
      rw [hwire, hskip] at hwired
      exact ⟨hbuf, ht.fits, ht.rendered, hwired, ht.pending, ht.ordered, ht.fresh, ht.behind⟩
  | lose =>
      refine ⟨hbuf, ht.fits, ht.rendered, rfl, rfl, ?_, by simp, by simp⟩
      have hsub : (t.here ++ ([] ++ [])).Sublist t.current :=
        List.Sublist.append (List.Sublist.refl _) (List.nil_sublist _)
      exact ht.ordered.sublist hsub

/-! ## At most once -/

/-- The client attaches with its own count, and the output fits into 64 bits. -/
def OwnCount (t : Traced) : Label → Prop
  | .attach n => n = t.sys.renderedBytes
  | a => Fits t.sys a

/-- The client has rendered exactly the first `n` bytes of the output. -/
def MissedNothing (t : Traced) (n : Nat) : Prop := t.renderedAt = List.range n

/-- Nothing the client has rendered is still in the buffer. -/
def NoneRetained (t : Traced) : Prop := ∀ i ∈ t.renderedAt, i < t.sys.output.state.retainedStart

/-- Whenever the buffer is read for an attachment, the client has missed nothing so far, or
    nothing it has rendered is still in the buffer. -/
def CleanRejoin (t : Traced) (a : Label) : Prop :=
  OwnCount t a ∧
    (a = .stream → ∀ task ∈ t.sys.task,
      match task.phase with
      | .subscribing n => MissedNothing t n ∨ NoneRetained t
      | _ => True)

instance (t : Traced) : (a : Label) → Decidable (OwnCount t a)
  | .attach n => inferInstanceAs (Decidable (n = t.sys.renderedBytes))
  | .push payload => inferInstanceAs (Decidable (Fits t.sys (.push payload)))
  | .notify | .recordExit _ | .pushExit | .dropSender | .stream | .takeover | .recv | .lose =>
      isTrue trivial

instance (t : Traced) (p : Phase) : Decidable
    (match p with
      | .subscribing n => MissedNothing t n ∨ NoneRetained t
      | _ => True) := by
  unfold MissedNothing NoneRetained
  split <;> infer_instance

instance (t : Traced) (a : Label) : Decidable (CleanRejoin t a) := by
  unfold CleanRejoin
  infer_instance

theorem fits_of_ownCount {t : Traced} {a : Label} (h : OwnCount t a) : Fits t.sys a := by
  cases a <;> first | exact h | exact trivial

/-- The offsets of all attachments together increase. -/
structure Once (t : Traced) : Prop where
  tracks : Tracks t
  ordered : (t.earlier ++ t.current).Pairwise (· < ·)
  behind : ∀ task ∈ t.sys.task, ∀ n ∈ task.phase.reached, ∀ i ∈ t.earlier, i < n

theorem once_init : Once Traced.init := ⟨tracks_init, .nil, by intros; contradiction⟩

/-- An attachment that starts cleanly reads nothing that has been rendered before. -/
theorem lt_readAt_of_clean {t : Traced} {n : Nat} (ht : Tracks t)
    (hclean : MissedNothing t n ∨ NoneRetained t) :
    ∀ i ∈ t.renderedAt, i < t.sys.readAt n := by
  intro i hi
  have hlo := le_readAt ht.buffered n
  rcases hclean with hall | hnone
  · -- the count lies inside the log, so the read starts there or later
    rw [hall, List.mem_range] at hi
    have hlast : n - 1 ∈ t.renderedAt := by
      rw [hall, List.mem_range]
      omega
    have hlen := ht.rendered.lt_length hlast
    have hfrom := le_readAt_of_le ht.buffered (Nat.le_refl n) (by omega)
    omega
  · have := hnone i hi
    omega

theorem once_step (t : Traced) (a : Label) (t' : Traced) (ht : Once t) (hok : CleanRejoin t a)
    (h : t.step a = some t') : Once t' := by
  obtain ⟨htracks, hord, hbehind⟩ := ht
  obtain ⟨hown, hclean⟩ := hok
  have htracks' := tracks_step t a t' htracks (fits_of_ownCount hown) h
  cases effect_of_step htracks.buffered h with
  | same => exact ⟨htracks', hord, hbehind⟩
  | push payload => exact ⟨htracks', hord, hbehind⟩
  | attach n =>
      refine ⟨htracks', ?_, ?_⟩
      · have hsub : (t.earlier ++ t.here ++ []).Sublist (t.earlier ++ t.current) := by
          rw [List.append_nil]
          exact (List.Sublist.refl _).append (List.sublist_append_left _ _)
        exact hord.sublist hsub
      · intro task htask n hn
        cases htask
        cases hn
  | @stream task task' wire sent base htask hwire hadv =>
      obtain ⟨hgets, -, -⟩ := gets_of_advances htracks.buffered hadv
      have hfirst : ∀ n, task.phase = .subscribing n →
          ∀ i ∈ t.earlier ++ t.current, i < t.sys.readAt n := by
        intro n hn
        have hstart := hclean rfl task htask
        have hnil := htracks.fresh task htask n hn
        rw [hn] at hstart
        have hhere : t.here = [] := (List.append_eq_nil_iff.mp hnil).1
        have hlt := lt_readAt_of_clean htracks hstart
        rw [Traced.renderedAt, hhere] at hlt
        rw [hnil]
        exact hlt
      have hbelow : ∀ n ∈ task.phase.reached, n ≤ t.sys.log.length ∧
          ∀ i ∈ t.earlier ++ t.current, i < n := by
        intro n hn
        obtain ⟨hin, hcur⟩ := htracks.behind task htask n hn
        refine ⟨hin, ?_⟩
        intro i hi
        rcases List.mem_append.mp hi with hi | hi
        · exact hbehind task htask n hn i hi
        · exact hcur i hi
      obtain ⟨hord', hbehind'⟩ := hgets.extend htracks.buffered hord hfirst hbelow
      refine ⟨htracks', ?_, ?_⟩
      · rw [current_stream, ← List.append_assoc]
        exact hord'
      · intro u hu n hn i hi
        cases hu
        exact (hbehind' n hn).2 i (List.mem_append_left _ (List.mem_append_left _ hi))
  | takeover htask =>
      refine ⟨htracks', hord, ?_⟩
      intro u hu n hn
      cases hu
      cases hn
  | data hwire hty =>
      refine ⟨htracks', ?_, hbehind⟩
      rw [current_data]
      exact hord
  | other client hwire hty => exact ⟨htracks', hord, hbehind⟩
  | lose =>
      refine ⟨htracks', ?_, by simp⟩
      have hsub : (t.earlier ++ (t.here ++ ([] ++ []))).Sublist (t.earlier ++ t.current) :=
        (List.Sublist.refl _).append ((List.Sublist.refl _).append (List.nil_sublist _))
      exact hord.sublist hsub

/-- In every run in which each attachment starts cleanly the client renders every offset at
    most once and in order, and the bytes it renders are the bytes of the output there. -/
theorem rendered_once (as : List Label) (t : Traced)
    (hrun : Run Traced.step CleanRejoin Traced.init as t) :
    t.renderedAt.Pairwise (· < ·) ∧ Picks t.sys.log t.renderedAt t.sys.rendered := by
  have ht := hrun.inv Once once_step once_init
  refine ⟨?_, ht.tracks.rendered⟩
  have hsub : t.renderedAt.Sublist (t.earlier ++ t.current) :=
    (List.Sublist.refl _).append (List.sublist_append_left _ _)
  exact ht.ordered.sublist hsub

theorem rendered_once_reconnectOnce :
    ∃ t, Run Traced.step CleanRejoin Traced.init reconnectOnce t ∧ t.renderedAt = [0, 1, 2] ∧
      t.renderedAt.Pairwise (· < ·) ∧ Picks t.sys.log t.renderedAt t.sys.rendered :=
  ⟨_, run_of_exec rfl, rfl, rendered_once reconnectOnce _ (run_of_exec rfl)⟩

/-! ## A byte rendered twice -/

/-- The client attaches with its count, renders the replay and loses the connection. -/
def visit (n : Nat) : List Label := [.attach n, .stream, .stream, .recv, .lose]

/-- A visit renders everything from the offset the read starts at. -/
theorem run_visit {t : Traced} {k : Nat} (hs : Shows t.sys)
    (hclient : t.sys.client = .disconnected) (hsender : t.sys.senderDropped = false)
    (hk : t.sys.readAt t.sys.renderedBytes = k) (hsome : k < t.sys.log.length) :
    ∃ t', Run Traced.step OwnCount t (visit t.sys.renderedBytes) t' ∧
      t'.sys = { t.sys with
        task := none
        wire := []
        renderedBytes := satAdd t.sys.renderedBytes (t.sys.log.length - k)
        rendered := t.sys.rendered ++ t.sys.log.drop k
        sent := t.sys.log.drop k
        base := k } ∧
      t'.earlier = t.renderedAt ∧ t'.here = List.range' k (t.sys.log.length - k) := by
  have hread := (subscribeFrom_clamp hs t.sys.renderedBytes).1
  change clamp t.sys.renderedBytes _ _ = k at hk
  rw [hk] at hread
  have hdata : (t.sys.log.drop k).isEmpty = false := by
    rw [List.isEmpty_eq_false_iff, ne_eq, List.drop_eq_nil_iff]
    omega
  have hlast : lastAt t.sys.log (t.sys.log.drop k).length =
      List.range' k (t.sys.log.length - k) := lastAt_drop (by omega)
  -- attached, replay read, replay sent, replay rendered
  let attached : Traced := ⟨{ t.sys with
    client := .connected
    task := some ⟨.subscribing t.sys.renderedBytes, t.sys.output.version⟩
    wire := []
    sent := []
    base := t.sys.renderedBytes }, [], [], [], t.earlier ++ t.here⟩
  let read : Traced := { attached with
    sys := { attached.sys with
      task := some ⟨.sendReplay (t.sys.log.drop k) t.sys.log.length, t.sys.output.version⟩
      base := k }
    pendingAt := List.range' k (t.sys.log.length - k) }
  let sent : Traced := { read with
    sys := { read.sys with
      task := some ⟨.firstCheck t.sys.log.length, t.sys.output.version⟩
      wire := [⟨consoleData, t.sys.log.drop k⟩]
      sent := t.sys.log.drop k }
    wireAt := List.range' k (t.sys.log.length - k)
    pendingAt := [] }
  let rendered : Traced := { sent with
    sys := { sent.sys with
      wire := []
      renderedBytes := satAdd t.sys.renderedBytes (t.sys.log.length - k)
      rendered := t.sys.rendered ++ t.sys.log.drop k }
    wireAt := []
    here := List.range' k (t.sys.log.length - k) }
  have h₁ : t.step (.attach t.sys.renderedBytes) = some attached := by
    simp [Traced.step, step, hclient, hsender, attached]
  have h₂ : attached.step .stream = some read := by
    simp only [Traced.step, step, attached, Option.bind_some, streamStep, hread, Option.map_some,
      hk, Sys.pending, Phase.pending, hlast]
    rfl
  have h₃ : read.step .stream = some sent := by
    simp [Traced.step, step, read, attached, sent, streamStep, sendConsoleBytes, hdata,
      Sys.pending, Phase.pending, lastAt]
  have h₄ : sent.step .recv = some rendered := by
    simp [Traced.step, step, read, attached, sent, rendered, handleFrame]
  refine ⟨{ rendered with sys := { rendered.sys with client := .disconnected, task := none } },
    .cons rfl h₁ (.cons trivial h₂ (.cons trivial h₃ (.cons trivial h₄
      (.cons trivial rfl (.nil _))))), ?_, rfl, rfl⟩
  rw [← hclient]

/-- A console that has had `n` zero bytes of output and no client yet. -/
def unattended (limit n : Nat) : Traced :=
  { Traced.init with
    sys := { init with
      output := ⟨limit, zeroBuffer limit n, n⟩
      log := List.replicate n 0 } }

theorem run_oneMore {limit n : Nat} (hl : 1 < limit) (hn : n + 1 ≤ u64Max) :
    Run Traced.step OwnCount (unattended limit n) [.push [0], .notify]
      (unattended limit (n + 1)) := by
  have hlog : List.replicate (n + 1) (0 : UInt8) = List.replicate n 0 ++ [0] :=
    List.replicate_succ'
  have hfit : (List.replicate n (0 : UInt8) ++ [0]).length ≤ u64Max := by
    rw [← hlog, List.length_replicate]
    exact hn
  have hend : unattended limit (n + 1) =
      { Traced.init with
        sys := { init with
          output := ⟨limit, (zeroBuffer limit n).push [0] limit, n + 1⟩
          log := List.replicate n 0 ++ [0] } } := by
    rw [push_zeroBuffer hl (by omega), ← hlog]
    rfl
  rw [hend]
  exact .cons hfit rfl (.cons trivial rfl (.nil _))

theorem run_unattended (n : Nat) (hn : n ≤ u64Max) :
    ∃ as, Run Traced.step OwnCount Traced.init as
      (unattended detachedOutputBufferLimitBytes n) := by
  induction n with
  | zero =>
      have hzero : zeroBuffer detachedOutputBufferLimitBytes 0 = .default := by
        rw [zeroBuffer, counter, Nat.zero_sub, Nat.zero_min, Nat.zero_min]
        rfl
      refine ⟨[], ?_⟩
      rw [unattended, hzero]
      exact .nil _
  | succ n ih =>
      obtain ⟨as, has⟩ := ih (by omega)
      exact ⟨as ++ [.push [0], .notify], has.append (run_oneMore (by decide) hn)⟩

/-- One byte is evicted before the client attaches for the first time. It renders the rest,
    loses the connection, and with its own count gets the last byte of the buffer again. -/
theorem offset_rendered_twice :
    ∃ as t, Run Traced.step OwnCount Traced.init as t ∧
      detachedOutputBufferLimitBytes ∈ t.earlier ∧ detachedOutputBufferLimitBytes ∈ t.here := by
  generalize hlimit : detachedOutputBufferLimitBytes = limit
  have hlarge : 1 < limit ∧ limit + 1 ≤ u64Max := by
    rw [← hlimit]
    decide
  have hshows : ∀ {as t}, Run Traced.step OwnCount Traced.init as t → Shows t.sys := by
    intro as t hrun
    have ht := hrun.inv Tracks
      (fun t a t' ht hok => tracks_step t a t' ht (fits_of_ownCount hok)) tracks_init
    exact ht.buffered
  obtain ⟨as, has⟩ := run_unattended (limit + 1) hlarge.2
  rw [hlimit] at has
  have hlen : (unattended limit (limit + 1)).sys.log.length = limit + 1 := List.length_replicate
  have hretained : (unattended limit (limit + 1)).sys.output.state.retainedStart = 1 :=
    Nat.add_sub_cancel_left limit 1
  have hstart : (unattended limit (limit + 1)).sys.readAt 0 = 1 := by
    rw [Sys.readAt, hretained]
    rfl
  -- the first visit gets everything but the byte that is gone
  obtain ⟨t₁, hrun₁, hsys, -, hhere⟩ :=
    run_visit (t := unattended limit (limit + 1)) (hshows has) rfl rfl hstart (by omega)
  rw [hlen, Nat.add_sub_cancel] at hsys hhere
  have hcount : t₁.sys.renderedBytes = limit := by
    rw [hsys]
    show satAdd 0 limit = limit
    rw [satAdd]
    omega
  -- its count is short by one, so the second visit starts one byte too early
  have hagain : t₁.sys.readAt t₁.sys.renderedBytes = limit := by
    rw [hcount]
    apply readAt_eq (hshows (has.append hrun₁))
    · rw [hsys]
      exact Nat.le_trans (Nat.le_of_eq hretained) (Nat.le_of_lt hlarge.1)
    · rw [hsys]
      exact Nat.le_trans (Nat.le_succ limit) (Nat.le_of_eq hlen.symm)
  have hlen₁ : t₁.sys.log.length = limit + 1 := by
    rw [hsys]
    exact hlen
  obtain ⟨t₂, hrun₂, -, hearlier, hhere₂⟩ :=
    run_visit (hshows (has.append hrun₁)) (by rw [hsys]; rfl) (by rw [hsys]; rfl) hagain
      (by omega)
  refine ⟨_, t₂, (has.append hrun₁).append hrun₂, ?_, ?_⟩
  · rw [hearlier, Traced.renderedAt, hhere]
    apply List.mem_append_right
    rw [List.mem_range'_1]
    omega
  · rw [hhere₂, List.mem_range'_1]
    omega

end FlyVault.Init.ConsoleStream
