/-
  No wake-up of `stream_console_output` is lost (`crates/init/src/forward.rs`).

  The data, the exit code and the notification are three cells that each side touches in
  separate steps: a writer changes the buffer or the exit code and notifies afterwards, the
  reader marks the version seen and looks at the two cells afterwards. `Fresh` says for every
  point of the reader what it may have missed: what it has read up to is the end of the buffer,
  and the exit code is unset when it parks, unless an unseen notification or a writer between
  its two steps is still to come.

  What was evicted before the task read it is never sent, although nothing is left to wake for
  (`parked_beside_evicted`); everything else from the offset of the attachment on has been
  sent (`Delivered`), as long as the offsets fit into 64 bits.
-/
import FlyVault.Init.ConsoleStream

namespace FlyVault.Init.ConsoleStream

open FlyVault.Lib FlyVault.Protocol

/-- A writer is between its state update and its notification. -/
def WriterBetween (s : Sys) : Prop :=
  s.unnotified = true ∨ s.exitCode.isSome = true ∧ s.exitPushed = false

/-- The end of the last read, where the task is between a read and the next wake-up. -/
def Phase.readUpTo : Phase → Option Nat
  | .sendReplay _ n | .firstCheck n | .waiting n | .sendData _ n | .check n => some n
  | _ => none

/-! ## What a task may have missed -/

structure Fresh (s : Sys) (t : Task) : Prop where
  seen_le : t.seen ≤ s.output.version
  data : ∀ n ∈ t.phase.readUpTo, n = s.output.state.nextOffset ∨ t.seen < s.output.version ∨
    s.unnotified = true
  exit : ∀ n, t.phase = .waiting n → s.exitCode = none ∨ t.seen < s.output.version ∨
    s.exitPushed = false

structure FreshInv (s : Sys) : Prop where
  recorded : s.exitPushed = true → s.exitCode.isSome = true
  task : ∀ t, s.task = some t → Fresh s t

theorem freshInv_init : FreshInv init := ⟨by decide, by simp [init]⟩

/-- The task goes on to a phase in which it does not wait, and has read no further. -/
theorem Fresh.goto {s : Sys} {t : Task} (ht : Fresh s t) {q : Phase}
    (hread : ∀ n ∈ q.readUpTo, n = s.output.state.nextOffset ∨ n ∈ t.phase.readUpTo)
    (hwait : ∀ n, q = .waiting n → s.exitCode = none) : Fresh s { t with phase := q } := by
  refine ⟨ht.seen_le, fun n hn => ?_, fun n hn => .inl (hwait n hn)⟩
  rcases hread n hn with hend | hsame
  · exact .inl hend
  · exact ht.data n hsame

/-- After a look at the exit code the task waits only if there is none. -/
theorem Fresh.afterCheck {s : Sys} {t : Task} (ht : Fresh s t) {q : Phase}
    (hread : ∀ n ∈ q.readUpTo, n ∈ t.phase.readUpTo) :
    Fresh s { t with phase := afterCheck s.exitCode q } := by
  refine ht.goto (fun n hn => .inr ?_) (fun n hn => ?_)
  · cases hcode : s.exitCode with
    | none => rw [hcode] at hn; exact hread n hn
    | some code => rw [hcode] at hn; cases hn
  · cases hcode : s.exitCode with
    | none => rfl
    | some code => rw [hcode] at hn; cases hn

theorem fresh_streamStep {s s' : Sys} {t : Task} (ht : Fresh s t)
    (h : streamStep s t = some s') : ∃ t', s'.task = some t' ∧ Fresh s t' := by
  obtain ⟨phase, seen⟩ := t
  cases phase with
  | subscribing n | woken n =>
      cases h
      exact ⟨_, rfl, ht.goto (fun m hm => .inl (Option.some.inj hm).symm) (by simp)⟩
  | sendReplay data n | sendData data n =>
      cases h
      exact ⟨_, rfl, ht.goto (fun m hm => .inr hm) (by simp)⟩
  | firstCheck n | check n =>
      cases h
      exact ⟨_, rfl, ht.afterCheck (fun m hm => hm)⟩
  | lastCheck =>
      cases h
      exact ⟨_, rfl, ht.afterCheck (by intros; contradiction)⟩
  | closed n | sendLast data | writeExit code =>
      cases h
      exact ⟨_, rfl, ht.goto (by intros; contradiction) (by simp)⟩
  | waiting n =>
      simp only [streamStep] at h
      split at h
      · cases h
        exact ⟨_, rfl, Nat.le_refl _, by intros; contradiction, by simp⟩
      · split at h
        · cases h
          exact ⟨_, rfl, ht.goto (by intros; contradiction) (by simp)⟩
        · cases h
  | ended => cases h

/-- Whatever leaves the output and the exit code alone. -/
theorem Fresh.congr {s s' : Sys} {t : Task} (ht : Fresh s t) (houtput : s'.output = s.output)
    (hunnotified : s'.unnotified = s.unnotified) (hexit : s'.exitCode = s.exitCode)
    (hpushed : s'.exitPushed = s.exitPushed) : Fresh s' t := by
  refine ⟨?_, ?_, ?_⟩
  · rw [houtput]
    exact ht.seen_le
  · rw [houtput, hunnotified]
    exact ht.data
  · rw [houtput, hexit, hpushed]
    exact ht.exit

/-- A notification is unseen by every task. -/
theorem Fresh.notified {s s' : Sys} {t : Task} (ht : Fresh s t)
    (hversion : s'.output.version = s.output.version + 1) : Fresh s' t := by
  have hlt : t.seen < s'.output.version := by
    have := ht.seen_le
    omega
  exact ⟨Nat.le_of_lt hlt, fun _ _ => .inr (.inl hlt), fun _ _ => .inr (.inl hlt)⟩

theorem freshInv_step (s : Sys) (a : Label) (s' : Sys) (hs : FreshInv s) (_ : Any s a)
    (h : step s a = some s') : FreshInv s' := by
  cases a with
  | push payload =>
      simp only [step, Option.ite_none_left_eq_some, Option.some.injEq] at h
      obtain ⟨-, rfl⟩ := h
      refine ⟨hs.recorded, fun t ht => ?_⟩
      have hfresh := hs.task t ht
      exact ⟨hfresh.seen_le, fun _ _ => .inr (.inr rfl), hfresh.exit⟩
  | notify =>
      simp only [step, Option.ite_none_right_eq_some, Option.some.injEq] at h
      obtain ⟨-, rfl⟩ := h
      exact ⟨hs.recorded, fun t ht => (hs.task t ht).notified rfl⟩
  | recordExit code =>
      simp only [step, Option.ite_none_left_eq_some, Option.some.injEq] at h
      obtain ⟨hnone, rfl⟩ := h
      refine ⟨fun _ => rfl, fun t ht => ?_⟩
      have hfresh := hs.task t ht
      -- the notification of this exit code is still to come
      have hpushed : s.exitPushed = false := by
        by_contra hp
        exact hnone (hs.recorded (by simpa using hp))
      exact ⟨hfresh.seen_le, hfresh.data, fun _ _ => .inr (.inr hpushed)⟩
  | pushExit =>
      simp only [step, Option.ite_none_right_eq_some, Option.some.injEq] at h
      obtain ⟨hsome, rfl⟩ := h
      exact ⟨fun _ => hsome.1, fun t ht => (hs.task t ht).notified rfl⟩
  | dropSender =>
      simp only [step, Option.ite_none_left_eq_some, Option.some.injEq] at h
      obtain ⟨-, rfl⟩ := h
      exact ⟨hs.recorded, fun t ht => (hs.task t ht).congr rfl rfl rfl rfl⟩
  | attach renderedBytes =>
      simp only [step, Option.ite_none_right_eq_some, Option.some.injEq] at h
      obtain ⟨-, rfl⟩ := h
      refine ⟨hs.recorded, fun t ht => ?_⟩
      cases ht
      exact ⟨Nat.le_refl _, by intros; contradiction, by simp⟩
  | stream =>
      obtain ⟨t, ht, hstream⟩ := Option.bind_eq_some_iff.mp h
      obtain ⟨t', ht', hfresh⟩ := fresh_streamStep (hs.task t ht) hstream
      obtain ⟨task, wire, sent, base, rfl⟩ := streamStep_frame hstream
      refine ⟨hs.recorded, fun u hu => ?_⟩
      cases ht'.symm.trans hu
      exact hfresh.congr rfl rfl rfl rfl
  | takeover =>
      simp only [step] at h
      split at h
      · next n seen htask =>
          cases h
          refine ⟨hs.recorded, fun t ht => ?_⟩
          cases ht
          exact ⟨(hs.task _ htask).seen_le, by intros; contradiction, by simp⟩
      · cases h
  | recv =>
      obtain ⟨_, _, _, _, rfl⟩ := recv_frame h
      exact ⟨hs.recorded, fun t ht => (hs.task t ht).congr rfl rfl rfl rfl⟩
  | lose =>
      simp only [step, Option.ite_none_right_eq_some, Option.some.injEq] at h
      obtain ⟨-, rfl⟩ := h
      exact ⟨hs.recorded, by simp⟩

/-! ## What a task has sent -/

/-- What is sent and pending are bytes of the log at some offsets, and from the offset of the
    attachment up to the cursor no other offset is still retained. -/
def Delivered (s : Sys) (t : Task) : Prop :=
  ∃ is, Picks s.log is (s.sent ++ t.phase.pending) ∧
    ∀ n ∈ t.phase.cursor, ∀ k, s.base ≤ k → k < n →
      k ∈ is ∨ k < s.output.state.retainedStart

structure DeliveredInv (s : Sys) : Prop where
  shows : Shows s
  task : ∀ t, s.task = some t → Delivered s t

theorem deliveredInv_init : DeliveredInv init := ⟨shows_init, by simp [init]⟩

/-- Between the offset a read asks for and the one at which it starts everything is evicted. -/
theorem evicted_of_lt_readAt {s : Sys} {n k : Nat} (hk : n ≤ k) (hlt : k < s.readAt n) :
    k < s.output.state.retainedStart := by
  unfold Sys.readAt clamp at hlt
  split at hlt
  · exact hlt
  · split at hlt <;> omega

theorem delivered_streamStep {s s' : Sys} {t : Task} (hs : Shows s) (ht : Delivered s t)
    (h : streamStep s t = some s') : ∃ t', s'.task = some t' ∧ Delivered s' t' := by
  obtain ⟨t', ht', hsent, -, hadv⟩ := advances_streamStep hs h
  obtain ⟨is, hpicks, hreach⟩ := ht
  obtain ⟨task, wire, sent, base, rfl⟩ := streamStep_frame h
  dsimp only at ht' hsent hadv
  refine ⟨t', ht', ?_⟩
  unfold Delivered
  dsimp only
  rw [hsent]
  -- what was sent or pending before, and what the step has read
  have hread : ∀ m, Picks s.log (is ++ List.range' m (s.log.length - m))
      (s.sent ++ t.phase.pending ++ s.log.drop m) := fun m => hpicks.append (picks_drop s.log m)
  have hmem : ∀ {m k}, m ≤ k → k < s.log.length → k ∈ List.range' m (s.log.length - m) := by
    intro m k hmk hk
    rw [List.mem_range'_1]
    omega
  generalize t.phase = p at *
  generalize t'.phase = q at *
  cases hadv with
  | subscribe n =>
      refine ⟨_, hread (s.readAt n), fun m hm k hbase hk => .inl ?_⟩
      cases hm
      exact List.mem_append_right _ (hmem hbase hk)
  | wake n =>
      refine ⟨_, hread (s.readAt n), fun m hm k hbase hk => ?_⟩
      cases hm
      by_cases hkn : k < n
      · rcases hreach n rfl k hbase hkn with hin | hevicted
        · exact .inl (List.mem_append_left _ hin)
        · exact .inr hevicted
      · by_cases hstart : k < s.readAt n
        · exact .inr (evicted_of_lt_readAt (by omega) hstart)
        · exact .inl (List.mem_append_right _ (hmem (by omega) hk))
  | close n => exact ⟨_, hread (s.readAt n), by intros; contradiction⟩
  | move _ hpend hcur _ =>
      refine ⟨is, ?_, fun m hm => hreach m (hcur m hm)⟩
      rw [hpend, List.append_nil]
      exact hpicks

theorem retainedStart_store {s : Sys} (hs : Shows s) {payload : Bytes}
    (hfit : (s.log ++ payload).length ≤ u64Max) :
    s.output.state.retainedStart ≤ (s.output.store payload).state.retainedStart := by
  obtain ⟨w, hlog, hw⟩ := hs
  have hpush := BufferedConsoleState.push_refines hw payload s.output.limitBytes
    (by rw [hlog]; exact hfit)
  rw [hw.retainedStart]
  exact Nat.le_trans (Nat.le_max_left _ _) (Nat.le_of_eq hpush.retainedStart.symm)

/-- Whatever leaves the task, its bytes and the buffer alone. -/
theorem Delivered.congr {s s' : Sys} {t : Task} (ht : Delivered s t) (hlog : s'.log = s.log)
    (hsent : s'.sent = s.sent) (hbase : s'.base = s.base)
    (hstate : s'.output.state = s.output.state) : Delivered s' t := by
  unfold Delivered
  rw [hlog, hsent, hbase, hstate]
  exact ht

theorem deliveredInv_step (s : Sys) (a : Label) (s' : Sys) (hs : DeliveredInv s)
    (hfit : Fits s a) (h : step s a = some s') : DeliveredInv s' := by
  refine ⟨shows_step s a s' hs.shows hfit h, ?_⟩
  cases a with
  | push payload =>
      simp only [step, Option.ite_none_left_eq_some, Option.some.injEq] at h
      obtain ⟨-, rfl⟩ := h
      intro t ht
      obtain ⟨is, hpicks, hreach⟩ := hs.task t ht
      have hle := retainedStart_store hs.shows hfit
      refine ⟨is, hpicks.append_log payload, fun n hn k hbase hk => ?_⟩
      rcases hreach n hn k hbase hk with hin | hevicted
      · exact .inl hin
      · exact .inr (Nat.lt_of_lt_of_le hevicted hle)
  | attach renderedBytes =>
      simp only [step, Option.ite_none_right_eq_some, Option.some.injEq] at h
      obtain ⟨-, rfl⟩ := h
      intro t ht
      cases ht
      refine ⟨[], picks_nil _, fun n hn k hbase hk => ?_⟩
      cases hn
      exact absurd hk (Nat.not_lt.mpr hbase)
  | stream =>
      obtain ⟨t, ht, hstream⟩ := Option.bind_eq_some_iff.mp h
      obtain ⟨t', ht', hdelivered⟩ := delivered_streamStep hs.shows (hs.task t ht) hstream
      intro u hu
      cases ht'.symm.trans hu
      exact hdelivered
  | takeover =>
      simp only [step] at h
      split at h
      · next n seen htask =>
          cases h
          intro t ht
          cases ht
          obtain ⟨is, hpicks, -⟩ := hs.task _ htask
          exact ⟨is, hpicks, by intros; contradiction⟩
      · cases h
  | recv =>
      obtain ⟨_, _, _, _, rfl⟩ := recv_frame h
      exact fun t ht => (hs.task t ht).congr rfl rfl rfl rfl
  | lose =>
      simp only [step, Option.ite_none_right_eq_some, Option.some.injEq] at h
      obtain ⟨-, rfl⟩ := h
      simp
  | recordExit code | dropSender =>
      simp only [step, Option.ite_none_left_eq_some, Option.some.injEq] at h
      obtain ⟨-, rfl⟩ := h
      exact fun t ht => (hs.task t ht).congr rfl rfl rfl rfl
  | notify | pushExit =>
      simp only [step, Option.ite_none_right_eq_some, Option.some.injEq] at h
      obtain ⟨-, rfl⟩ := h
      exact fun t ht => (hs.task t ht).congr rfl rfl rfl rfl

/-! ## A parked task has nothing left to do -/

/-- A task parked in `changed()` with nothing unseen, and no writer between its update and its
    notification: the task has read up to the end of the buffer and no exit code is set; and
    while the output fits into 64 bits it has sent every byte from the offset of the attachment
    on, except those that were evicted. -/
theorem parked_up_to_date (as : List Label) (s : Sys) (n : Nat) (hrun : Run step Any init as s)
    (htask : s.task = some ⟨.waiting n, s.output.version⟩) (hwriter : ¬ WriterBetween s) :
    n = s.output.state.nextOffset ∧ s.exitCode = none ∧
      (Run step Fits init as s → ∃ is, Picks s.log is s.sent ∧
        ∀ k, s.base ≤ k → k < s.output.state.nextOffset →
          k ∈ is ∨ k < s.output.state.retainedStart) := by
  have hfresh := (hrun.inv FreshInv freshInv_step freshInv_init).task _ htask
  have hnotified : ¬ s.unnotified = true := fun h => hwriter (.inl h)
  have hend : n = s.output.state.nextOffset := by
    rcases hfresh.data n rfl with hend | hunseen | hbetween
    · exact hend
    · exact absurd hunseen (Nat.lt_irrefl _)
    · exact absurd hbetween hnotified
  have hexit : s.exitCode = none := by
    rcases hfresh.exit n rfl with hnone | hunseen | hbetween
    · exact hnone
    · exact absurd hunseen (Nat.lt_irrefl _)
    · cases hcode : s.exitCode with
      | none => rfl
      | some code => exact absurd (.inr ⟨by rw [hcode]; rfl, hbetween⟩) hwriter
  refine ⟨hend, hexit, fun hfits => ?_⟩
  obtain ⟨is, hpicks, hreach⟩ :=
    (hfits.inv DeliveredInv deliveredInv_step deliveredInv_init).task _ htask
  refine ⟨is, ?_, fun k hbase hk => hreach n rfl k hbase (hend ▸ hk)⟩
  rw [show s.sent = s.sent ++ [] from (List.append_nil _).symm]
  exact hpicks

/-- The task parks; then `payload` is pushed at once, and the task parks again. -/
def pushedAtOnce (payload : Bytes) : List Label :=
  [.attach 0, .stream, .stream, .stream, .push payload, .notify, .stream, .stream, .stream,
    .stream]

theorem replayFrom_zero (st : BufferedConsoleState) :
    st.replayFrom 0 = (st.buffer, st.nextOffset) := by
  have hskip : clamp 0 st.retainedStart st.nextOffset - st.retainedStart = 0 := by
    unfold clamp
    split
    · omega
    · split <;> omega
  simp [BufferedConsoleState.replayFrom, hskip]

/-- What the task has sent then is what the buffer has kept. -/
theorem run_pushedAtOnce (payload : Bytes) (hfit : payload.length ≤ u64Max) :
    ∃ s, Run step Fits init (pushedAtOnce payload) s ∧
      s.output.state =
        BufferedConsoleState.default.push payload detachedOutputBufferLimitBytes ∧
      s.task = some ⟨.waiting s.output.state.nextOffset, s.output.version⟩ ∧ ¬ WriterBetween s ∧
      s.base = 0 ∧ s.sent = s.output.state.buffer := by
  let out := (BufferedConsoleOutput.new detachedOutputBufferLimitBytes).pushData payload
  let woken : Sys := { init with
    output := out
    client := .connected
    task := some ⟨.woken 0, 1⟩
    log := payload }
  let read : Sys := { woken with
    task := some ⟨.sendData out.state.buffer out.state.nextOffset, 1⟩ }
  obtain ⟨wire, he⟩ := sendConsoleBytes_eq read out.state.buffer
  let sent : Sys := { read with
    wire
    sent := out.state.buffer
    task := some ⟨.check out.state.nextOffset, 1⟩ }
  have h₁ : Run step Fits init [.attach 0, .stream, .stream, .stream, .push payload, .notify,
      .stream] woken :=
    .cons trivial rfl (.cons trivial rfl (.cons trivial rfl (.cons trivial rfl
      (.cons hfit rfl (.cons trivial rfl (.cons trivial rfl (.nil _)))))))
  have h₂ : step woken .stream = some read := by
    have hread := replayFrom_zero out.state
    simp only [step, woken, Option.bind_some, streamStep, hread, read]
  have h₃ : step read .stream = some sent := by
    have hstep : step read .stream = some { sendConsoleBytes read out.state.buffer with
        task := some ⟨.check out.state.nextOffset, 1⟩ } := rfl
    rw [hstep, he]
    rfl
  refine ⟨{ sent with task := some ⟨.waiting out.state.nextOffset, 1⟩ },
    h₁.append (.cons trivial h₂ (.cons trivial h₃ (.cons trivial rfl (.nil _)))), rfl, rfl, ?_,
    rfl, rfl⟩
  rintro (hunnotified | ⟨hcode, -⟩)
  · cases hunnotified
  · cases hcode

theorem parked_up_to_date_oneByte :
    ∃ s, Run step Any init (pushedAtOnce [7]) s ∧ ¬ WriterBetween s ∧
      s.task = some ⟨.waiting 1, s.output.version⟩ ∧ s.exitCode = none := by
  obtain ⟨s, hrun, hstate, htask, hwriter, -, -⟩ :=
    run_pushedAtOnce [7] (by decide)
  have hany : Run step Any init (pushedAtOnce [7]) s := hrun.mono fun _ _ _ => trivial
  have h := parked_up_to_date _ s _ hany htask hwriter
  refine ⟨s, hany, hwriter, ?_, h.2.1⟩
  rw [htask, hstate]
  rfl

/-! ## Evicted bytes -/

/-- The first byte of a payload one byte larger than the buffer is never sent. -/
theorem parked_beside_evicted :
    ∃ as s, Run step Fits init as s ∧
      s.task = some ⟨.waiting s.output.state.nextOffset, s.output.version⟩ ∧ ¬ WriterBetween s ∧
      s.base = 0 ∧ s.sent.length < s.output.state.nextOffset := by
  -- the payload is kept opaque: a mebibyte of zeros is not to be evaluated
  obtain ⟨payload, hlen⟩ : ∃ p : Bytes, p.length = detachedOutputBufferLimitBytes + 1 :=
    ⟨List.replicate _ 0, List.length_replicate⟩
  have hfit : payload.length ≤ u64Max := by
    rw [hlen]
    decide
  obtain ⟨s, hrun, hstate, htask, hwriter, hbase, hsent⟩ := run_pushedAtOnce payload hfit
  refine ⟨_, s, hrun, htask, hwriter, hbase, ?_⟩
  rw [hsent, hstate]
  generalize detachedOutputBufferLimitBytes = limit at hlen
  have hnext : satAdd 0 payload.length = payload.length := by
    rw [satAdd, Nat.zero_add, Nat.min_eq_left hfit]
  unfold BufferedConsoleState.push
  dsimp only [BufferedConsoleState.default]
  rw [hnext]
  split
  · simp only [List.length_nil]
    omega
  · rw [if_pos (by omega)]
    simp only [List.length_drop]
    omega

end FlyVault.Init.ConsoleStream
