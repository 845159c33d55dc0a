/-
  When the manager drops a session.

  A session leaves the table in two ways: a handler's `detach` removes it once its exit code
  is set, and the reaper drops it 60 seconds after its exit time. Neither looks at whether a
  client is attached. `Undisturbed` states when that is harmless:
  * a session whose exit code is set is detached only by the generation that is attached, or
    when none is;
  * nobody attaches between a `detach`'s decision to remove a session and the removal;
  * a session the reaper drops had no attachment at its exit time or later.
  `attached_session_kept`: in every run of such steps, a session is dropped only when nobody is
  attached to it, and by the reaper only when that has been so for `completedSessionTtl`.
  `stale_detach_drops_attached` and `reaper_drops_attached` are runs without the conditions.
-/
import FlyVault.Init.ExecSession

namespace FlyVault.Init.ExecSession

open FlyVault.Lib FlyVault.Protocol

/-- The object a handler works with. -/
def Phase.obj : Phase → Option Nat
  | .found obj | .attached obj _ | .leaving obj _ | .removing obj => some obj
  | _ => none

/-- The generation under which a handler is attached to `obj`. -/
def Phase.holds : Phase → Nat → Nat → Prop
  | .attached obj generation, o, g | .leaving obj generation, o, g => obj = o ∧ generation = g
  | _, _, _ => False

/-! ## Objects -/

/-- Table and handlers name only objects that have been made. -/
structure Allocated (m : Manager) : Prop where
  table : ∀ sid o, m.sessions sid = some o → o < m.nextObj
  handlers : ∀ h hd, m.handlers h = some hd → ∀ o ∈ hd.phase.obj, o < m.nextObj

theorem allocated_new : Allocated .new :=
  ⟨fun _ _ hs => (by cases hs), fun _ _ hh => (by cases hh)⟩

theorem allocated_step (m : Manager) (a : Label) (m' : Manager) (hm : Allocated m)
    (h : step m a = some m') : Allocated m' := by
  obtain ⟨ht, hh⟩ := hm
  cases Step.of_step h with
  | accept request => exact ⟨ht, forall_update hh (by simp [Phase.obj])⟩
  | found hk hp hs =>
      refine ⟨ht, forall_update hh fun o ho => ?_⟩
      cases ho
      exact ht _ _ hs
  | refused error hk hp => exact ⟨ht, forall_update hh (by simp [Phase.obj])⟩
  | spawnFailed error hk hp hs => exact ⟨ht, forall_update hh (by simp [Phase.obj])⟩
  | spawned argv hk hp hs =>
      refine ⟨forall_update (fun sid o hs => ?_) (Nat.lt_succ_self _),
        forall_update (fun k hd hd' o ho => ?_) fun o ho => ?_⟩
      · exact Nat.lt_succ_of_lt (ht sid o hs)
      · exact Nat.lt_succ_of_lt (hh k hd hd' o ho)
      · cases ho
        exact Nat.lt_succ_self _
  | attach hk hp ho =>
      refine ⟨ht, forall_update hh fun o hobj => ?_⟩
      cases hobj
      exact hh _ _ hk _ (by rw [hp]; rfl)
  | finish hk hp ho hw =>
      refine ⟨ht, forall_update hh fun o hobj => ?_⟩
      cases hobj
      exact hh _ _ hk _ (by rw [hp]; rfl)
  | detach hk hp ho =>
      refine ⟨ht, forall_update hh fun o hobj => ?_⟩
      refine hh _ _ hk o ?_
      rw [hp]
      dsimp only at hobj
      split at hobj
      · exact hobj
      · cases hobj
  | remove hk hp ho hs =>
      exact ⟨fun sid o hs => ht sid o (update_none_iff.mp hs).2,
        forall_update hh (by simp [Phase.obj])⟩
  | removeOther hk hp => exact ⟨ht, forall_update hh (by simp [Phase.obj])⟩
  | exit ho hc => exact ⟨ht, hh⟩
  | stamp ho hc hs => exact ⟨ht, hh⟩
  | sweep => exact ⟨fun sid o hs => ht sid o (Option.filter_eq_some_iff.mp hs).1, hh⟩
  | tick nanos => exact ⟨ht, hh⟩

/-! ## Generations -/

/-- No attached handler has a generation above the newest of its session, the newest one is
    the current one, and no generation is held twice. -/
structure Generations (m : Manager) : Prop where
  newest : ∀ o session, m.objs o = some session → ∀ h hd, m.handlers h = some hd →
    ∀ g, hd.phase.holds o g →
      g ≤ session.nextGeneration ∧ (g = session.nextGeneration → session.current = some g)
  unique : ∀ h hd, m.handlers h = some hd → ∀ h' hd', m.handlers h' = some hd' →
    ∀ o g, hd.phase.holds o g → hd'.phase.holds o g → h = h'

theorem generations_new : Generations .new :=
  ⟨fun _ _ ho => (by cases ho), fun _ _ hh => (by cases hh)⟩

theorem obj_of_holds {p : Phase} {o g : Nat} (h : p.holds o g) : p.obj = some o := by
  cases p with
  | attached obj generation | leaving obj generation => rw [h.1.symm]; rfl
  | _ => cases h

/-- A handler may move to any phase in which it holds what it held before. -/
theorem generations_setPhase {m : Manager} (hm : Generations m) {h : Nat} {hd : Handler}
    {p : Phase} (hp : ∀ o g, p.holds o g → ∃ hd₀, m.handlers h = some hd₀ ∧ hd₀.phase.holds o g) :
    Generations (m.setPhase h hd p) := by
  obtain ⟨hn, hu⟩ := hm
  constructor
  · intro o session ho
    refine forall_update (hn o session ho) fun g hg => ?_
    obtain ⟨hd₀, hh₀, hold⟩ := hp o g hg
    exact hn o session ho h hd₀ hh₀ g hold
  · refine forall_update (fun k hk hkk => forall_update (hu k hk hkk) fun o g hold hg => ?_)
      (forall_update (fun k hk hkk o g hg hold => ?_) fun o g _ _ => rfl)
    · obtain ⟨hd₀, hh₀, hold₀⟩ := hp o g hg
      exact hu k hk hkk h hd₀ hh₀ o g hold hold₀
    · obtain ⟨hd₀, hh₀, hold₀⟩ := hp o g hg
      exact hu h hd₀ hh₀ k hk hkk o g hold₀ hold

/-- A session may change as long as its handlers still fit it. -/
theorem generations_setSession {m : Manager} (hm : Generations m) {o : Nat} {session : Session}
    (ho : ∀ h hd, m.handlers h = some hd → ∀ g, hd.phase.holds o g →
      g ≤ session.nextGeneration ∧ (g = session.nextGeneration → session.current = some g)) :
    Generations (m.setSession o session) :=
  ⟨forall_update hm.newest ho, hm.unique⟩

/-- An attach makes a generation that nobody holds and that supersedes the others. -/
theorem generations_attach {m : Manager} (hm : Generations m) {h : Nat} {hd : Handler}
    {o : Nat} {session : Session} (ho : m.objs o = some session) :
    Generations ((m.setSession o session.attach.1).setPhase h hd
      (.attached o session.attach.2)) := by
  have hold := hm.newest o session ho
  have hset : Generations (m.setSession o session.attach.1) := by
    refine generations_setSession hm fun k hk hkk g hg => ?_
    have hle := (hold k hk hkk g hg).1
    simp only [Session.attach]
    omega
  constructor
  · refine fun o' session' ho' => forall_update (hset.newest o' session' ho') fun g hg => ?_
    obtain ⟨rfl, rfl⟩ := hg
    rcases update_some_iff.mp ho' with ⟨-, rfl⟩ | ⟨hne, -⟩
    · exact ⟨Nat.le_refl _, fun _ => rfl⟩
    · exact absurd rfl hne
  · refine forall_update (fun k hk hkk => forall_update (hm.unique k hk hkk)
      fun o' g hg hnew => ?_) (forall_update (fun k hk hkk o' g hnew hg => ?_) fun _ _ _ _ => rfl)
    all_goals
      -- a generation held before is at most the old newest one
      obtain ⟨rfl, rfl⟩ := hnew
      have hle := (hold k hk hkk _ hg).1
      simp only [Session.attach] at hle
      omega

/-- A detach ends the current attachment only if it is its own. -/
theorem generations_detach {m : Manager} (hm : Generations m) {h : Nat} {hd : Handler}
    (hh : m.handlers h = some hd) {o g now : Nat} (hp : hd.phase = .leaving o g)
    {session : Session} (ho : m.objs o = some session) {p : Phase}
    (hpn : ∀ o g, ¬ p.holds o g) :
    Generations ((m.setSession o (session.detach g now).1).setPhase h hd p) := by
  have hleft : Generations (m.setPhase h hd p) :=
    generations_setPhase hm fun o g hg => absurd hg (hpn o g)
  refine generations_setSession hleft fun k hk hkk g' hg' => ?_
  have hnew := hleft.newest o session ho k hk hkk g' hg'
  unfold Session.detach
  split
  · next hcur =>
      refine ⟨hnew.1, fun heq => ?_⟩
      -- the other handler would hold the generation that is detaching
      have hgg : g = g' := Option.some.inj (hcur.symm.trans (hnew.2 heq))
      rcases update_some_iff.mp hkk with ⟨-, rfl⟩ | ⟨hne, hkk⟩
      · exact absurd hg' (hpn o g')
      · refine absurd (hm.unique k hk hkk h hd hh o g' hg' ?_) hne
        rw [hp]
        exact ⟨rfl, hgg⟩
  · exact hnew

theorem generations_step (m : Manager) (a : Label) (m' : Manager) (ha : Allocated m)
    (hm : Generations m) (h : step m a = some m') : Generations m' := by
  have hnone : ∀ h hd {p : Phase}, (∀ o g, ¬ p.holds o g) → Generations (m.setPhase h hd p) :=
    fun h hd p hp => generations_setPhase hm fun o g hg => absurd hg (hp o g)
  cases Step.of_step h with
  | accept request =>
      have hg := hnone m.nextHandler ⟨request, .requested, false⟩ (p := .requested) fun _ _ => id
      exact ⟨hg.newest, hg.unique⟩
  | found hk hp hs => exact hnone _ _ fun _ _ => id
  | refused error hk hp => exact hnone _ _ fun _ _ => id
  | @spawnFailed k hd error hk hp hs =>
      have hg := hnone k hd (p := .failed error) fun _ _ => id
      exact ⟨hg.newest, hg.unique⟩
  | @spawned k hd argv hk hp hs =>
      have hg := hnone k hd (p := .found m.nextObj) fun _ _ => id
      refine ⟨forall_update hg.newest fun j hj hjj g hold => ?_, hg.unique⟩
      -- nobody is attached to an object that is only being made
      rcases update_some_iff.mp hjj with ⟨-, rfl⟩ | ⟨-, hjj⟩
      · cases hold
      · exact absurd (ha.handlers j hj hjj _ (obj_of_holds hold)) (Nat.lt_irrefl _)
  | attach hk hp ho => exact generations_attach hm ho
  | finish hk hp ho hw =>
      refine generations_setPhase hm fun o g hg => ⟨_, hk, ?_⟩
      rw [hp]
      exact hg
  | detach hk hp ho =>
      refine generations_detach hm hk hp ho fun o g => ?_
      split <;> exact id
  | @remove k hd obj session hk hp ho hs =>
      have hg := hnone k hd (p := .done) fun _ _ => id
      exact ⟨hg.newest, hg.unique⟩
  | removeOther hk hp => exact hnone _ _ fun _ _ => id
  | exit ho hc => exact generations_setSession hm fun k hd hk => hm.newest _ _ ho k hd hk
  | stamp ho hc ht => exact generations_setSession hm fun k hd hk => hm.newest _ _ ho k hd hk
  | sweep => exact ⟨hm.newest, hm.unique⟩
  | tick nanos => exact ⟨hm.newest, hm.unique⟩

/-! ## Nobody is attached to what is dropped -/

/-- The conditions under which dropping sessions disturbs nobody. -/
def Undisturbed (m : Manager) : Label → Prop
  | .detach h => ∀ hd o g session, m.handlers h = some hd → hd.phase = .leaving o g →
      m.objs o = some session → session.exitCode.isSome = true →
        session.current = none ∨ session.current = some g
  | .attach h => ∀ hd o, m.handlers h = some hd → hd.phase = .found o →
      ∀ k hk, m.handlers k = some hk → hk.phase ≠ .removing o
  | .sweep => ∀ sid o session, m.sessions sid = some o → m.objs o = some session →
      m.expired o = true → session.attachedSinceExit = false
  | _ => True

/-- A session that has had no attachment since its exit time lost the last one before. -/
def Unattended (now : Nat) (session : Session) : Prop :=
  session.idleSince ≤ now ∧ ∀ t, session.exitedAt = some t →
    session.attachedSinceExit = false → session.current = none ∧ session.idleSince ≤ t

structure Quiet (m : Manager) : Prop where
  removing : ∀ o session, m.objs o = some session → ∀ h hd, m.handlers h = some hd →
    hd.phase = .removing o → session.current = none
  unattended : ∀ o session, m.objs o = some session → Unattended m.now session

theorem quiet_new : Quiet .new := ⟨fun _ _ ho => (by cases ho), fun _ _ ho => (by cases ho)⟩

/-- A handler that does not come to remove anything does not matter. -/
theorem quiet_setPhase {m : Manager} (hm : Quiet m) (h : Nat) (hd : Handler) {p : Phase}
    (hp : ∀ o, p ≠ .removing o) : Quiet (m.setPhase h hd p) :=
  ⟨fun o session ho => forall_update (hm.removing o session ho) fun hr => absurd hr (hp o),
    hm.unattended⟩

/-- A session may change its current attachment to none, or to anything while it is not
    being removed. -/
theorem quiet_setSession {m : Manager} (hm : Quiet m) {o : Nat} {session : Session}
    (hr : ∀ h hd, m.handlers h = some hd → hd.phase = .removing o → session.current = none)
    (hu : Unattended m.now session) : Quiet (m.setSession o session) :=
  ⟨forall_update hm.removing hr, forall_update hm.unattended hu⟩

theorem unattended_attach {now : Nat} {session : Session} (h : Unattended now session) :
    Unattended now session.attach.1 := by
  refine ⟨h.1, fun t ht hno => ?_⟩
  have ht' : session.exitedAt = some t := ht
  simp [Session.attach, ht'] at hno

theorem unattended_detach {now g : Nat} {session : Session} (h : Unattended now session) :
    Unattended now (session.detach g now).1 := by
  unfold Session.detach
  split
  · next hcur =>
      refine ⟨Nat.le_refl _, fun t ht hno => ?_⟩
      have hnone := (h.2 t ht hno).1
      rw [hcur] at hnone
      cases hnone
  · exact h

theorem unattended_stamp {now : Nat} {session : Session} (h : Unattended now session) :
    Unattended now { session with
      exitedAt := some now, attachedSinceExit := session.current.isSome } := by
  refine ⟨h.1, fun t ht hno => ?_⟩
  cases ht
  exact ⟨by simpa using hno, h.1⟩

theorem current_detach {session : Session} {g : Nat} (now : Nat)
    (h : session.current = none ∨ session.current = some g) :
    (session.detach g now).1.current = none := by
  unfold Session.detach
  split
  · rfl
  · next hne => exact h.resolve_right hne

theorem shouldRemove_detach (session : Session) (g now : Nat) :
    (session.detach g now).2 = session.exitCode.isSome := by
  unfold Session.detach
  split <;> rfl

theorem quiet_step (m : Manager) (a : Label) (m' : Manager) (hm : Quiet m)
    (hok : Undisturbed m a) (h : step m a = some m') : Quiet m' := by
  cases Step.of_step h with
  | accept request =>
      have hq := quiet_setPhase hm m.nextHandler ⟨request, .requested, false⟩
        (p := .requested) fun _ hr => by cases hr
      exact ⟨hq.removing, hq.unattended⟩
  | found hk hp hs => exact quiet_setPhase hm _ _ fun _ hr => by cases hr
  | refused error hk hp => exact quiet_setPhase hm _ _ fun _ hr => by cases hr
  | @spawnFailed k hd error hk hp hs =>
      have hq := quiet_setPhase hm k hd (p := .failed error) fun _ hr => by cases hr
      exact ⟨hq.removing, hq.unattended⟩
  | @spawned k hd argv hk hp hs =>
      have hq := quiet_setPhase hm k hd (p := .found m.nextObj) fun _ hr => by
        cases hr
      refine ⟨forall_update hq.removing fun _ _ _ _ => rfl, forall_update hq.unattended ?_⟩
      exact ⟨Nat.le_refl _, fun t ht => by cases ht⟩
  | attach hk hp ho =>
      refine quiet_setPhase (quiet_setSession hm (fun j hj hjj hr => ?_)
        (unattended_attach (hm.unattended _ _ ho))) _ _ fun _ hr => by cases hr
      exact absurd hr (hok _ _ hk hp j hj hjj)
  | finish hk hp ho hw => exact quiet_setPhase hm _ _ fun _ hr => by cases hr
  | @detach k hd obj g session hk hp ho =>
      have hset : Quiet (m.setSession obj (session.detach g m.now).1) :=
        quiet_setSession hm
          (fun j hj hjj hr => current_detach m.now (.inl (hm.removing _ _ ho j hj hjj hr)))
          (unattended_detach (hm.unattended _ _ ho))
      by_cases hrem : session.exitCode.isSome = true
      · -- this handler goes on to remove the session, so it must have been the last one
        have hnone := current_detach m.now (hok hd obj g session hk hp ho hrem)
        rw [if_pos (by rw [shouldRemove_detach]; exact hrem)]
        refine ⟨fun o s ho' => forall_update (hset.removing o s ho') fun hr => ?_,
          hset.unattended⟩
        cases hr
        rcases update_some_iff.mp ho' with ⟨-, rfl⟩ | ⟨hne, -⟩
        · exact hnone
        · exact absurd rfl hne
      · rw [if_neg (by rw [shouldRemove_detach]; exact hrem)]
        exact quiet_setPhase hset _ _ fun _ hr => by cases hr
  | @remove k hd obj session hk hp ho hs =>
      have hq := quiet_setPhase hm k hd (p := .done) fun _ hr => by cases hr
      exact ⟨hq.removing, hq.unattended⟩
  | removeOther hk hp => exact quiet_setPhase hm _ _ fun _ hr => by cases hr
  | exit ho hc =>
      have hu := hm.unattended _ _ ho
      exact quiet_setSession hm (fun j hj hjj => hm.removing _ _ ho j hj hjj) ⟨hu.1, hu.2⟩
  | stamp ho hc ht =>
      exact quiet_setSession hm (fun j hj hjj => hm.removing _ _ ho j hj hjj)
        (unattended_stamp (hm.unattended _ _ ho))
  | sweep => exact ⟨hm.removing, hm.unattended⟩
  | tick nanos =>
      refine ⟨hm.removing, fun o session ho => ?_⟩
      obtain ⟨hle, ht⟩ := hm.unattended o session ho
      exact ⟨Nat.le_add_right_of_le hle, ht⟩

/-- What holds in every state of an undisturbed run. -/
structure Inv (m : Manager) : Prop where
  allocated : Allocated m
  generations : Generations m
  quiet : Quiet m

theorem inv_step (m : Manager) (a : Label) (m' : Manager) (hm : Inv m) (hok : Undisturbed m a)
    (h : step m a = some m') : Inv m' where
  allocated := allocated_step m a m' hm.allocated h
  generations := generations_step m a m' hm.allocated hm.generations h
  quiet := quiet_step m a m' hm.quiet hok h

theorem expired_iff {m : Manager} {o : Nat} :
    m.expired o = true ↔ ∃ session t, m.objs o = some session ∧ session.exitedAt = some t ∧
      completedSessionTtl ≤ m.now - t := by
  unfold Manager.expired
  cases ho : m.objs o with
  | none => simp
  | some session =>
      cases ht : session.exitedAt with
      | none => simp [ht]
      | some t => simp [ht]

/-- In every run of undisturbed steps: a session that leaves the table has no current
    attachment, every handler still attached to it has been taken over, and if the reaper
    drops it, it has exited and has had no attachment for `completedSessionTtl`. -/
theorem attached_session_kept (as : List Label) (m m' : Manager) (a : Label)
    (hrun : Run step Undisturbed .new as m) (hok : Undisturbed m a) (h : step m a = some m')
    (sid : String) (o : Nat) (hin : m.sessions sid = some o) (hout : m'.sessions sid ≠ some o) :
    ∃ session, m.objs o = some session ∧ session.current = none ∧
      (∀ k hd g, m.handlers k = some hd → hd.phase.holds o g → g < session.nextGeneration) ∧
      (a = .sweep → ∃ t, session.exitedAt = some t ∧ t + completedSessionTtl ≤ m.now ∧
        session.idleSince + completedSessionTtl ≤ m.now) := by
  have hm : Inv m := hrun.inv Inv inv_step ⟨allocated_new, generations_new, quiet_new⟩
  -- an attached handler with the newest generation would be the current attachment
  have hold : ∀ session, m.objs o = some session → session.current = none →
      ∀ k hd g, m.handlers k = some hd → hd.phase.holds o g → g < session.nextGeneration := by
    intro session ho hnone k hd g hk hg
    obtain ⟨hle, hcur⟩ := hm.generations.newest o session ho k hd hk g hg
    refine Nat.lt_of_le_of_ne hle fun heq => ?_
    rw [hcur heq] at hnone
    cases hnone
  rcases dropped_cases h hin hout with ⟨k, hd, session, rfl, hk, hp, ho⟩ | ⟨rfl, hex⟩
  · have hnone := hm.quiet.removing o session ho k hd hk hp
    exact ⟨session, ho, hnone, hold session ho hnone, fun hs => by cases hs⟩
  · obtain ⟨session, t, ho, ht, hlt⟩ := expired_iff.mp hex
    obtain ⟨hnone, hidle⟩ := (hm.quiet.unattended o session ho).2 t ht
      (hok sid o session hin ho hex)
    have hpos : 0 < completedSessionTtl := by decide
    exact ⟨session, ho, hnone, hold session ho hnone, fun _ => ⟨t, ht, by omega, by omega⟩⟩

/-- One client, attached until its command has exited and the exit frame is written. -/
def oneClient : List Label :=
  [.accept request, .lookup 0 none, .attach 0, .exit 0 0, .stamp 0, .finish 0 true, .detach 0]

/-- The session of the only client goes with its `detach`. -/
theorem attached_session_kept_oneClient :
    ∃ m m' session, Run step Undisturbed .new oneClient m ∧ step m (.remove 0) = some m' ∧
      m.sessions "s" = some 0 ∧ m'.sessions "s" = none ∧ m.objs 0 = some session ∧
      session.current = none := by
  have hrun : ∃ m, Run step Undisturbed .new oneClient m ∧
      exec step Any .new oneClient = some m := by
    refine ⟨_, .cons trivial rfl (.cons trivial rfl (.cons ?_ rfl (.cons trivial rfl
      (.cons trivial rfl (.cons trivial rfl (.cons ?_ rfl (.nil _))))))), rfl⟩
    · -- the only handler is the one that attaches
      intro hd o hh hp k hk hkk
      rcases update_some_iff.mp hkk with ⟨-, rfl⟩ | ⟨hne, hkk⟩
      · intro hr; cases hr
      · rcases update_some_iff.mp hkk with ⟨rfl, -⟩ | ⟨-, hkk⟩
        · exact absurd rfl hne
        · cases hkk
    · intro hd o g session hh hp ho hc
      cases hh
      cases hp
      cases ho
      exact .inr rfl
  obtain ⟨m, hrun, hm⟩ := hrun
  cases hm
  obtain ⟨session, ho, hnone, -⟩ := attached_session_kept oneClient _ _ (.remove 0) hrun trivial
    rfl "s" 0 rfl (by decide)
  exact ⟨_, _, session, hrun, rfl, rfl, rfl, ho, hnone⟩

/-- Two clients; the second takes over, and then the command exits. -/
def takenOver : List Label :=
  [.accept request, .lookup 0 none, .attach 0, .accept request, .lookup 1 none, .attach 1,
    .exit 0 0, .stamp 0, .finish 0 false, .detach 0]

/-- The late `detach` of the first client drops the session under the second one. -/
theorem stale_detach_drops_attached :
    ∃ m m' session, Run step Any .new takenOver m ∧ step m (.remove 0) = some m' ∧
      m.sessions "s" = some 0 ∧ m'.sessions "s" = none ∧ m.objs 0 = some session ∧
      session.current = some 2 ∧ session.nextGeneration = 2 ∧
      m.handlers 1 = some ⟨request, .attached 0 2, false⟩ :=
  ⟨_, _, _, run_of_exec rfl, rfl, rfl, rfl, rfl, rfl, rfl, rfl⟩

/-- The command of a detached session exits, a client attaches 59 seconds later, and the next
    sweep drops the session under it. -/
theorem reaper_drops_attached :
    ∃ m m' session, Run step Any .new
        [.accept request, .lookup 0 none, .attach 0, .finish 0 false, .detach 0, .exit 0 0,
          .stamp 0, .tick (59 * 10 ^ 9), .accept request, .lookup 1 none, .attach 1,
          .tick (10 ^ 9)] m ∧
      step m .sweep = some m' ∧ m.sessions "s" = some 0 ∧ m'.sessions "s" = none ∧
      m.objs 0 = some session ∧ session.current = some 2 ∧ session.nextGeneration = 2 ∧
      m.handlers 1 = some ⟨request, .attached 0 2, false⟩ :=
  ⟨_, _, _, run_of_exec rfl, rfl, rfl, rfl, rfl, rfl, rfl, rfl⟩

end FlyVault.Init.ExecSession
