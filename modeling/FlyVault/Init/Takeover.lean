/-
  The attachments of one exec session (`ExecSession::attach` and `ExecSession::detach`,
  `crates/init/src/forward.rs`).

  Both run under the lock of `ExecAttachmentState`, so a call is a step. A cancellation token has
  a number, given when it is made; only `attach` cancels one, that of the attachment it takes
  over from. `detach` may come late, several times and for any generation. The counter of the
  generations is a `u64`, which wraps as in a build without overflow checks. `detached` is a
  ghost: the generations that were detached while they were current.

  `exclusive_attachment`: for fewer than 2^64 attaches, the newest attachment is the only one that
  has neither been told to stop nor been detached. The sessions of `ExecSession` have the
  generations of this state, without the tokens (`Shows.attach`, `Shows.detach`).
-/
import FlyVault.Init.ExecSession
import FlyVault.Lib.Run

namespace FlyVault.Init.Takeover

open FlyVault.Lib

/-- `ExecAttachmentState`: the counter, and the current generation with its token. -/
structure AttachmentState where
  nextGeneration : Nat
  current : Option (Nat × Nat)
  deriving DecidableEq, Repr

/-- The part of `ExecSessionAttachment` that concerns the takeover. -/
structure Attachment where
  takeover : Nat
  generation : Nat
  deriving DecidableEq, Repr

structure Sys where
  state : AttachmentState
  /-- What `attach` has returned, oldest first. -/
  attachments : List Attachment
  /-- The tokens that are cancelled. -/
  cancelled : List Nat
  detached : List Nat
  deriving DecidableEq, Repr

def init : Sys := ⟨⟨0, none⟩, [], [], []⟩

/-- `ExecSession::attach`. -/
def attach (s : Sys) : Sys :=
  let cancelled := (s.state.current.map Prod.snd).toList ++ s.cancelled
  let generation := (s.state.nextGeneration + 1) % 2 ^ 64
  let takeover := s.attachments.length
  { s with
    state := ⟨generation, some (generation, takeover)⟩
    attachments := s.attachments ++ [⟨takeover, generation⟩]
    cancelled }

/-- `ExecSession::detach` under the lock. -/
def detach (s : Sys) (generation : Nat) : Sys :=
  if s.state.current.map Prod.fst = some generation then
    { s with
      state := { s.state with current := none }
      detached := generation :: s.detached }
  else s

inductive Label
  | attach
  | detach (generation : Nat)
  deriving DecidableEq, Repr

def Label.isAttach : Label → Bool
  | .attach => true
  | .detach _ => false

def step (s : Sys) : Label → Option Sys
  | .attach => some (attach s)
  | .detach generation => some (detach s generation)

/-! ## The invariant -/

/-- The first `n` attachments. -/
def numbered (n : Nat) : List Attachment := (List.range n).map fun i => ⟨i, i + 1⟩

theorem numbered_succ (n : Nat) : numbered (n + 1) = numbered n ++ [⟨n, n + 1⟩] := by
  rw [numbered, numbered, List.range_succ, List.map_append]
  rfl

theorem length_numbered (n : Nat) : (numbered n).length = n := by
  rw [numbered, List.length_map, List.length_range]

theorem mem_numbered {n : Nat} {a : Attachment} :
    a ∈ numbered n ↔ a.takeover < n ∧ a.generation = a.takeover + 1 := by
  unfold numbered
  rw [List.mem_map]
  constructor
  · intro h
    obtain ⟨i, hi, rfl⟩ := h
    exact ⟨List.mem_range.mp hi, rfl⟩
  · intro h
    obtain ⟨hlt, hgeneration⟩ := h
    refine ⟨a.takeover, List.mem_range.mpr hlt, ?_⟩
    rw [← hgeneration]

/-- After `n` attaches: only the newest attachment is current, and of the others each is told to
    stop or was detached. -/
structure Inv (s : Sys) (n : Nat) : Prop where
  attachments : s.attachments = numbered n
  next : s.state.nextGeneration = n
  current : (∃ m, n = m + 1 ∧ s.state.current = some (m + 1, m)) ∨
    s.state.current = none ∧ (0 < n → n ∈ s.detached)
  cancelled : ∀ token ∈ s.cancelled, token + 1 < n
  earlier : ∀ i, i + 1 < n → i ∈ s.cancelled ∨ i + 1 ∈ s.detached

theorem inv_init : Inv init 0 :=
  ⟨rfl, rfl, .inr ⟨rfl, fun h => absurd h (Nat.lt_irrefl 0)⟩, List.forall_mem_nil _,
    fun _ h => absurd h (Nat.not_lt_zero _)⟩

theorem Inv.attach {s : Sys} {n : Nat} (h : Inv s n) (hroom : n + 1 < 2 ^ 64) :
    Inv (attach s) (n + 1) := by
  have hgeneration : (s.state.nextGeneration + 1) % 2 ^ 64 = n + 1 := by
    rw [h.next, Nat.mod_eq_of_lt hroom]
  have htakeover : s.attachments.length = n := by rw [h.attachments, length_numbered]
  refine ⟨?_, hgeneration, .inl ⟨n, rfl, ?_⟩, ?_, ?_⟩
  · show s.attachments ++ [_] = numbered (n + 1)
    rw [hgeneration, htakeover, h.attachments, numbered_succ]
  · show some (_, s.attachments.length) = _
    rw [hgeneration, htakeover]
  · intro token htoken
    obtain hcurrent | hcancelled := List.mem_append.mp htoken
    · obtain ⟨m, rfl, hm⟩ | ⟨hnone, -⟩ := h.current
      · rw [hm] at hcurrent
        rw [List.mem_singleton.mp hcurrent]
        exact Nat.lt_succ_self _
      · rw [hnone] at hcurrent
        cases hcurrent
    · exact Nat.lt_succ_of_lt (h.cancelled token hcancelled)
  · intro i hi
    obtain hlt | heq := Nat.lt_or_eq_of_le (Nat.le_of_lt_succ hi)
    · exact (h.earlier i hlt).imp (List.mem_append_right _) id
    · -- the attachment that was the newest is current, or it was detached
      obtain ⟨m, hm, hcurrent⟩ | ⟨-, hdetached⟩ := h.current
      · refine .inl (List.mem_append_left _ ?_)
        rw [hcurrent, Nat.succ.inj (heq.trans hm)]
        exact List.mem_singleton.mpr rfl
      · rw [heq]
        exact .inr (hdetached (by omega))

/-- A detach of another generation than the current one. -/
theorem detach_of_ne {s : Sys} {generation : Nat}
    (h : s.state.current.map Prod.fst ≠ some generation) : detach s generation = s := if_neg h

theorem Inv.detach {s : Sys} {n : Nat} (h : Inv s n) (generation : Nat) :
    Inv (detach s generation) n := by
  by_cases hcurrent : s.state.current.map Prod.fst = some generation
  · rw [Takeover.detach, if_pos hcurrent]
    have hnewest : n = generation := by
      obtain ⟨m, rfl, hm⟩ | ⟨hnone, -⟩ := h.current
      · rw [hm] at hcurrent
        exact Option.some.inj hcurrent
      · rw [hnone] at hcurrent
        cases hcurrent
    refine ⟨h.attachments, h.next, .inr ⟨rfl, fun _ => ?_⟩, h.cancelled, fun i hi => ?_⟩
    · rw [hnewest]
      exact List.mem_cons_self
    · exact (h.earlier i hi).imp id (List.mem_cons_of_mem _)
  · rw [detach_of_ne hcurrent]
    exact h

/-- Along a run, as long as the counter has room. -/
theorem Inv.run {s t : Sys} {as : List Label} {n : Nat} (h : Inv s n)
    (hrun : Run step Any s as t) (hroom : n + as.countP Label.isAttach < 2 ^ 64) :
    ∃ m, Inv t m := by
  induction hrun generalizing n with
  | nil s => exact ⟨n, h⟩
  | @cons s s' t a as _ hstep _ ih =>
      cases a with
      | attach =>
          cases hstep
          have hcount : (Label.attach :: as).countP Label.isAttach =
              as.countP Label.isAttach + 1 := List.countP_cons_of_pos rfl
          rw [hcount] at hroom
          exact ih (h.attach (by omega)) (by omega)
      | detach generation =>
          cases hstep
          have hcount : (Label.detach generation :: as).countP Label.isAttach =
              as.countP Label.isAttach := List.countP_cons_of_neg (by simp [Label.isAttach])
          rw [hcount] at hroom
          exact ih (h.detach generation) hroom

/-! ## Exclusive attachment -/

/-- In every run with fewer than 2^64 attaches: generations increase strictly; every attachment but
    the newest has its token cancelled or was detached while it was current; the token of the
    newest is not cancelled; only the newest is ever current; and a detach of a generation that is
    not current leaves the current one alone. -/
theorem exclusive_attachment (as : List Label) (s : Sys) (hrun : Run step Any init as s)
    (hcount : as.countP Label.isAttach < 2 ^ 64) :
    (s.attachments.map Attachment.generation).Pairwise (· < ·) ∧
    (s.attachments = [] → s.state.current = none) ∧
    (∀ earlier newest, s.attachments = earlier ++ [newest] →
      (∀ a ∈ earlier, a.takeover ∈ s.cancelled ∨ a.generation ∈ s.detached) ∧
      newest.takeover ∉ s.cancelled ∧
      (s.state.current = none ∨ s.state.current = some (newest.generation, newest.takeover))) ∧
    ∀ generation, s.state.current.map Prod.fst ≠ some generation →
      (detach s generation).state.current = s.state.current := by
  obtain ⟨n, h⟩ := inv_init.run hrun (by rwa [Nat.zero_add])
  refine ⟨?_, ?_, ?_, ?_⟩
  · rw [h.attachments, numbered, List.map_map, List.pairwise_map]
    exact List.pairwise_lt_range.imp fun hlt => Nat.succ_lt_succ hlt
  · intro hnil
    obtain ⟨m, rfl, -⟩ | ⟨hnone, -⟩ := h.current
    · rw [h.attachments, numbered_succ] at hnil
      exact absurd hnil (by simp)
    · exact hnone
  · intro earlier newest hsplit
    cases n with
    | zero =>
        rw [h.attachments] at hsplit
        exact absurd hsplit (by simp [numbered])
    | succ m =>
        rw [h.attachments, numbered_succ] at hsplit
        obtain ⟨hearlier, hnewest⟩ := List.append_inj' hsplit rfl
        subst hearlier
        cases hnewest
        refine ⟨?_, ?_, ?_⟩
        · intro a ha
          obtain ⟨hlt, hgeneration⟩ := mem_numbered.mp ha
          rw [hgeneration]
          exact h.earlier a.takeover (Nat.succ_lt_succ hlt)
        · intro hcancelled
          exact Nat.lt_irrefl _ (h.cancelled m hcancelled)
        · obtain ⟨k, hk, hcurrent⟩ | ⟨hnone, -⟩ := h.current
          · cases hk
            exact .inr hcurrent
          · exact .inl hnone
  · intro generation hne
    rw [detach_of_ne hne]

/-- Three attachments, of which the second is detached in time and the first once more, late. -/
theorem exclusive_attachment_three :
    Run step Any init [.attach, .attach, .detach 2, .attach, .detach 1]
      ⟨⟨3, some (3, 2)⟩, [⟨0, 1⟩, ⟨1, 2⟩, ⟨2, 3⟩], [0], [2]⟩ ∧ 2 ∉ [0] := by
  have hrun : Run step Any init [.attach, .attach, .detach 2, .attach, .detach 1]
      ⟨⟨3, some (3, 2)⟩, [⟨0, 1⟩, ⟨1, 2⟩, ⟨2, 3⟩], [0], [2]⟩ :=
    run_of_exec (by decide)
  obtain ⟨-, -, h, -⟩ := exclusive_attachment _ _ hrun (by decide)
  exact ⟨hrun, (h [⟨0, 1⟩, ⟨1, 2⟩] ⟨2, 3⟩ rfl).2.1⟩

/-! ## The sessions of the manager -/

/-- The session has the generations of the state. -/
structure Shows (session : ExecSession.Session) (state : AttachmentState) : Prop where
  next : session.nextGeneration = state.nextGeneration
  current : session.current = state.current.map Prod.fst

theorem Shows.attach {session : ExecSession.Session} {s : Sys} (h : Shows session s.state)
    (hroom : s.state.nextGeneration + 1 < 2 ^ 64) :
    Shows session.attach.1 (attach s).state ∧
      (attach s).attachments = s.attachments ++ [⟨s.attachments.length, session.attach.2⟩] := by
  have hgeneration : (s.state.nextGeneration + 1) % 2 ^ 64 = session.nextGeneration + 1 := by
    rw [h.next, Nat.mod_eq_of_lt hroom]
  refine ⟨⟨hgeneration.symm, ?_⟩, ?_⟩
  · exact congrArg some hgeneration.symm
  · show s.attachments ++ [_] = _
    rw [hgeneration]
    rfl

theorem Shows.detach {session : ExecSession.Session} {s : Sys} (h : Shows session s.state)
    (generation now : Nat) :
    Shows (session.detach generation now).1 (detach s generation).state := by
  unfold ExecSession.Session.detach Takeover.detach
  rw [h.current]
  dsimp only
  split
  · exact ⟨h.next, rfl⟩
  · exact h

end FlyVault.Init.Takeover
