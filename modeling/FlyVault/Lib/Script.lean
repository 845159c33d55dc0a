/-
  Programs that talk to a service, and their traces.

  A `Script` makes calls of type `C` and goes on with the answers, `A c` for the call `c`. It
  may also panic, or go on for ever without an answer to wait for (`spin`). `Exec p t o` says
  that `p` makes the calls of the trace `t`, gets the answers in it and ends with `o`: a value,
  or `none` for a panic. Which answers are possible is not said here: a service is a relation
  on traces, such as `Served` for one with a state. A property of all traces of a program is
  proved by walking through its text, with `exec_bind`, and `Only`, which bounds the calls of a
  program, needs no trace at all. `noPanic` keeps the runs of a program that do not panic, and
  `embed` makes it a program of a service with more calls.

  A program that starts tasks and waits for all of them is a script too: its calls are those of
  the service and `join`, with the arguments of the tasks. `Flat` replaces each `join` in its
  trace by an interleaving of the traces of its tasks. The results come in any order, and a
  task that has panicked gives an error.
-/
import Mathlib.Data.List.Perm.Basic

namespace FlyVault.Lib

universe u

inductive Script (C : Type u) (A : C → Type u) (α : Type u)
  | done (a : α)
  | panic
  | spin
  | call (c : C) (k : A c → Script C A α)

/-- A call with its answer. -/
abbrev Event (C : Type u) (A : C → Type u) := (c : C) × A c

variable {C : Type u} {A : C → Type u} {α β γ : Type u}

namespace Script

protected def bind : Script C A α → (α → Script C A β) → Script C A β
  | done a, f => f a
  | panic, _ => panic
  | spin, _ => spin
  | call c k, f => call c fun r => (k r).bind f

instance : Monad (Script C A) where
  pure := done
  bind := Script.bind

/-- Make a call and return the answer. -/
def ask (c : C) : Script C A (A c) := call c done

/-- The program makes the calls of `t`, with these answers, and ends. -/
inductive Exec : Script C A α → List (Event C A) → Option α → Prop
  | done (a : α) : Exec (done a) [] (some a)
  | panic : Exec panic [] none
  | call {c : C} {k : A c → Script C A α} {r : A c} {t : List (Event C A)} {o : Option α}
      (h : Exec (k r) t o) : Exec (call c k) (⟨c, r⟩ :: t) o

variable {p : Script C A α} {f : α → Script C A β} {t : List (Event C A)}

@[simp] theorem exec_pure {a : α} {o : Option α} :
    Exec (pure a : Script C A α) t o ↔ t = [] ∧ o = some a := by
  constructor
  · intro h
    cases h
    exact ⟨rfl, rfl⟩
  · intro h
    obtain ⟨ht, ho⟩ := h
    subst ht ho
    exact .done a

@[simp] theorem exec_ask {c : C} {o : Option (A c)} :
    Exec (ask c : Script C A (A c)) t o ↔ ∃ r, t = [⟨c, r⟩] ∧ o = some r := by
  constructor
  · intro h
    cases h with
    | call h =>
        cases h
        exact ⟨_, rfl, rfl⟩
  · intro h
    obtain ⟨r, ht, ho⟩ := h
    subst ht ho
    exact .call (.done r)

theorem Exec.bind {t' : List (Event C A)} {a : α} {o : Option β} (hp : Exec p t (some a))
    (hf : Exec (f a) t' o) : Exec (p >>= f) (t ++ t') o := by
  generalize ho : some a = oa at hp
  induction hp with
  | done b =>
      cases ho
      exact hf
  | panic => cases ho
  | call _ ih => exact .call (ih ho)

theorem Exec.bind_panic (hp : Exec p t none) : Exec (p >>= f) t none := by
  generalize ho : none = oa at hp
  induction hp with
  | done b => cases ho
  | panic => exact .panic
  | call _ ih => exact .call (ih ho)

/-- A sequence has done both parts, or its first part has panicked. -/
theorem exec_bind {o : Option β} : Exec (p >>= f) t o ↔
    (∃ t₁ t₂ a, t = t₁ ++ t₂ ∧ Exec p t₁ (some a) ∧ Exec (f a) t₂ o) ∨
      Exec p t none ∧ o = none := by
  constructor
  · intro h
    induction p generalizing t with
    | done a => exact .inl ⟨[], t, a, rfl, .done a, h⟩
    | panic =>
        cases h
        exact .inr ⟨.panic, rfl⟩
    | spin => cases h
    | call c k ih =>
        cases h with
        | call h =>
            obtain ⟨t₁, t₂, a, ht, hp, hf⟩ | ⟨hp, ho⟩ := ih _ h
            · subst ht
              exact .inl ⟨_ :: t₁, t₂, a, rfl, .call hp, hf⟩
            · exact .inr ⟨.call hp, ho⟩
  · intro h
    obtain ⟨t₁, t₂, a, ht, hp, hf⟩ | ⟨hp, ho⟩ := h
    · subst ht
      exact hp.bind hf
    · subst ho
      exact hp.bind_panic

/-- A sequence that returns has done both parts. -/
theorem exec_bind_some {b : β} : Exec (p >>= f) t (some b) ↔
    ∃ t₁ t₂ a, t = t₁ ++ t₂ ∧ Exec p t₁ (some a) ∧ Exec (f a) t₂ (some b) := by
  rw [exec_bind]
  simp

/-- A sequence whose second part only returns. -/
theorem exec_bind_pure {h : α → β} {b : β} :
    Exec (p >>= fun a => pure (h a)) t (some b) ↔ ∃ a, Exec p t (some a) ∧ b = h a := by
  rw [exec_bind_some]
  constructor
  · intro hexec
    obtain ⟨t₁, t₂, a, rfl, hp, hpure⟩ := hexec
    obtain ⟨rfl, hb⟩ := exec_pure.mp hpure
    rw [List.append_nil]
    exact ⟨a, hp, Option.some.inj hb⟩
  · intro hexec
    obtain ⟨a, hp, rfl⟩ := hexec
    exact ⟨t, [], a, (List.append_nil t).symm, hp, .done _⟩

/-- A call, and what is done with its answer. -/
theorem exec_ask_bind {c : C} {k : A c → Script C A β} {o : Option β} :
    Exec (ask c >>= k) t o ↔ ∃ r t', t = ⟨c, r⟩ :: t' ∧ Exec (k r) t' o := by
  constructor
  · intro h
    cases h with
    | call h => exact ⟨_, _, rfl, h⟩
  · intro h
    obtain ⟨r, t', rfl, h⟩ := h
    exact .call h

@[simp] theorem exec_map {h : α → β} {o : Option β} :
    Exec (h <$> p) t o ↔ ∃ o', Exec p t o' ∧ o = o'.map h := by
  show Exec (p >>= fun a => pure (h a)) t o ↔ _
  rw [exec_bind]
  constructor
  · intro hexec
    obtain ⟨t₁, t₂, a, ht, hp, hpure⟩ | ⟨hp, ho⟩ := hexec
    · obtain ⟨hnil, ho⟩ := exec_pure.mp hpure
      rw [hnil, List.append_nil] at ht
      subst ht
      exact ⟨some a, hp, ho⟩
    · exact ⟨none, hp, ho⟩
  · intro h
    obtain ⟨o', hp, ho⟩ := h
    cases o' with
    | none => exact .inr ⟨hp, ho⟩
    | some a =>
        exact .inl ⟨t, [], a, (List.append_nil t).symm, hp, exec_pure.mpr ⟨rfl, ho⟩⟩

/-- Run a program against a service that answers the `n`-th call with `answer n`. -/
def play (answer : Nat → (c : C) → A c) :
    Nat → Script C A α → Option (List (Event C A) × Option α)
  | _, done a => some ([], some a)
  | _, panic => some ([], none)
  | _, spin => none
  | n, call c k =>
      (play answer (n + 1) (k (answer n c))).map fun (t, o) => (⟨c, answer n c⟩ :: t, o)

theorem exec_of_play {answer : Nat → (c : C) → A c} {n : Nat} {o : Option α}
    (h : play answer n p = some (t, o)) : Exec p t o := by
  induction p generalizing n t with
  | done a =>
      cases h
      exact .done a
  | panic =>
      cases h
      exact .panic
  | spin => cases h
  | call c k ih =>
      obtain ⟨⟨t', o'⟩, hplay, ht⟩ := Option.map_eq_some_iff.mp h
      cases ht
      exact .call (ih _ hplay)

/-- Whatever the answers, the program returns. -/
def Ends (p : Script C A α) : Prop :=
  ∀ (answer : Nat → (c : C) → A c) (n : Nat), ∃ t a, play answer n p = some (t, some a)

theorem ends_pure (a : α) : Ends (pure a : Script C A α) := fun _ _ => ⟨[], a, rfl⟩

theorem ends_call {c : C} {k : A c → Script C A α} (h : ∀ r, Ends (k r)) : Ends (call c k) := by
  intro answer n
  obtain ⟨t, a, hplay⟩ := h (answer n c) answer (n + 1)
  refine ⟨⟨c, answer n c⟩ :: t, a, ?_⟩
  rw [play, hplay]
  rfl

/-! ## Which calls a program makes -/

/-- With answers that `allows` permits, the program does not panic and makes only calls of `P`. -/
def Only (allows : Event C A → Prop) (P : C → Prop) : Script C A α → Prop
  | done _ => True
  | panic => False
  | spin => True
  | call c k => P c ∧ ∀ r, allows ⟨c, r⟩ → Only allows P (k r)

variable {allows : Event C A → Prop} {P : C → Prop}

@[simp] theorem only_pure {a : α} : Only allows P (pure a : Script C A α) := trivial

@[simp] theorem only_ask {c : C} : Only allows P (ask c : Script C A (A c)) ↔ P c :=
  ⟨And.left, fun h => ⟨h, fun _ _ => trivial⟩⟩

theorem Only.bind (hp : Only allows P p) (hf : ∀ a, Only allows P (f a)) :
    Only allows P (p >>= f) := by
  induction p with
  | done a => exact hf a
  | panic => exact hp
  | spin => trivial
  | call c k ih => exact ⟨hp.1, fun r hr => ih r (hp.2 r hr)⟩

theorem Only.map {h : α → β} (hp : Only allows P p) : Only allows P (h <$> p) :=
  hp.bind fun _ => trivial

theorem Only.sound {o : Option α} (h : Only allows P p) (hexec : Exec p t o)
    (hall : ∀ e ∈ t, allows e) : o ≠ none ∧ ∀ e ∈ t, P e.1 := by
  induction hexec with
  | done a => exact ⟨(by simp), (by simp)⟩
  | panic => exact h.elim
  | call _ ih =>
      obtain ⟨hhead, htail⟩ := List.forall_mem_cons.mp hall
      obtain ⟨ho, hrest⟩ := ih (h.2 _ hhead) htail
      exact ⟨ho, List.forall_mem_cons.mpr ⟨h.1, hrest⟩⟩

theorem Only.calls {o : Option α} (h : Only (fun _ => True) P p) (hexec : Exec p t o) :
    ∀ e ∈ t, P e.1 := (h.sound hexec fun _ _ => trivial).2

theorem Only.mono {Q : C → Prop} (hPQ : ∀ c, P c → Q c) (h : Only allows P p) :
    Only allows Q p := by
  induction p with
  | done a => trivial
  | panic => exact h
  | spin => trivial
  | call c k ih => exact ⟨hPQ c h.1, fun r hr => ih r (h.2 r hr)⟩

/-! ## Calls of another service -/

section

variable {C' : Type u} {A' : C' → Type u} {f : C → C'} {q : Script C (fun c => A' (f c)) α}
  {t' : List (Event C' A')}

/-- The program, with its calls as calls of a service that has more of them. -/
def embed (f : C → C') : Script C (fun c => A' (f c)) α → Script C' A' α
  | done a => done a
  | panic => panic
  | spin => spin
  | call c k => call (f c) fun r => (k r).embed f

/-- An event of the smaller service. -/
def embedEvent (f : C → C') (e : Event C fun c => A' (f c)) : Event C' A' := ⟨f e.1, e.2⟩

theorem exec_embed {o : Option α} :
    Exec (q.embed f) t' o ↔ ∃ t, t' = t.map (embedEvent f) ∧ Exec q t o := by
  constructor
  · intro h
    induction q generalizing t' with
    | done a =>
        cases h
        exact ⟨[], rfl, .done a⟩
    | panic =>
        cases h
        exact ⟨[], rfl, .panic⟩
    | spin => cases h
    | call c k ih =>
        cases h with
        | @call _ _ r _ _ h =>
            obtain ⟨t, rfl, hexec⟩ := ih r h
            exact ⟨⟨c, r⟩ :: t, rfl, .call hexec⟩
  · intro h
    obtain ⟨t, rfl, hexec⟩ := h
    induction hexec with
    | done a => exact .done a
    | panic => exact .panic
    | call _ ih => exact .call ih

theorem Only.embed {allows' : Event C' A' → Prop} {P' : C' → Prop}
    (h : Only (fun e => allows' (embedEvent f e)) (fun c => P' (f c)) q) :
    Only allows' P' (q.embed f) := by
  induction q with
  | done a => trivial
  | panic => exact h
  | spin => trivial
  | call c k ih => exact ⟨h.1, fun r hr => ih r (h.2 r hr)⟩

end

/-! ## A service with a state -/

section

variable {σ : Type*} {answers : σ → Event C A → σ → Prop} {s s' : σ}

/-- The service gives the answers of a trace, going from one state to another. -/
inductive Served (answers : σ → Event C A → σ → Prop) : σ → List (Event C A) → σ → Prop
  | nil (s : σ) : Served answers s [] s
  | cons {s mid s' : σ} {e : Event C A} {t : List (Event C A)} (h : answers s e mid)
      (hrest : Served answers mid t s') : Served answers s (e :: t) s'

theorem Served.split {t₁ t₂ : List (Event C A)} (h : Served answers s (t₁ ++ t₂) s') :
    ∃ mid, Served answers s t₁ mid ∧ Served answers mid t₂ s' := by
  induction t₁ generalizing s with
  | nil => exact ⟨s, .nil s, h⟩
  | cons e t₁ ih =>
      cases h with
      | cons h hrest =>
          obtain ⟨mid, h₁, h₂⟩ := ih hrest
          exact ⟨mid, .cons h h₁, h₂⟩

/-- Calls that leave every state as it is: the answers are those of one state. -/
theorem Served.steady (hsteady : ∀ e ∈ t, ∀ s s', answers s e s' → s' = s)
    (h : Served answers s t s') : s' = s ∧ ∀ e ∈ t, answers s e s := by
  induction h with
  | nil s => exact ⟨rfl, List.forall_mem_nil _⟩
  | cons h _ ih =>
      obtain ⟨hhead, htail⟩ := List.forall_mem_cons.mp hsteady
      obtain rfl := hhead _ _ h
      obtain ⟨hsame, hall⟩ := ih htail
      exact ⟨hsame, List.forall_mem_cons.mpr ⟨h, hall⟩⟩

end

/-! ## Runs without a panic -/

/-- The program, going on for ever where it would panic. -/
def noPanic : Script C A α → Script C A α
  | done a => done a
  | panic => spin
  | spin => spin
  | call c k => call c fun r => (k r).noPanic

/-- Its runs are the runs of the program that do not panic. -/
theorem exec_noPanic {o : Option α} : Exec p.noPanic t o ↔ Exec p t o ∧ o ≠ none := by
  constructor
  · intro h
    induction p generalizing t with
    | done a =>
        cases h
        exact ⟨.done a, (by simp)⟩
    | panic => cases h
    | spin => cases h
    | call c k ih =>
        cases h with
        | call h => exact ⟨.call (ih _ h).1, (ih _ h).2⟩
  · intro h
    obtain ⟨hexec, hsome⟩ := h
    induction hexec with
    | done a => exact .done a
    | panic => exact absurd rfl hsome
    | call _ ih => exact .call (ih hsome)

theorem noPanic_bind : (p >>= f).noPanic = p.noPanic >>= fun a => (f a).noPanic := by
  induction p with
  | done a => rfl
  | panic => rfl
  | spin => rfl
  | call c k ih => exact congrArg (call c) (funext ih)

theorem Only.noPanic (h : Only allows P p) : Only allows P p.noPanic := by
  induction p with
  | done a => trivial
  | panic => trivial
  | spin => trivial
  | call c k ih => exact ⟨h.1, fun r hr => ih r (h.2 r hr)⟩

theorem Only.noPanic_bind (hp : Only allows P p.noPanic)
    (hf : ∀ a, Only allows P (f a).noPanic) : Only allows P (p >>= f).noPanic := by
  rw [Script.noPanic_bind]
  exact hp.bind hf

/-- The calls of a program that may panic, up to where it does. -/
theorem Only.noPanic_sound {o : Option α} (h : Only allows P p.noPanic) (hexec : Exec p t o)
    (hall : ∀ e ∈ t, allows e) : ∀ e ∈ t, P e.1 := by
  induction hexec with
  | done a => exact List.forall_mem_nil _
  | panic => exact List.forall_mem_nil _
  | call _ ih =>
      obtain ⟨hhead, htail⟩ := List.forall_mem_cons.mp hall
      exact List.forall_mem_cons.mpr ⟨h.1, ih (h.2 _ hhead) htail⟩

/-! ## Programs that may fail -/

variable {ε : Type u} {x : ExceptT ε (Script C A) α} {g : α → ExceptT ε (Script C A) β}

/-- A sequence has done both parts, or its first part has failed or panicked. -/
theorem exec_run_bind {o : Option (Except ε β)} : Exec (x >>= g).run t o ↔
    (∃ t₁ t₂ a, t = t₁ ++ t₂ ∧ Exec x.run t₁ (some (.ok a)) ∧ Exec (g a).run t₂ o) ∨
      (∃ e, Exec x.run t (some (.error e)) ∧ o = some (.error e)) ∨
      Exec x.run t none ∧ o = none := by
  rw [ExceptT.run_bind, exec_bind]
  constructor
  · intro h
    obtain ⟨t₁, t₂, a, ht, hx, hg⟩ | h := h
    · cases a with
      | ok a => exact .inl ⟨t₁, t₂, a, ht, hx, hg⟩
      | error e =>
          obtain ⟨hnil, ho⟩ := exec_pure.mp hg
          rw [hnil, List.append_nil] at ht
          subst ht
          exact .inr (.inl ⟨e, hx, ho⟩)
    · exact .inr (.inr h)
  · intro h
    obtain ⟨t₁, t₂, a, ht, hx, hg⟩ | ⟨e, hx, ho⟩ | h := h
    · exact .inl ⟨t₁, t₂, .ok a, ht, hx, hg⟩
    · exact .inl ⟨t, [], .error e, (List.append_nil t).symm, hx, exec_pure.mpr ⟨rfl, ho⟩⟩
    · exact .inr h

theorem Only.run_bind (hx : Only allows P x.run) (hg : ∀ a, Only allows P (g a).run) :
    Only allows P (x >>= g).run := by
  rw [ExceptT.run_bind]
  refine hx.bind ?_
  intro r
  cases r with
  | ok a => exact hg a
  | error e => trivial

theorem Only.noPanic_run_bind (hx : Only allows P x.run.noPanic)
    (hg : ∀ a, Only allows P (g a).run.noPanic) : Only allows P (x >>= g).run.noPanic := by
  rw [ExceptT.run_bind]
  refine hx.noPanic_bind ?_
  intro r
  cases r with
  | ok a => exact hg a
  | error e => trivial

/-- What is known of a sequence whose first part is bounded. -/
theorem Only.exec_run_bind (hx : Only allows P x.run) (hall : ∀ e ∈ t, allows e)
    {o : Option (Except ε β)} (h : Exec (x >>= g).run t o) :
    (∃ t₁ t₂ a, t = t₁ ++ t₂ ∧ (∀ e ∈ t₁, P e.1) ∧ Exec x.run t₁ (some (.ok a)) ∧
      Exec (g a).run t₂ o) ∨ (∃ e, o = some (.error e)) ∧ ∀ e ∈ t, P e.1 := by
  obtain ⟨t₁, t₂, a, ht, h₁, h₂⟩ | ⟨e, h, ho⟩ | ⟨h, ho⟩ := Script.exec_run_bind.mp h
  · subst ht
    have hall := (List.forall_mem_append.mp hall).1
    exact .inl ⟨t₁, t₂, a, rfl, (hx.sound h₁ hall).2, h₁, h₂⟩
  · exact .inr ⟨⟨e, ho⟩, (hx.sound h hall).2⟩
  · exact absurd rfl (hx.sound h hall).1

theorem Only.run_lift (hp : Only allows P p) :
    Only allows P (liftM p : ExceptT ε (Script C A) α).run := hp.map

/-- A call at the start of a program: what follows may use that the answer is permitted. -/
theorem Only.run_ask_bind {c : C} {k : A c → ExceptT ε (Script C A) β} (hc : P c)
    (hk : ∀ r, allows ⟨c, r⟩ → Only allows P (k r).run) :
    Only allows P ((liftM (ask c : Script C A (A c)) : ExceptT ε (Script C A) (A c)) >>= k).run :=
  ⟨hc, hk⟩

/-! ## Starting tasks -/

variable {J : Type u}

/-- The answers to the calls of a program that starts tasks. -/
def ForkAnswer (A : C → Type u) (J β : Type u) : C ⊕ List γ → Type u
  | .inl c => A c
  | .inr _ => List (Except J β)

/-- A program whose tasks take a `γ` and return a `β`. -/
abbrev Fork (C : Type u) (A : C → Type u) (J γ β : Type u) :=
  Script (C ⊕ List γ) (ForkAnswer A J β)

/-- Start a task for each argument and wait for all of them. -/
def join (args : List γ) : Fork C A J γ β (List (Except J β)) :=
  call (.inr args) done

/-- A program without tasks, as part of one with them. -/
def lift : Script C A α → Fork C A J γ β α
  | done a => done a
  | panic => panic
  | spin => spin
  | call c k => call (.inl c) fun r => (k r).lift

/-- `t` is made of the lists of `ts`, each in its order. -/
inductive Interleaves {τ : Type u} : List (List τ) → List τ → Prop
  | nil {ts : List (List τ)} (h : ∀ t ∈ ts, t = []) : Interleaves ts []
  | cons {before after : List (List τ)} {rest t : List τ} {e : τ}
      (h : Interleaves (before ++ rest :: after) t) :
      Interleaves (before ++ (e :: rest) :: after) (e :: t)

/-- One task alone. -/
theorem interleaves_singleton {τ : Type u} (t : List τ) : Interleaves [t] t := by
  induction t with
  | nil => exact .nil (List.forall_mem_singleton.mpr rfl)
  | cons e t ih =>
      show Interleaves ([] ++ (e :: t) :: []) (e :: t)
      exact .cons ih

theorem Interleaves.cons_nil {τ : Type u} {ts : List (List τ)} {t : List τ}
    (h : Interleaves ts t) : Interleaves ([] :: ts) t := by
  induction h with
  | nil hnil => exact .nil (List.forall_mem_cons.mpr ⟨rfl, hnil⟩)
  | @cons before after rest t e _ ih =>
      show Interleaves (([] :: before) ++ (e :: rest) :: after) (e :: t)
      exact .cons ih

/-- One task after the other. -/
theorem interleaves_flatten {τ : Type u} (ts : List (List τ)) : Interleaves ts ts.flatten := by
  induction ts with
  | nil => exact .nil (List.forall_mem_nil _)
  | cons t ts ih =>
      induction t with
      | nil => exact ih.cons_nil
      | cons e t iht =>
          show Interleaves ([] ++ (e :: t) :: ts) (e :: (t ++ ts.flatten))
          exact .cons iht

theorem Interleaves.mem_iff {τ : Type u} {ts : List (List τ)} {t : List τ}
    (h : Interleaves ts t) {e : τ} : e ∈ t ↔ ∃ t' ∈ ts, e ∈ t' := by
  induction h with
  | nil hnil =>
      constructor
      · simp
      · intro h
        obtain ⟨t', ht', he⟩ := h
        rw [hnil t' ht'] at he
        exact he
  | @cons before after rest t head _ ih =>
      simp only [List.mem_append, List.mem_cons] at ih ⊢
      rw [ih]
      constructor
      · intro he
        obtain rfl | ⟨t', hbefore | rfl | hafter, he⟩ := he
        · exact ⟨e :: rest, .inr (.inl rfl), List.mem_cons_self⟩
        · exact ⟨t', .inl hbefore, he⟩
        · exact ⟨head :: t', .inr (.inl rfl), List.mem_cons_of_mem head he⟩
        · exact ⟨t', .inr (.inr hafter), he⟩
      · intro h
        obtain ⟨t', ht', he⟩ := h
        obtain hbefore | rfl | hafter := ht'
        · exact .inr ⟨t', .inl hbefore, he⟩
        · obtain rfl | he := List.mem_cons.mp he
          · exact .inl rfl
          · exact .inr ⟨rest, .inr (.inl rfl), he⟩
        · exact .inr ⟨t', .inr (.inr hafter), he⟩

/-- The tasks for `args` do `runs`, which is `t` together, and waiting for them returns
    `results`. -/
structure Joined (task : γ → Script C A β) (args : List γ)
    (runs : List (List (Event C A) × Option β)) (t : List (Event C A))
    (results : List (Except J β)) : Prop where
  execs : List.Forall₂ (fun arg run => Exec (task arg) run.1 run.2) args runs
  interleaves : Interleaves (runs.map Prod.fst) t
  perm : (results.map Except.toOption).Perm (runs.map Prod.snd)

section

variable {task : γ → Script C A β} {args : List γ} {runs : List (List (Event C A) × Option β)}
  {t : List (Event C A)} {results : List (Except J β)}

/-- The calls made together are the calls of the tasks. -/
theorem Joined.mem_iff (h : Joined task args runs t results) {e : Event C A} :
    e ∈ t ↔ ∃ run ∈ runs, e ∈ run.1 := by
  rw [h.interleaves.mem_iff]
  simp

/-- Each run is that of a task. -/
theorem Joined.exec (h : Joined task args runs t results) {run : List (Event C A) × Option β}
    (hrun : run ∈ runs) : ∃ arg ∈ args, Exec (task arg) run.1 run.2 := by
  obtain ⟨execs, -, -⟩ := h
  induction execs with
  | nil => cases hrun
  | @cons arg run' args runs hexec _ ih =>
      obtain rfl | hrun := List.mem_cons.mp hrun
      · exact ⟨arg, List.mem_cons_self, hexec⟩
      · obtain ⟨arg', harg', hexec'⟩ := ih hrun
        exact ⟨arg', List.mem_cons_of_mem arg harg', hexec'⟩

theorem Joined.of_noPanic (h : Joined (fun arg => (task arg).noPanic) args runs t results) :
    Joined task args runs t results ∧ ∀ run ∈ runs, run.2 ≠ none := by
  refine ⟨⟨h.execs.imp fun _ _ hexec => (exec_noPanic.mp hexec).1, h.interleaves, h.perm⟩, ?_⟩
  intro run hrun
  obtain ⟨arg, -, hexec⟩ := h.exec hrun
  exact (exec_noPanic.mp hexec).2

/-- The values that come back are those of the tasks that have returned one. -/
theorem Joined.ok_mem_iff (h : Joined task args runs t results) {b : β} :
    .ok b ∈ results ↔ ∃ run ∈ runs, run.2 = some b := by
  have hruns : some b ∈ runs.map Prod.snd ↔ ∃ run ∈ runs, run.2 = some b := List.mem_map
  rw [← hruns, ← h.perm.mem_iff, List.mem_map]
  constructor
  · intro hb
    exact ⟨.ok b, hb, rfl⟩
  · intro h
    obtain ⟨r, hr, hb⟩ := h
    cases r with
    | ok b' =>
        cases hb
        exact hr
    | error e => cases hb

end

/-- The trace of a program that starts tasks, with the calls of its tasks in place. -/
inductive Flat (task : γ → Script C A β) :
    List (Event (C ⊕ List γ) (ForkAnswer A J β)) → List (Event C A) → Prop
  | nil : Flat task [] []
  | call {main : List (Event (C ⊕ List γ) (ForkAnswer A J β))} {t : List (Event C A)}
      (c : C) (r : A c) (h : Flat task main t) : Flat task (⟨.inl c, r⟩ :: main) (⟨c, r⟩ :: t)
  | join {main : List (Event (C ⊕ List γ) (ForkAnswer A J β))} {t t' : List (Event C A)}
      {args : List γ} {runs : List (List (Event C A) × Option β)} {results : List (Except J β)}
      (hjoined : Joined task args runs t results) (h : Flat task main t') :
      Flat task (⟨.inr args, results⟩ :: main) (t ++ t')

/-- The program and its tasks make the calls of `t`, and the program ends. -/
def Runs (task : γ → Script C A β) (p : Fork C A J γ β α) (t : List (Event C A))
    (o : Option α) : Prop :=
  ∃ main, Exec p main o ∧ Flat task main t

variable {task : γ → Script C A β} {q : Fork C A J γ β α}

theorem Flat.append {m₁ m₂ : List (Event (C ⊕ List γ) (ForkAnswer A J β))}
    {t₁ t₂ : List (Event C A)} (h₁ : Flat task m₁ t₁) (h₂ : Flat task m₂ t₂) :
    Flat task (m₁ ++ m₂) (t₁ ++ t₂) := by
  induction h₁ with
  | nil => exact h₂
  | call c r _ ih => exact .call c r ih
  | join hjoined _ ih =>
      rw [List.append_assoc]
      exact .join hjoined ih

theorem Flat.split {m₁ m₂ : List (Event (C ⊕ List γ) (ForkAnswer A J β))}
    {t : List (Event C A)} (h : Flat task (m₁ ++ m₂) t) :
    ∃ t₁ t₂, t = t₁ ++ t₂ ∧ Flat task m₁ t₁ ∧ Flat task m₂ t₂ := by
  induction m₁ generalizing t with
  | nil => exact ⟨[], t, rfl, .nil, h⟩
  | cons e m₁ ih =>
      cases h with
      | call c r h =>
          obtain ⟨t₁, t₂, ht, h₁, h₂⟩ := ih h
          exact ⟨_ :: t₁, t₂, by rw [ht]; rfl, .call c r h₁, h₂⟩
      | join hjoined h =>
          obtain ⟨t₁, t₂, ht, h₁, h₂⟩ := ih h
          exact ⟨_ ++ t₁, t₂, by rw [ht, List.append_assoc], .join hjoined h₁, h₂⟩

theorem runs_bind {q' : α → Fork C A J γ β ε} {o : Option ε} : Runs task (q >>= q') t o ↔
    (∃ t₁ t₂ a, t = t₁ ++ t₂ ∧ Runs task q t₁ (some a) ∧ Runs task (q' a) t₂ o) ∨
      Runs task q t none ∧ o = none := by
  constructor
  · intro h
    obtain ⟨main, hexec, hflat⟩ := h
    obtain ⟨m₁, m₂, a, hm, hq, hq'⟩ | ⟨hq, ho⟩ := exec_bind.mp hexec
    · subst hm
      obtain ⟨t₁, t₂, ht, h₁, h₂⟩ := hflat.split
      exact .inl ⟨t₁, t₂, a, ht, ⟨m₁, hq, h₁⟩, ⟨m₂, hq', h₂⟩⟩
    · exact .inr ⟨⟨main, hq, hflat⟩, ho⟩
  · intro h
    obtain ⟨t₁, t₂, a, ht, ⟨m₁, hq, h₁⟩, ⟨m₂, hq', h₂⟩⟩ | ⟨⟨main, hq, hflat⟩, ho⟩ := h
    · subst ht
      exact ⟨m₁ ++ m₂, hq.bind hq', h₁.append h₂⟩
    · subst ho
      exact ⟨main, hq.bind_panic, hflat⟩

theorem runs_bind_some {q' : α → Fork C A J γ β ε} {b : ε} : Runs task (q >>= q') t (some b) ↔
    ∃ t₁ t₂ a, t = t₁ ++ t₂ ∧ Runs task q t₁ (some a) ∧ Runs task (q' a) t₂ (some b) := by
  rw [runs_bind]
  simp

@[simp] theorem runs_pure {a : α} {o : Option α} :
    Runs task (pure a : Fork C A J γ β α) t o ↔ t = [] ∧ o = some a := by
  constructor
  · intro h
    obtain ⟨main, hexec, hflat⟩ := h
    obtain ⟨hm, ho⟩ := exec_pure.mp hexec
    subst hm
    cases hflat
    exact ⟨rfl, ho⟩
  · intro h
    obtain ⟨ht, ho⟩ := h
    subst ht
    exact ⟨[], exec_pure.mpr ⟨rfl, ho⟩, .nil⟩

@[simp] theorem runs_lift {o : Option α} :
    Runs task (lift p : Fork C A J γ β α) t o ↔ Exec p t o := by
  constructor
  · intro h
    obtain ⟨main, hexec, hflat⟩ := h
    induction p generalizing main t with
    | done a =>
        cases hexec
        cases hflat
        exact .done a
    | panic =>
        cases hexec
        cases hflat
        exact .panic
    | spin => cases hexec
    | call c k ih =>
        cases hexec with
        | call hexec =>
            cases hflat with
            | call _ _ hflat => exact .call (ih _ _ hexec hflat)
  · intro h
    induction h with
    | done a => exact ⟨[], .done a, .nil⟩
    | panic => exact ⟨[], .panic, .nil⟩
    | @call c k r t o _ ih =>
        obtain ⟨main, hexec, hflat⟩ := ih
        exact ⟨⟨.inl c, r⟩ :: main, .call hexec, .call c r hflat⟩

theorem runs_join {args : List γ} {o : Option (List (Except J β))} :
    Runs task (join args : Fork C A J γ β (List (Except J β))) t o ↔
      ∃ runs results, Joined task args runs t results ∧ o = some results := by
  constructor
  · intro h
    obtain ⟨main, hexec, hflat⟩ := h
    cases hexec with
    | call hexec =>
        cases hexec
        cases hflat with
        | join hjoined hflat =>
            cases hflat
            rw [List.append_nil]
            exact ⟨_, _, hjoined, rfl⟩
  · intro h
    obtain ⟨runs, results, hjoined, ho⟩ := h
    subst ho
    refine ⟨[⟨.inr args, results⟩], .call (.done results), ?_⟩
    rw [← List.append_nil t]
    exact .join hjoined .nil

end Script

end FlyVault.Lib
