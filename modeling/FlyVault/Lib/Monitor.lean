/-
  Programs that obey a monitor.

  A monitor watches the calls of a program and their answers: it has a state, which every event
  changes, and says which calls are permitted in which state. `Obeys m Q s p` says that from the
  state `s` the program `p` makes only permitted calls, whatever the answers are, and that `Q`
  holds of the state and the value with which it returns. Unlike `Only` it can speak about the
  order of the calls and about what the earlier answers were.

  The rules follow the text of a program (`Obeys.bind`, and `Obeys.run_bind` for programs that may
  fail). `Obeys.permits` and `Obeys.returns` say what that means for its traces.
  `resume` takes one step of a program that runs beside others in a system, and `Obeys.resume`
  carries the property over that step.
-/
import FlyVault.Lib.Script

namespace FlyVault.Lib

universe u v

variable {C : Type u} {A : C → Type u} {α β ε : Type u} {κ : Type v}

structure Monitor (C : Type u) (A : C → Type u) (κ : Type v) where
  next : κ → Event C A → κ
  may : κ → C → Prop

namespace Script

/-- Whatever the answers, every call is permitted where it is made, and `Q` holds at the end. -/
def Obeys (m : Monitor C A κ) (Q : κ → α → Prop) : κ → Script C A α → Prop
  | s, done a => Q s a
  | _, panic => True
  | _, spin => True
  | s, call c k => m.may s c ∧ ∀ r, Obeys m Q (m.next s ⟨c, r⟩) (k r)

variable {m : Monitor C A κ} {Q : κ → α → Prop} {R : κ → β → Prop} {s : κ}
  {p : Script C A α} {f : α → Script C A β} {t : List (Event C A)}

theorem Obeys.bind (hp : Obeys m Q s p) (hf : ∀ s a, Q s a → Obeys m R s (f a)) :
    Obeys m R s (p >>= f) := by
  induction p generalizing s with
  | done a => exact hf s a hp
  | panic => trivial
  | spin => trivial
  | call c k ih => exact ⟨hp.1, fun r => ih r (hp.2 r)⟩

/-! ## Programs that may fail -/

/-- What holds of a value, or of an error. -/
def OnResult (Q : κ → α → Prop) (E : κ → ε → Prop) (s : κ) : Except ε α → Prop
  | .ok a => Q s a
  | .error e => E s e

variable {E : κ → ε → Prop} {x : ExceptT ε (Script C A) α} {g : α → ExceptT ε (Script C A) β}

theorem Obeys.run_bind (hx : Obeys m (OnResult Q E) s x.run)
    (hg : ∀ s a, Q s a → Obeys m (OnResult R E) s (g a).run) :
    Obeys m (OnResult R E) s (x >>= g).run := by
  rw [ExceptT.run_bind]
  refine hx.bind ?_
  intro s r hr
  cases r with
  | ok a => exact hg s a hr
  | error e => exact hr

/-! ## Traces -/

/-- Every call of a trace is permitted in the state that the calls before it lead to. -/
theorem Obeys.permits {o : Option α} {e : Event C A} {before after : List (Event C A)}
    (h : Obeys m Q s p) (hexec : Exec p (before ++ e :: after) o) :
    m.may (before.foldl m.next s) e.1 := by
  induction before generalizing s p with
  | nil =>
      cases hexec with
      | call _ => exact h.1
  | cons e' before ih =>
      cases hexec with
      | call hexec => exact ih (h.2 _) hexec

theorem Obeys.returns {a : α} (h : Obeys m Q s p) (hexec : Exec p t (some a)) :
    Q (t.foldl m.next s) a := by
  generalize ho : some a = o at hexec
  induction hexec generalizing s with
  | done b =>
      cases ho
      exact h
  | panic => cases ho
  | call _ ih => exact ih (h.2 _) ho

/-- The monitor that permits every call and keeps the events. -/
def history : Monitor C A (List (Event C A)) := ⟨fun t e => t ++ [e], fun _ _ => True⟩

theorem history_obeys {Q : List (Event C A) → α → Prop} (hQ : ∀ s a, Q s a)
    (s : List (Event C A)) : Obeys history Q s p := by
  induction p generalizing s with
  | done a => exact hQ s a
  | panic => trivial
  | spin => trivial
  | call c k ih => exact ⟨trivial, fun r => ih r _⟩

theorem history_run (x : ExceptT ε (Script C A) α) (s : List (Event C A)) :
    Obeys history (OnResult (fun _ _ => True) fun _ _ => True) s x.run := by
  refine history_obeys ?_ s
  intro _ r
  cases r with
  | ok a => trivial
  | error e => trivial

theorem history_foldl (s : List (Event C A)) : t.foldl history.next s = s ++ t := by
  induction t generalizing s with
  | nil => rw [List.append_nil, List.foldl_nil]
  | cons e t ih => rw [List.foldl_cons, ih, List.append_cons]; rfl

/-- The program makes the calls of `t`, with these answers, and has `q` left to do. -/
inductive After : Script C A α → List (Event C A) → Script C A α → Prop
  | nil (p : Script C A α) : After p [] p
  | cons {c : C} {k : A c → Script C A α} {r : A c} {t : List (Event C A)} {q : Script C A α}
      (h : After (k r) t q) : After (call c k) (⟨c, r⟩ :: t) q

/-! ## Programs beside others -/

section

variable [DecidableEq C]

/-- The program after the event, if that is an answer to the call it waits for. -/
def resume : Script C A α → Event C A → Option (Script C A α)
  | call c k, e => if h : e.1 = c then some (k (h ▸ e.2)) else none
  | _, _ => none

theorem resume_call (e : Event C A) (k : A e.1 → Script C A α) :
    (call e.1 k).resume e = some (k e.2) := dif_pos rfl

theorem resume_eq_some {e : Event C A} {q : Script C A α} :
    p.resume e = some q ↔ ∃ k, p = call e.1 k ∧ q = k e.2 := by
  constructor
  · intro h
    cases p with
    | done a => cases h
    | panic => cases h
    | spin => cases h
    | call c k =>
        by_cases hc : e.1 = c
        · subst hc
          rw [resume_call] at h
          exact ⟨k, rfl, (Option.some.inj h).symm⟩
        · have hnone : (call c k).resume e = none := dif_neg hc
          rw [hnone] at h
          cases h
  · intro h
    obtain ⟨k, rfl, rfl⟩ := h
    exact resume_call e k

theorem Obeys.resume {e : Event C A} {q : Script C A α} (h : Obeys m Q s p)
    (hq : p.resume e = some q) : m.may s e.1 ∧ Obeys m Q (m.next s e) q := by
  obtain ⟨k, rfl, rfl⟩ := resume_eq_some.mp hq
  exact ⟨h.1, h.2 e.2⟩

end

end Script

end FlyVault.Lib
