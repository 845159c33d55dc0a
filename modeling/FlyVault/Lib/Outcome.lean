/-
  Computations that return a value, return an error, or panic.

  An error is a value that callers handle; a panic unwinds through all of them. `Safe` is the
  absence of a panic. The partial operations are those of a language with bounds-checked
  slices and fixed-width indices: `slice` and `sliceFrom` panic outside the bounds, and `add64`
  on 64-bit words panics on overflow or wraps around, as the build decides (`Arith`).

  `safe_bind`, `safe_bind_do` and `safe_traverse` say when a composition is safe; `add64_of_lt`,
  `slice_of_le` and `sliceFrom_of_le` are the cases in which the partial operations succeed.
  `bind_eq_ok`, `ite_err_eq_ok`, `split_eq_ok` and `cut_eq_ok` say what a computation that has
  returned has done.
-/
import Mathlib.Algebra.Group.Nat.Defs
import Mathlib.Data.List.Basic

namespace FlyVault.Lib

universe u v w

/-- Why a computation panicked. -/
inductive Panic
  | overflow
  | sliceOrder
  | sliceEnd
  deriving DecidableEq, Repr

inductive Outcome (ε : Type u) (α : Type v)
  | ok (a : α)
  | err (e : ε)
  | panic (p : Panic)
  deriving DecidableEq, Repr

/-- What an addition that does not fit does: panic, or wrap around. -/
inductive Arith
  | trap
  | wrap
  deriving DecidableEq, Repr

namespace Outcome

variable {ε : Type u} {α : Type v} {β : Type w}

protected def bind (x : Outcome ε α) (f : α → Outcome ε β) : Outcome ε β :=
  match x with
  | ok a => f a
  | err e => err e
  | panic p => panic p

instance : Monad (Outcome ε) where
  pure := ok
  bind := Outcome.bind

@[simp] theorem ok_bind (a : α) (f : α → Outcome ε β) : (ok a : Outcome ε α).bind f = f a := rfl

@[simp] theorem ok_bind_do {α β : Type v} (a : α) (f : α → Outcome ε β) : ok a >>= f = f a := rfl

@[simp] theorem err_bind_do {α β : Type v} (e : ε) (f : α → Outcome ε β) :
    (err e : Outcome ε α) >>= f = err e := rfl

@[simp] theorem pure_eq_ok {a b : α} : (pure a : Outcome ε α) = ok b ↔ a = b := by
  show ok a = ok b ↔ a = b
  rw [ok.injEq]

/-- A composition has returned when both parts have. -/
@[simp] theorem bind_eq_ok {α β : Type v} {x : Outcome ε α} {f : α → Outcome ε β} {b : β} :
    x >>= f = ok b ↔ ∃ a, x = ok a ∧ f a = ok b := by
  show x.bind f = ok b ↔ _
  cases x with
  | ok a => simp
  | err e => simp [Outcome.bind]
  | panic p => simp [Outcome.bind]

/-- A check that has not failed. -/
@[simp] theorem ite_err_eq_ok {c : Prop} [Decidable c] {e : ε} {x : Outcome ε α} {a : α} :
    (if c then err e else x) = ok a ↔ ¬ c ∧ x = ok a := by
  by_cases h : c <;> simp [h]

/-- No panic. -/
def Safe (x : Outcome ε α) : Prop := ∀ p, x ≠ panic p

theorem safe_ok (a : α) : (ok a : Outcome ε α).Safe := fun _ h => by cases h

theorem safe_err (e : ε) : (err e : Outcome ε α).Safe := fun _ h => by cases h

theorem not_safe_panic (p : Panic) : ¬ (panic p : Outcome ε α).Safe := fun h => h p rfl

/-- A computation that cannot panic. -/
def ofExcept : Except ε α → Outcome ε α
  | .ok a => ok a
  | .error e => err e

theorem safe_ofExcept (x : Except ε α) : (ofExcept x).Safe := by
  cases x with
  | ok a => exact safe_ok a
  | error e => exact safe_err e

theorem safe_bind {x : Outcome ε α} {f : α → Outcome ε β} :
    (x.bind f).Safe ↔ x.Safe ∧ ∀ a, x = ok a → (f a).Safe := by
  cases x with
  | ok a =>
      constructor
      · intro h
        refine ⟨safe_ok a, fun b hb => ?_⟩
        cases hb
        exact h
      · exact fun h => h.2 a rfl
  | err e => exact ⟨fun _ => ⟨safe_err e, fun _ h => by cases h⟩, fun _ => safe_err e⟩
  | panic p => exact ⟨fun h => absurd h (not_safe_panic p), fun h => absurd h.1 (not_safe_panic p)⟩

theorem safe_bind_do {α β : Type v} {x : Outcome ε α} {f : α → Outcome ε β} (hx : x.Safe)
    (hf : ∀ a, x = ok a → (f a).Safe) : (x >>= f).Safe := safe_bind.mpr ⟨hx, hf⟩

/-- A check in front of a safe computation. -/
theorem safe_ite_err {c : Prop} [Decidable c] {e : ε} {x : Outcome ε α} (h : ¬ c → x.Safe) :
    (if c then err e else x).Safe := by
  by_cases hc : c
  · rw [if_pos hc]
    exact safe_err e
  · rw [if_neg hc]
    exact h hc

/-- Run `f` on each element in turn. -/
def traverse (f : α → Outcome ε β) : List α → Outcome ε (List β)
  | [] => ok []
  | a :: as => (f a).bind fun b => (traverse f as).bind fun bs => ok (b :: bs)

/-- When no element makes `f` return an error, the whole is safe exactly if each part is. -/
theorem safe_traverse {f : α → Outcome ε β} (hf : ∀ a e, f a ≠ err e) (as : List α) :
    (traverse f as).Safe ↔ ∀ a ∈ as, (f a).Safe := by
  induction as with
  | nil => exact ⟨fun _ a ha => (by cases ha), fun _ => safe_ok []⟩
  | cons a as ih =>
      have hrest : (∀ b, f a = ok b → ((traverse f as).bind fun bs => ok (b :: bs)).Safe) ↔
          ∀ b, f a = ok b → (traverse f as).Safe := by
        refine forall_congr' fun b => imp_congr_right fun _ => ?_
        rw [safe_bind]
        exact ⟨And.left, fun h => ⟨h, fun bs _ => safe_ok (b :: bs)⟩⟩
      rw [traverse, safe_bind, hrest, List.forall_mem_cons, ← ih]
      refine and_congr_right fun hsafe => ?_
      cases hfa : f a with
      | ok b => exact ⟨fun h => h b rfl, fun h _ _ => h⟩
      | err e => exact absurd hfa (hf a e)
      | panic p => rw [hfa] at hsafe; exact absurd hsafe (not_safe_panic p)

/-- Addition of 64-bit words. -/
def add64 (arith : Arith) (a b : Nat) : Outcome ε Nat :=
  if a + b < 2 ^ 64 then ok (a + b)
  else
    match arith with
    | .trap => panic .overflow
    | .wrap => ok ((a + b) % 2 ^ 64)

/-- The elements from `start` to `stop`. -/
def slice (xs : List α) (start stop : Nat) : Outcome ε (List α) :=
  if stop < start then panic .sliceOrder
  else if xs.length < stop then panic .sliceEnd
  else ok ((xs.take stop).drop start)

/-- The elements from `start` on. -/
def sliceFrom (xs : List α) (start : Nat) : Outcome ε (List α) :=
  if xs.length < start then panic .sliceEnd else ok (xs.drop start)

theorem add64_of_lt {arith : Arith} {a b : Nat} (h : a + b < 2 ^ 64) :
    (add64 arith a b : Outcome ε Nat) = ok (a + b) := if_pos h

theorem add64_trap {a b : Nat} (h : 2 ^ 64 ≤ a + b) :
    (add64 .trap a b : Outcome ε Nat) = panic .overflow := if_neg (by omega)

theorem add64_wrap {a b : Nat} (h : 2 ^ 64 ≤ a + b) :
    (add64 .wrap a b : Outcome ε Nat) = ok ((a + b) % 2 ^ 64) := if_neg (by omega)

theorem slice_of_le {xs : List α} {start stop : Nat} (h₁ : start ≤ stop)
    (h₂ : stop ≤ xs.length) :
    (slice xs start stop : Outcome ε _) = ok ((xs.take stop).drop start) := by
  rw [slice, if_neg (by omega), if_neg (by omega)]

theorem slice_of_gt {xs : List α} {start stop : Nat} (h : stop < start) :
    (slice xs start stop : Outcome ε _) = panic .sliceOrder := if_pos h

theorem sliceFrom_of_le {xs : List α} {start : Nat} (h : start ≤ xs.length) :
    (sliceFrom xs start : Outcome ε _) = ok (xs.drop start) := if_neg (by omega)

/-- Cutting a list at `n` has returned when the list is its first `n` elements and the rest. -/
theorem split_eq_ok {xs head rest : List α} {n : Nat} :
    (slice xs 0 n : Outcome ε _) = ok head ∧ (sliceFrom xs n : Outcome ε _) = ok rest ↔
      head.length = n ∧ xs = head ++ rest := by
  constructor
  · intro h
    obtain ⟨hhead, hrest⟩ := h
    by_cases hn : n ≤ xs.length
    · rw [slice_of_le (Nat.zero_le n) hn, ok.injEq, List.drop_zero] at hhead
      rw [sliceFrom_of_le hn, ok.injEq] at hrest
      subst hhead hrest
      exact ⟨List.length_take_of_le hn, (List.take_append_drop n xs).symm⟩
    · rw [sliceFrom, if_pos (by omega)] at hrest
      cases hrest
  · intro h
    obtain ⟨hlen, hxs⟩ := h
    subst hlen hxs
    have hle : head.length ≤ (head ++ rest).length := by simp
    rw [slice_of_le (Nat.zero_le _) hle, sliceFrom_of_le hle]
    simp

theorem cut_eq_ok {α β : Type v} {xs rest : List α} {f : List α → β} {b : β} {n : Nat} :
    ((do
      let head ← slice xs 0 n
      let rest ← sliceFrom xs n
      pure (f head, rest) : Outcome ε (β × List α)) = ok (b, rest)) ↔
      ∃ head, head.length = n ∧ xs = head ++ rest ∧ f head = b := by
  simp only [bind_eq_ok, pure_eq_ok, Prod.mk.injEq]
  constructor
  · intro h
    obtain ⟨head, hhead, tail, htail, hb, hrest⟩ := h
    subst hrest
    obtain ⟨hlen, hxs⟩ := split_eq_ok.mp ⟨hhead, htail⟩
    exact ⟨head, hlen, hxs, hb⟩
  · intro h
    obtain ⟨head, hlen, hxs, hb⟩ := h
    obtain ⟨hhead, hrest⟩ := (split_eq_ok (ε := ε)).mpr ⟨hlen, hxs⟩
    exact ⟨head, hhead, rest, hrest, hb, rfl⟩

end Outcome

end FlyVault.Lib
