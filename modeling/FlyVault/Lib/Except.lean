/-
  What an `Except` computation that has returned a value has done, and where an error that it
  returns comes from.
-/
import Mathlib.Data.List.Forall2

namespace FlyVault.Lib

universe u v

variable {ε : Type u} {α β : Type v}

/-- A composition has returned when both parts have. -/
theorem except_bind_eq_ok {x : Except ε α} {f : α → Except ε β} {b : β} :
    x >>= f = .ok b ↔ ∃ a, x = .ok a ∧ f a = .ok b := by
  cases x with
  | error e =>
      constructor
      · intro h
        cases h
      · intro h
        obtain ⟨a, ha, -⟩ := h
        cases ha
  | ok a =>
      constructor
      · intro h
        exact ⟨a, rfl, h⟩
      · intro h
        obtain ⟨a', ha, hb⟩ := h
        cases ha
        exact hb

theorem except_map_eq_ok {x : Except ε α} {f : α → β} {b : β} :
    x.map f = .ok b ↔ ∃ a, x = .ok a ∧ f a = b := by
  cases x with
  | error e => simp [Except.map]
  | ok a => simp [Except.map]

theorem except_map_eq_error {x : Except ε α} {f : α → β} {e : ε} :
    x.map f = .error e ↔ x = .error e := by
  cases x with
  | error e' => simp [Except.map]
  | ok a => simp [Except.map]

/-- `mapM` has returned a value for each element. -/
theorem forall₂_of_mapM {f : α → Except ε β} {as : List α} {bs : List β}
    (h : as.mapM f = .ok bs) : List.Forall₂ (fun a b => f a = .ok b) as bs := by
  induction as generalizing bs with
  | nil =>
      cases h
      exact .nil
  | cons a as ih =>
      rw [List.mapM_cons] at h
      obtain ⟨b, hb, h⟩ := except_bind_eq_ok.mp h
      obtain ⟨bs', hbs, h⟩ := except_bind_eq_ok.mp h
      cases h
      exact .cons hb (ih hbs)

theorem mem_of_mapM {f : α → Except ε β} {as : List α} {bs : List β} (h : as.mapM f = .ok bs) :
    ∀ b ∈ bs, ∃ a ∈ as, f a = .ok b := by
  have hall := forall₂_of_mapM h
  clear h
  induction hall with
  | nil => exact List.forall_mem_nil _
  | @cons a _ _ _ hhead _ ih =>
      refine List.forall_mem_cons.mpr ⟨⟨a, List.mem_cons_self, hhead⟩, ?_⟩
      intro b hb
      obtain ⟨a', ha', hok⟩ := ih b hb
      exact ⟨a', List.mem_cons_of_mem a ha', hok⟩

theorem mapM_of_forall₂ {f : α → Except ε β} {as : List α} {bs : List β}
    (h : List.Forall₂ (fun a b => f a = .ok b) as bs) : as.mapM f = .ok bs := by
  induction h with
  | nil => rfl
  | cons hhead _ ih =>
      rw [List.mapM_cons, hhead, ih]
      rfl

theorem mapM_eq_ok {f : α → Except ε β} {as : List α} {bs : List β} :
    as.mapM f = .ok bs ↔ List.Forall₂ (fun a b => f a = .ok b) as bs :=
  ⟨forall₂_of_mapM, mapM_of_forall₂⟩

/-- An error of `mapM` is that of an element. -/
theorem error_of_mapM {f : α → Except ε β} {as : List α} {e : ε} (h : as.mapM f = .error e) :
    ∃ a ∈ as, f a = .error e := by
  induction as with
  | nil => cases h
  | cons a as ih =>
      rw [List.mapM_cons] at h
      cases hhead : f a with
      | error e' =>
          rw [hhead] at h
          cases h
          exact ⟨a, List.mem_cons_self, hhead⟩
      | ok b =>
          rw [hhead] at h
          cases hrest : as.mapM f with
          | error e' =>
              rw [hrest] at h
              cases h
              obtain ⟨a', hmem, ha'⟩ := ih hrest
              exact ⟨a', List.mem_cons_of_mem a hmem, ha'⟩
          | ok bs =>
              rw [hrest] at h
              cases h

theorem mapM_congr {f g : α → Except ε β} {as : List α} (h : ∀ a ∈ as, f a = g a) :
    as.mapM f = as.mapM g := by
  induction as with
  | nil => rfl
  | cons a as ih =>
      obtain ⟨hhead, hrest⟩ := List.forall_mem_cons.mp h
      rw [List.mapM_cons, List.mapM_cons, hhead, ih hrest]

end FlyVault.Lib
