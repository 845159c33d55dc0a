/-
  Functions, and finite maps as functions into `Option`, changed at one key.

  `update_eq_iff` reads a changed function. `Function.update f k (some v)` stores `v` at `k`,
  `Function.update f k none` erases `k`.
  `update_some_iff` and `update_none_iff` read a changed map back, `update_ne_none` keeps its
  keys, and `forall_update` keeps a property of all entries when the new entry has it.
-/
import Mathlib.Logic.Function.Basic

namespace FlyVault.Lib

universe u v

variable {κ : Type u} {β : Type v} [DecidableEq κ]

/-- A changed function at a point: the new value, or the old one elsewhere. -/
theorem update_eq_iff {f : κ → β} {k j : κ} {v b : β} :
    Function.update f k v j = b ↔ (j = k ∧ v = b) ∨ (j ≠ k ∧ f j = b) := by
  by_cases h : j = k
  · subst h; simp
  · simp [h]

variable {f : κ → Option β} {k j : κ} {v b : β}

/-- An entry of a map with `v` stored at `k`: the new one, or an old one elsewhere. -/
theorem update_some_iff :
    Function.update f k (some v) j = some b ↔ (j = k ∧ v = b) ∨ (j ≠ k ∧ f j = some b) := by
  rw [update_eq_iff, Option.some.injEq]

/-- An entry of a map with `k` erased is an old one elsewhere. -/
theorem update_none_iff : Function.update f k none j = some b ↔ j ≠ k ∧ f j = some b := by
  by_cases h : j = k
  · subst h; simp
  · simp [h]

/-- Storing an entry loses no key. -/
theorem update_ne_none (h : j = k ∨ f j ≠ none) : Function.update f k (some v) j ≠ none := by
  by_cases hj : j = k
  · subst hj; simp
  · rw [Function.update_of_ne hj]
    exact h.resolve_left hj

/-- A property of all entries is kept by storing an entry that has it. -/
theorem forall_update {P : κ → β → Prop} (hf : ∀ j b, f j = some b → P j b) (hv : P k v) :
    ∀ j b, Function.update f k (some v) j = some b → P j b := by
  intro j b h
  rcases update_some_iff.mp h with ⟨rfl, rfl⟩ | ⟨-, h⟩
  · exact hv
  · exact hf j b h

end FlyVault.Lib
