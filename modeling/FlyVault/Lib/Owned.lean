/-
  A set of keys with owners: whoever puts a key into the set owns it until they take it out.

  The set is a `Bool`-valued function, and `owner c` is the key that `c` owns, if any. `Owned`
  says that the keys of the set are exactly those with an owner, and that no key has two. It
  holds for the empty set and is kept by taking a key that is not in the set (`Owned.acquire`)
  and by giving back one's own (`Owned.release`).
-/
import FlyVault.Lib.Update

namespace FlyVault.Lib

universe u v

variable {κ : Type u} {τ : Type v}

structure Owned (set : κ → Bool) (owner : τ → Option κ) : Prop where
  mem : ∀ c k, owner c = some k → set k = true
  unique : ∀ c d k, owner c = some k → owner d = some k → c = d
  owned : ∀ k, set k = true → ∃ c, owner c = some k

theorem Owned.empty : Owned (fun _ : κ => false) (fun _ : τ => none) := by
  refine ⟨?_, ?_, ?_⟩
  · intro c k h
    cases h
  · intro c d k h
    cases h
  · intro k h
    cases h

variable {set : κ → Bool} {owner : τ → Option κ}

theorem Owned.mem_iff (h : Owned set owner) (k : κ) :
    set k = true ↔ ∃! c, owner c = some k := by
  constructor
  · intro hk
    obtain ⟨c, hc⟩ := h.owned k hk
    exact ⟨c, hc, fun d hd => h.unique d c k hd hc⟩
  · intro hk
    obtain ⟨c, hc, -⟩ := hk
    exact h.mem c k hc

variable [DecidableEq κ] [DecidableEq τ]

theorem Owned.acquire (h : Owned set owner) {c : τ} {k : κ} (hc : owner c = none)
    (hk : set k = false) :
    Owned (Function.update set k true) (Function.update owner c (some k)) := by
  -- nobody else owns the new key
  have hfree : ∀ d, owner d ≠ some k := by
    intro d hd
    rw [h.mem d k hd] at hk
    cases hk
  refine ⟨?_, ?_, ?_⟩
  · intro d j hd
    obtain ⟨-, rfl⟩ | ⟨-, hd⟩ := update_some_iff.mp hd
    · exact Function.update_self ..
    · have hjk : j ≠ k := by
        intro heq
        exact hfree d (heq ▸ hd)
      rw [Function.update_of_ne hjk]
      exact h.mem d j hd
  · intro d e j hd he
    obtain ⟨rfl, rfl⟩ | ⟨-, hd⟩ := update_some_iff.mp hd
    · obtain ⟨rfl, -⟩ | ⟨-, he⟩ := update_some_iff.mp he
      · rfl
      · exact absurd he (hfree e)
    · obtain ⟨-, rfl⟩ | ⟨-, he⟩ := update_some_iff.mp he
      · exact absurd hd (hfree d)
      · exact h.unique d e j hd he
  · intro j hj
    obtain ⟨rfl, -⟩ | ⟨-, hj⟩ := update_eq_iff.mp hj
    · exact ⟨c, Function.update_self ..⟩
    · obtain ⟨d, hd⟩ := h.owned j hj
      have hdc : d ≠ c := by
        intro heq
        rw [heq, hc] at hd
        cases hd
      exact ⟨d, update_some_iff.mpr (.inr ⟨hdc, hd⟩)⟩

theorem Owned.release (h : Owned set owner) {c : τ} {k : κ} (hc : owner c = some k) :
    Owned (Function.update set k false) (Function.update owner c none) := by
  refine ⟨?_, ?_, ?_⟩
  · intro d j hd
    obtain ⟨hdc, hd⟩ := update_none_iff.mp hd
    have hjk : j ≠ k := by
      intro heq
      exact hdc (h.unique d c k (heq ▸ hd) hc)
    rw [Function.update_of_ne hjk]
    exact h.mem d j hd
  · intro d e j hd he
    exact h.unique d e j (update_none_iff.mp hd).2 (update_none_iff.mp he).2
  · intro j hj
    obtain ⟨-, hj⟩ | ⟨hjk, hj⟩ := update_eq_iff.mp hj
    · cases hj
    · obtain ⟨d, hd⟩ := h.owned j hj
      refine ⟨d, update_none_iff.mpr ⟨?_, hd⟩⟩
      intro heq
      rw [heq, hc, Option.some.injEq] at hd
      exact hjk hd.symm

end FlyVault.Lib
