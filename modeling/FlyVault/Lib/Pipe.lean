/-
  Pipes and the loop that copies one into another.

  A `Pipe` holds what has been written and not read. Its writing side may have `closed` it, so
  that a reader sees the end after the rest; its reading side may have `stopped`, so that a
  write fails. A copy loop reads a chunk, writes all of it, and at the end of its source closes
  its target; the write may take several steps. The label says how much a step moves.

  `Copied` says what a step does, and three facts follow from it, over any element type: a
  step that goes on moves elements and changes no order (`Copied.conserves`), every such step
  makes progress (`Copied.weight_lt`), and a loop that can take no step has copied everything
  (`idle_of_copy`).
-/
import Mathlib.Data.List.Basic

namespace FlyVault.Lib

universe u

variable {β : Type u}

structure Pipe (β : Type u) where
  items : List β
  closed : Bool
  stopped : Bool
  deriving DecidableEq, Repr

def Pipe.empty : Pipe β := ⟨[], false, false⟩

/-- A step of a copy loop: read `n` elements, write `n` elements, or close at the end. -/
inductive CopyStep
  | read (n : Nat)
  | write (n : Nat)
  | finish
  deriving DecidableEq, Repr

/-- What becomes of the loop. -/
inductive CopyResult
  | goesOn
  | ends
  | fails
  deriving DecidableEq, Repr

/-- One step of a loop that has `buf` in its buffer of size `limit`. -/
def copy (limit : Nat) (src : Pipe β) (buf : List β) (dst : Pipe β) :
    CopyStep → Option (Pipe β × List β × Pipe β × CopyResult)
  | .read n =>
      if buf.isEmpty ∧ 0 < n ∧ n ≤ limit ∧ n ≤ src.items.length then
        some ({ src with items := src.items.drop n }, src.items.take n, dst, .goesOn)
      else none
  | .write n =>
      if 0 < n ∧ n ≤ buf.length then
        if dst.stopped then some (src, buf, dst, .fails)
        else some (src, buf.drop n, { dst with items := dst.items ++ buf.take n }, .goesOn)
      else none
  | .finish =>
      if buf.isEmpty ∧ src.items.isEmpty ∧ src.closed then
        some (src, buf, { dst with closed := true }, .ends)
      else none

/-- What a step does. -/
inductive Copied (src : Pipe β) (buf : List β) (dst : Pipe β) :
    Pipe β → List β → Pipe β → CopyResult → Prop
  | read (n : Nat) (hbuf : buf = []) (hpos : 0 < n) (hn : n ≤ src.items.length) :
      Copied src buf dst { src with items := src.items.drop n } (src.items.take n) dst .goesOn
  | write (n : Nat) (hpos : 0 < n) (hn : n ≤ buf.length) (hdst : dst.stopped = false) :
      Copied src buf dst src (buf.drop n) { dst with items := dst.items ++ buf.take n } .goesOn
  | fail (hbuf : buf ≠ []) (hdst : dst.stopped = true) : Copied src buf dst src buf dst .fails
  | finish (hbuf : buf = []) (hitems : src.items = []) (hclosed : src.closed = true) :
      Copied src buf dst src buf { dst with closed := true } .ends

theorem copied_of_copy {limit : Nat} {src src' dst dst' : Pipe β} {buf buf' : List β}
    {c : CopyStep} {r : CopyResult} (h : copy limit src buf dst c = some (src', buf', dst', r)) :
    Copied src buf dst src' buf' dst' r := by
  cases c with
  | read n =>
      simp only [copy, Option.ite_none_right_eq_some, List.isEmpty_iff] at h
      obtain ⟨⟨hbuf, hpos, -, hn⟩, h⟩ := h
      cases h
      exact .read n hbuf hpos hn
  | write n =>
      simp only [copy, Option.ite_none_right_eq_some] at h
      obtain ⟨⟨hpos, hn⟩, h⟩ := h
      split at h
      · next hstopped =>
          cases h
          refine .fail ?_ hstopped
          intro hnil
          rw [hnil, List.length_nil] at hn
          omega
      · next hstopped =>
          cases h
          exact .write n hpos hn (by simpa using hstopped)
  | finish =>
      simp only [copy, Option.ite_none_right_eq_some, List.isEmpty_iff] at h
      obtain ⟨⟨hbuf, hitems, hclosed⟩, h⟩ := h
      cases h
      exact .finish hbuf hitems hclosed

/-- A step that goes on moves elements along and leaves the flags alone. -/
theorem Copied.conserves {src src' dst dst' : Pipe β} {buf buf' : List β}
    (h : Copied src buf dst src' buf' dst' .goesOn) :
    dst'.items ++ buf' ++ src'.items = dst.items ++ buf ++ src.items ∧
      src'.closed = src.closed ∧ src'.stopped = src.stopped ∧
      dst'.closed = dst.closed ∧ dst'.stopped = dst.stopped := by
  cases h with
  | read n hbuf _ _ =>
      refine ⟨?_, rfl, rfl, rfl, rfl⟩
      rw [hbuf, List.append_nil, List.append_assoc, List.take_append_drop]
  | write n _ _ _ =>
      refine ⟨?_, rfl, rfl, rfl, rfl⟩
      rw [List.append_assoc dst.items, List.take_append_drop]

/-- What is left to do for elements in a source, a buffer and a target, when an element in the
    target still costs `c`. -/
def copyWeight (c : Nat) (src : Pipe β) (buf : List β) (dst : Pipe β) : Nat :=
  (c + 2) * src.items.length + (c + 1) * buf.length + c * dst.items.length

/-- A step that goes on leaves less to do; one that does not moves nothing. -/
theorem Copied.weight_lt {src src' dst dst' : Pipe β} {buf buf' : List β} {r : CopyResult}
    (h : Copied src buf dst src' buf' dst' r) (c : Nat) :
    copyWeight c src' buf' dst' ≤ copyWeight c src buf dst ∧
      (r = .goesOn → copyWeight c src' buf' dst' < copyWeight c src buf dst) := by
  cases h with
  | read n hbuf hpos hn =>
      have hlen : src.items.length = n + (src.items.length - n) := by omega
      have hless : copyWeight c { src with items := src.items.drop n } (src.items.take n) dst <
          copyWeight c src buf dst := by
        simp only [copyWeight, hbuf, List.length_drop, List.length_nil,
          List.length_take, Nat.min_eq_left hn]
        generalize hrest : src.items.length - n = rest at *
        rw [hlen]
        have hmul : (c + 2) * (n + rest) = (c + 1) * n + n + (c + 2) * rest := by
          rw [Nat.mul_add, Nat.succ_mul (c + 1) n]
        omega
      exact ⟨Nat.le_of_lt hless, fun _ => hless⟩
  | write n hpos hn hdst =>
      have hlen : buf.length = n + (buf.length - n) := by omega
      have hless : copyWeight c src (buf.drop n) { dst with items := dst.items ++ buf.take n } <
          copyWeight c src buf dst := by
        simp only [copyWeight, List.length_drop, List.length_append, List.length_take,
          Nat.min_eq_left hn]
        generalize hrest : buf.length - n = rest at *
        rw [hlen, Nat.mul_add c]
        have hmul : (c + 1) * (n + rest) = c * n + n + (c + 1) * rest := by
          rw [Nat.mul_add, Nat.succ_mul c n]
        omega
      exact ⟨Nat.le_of_lt hless, fun _ => hless⟩
  | fail _ _ => exact ⟨Nat.le_refl _, (by simp)⟩
  | finish _ _ _ => exact ⟨Nat.le_refl _, (by simp)⟩

/-- A loop with something in its buffer or in its source can take a step. -/
theorem exists_copy {limit : Nat} {src dst : Pipe β} {buf : List β} (hlimit : 0 < limit)
    (hsome : buf ≠ [] ∨ src.items ≠ []) : ∃ c r, copy limit src buf dst c = some r := by
  by_cases hbuf : buf = []
  · have hitems : src.items ≠ [] := hsome.resolve_left (fun h => h hbuf)
    have hpos := List.length_pos_iff.mpr hitems
    refine ⟨.read 1, _, if_pos ⟨?_, Nat.one_pos, hlimit, hpos⟩⟩
    rw [hbuf]
    rfl
  · have hpos := List.length_pos_iff.mpr hbuf
    refine ⟨.write 1, ?_⟩
    simp only [copy, if_pos (show 0 < 1 ∧ 1 ≤ buf.length from ⟨Nat.one_pos, hpos⟩)]
    split
    · exact ⟨_, rfl⟩
    · exact ⟨_, rfl⟩

/-- A loop that can take no step has copied everything, and its source has not ended. -/
theorem idle_of_copy {limit : Nat} {src dst : Pipe β} {buf : List β} (hlimit : 0 < limit)
    (h : ∀ c, copy limit src buf dst c = none) :
    buf = [] ∧ src.items = [] ∧ src.closed = false := by
  have hnone : ¬ (buf ≠ [] ∨ src.items ≠ []) := by
    intro hsome
    obtain ⟨c, r, hc⟩ : ∃ c r, copy limit src buf dst c = some r := exists_copy hlimit hsome
    rw [h c] at hc
    cases hc
  obtain ⟨hbuf, hitems⟩ := not_or.mp hnone
  have hbuf := not_not.mp hbuf
  have hitems := not_not.mp hitems
  refine ⟨hbuf, hitems, ?_⟩
  by_contra hclosed
  have hfinish := h .finish
  rw [copy, if_pos ⟨by rw [hbuf]; rfl, by rw [hitems]; rfl, eq_true_of_ne_false hclosed⟩] at hfinish
  cases hfinish

end FlyVault.Lib
