/-
  A log of which only a bounded suffix is kept.

  `Window β` is an append-only log together with the offset its retained part starts at; the
  field `start_le` says that this offset lies inside the log, so a window that has lost more
  than it ever held cannot be built. Offsets are positions in the whole log and never move;
  appending may only raise `start`. `readFrom` is what a reader at an offset gets: everything
  from that offset on, or everything retained when the offset has been evicted already.

  The facts below are the ones a resumable reader needs. A `Stretch` is what a reader has of the
  log; appending to the log leaves it a stretch (`Stretch.append`), and reading on from its end
  makes it longer without a gap (`Stretch.extend`, `stretch_drop`). A reader that may miss
  elements is described by the offsets it has got: `Picks log is d` says that `d` are the
  elements at the offsets `is`, and `add_length_le` bounds how many offsets fit into a range.
-/
import Mathlib.Data.List.Basic

namespace FlyVault.Lib

universe u

variable {β : Type u}

/-- `d` is the stretch of `log` from `b` to `k`. -/
def Stretch (log : List β) (b k : Nat) (d : List β) : Prop :=
  b ≤ k ∧ k ≤ log.length ∧ d = (log.take k).drop b

/-- Appending leaves every stretch of the log as it was. -/
theorem Stretch.append {log d : List β} {b k : Nat} (h : Stretch log b k d) (p : List β) :
    Stretch (log ++ p) b k d := by
  obtain ⟨hb, hk, hd⟩ := h
  refine ⟨hb, ?_, ?_⟩
  · rw [List.length_append]; omega
  · rw [hd, List.take_append_of_le_length hk]

/-- A stretch and everything after it make a stretch that reaches the end. -/
theorem Stretch.extend {log d : List β} {b k : Nat} (h : Stretch log b k d) :
    Stretch log b log.length (d ++ log.drop k) := by
  obtain ⟨hb, hk, hd⟩ := h
  refine ⟨by omega, Nat.le_refl _, ?_⟩
  rw [hd, List.take_length]
  calc (log.take k).drop b ++ log.drop k
      = (log.take k ++ log.drop k).drop b := by
        rw [List.drop_append_of_le_length (by rw [List.length_take]; omega)]
    _ = log.drop b := by rw [List.take_append_drop]

/-- What is left of the log from `b` on. -/
theorem stretch_drop (log : List β) {b : Nat} (hb : b ≤ log.length) :
    Stretch log b log.length (log.drop b) :=
  ⟨hb, Nat.le_refl _, by rw [List.take_length]⟩

/-- `d` are the elements of `log` at the offsets `is`. -/
def Picks (log : List β) (is : List Nat) (d : List β) : Prop := is.map (log[·]?) = d.map some

theorem picks_nil (log : List β) : Picks log [] [] := rfl

theorem Picks.length_eq {log d : List β} {is : List Nat} (h : Picks log is d) :
    is.length = d.length := by
  have hlen := congrArg List.length h
  rwa [List.length_map, List.length_map] at hlen

theorem Picks.append {log d d' : List β} {is is' : List Nat} (h : Picks log is d)
    (h' : Picks log is' d') : Picks log (is ++ is') (d ++ d') := by
  rw [Picks, List.map_append, List.map_append, h, h']

/-- The offsets of the first elements and those of the rest. -/
theorem Picks.split {log d d' : List β} {is : List Nat} (h : Picks log is (d ++ d')) :
    Picks log (is.take d.length) d ∧ Picks log (is.drop d.length) d' := by
  unfold Picks at h ⊢
  rw [List.map_take, List.map_drop, h, List.map_append]
  constructor
  · exact List.take_left' (List.length_map _)
  · exact List.drop_left' (List.length_map _)

theorem Picks.lt_length {log d : List β} {is : List Nat} (h : Picks log is d) {i : Nat}
    (hi : i ∈ is) : i < log.length := by
  have hmem : log[i]? ∈ d.map some := h ▸ List.mem_map_of_mem hi
  obtain ⟨x, -, hx⟩ := List.mem_map.mp hmem
  exact (List.getElem?_eq_some_iff.mp hx.symm).1

/-- Appending to the log moves no offset. -/
theorem Picks.append_log {log d : List β} {is : List Nat} (h : Picks log is d) (p : List β) :
    Picks (log ++ p) is d := by
  rw [Picks, ← h]
  apply List.map_congr_left
  intro i hi
  exact List.getElem?_append_left (h.lt_length hi)

/-- The end of the log from `k` on. -/
theorem picks_drop (log : List β) (k : Nat) :
    Picks log (List.range' k (log.length - k)) (log.drop k) := by
  apply List.ext_getElem
  · simp
  · intro i h₁ h₂
    have hi : k + i < log.length := by
      rw [List.length_map, List.length_range'] at h₁
      omega
    simp [hi]

/-- Increasing offsets between `a` and `c` are at most `c - a` many. -/
theorem add_length_le {is : List Nat} {a c : Nat} (hord : is.Pairwise (· < ·)) (hac : a ≤ c)
    (hmem : ∀ i ∈ is, a ≤ i ∧ i < c) : a + is.length ≤ c := by
  induction is generalizing a with
  | nil => exact hac
  | cons i is ih =>
      obtain ⟨hlt, hord⟩ := List.pairwise_cons.mp hord
      obtain ⟨hai, hic⟩ := hmem i List.mem_cons_self
      have hrest : i + 1 + is.length ≤ c := by
        apply ih hord (by omega)
        intro j hj
        exact ⟨hlt j hj, (hmem j (List.mem_cons_of_mem i hj)).2⟩
      rw [List.length_cons]
      omega

/-- An append-only log and the offset from which it is still retained. -/
structure Window (β : Type u) where
  log : List β
  start : Nat
  start_le : start ≤ log.length

namespace Window

/-- The empty log. -/
def empty : Window β := ⟨[], 0, Nat.le_refl 0⟩

/-- The retained part. -/
def retained (w : Window β) : List β := w.log.drop w.start

/-- Append `p` and keep at most `limit` elements. -/
def push (w : Window β) (limit : Nat) (p : List β) : Window β where
  log := w.log ++ p
  start := max w.start ((w.log ++ p).length - limit)
  start_le := by
    have := w.start_le
    simp only [List.length_append]
    omega

/-- What a reader at `offset` is given: the retained elements from `offset` on. -/
def readFrom (w : Window β) (offset : Nat) : List β := w.log.drop (max w.start offset)

@[simp] theorem push_log (w : Window β) (limit : Nat) (p : List β) :
    (w.push limit p).log = w.log ++ p := rfl

@[simp] theorem length_retained (w : Window β) : w.retained.length = w.log.length - w.start :=
  List.length_drop

/-- Appending evicts what no longer fits, and nothing else. -/
theorem push_start (w : Window β) (limit : Nat) (p : List β) :
    (w.push limit p).start = w.start + ((w.retained ++ p).length - limit) := by
  have := w.start_le
  simp only [push, List.length_append, length_retained]
  omega

/-- What is retained after appending: the last `limit` elements of what was retained before
    and the new ones. -/
theorem retained_push (w : Window β) (limit : Nat) (p : List β) :
    (w.push limit p).retained = (w.retained ++ p).drop ((w.retained ++ p).length - limit) := by
  rw [retained, push_start, push_log, ← List.drop_drop,
    List.drop_append_of_le_length w.start_le]
  rfl

theorem readFrom_of_le (w : Window β) {offset : Nat} (h : w.start ≤ offset) :
    w.readFrom offset = w.log.drop offset := by
  rw [readFrom, Nat.max_eq_right h]

end Window

end FlyVault.Lib
