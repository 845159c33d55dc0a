/-
  Formats that are read from the front of a list.

  `Reads decode encode Fits`: the decoder returns exactly the values that fit, each from its
  own encoding, and leaves what follows. Such encodings are prefix-free
  (`Reads.append_inj`), and lists of known length are read element by element
  (`Reads.times`). `ReadsEnd` allows in addition a shorter form of a value at the very end of
  the input, as formats do that got a trailing field later; in a list only the last element
  can have it (`ReadsEnd.times`).

  A stream is read again and again until a read fails (`ReadAll`). From a stream of encodings
  cut at an arbitrary place come the values that lie in it as a whole (`wholeIn`), and then
  the error that a reader reports at the end of its input (`readAll_cut`).
-/
import FlyVault.Lib.Outcome

namespace FlyVault.Lib

universe u

variable {ε α β ρ : Type u}

/-- `decode` returns the values in `Fits` from their encodings and leaves the rest. -/
def Reads (decode : List β → Outcome ε (α × List β)) (encode : α → List β)
    (Fits : α → Prop) : Prop :=
  ∀ bs a rest, decode bs = .ok (a, rest) ↔ Fits a ∧ bs = encode a ++ rest

/-- In addition `decode` accepts a short form of a value that ends the input. -/
def ReadsEnd (decode : List β → Outcome ε (α × List β)) (encode : α → List β)
    (short : α → Option (List β)) (Fits : α → Prop) : Prop :=
  ∀ bs a rest, decode bs = .ok (a, rest) ↔
    Fits a ∧ (bs = encode a ++ rest ∨ rest = [] ∧ short a = some bs)

/-- Decode `n` values one after the other. -/
def times (decode : List β → Outcome ε (α × List β)) :
    Nat → List β → Outcome ε (List α × List β)
  | 0, bs => pure ([], bs)
  | n + 1, bs => do
      let (a, bs) ← decode bs
      let (as, bs) ← times decode n bs
      pure (a :: as, bs)

section Lists

variable {decode : List β → Outcome ε (α × List β)} {encode : α → List β}
  {short : α → Option (List β)} {Fits : α → Prop}

/-- What follows an encoding tells nothing about where it ends. -/
theorem Reads.append_inj (h : Reads decode encode Fits) {a b : α} {rest rest' : List β}
    (ha : Fits a) (hb : Fits b) (heq : encode a ++ rest = encode b ++ rest') :
    a = b ∧ rest = rest' := by
  have hda := (h _ a rest).mpr ⟨ha, rfl⟩
  have hdb := (h _ b rest').mpr ⟨hb, heq⟩
  rw [hda, Outcome.ok.injEq, Prod.mk.injEq] at hdb
  exact hdb

theorem times_succ_eq_ok {n : Nat} {bs rest : List β} {as : List α} :
    times decode (n + 1) bs = .ok (as, rest) ↔
      ∃ a as' mid, as = a :: as' ∧ decode bs = .ok (a, mid) ∧
        times decode n mid = .ok (as', rest) := by
  simp only [times, Outcome.bind_eq_ok, Prod.exists, Outcome.pure_eq_ok, Prod.mk.injEq]
  constructor
  · rintro ⟨a, mid, hd, as', rest', ht, rfl, rfl⟩
    exact ⟨a, as', mid, rfl, hd, ht⟩
  · rintro ⟨a, as', mid, rfl, hd, ht⟩
    exact ⟨a, mid, hd, as', rest, ht, rfl, rfl⟩

theorem safe_times (h : ∀ bs, (decode bs).Safe) (n : Nat) (bs : List β) :
    (times decode n bs).Safe := by
  induction n generalizing bs with
  | zero => exact Outcome.safe_ok _
  | succ n ih =>
      refine Outcome.safe_bind_do (h bs) fun x _ => ?_
      exact Outcome.safe_bind_do (ih x.2) fun _ _ => Outcome.safe_ok _

theorem Reads.times (h : Reads decode encode Fits) (n : Nat) :
    Reads (times decode n) (fun as => as.flatMap encode)
      (fun as => as.length = n ∧ ∀ a ∈ as, Fits a) := by
  induction n with
  | zero =>
      intro bs as rest
      simp only [Lib.times, Outcome.pure_eq_ok, Prod.mk.injEq, List.length_eq_zero_iff]
      constructor
      · rintro ⟨rfl, rfl⟩
        exact ⟨⟨rfl, (by simp)⟩, rfl⟩
      · rintro ⟨⟨rfl, -⟩, rfl⟩
        exact ⟨rfl, rfl⟩
  | succ n ih =>
      intro bs as rest
      rw [times_succ_eq_ok]
      constructor
      · rintro ⟨a, as', mid, rfl, hd, ht⟩
        obtain ⟨ha, rfl⟩ := (h bs a mid).mp hd
        obtain ⟨⟨hlen, has⟩, rfl⟩ := (ih mid as' rest).mp ht
        refine ⟨⟨by rw [List.length_cons, hlen], ?_⟩, by simp⟩
        exact List.forall_mem_cons.mpr ⟨ha, has⟩
      · rintro ⟨⟨hlen, has⟩, rfl⟩
        cases as with
        | nil => cases hlen
        | cons a as' =>
            obtain ⟨ha, has'⟩ := List.forall_mem_cons.mp has
            refine ⟨a, as', as'.flatMap encode ++ rest, rfl, ?_, ?_⟩
            · exact (h _ a _).mpr ⟨ha, by simp⟩
            · exact (ih _ as' rest).mpr ⟨⟨Nat.succ.inj hlen, has'⟩, rfl⟩

/-- In a list only the last value can have its short form. -/
theorem ReadsEnd.times (h : ReadsEnd decode encode short Fits)
    (hnil : ∀ x, decode [] ≠ .ok x) (n : Nat) (bs rest : List β) (as : List α) :
    times decode n bs = .ok (as, rest) ↔
      (as.length = n ∧ ∀ a ∈ as, Fits a) ∧
        (bs = as.flatMap encode ++ rest ∨
          rest = [] ∧ ∃ init last tail, as = init ++ [last] ∧ short last = some tail ∧
            bs = init.flatMap encode ++ tail) := by
  induction n generalizing bs as with
  | zero =>
      simp only [Lib.times, Outcome.pure_eq_ok, Prod.mk.injEq, List.length_eq_zero_iff]
      constructor
      · intro h'
        obtain ⟨has, hbs⟩ := h'
        subst has hbs
        exact ⟨⟨rfl, (by simp)⟩, .inl rfl⟩
      · intro h'
        obtain ⟨⟨has, _⟩, hbs⟩ := h'
        subst has
        rcases hbs with hbs | ⟨_, init, last, tail, hnone, _⟩
        · exact ⟨rfl, hbs⟩
        · simp at hnone
  | succ n ih =>
      rw [times_succ_eq_ok]
      constructor
      · intro h'
        obtain ⟨a, as', mid, has, hd, ht⟩ := h'
        subst has
        obtain ⟨ha, hbs⟩ := (h bs a mid).mp hd
        obtain ⟨⟨hlen, has'⟩, hmid⟩ := (ih mid as').mp ht
        refine ⟨⟨by rw [List.length_cons, hlen], List.forall_mem_cons.mpr ⟨ha, has'⟩⟩, ?_⟩
        rcases hbs with hbs | ⟨hend, hshort⟩
        · subst hbs
          rcases hmid with hmid | ⟨hrest, init, last, tail, hlast, hshort, hmid⟩
          · exact .inl (by rw [hmid]; simp)
          · exact .inr ⟨hrest, a :: init, last, tail, by rw [hlast]; rfl, hshort,
              by rw [hmid]; simp⟩
        · -- the input is used up, so no value follows
          subst hend
          cases n with
          | zero =>
              obtain rfl : as' = [] := List.length_eq_zero_iff.mp hlen
              obtain rfl : rest = [] := by
                rcases hmid with hmid | ⟨hrest, -⟩
                · simpa using hmid.symm
                · exact hrest
              exact .inr ⟨rfl, [], a, bs, rfl, hshort, rfl⟩
          | succ n =>
              obtain ⟨b, _, mid, _, hd', _⟩ := times_succ_eq_ok.mp ht
              exact absurd hd' (hnil _)
      · intro h'
        obtain ⟨⟨hlen, has⟩, hbs⟩ := h'
        cases as with
        | nil => cases hlen
        | cons a as' =>
            obtain ⟨ha, has'⟩ := List.forall_mem_cons.mp has
            have hlen' : as'.length = n := Nat.succ.inj hlen
            rcases hbs with hbs | ⟨hrest, init, last, tail, hlast, hshort, hbs⟩
            · refine ⟨a, as', as'.flatMap encode ++ rest, rfl, ?_, ?_⟩
              · exact (h _ a _).mpr ⟨ha, .inl (by rw [hbs]; simp)⟩
              · exact (ih _ as').mpr ⟨⟨hlen', has'⟩, .inl rfl⟩
            · cases init with
              | nil =>
                  obtain ⟨rfl, rfl⟩ : a = last ∧ as' = [] := by simpa using hlast
                  refine ⟨a, [], [], rfl, ?_, ?_⟩
                  · exact (h _ a _).mpr ⟨ha, .inr ⟨rfl, by rw [hbs]; exact hshort⟩⟩
                  · exact (ih _ []).mpr ⟨⟨hlen', has'⟩, .inl (by rw [hrest]; rfl)⟩
              | cons b init =>
                  obtain ⟨rfl, rfl⟩ : a = b ∧ as' = init ++ [last] := by simpa using hlast
                  refine ⟨a, init ++ [last], init.flatMap encode ++ tail, rfl, ?_, ?_⟩
                  · exact (h _ a _).mpr ⟨ha, .inl (by rw [hbs]; simp)⟩
                  · exact (ih _ _).mpr ⟨⟨hlen', has'⟩,
                      .inr ⟨hrest, init, last, tail, rfl, hshort, rfl⟩⟩

end Lists

/-! ## Streams -/

/-- Reading again and again returns these values and then fails with `stop`. -/
inductive ReadAll (read : ρ → Outcome ε (α × ρ)) : ρ → List α → ε → Prop
  | stop {r : ρ} {stop : ε} (h : read r = .err stop) : ReadAll read r [] stop
  | next {r r' : ρ} {a : α} {as : List α} {stop : ε} (h : read r = .ok (a, r'))
      (hrest : ReadAll read r' as stop) : ReadAll read r (a :: as) stop

/-- Reading leaves no choice. -/
theorem ReadAll.unique {read : ρ → Outcome ε (α × ρ)} {r : ρ} {as bs : List α} {e f : ε}
    (ha : ReadAll read r as e) (hb : ReadAll read r bs f) : as = bs ∧ e = f := by
  induction ha generalizing bs with
  | stop h =>
      cases hb with
      | stop h' => rw [h] at h'; cases h'; exact ⟨rfl, rfl⟩
      | next h' _ => rw [h] at h'; cases h'
  | next h _ ih =>
      cases hb with
      | stop h' => rw [h] at h'; cases h'
      | next h' hrest =>
          rw [h] at h'
          cases h'
          obtain ⟨has, hef⟩ := ih hrest
          exact ⟨by rw [has], hef⟩

/-- The values whose encodings lie as a whole in the first `n` elements. -/
def wholeIn (encode : α → List β) : List α → Nat → List α
  | [], _ => []
  | a :: as, n =>
      if (encode a).length ≤ n then a :: wholeIn encode as (n - (encode a).length) else []

/-- A stream of encodings cut at an arbitrary place. -/
theorem readAll_cut {read : ρ → Outcome ε (α × ρ)} {encode : α → List β} {Fits : α → Prop}
    (source : List β → ρ) (Eof : ε → Prop)
    (hwhole : ∀ a rest, Fits a → read (source (encode a ++ rest)) = .ok (a, source rest))
    (hcut : ∀ a bs, Fits a → bs <+: encode a → bs.length < (encode a).length →
      ∃ e, Eof e ∧ read (source bs) = .err e)
    (hnil : ∃ e, Eof e ∧ read (source []) = .err e) (as : List α) (has : ∀ a ∈ as, Fits a)
    (bs : List β) (hbs : bs <+: as.flatMap encode) :
    ∃ e, Eof e ∧ ReadAll read (source bs) (wholeIn encode as bs.length) e := by
  induction as generalizing bs with
  | nil =>
      obtain rfl : bs = [] := List.prefix_nil.mp hbs
      obtain ⟨e, heof, he⟩ := hnil
      exact ⟨e, heof, .stop he⟩
  | cons a as ih =>
      obtain ⟨ha, has'⟩ := List.forall_mem_cons.mp has
      rw [List.flatMap_cons] at hbs
      have hself : encode a <+: encode a ++ as.flatMap encode := List.prefix_append _ _
      by_cases hlen : (encode a).length ≤ bs.length
      · -- the first encoding is there as a whole
        obtain ⟨rest, rfl⟩ := List.prefix_of_prefix_length_le hself hbs hlen
        have hrest : rest <+: as.flatMap encode := (List.prefix_append_right_inj _).mp hbs
        obtain ⟨e, heof, hall⟩ := ih has' rest hrest
        refine ⟨e, heof, ?_⟩
        rw [wholeIn, if_pos hlen, List.length_append, Nat.add_sub_cancel_left]
        exact .next (hwhole a rest ha) hall
      · have hpre : bs <+: encode a := List.prefix_of_prefix_length_le hbs hself (by omega)
        obtain ⟨e, heof, he⟩ := hcut a bs ha hpre (by omega)
        rw [wholeIn, if_neg hlen]
        exact ⟨e, heof, .stop he⟩

end FlyVault.Lib
