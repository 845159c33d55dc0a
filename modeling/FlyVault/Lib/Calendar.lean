/-
  The Gregorian calendar, extended backwards, and the text of a point in time after RFC 3339.

  Days and milliseconds are counted from the beginning of the year 0. `dateOf` finds the year by an
  estimate that is off by at most one (`yearOf_spec`) and then walks through the months;
  `dayOf_dateOf` is its inverse. `rfc3339` writes a point in time of the years 0 to 9999 in UTC,
  with as many digits for the fraction of a second as it needs, and different points in time have
  different texts (`rfc3339_injective`).
-/
import Mathlib.Algebra.Ring.Nat

namespace FlyVault.Lib.Calendar

/-! ## Dates -/

def isLeap (year : Nat) : Bool :=
  year % 4 == 0 && (year % 100 != 0 || year % 400 == 0)

/-- The days before the first day of the year. -/
def daysBefore (year : Nat) : Nat :=
  365 * year + (year + 3) / 4 - (year + 99) / 100 + (year + 399) / 400

def yearOf (day : Nat) : Nat :=
  let year := day * 400 / 146097
  if daysBefore (year + 1) ≤ day then year + 1
  else if daysBefore year ≤ day then year
  else year - 1

def monthLengths (year : Nat) : List Nat :=
  [31, if isLeap year then 29 else 28, 31, 30, 31, 30, 31, 31, 30, 31, 30, 31]

/-- The month in which a day of the year falls, and the days of it before that one. -/
def findMonth : List Nat → Nat → Nat × Nat
  | [], day => (0, day)
  | length :: rest, day =>
      if day < length then (0, day)
      else ((findMonth rest (day - length)).1 + 1, (findMonth rest (day - length)).2)

structure Date where
  year : Nat
  month : Nat
  day : Nat
  deriving DecidableEq, Repr

def dateOf (day : Nat) : Date :=
  let year := yearOf day
  let found := findMonth (monthLengths year) (day - daysBefore year)
  ⟨year, found.1 + 1, found.2 + 1⟩

def dayOf (date : Date) : Nat :=
  daysBefore date.year + ((monthLengths date.year).take (date.month - 1)).sum + (date.day - 1)

theorem yearOf_spec (day : Nat) :
    daysBefore (yearOf day) ≤ day ∧ day < daysBefore (yearOf day + 1) := by
  have hlow : 146097 * (day * 400 / 146097) ≤ day * 400 := Nat.mul_div_le ..
  have hhigh : day * 400 < 146097 * (day * 400 / 146097 + 1) := by omega
  unfold yearOf
  dsimp only
  generalize day * 400 / 146097 = year at *
  split
  · next h =>
      refine ⟨h, ?_⟩
      unfold daysBefore
      omega
  · split
    · next hlate h => exact ⟨h, by omega⟩
    · next h =>
        cases year with
        | zero => exact absurd (Nat.zero_le day) h
        | succ year =>
            rw [Nat.add_sub_cancel]
            refine ⟨?_, by omega⟩
            unfold daysBefore
            omega

/-- Of the years that 4 divides, those that 100 divides and 400 does not are not leap years. -/
theorem leap_day (year : Nat) :
    (if isLeap year then 29 else 28) + (if year % 100 = 0 then 1 else 0) =
      28 + (if year % 4 = 0 then 1 else 0) + if year % 400 = 0 then 1 else 0 := by
  by_cases h400 : year % 400 = 0
  · have h100 : year % 100 = 0 := by omega
    have h4 : year % 4 = 0 := by omega
    simp [isLeap, h4, h100, h400]
  · by_cases h100 : year % 100 = 0
    · have h4 : year % 4 = 0 := by omega
      simp [isLeap, h4, h100, h400]
    · by_cases h4 : year % 4 = 0
      · simp [isLeap, h4, h100, h400]
      · simp [isLeap, h4, h100, h400]

/-- A year has as many days as its months. -/
theorem daysBefore_succ (year : Nat) :
    daysBefore (year + 1) = daysBefore year + (monthLengths year).sum := by
  have hmonths : (monthLengths year).sum = 337 + if isLeap year then 29 else 28 := by
    simp only [monthLengths, List.sum_cons, List.sum_nil]
    omega
  have h4 : (year + 1 + 3) / 4 = (year + 3) / 4 + if year % 4 = 0 then 1 else 0 := by
    split
    · omega
    · omega
  have h100 : (year + 1 + 99) / 100 = (year + 99) / 100 + if year % 100 = 0 then 1 else 0 := by
    split
    · omega
    · omega
  have h400 : (year + 1 + 399) / 400 = (year + 399) / 400 + if year % 400 = 0 then 1 else 0 := by
    split
    · omega
    · omega
  have hsub : (year + 99) / 100 ≤ 365 * year + (year + 3) / 4 := by omega
  have hleap := leap_day year
  rw [hmonths]
  unfold daysBefore
  rw [h4, h100, h400]
  omega

theorem findMonth_spec {lengths : List Nat} {day : Nat} (h : day < lengths.sum) :
    (findMonth lengths day).1 < lengths.length ∧
    (lengths.take (findMonth lengths day).1).sum + (findMonth lengths day).2 = day ∧
    ∃ length ∈ lengths, (findMonth lengths day).2 < length := by
  induction lengths generalizing day with
  | nil => cases h
  | cons length rest ih =>
      unfold findMonth
      split
      · next hlt =>
          exact ⟨Nat.succ_pos _, by simp, length, List.mem_cons_self, hlt⟩
      · next hge =>
          rw [List.sum_cons] at h
          have hrest : day - length < rest.sum := by omega
          obtain ⟨hindex, hsum, bound, hbound, hlt⟩ := ih hrest
          refine ⟨Nat.succ_lt_succ hindex, ?_, bound, List.mem_cons_of_mem _ hbound, hlt⟩
          dsimp only
          rw [List.take_succ_cons, List.sum_cons]
          omega

theorem dayOfYear_lt (day : Nat) :
    day - daysBefore (yearOf day) < (monthLengths (yearOf day)).sum := by
  obtain ⟨hle, hlt⟩ := yearOf_spec day
  rw [daysBefore_succ] at hlt
  omega

theorem dayOf_dateOf (day : Nat) : dayOf (dateOf day) = day := by
  obtain ⟨hle, -⟩ := yearOf_spec day
  obtain ⟨-, hsum, -⟩ := findMonth_spec (dayOfYear_lt day)
  unfold dayOf dateOf
  dsimp only
  rw [Nat.add_sub_cancel, Nat.add_sub_cancel]
  omega

theorem dateOf_month_le (day : Nat) : (dateOf day).month ≤ 12 :=
  (findMonth_spec (dayOfYear_lt day)).1

theorem dateOf_day_le (day : Nat) : (dateOf day).day ≤ 31 := by
  obtain ⟨-, -, length, hlength, hlt⟩ := findMonth_spec (dayOfYear_lt day)
  have hlong : ∀ length ∈ monthLengths (yearOf day), length ≤ 31 := by
    intro length hlength
    simp only [monthLengths, List.mem_cons, List.not_mem_nil, or_false] at hlength
    split at hlength
    · omega
    · omega
  exact Nat.le_trans hlt (hlong length hlength)

theorem dateOf_year_lt {day : Nat} (h : day < daysBefore 10000) : (dateOf day).year < 10000 := by
  obtain ⟨hle, -⟩ := yearOf_spec day
  show yearOf day < 10000
  unfold daysBefore at *
  omega

/-! ## Digits -/

def digit (n : Nat) : Char := Nat.digitChar (n % 10)

def pad2 (n : Nat) : List Char := [digit (n / 10), digit n]

def pad4 (n : Nat) : List Char := pad2 (n / 100) ++ pad2 n

theorem toNat_digit (n : Nat) : (digit n).toNat = 48 + n % 10 := by
  have hdigits : ∀ i < 10, (Nat.digitChar i).toNat = 48 + i := by decide
  exact hdigits _ (Nat.mod_lt n (by decide))

theorem digit_injective {a b : Nat} (h : digit a = digit b) : a % 10 = b % 10 := by
  have htoNat := congrArg Char.toNat h
  rw [toNat_digit, toNat_digit] at htoNat
  omega

theorem pad2_injective {a b : Nat} (ha : a < 100) (hb : b < 100) (h : pad2 a = pad2 b) :
    a = b := by
  simp only [pad2, List.cons.injEq, and_true] at h
  obtain ⟨htens, hones⟩ := h
  have htens' := digit_injective htens
  have hones' := digit_injective hones
  omega

theorem pad4_injective {a b : Nat} (ha : a < 10000) (hb : b < 10000) (h : pad4 a = pad4 b) :
    a = b := by
  simp only [pad4, pad2, List.cons_append, List.nil_append, List.cons.injEq, and_true] at h
  obtain ⟨hthousands, hhundreds, htens, hones⟩ := h
  have hthousands' := digit_injective hthousands
  have hhundreds' := digit_injective hhundreds
  have htens' := digit_injective htens
  have hones' := digit_injective hones
  omega

theorem pad2_append_injective {a b : Nat} {rest rest' : List Char} (ha : a < 100) (hb : b < 100)
    (h : pad2 a ++ rest = pad2 b ++ rest') : a = b ∧ rest = rest' := by
  obtain ⟨hpad, hrest⟩ := List.append_inj h rfl
  exact ⟨pad2_injective ha hb hpad, hrest⟩

theorem pad4_append_injective {a b : Nat} {rest rest' : List Char} (ha : a < 10000)
    (hb : b < 10000) (h : pad4 a ++ rest = pad4 b ++ rest') : a = b ∧ rest = rest' := by
  obtain ⟨hpad, hrest⟩ := List.append_inj h rfl
  exact ⟨pad4_injective ha hb hpad, hrest⟩

/-- The fraction of a second, without zeros at its end. -/
def fraction (millis : Nat) : List Char :=
  if millis = 0 then []
  else if millis % 10 ≠ 0 then ['.', digit (millis / 100), digit (millis / 10), digit millis]
  else if millis / 10 % 10 ≠ 0 then ['.', digit (millis / 100), digit (millis / 10)]
  else ['.', digit (millis / 100)]

/-- The milliseconds of a fraction. -/
def readFraction : List Char → Nat
  | [_, a] => 100 * (a.toNat - 48)
  | [_, a, b] => 100 * (a.toNat - 48) + 10 * (b.toNat - 48)
  | [_, a, b, c] => 100 * (a.toNat - 48) + 10 * (b.toNat - 48) + (c.toNat - 48)
  | _ => 0

theorem readFraction_fraction {millis : Nat} (h : millis < 1000) :
    readFraction (fraction millis) = millis := by
  unfold fraction
  split
  · next hzero =>
      rw [hzero]
      rfl
  · split
    · simp only [readFraction, toNat_digit]
      omega
    · split
      · simp only [readFraction, toNat_digit]
        omega
      · simp only [readFraction, toNat_digit]
        omega

theorem fraction_injective {a b : Nat} (ha : a < 1000) (hb : b < 1000)
    (h : fraction a = fraction b) : a = b := by
  rw [← readFraction_fraction ha, ← readFraction_fraction hb, h]

/-! ## The text -/

/-- The milliseconds of a day. -/
def dayMillis : Nat := 86400000

def rfc3339 (millis : Nat) : List Char :=
  let date := dateOf (millis / dayMillis)
  let time := millis % dayMillis
  pad4 date.year ++ '-' :: (pad2 date.month ++ '-' :: (pad2 date.day ++ 'T' ::
    (pad2 (time / 3600000) ++ ':' :: (pad2 (time / 60000 % 60) ++ ':' ::
      (pad2 (time / 1000 % 60) ++ (fraction (time % 1000) ++ ['Z']))))))

theorem rfc3339_injective {a b : Nat} (ha : a < daysBefore 10000 * dayMillis)
    (hb : b < daysBefore 10000 * dayMillis) (h : rfc3339 a = rfc3339 b) : a = b := by
  unfold rfc3339 at h
  dsimp only at h
  have hyears : ∀ {millis}, millis < daysBefore 10000 * dayMillis →
      (dateOf (millis / dayMillis)).year < 10000 := by
    intro millis hmillis
    exact dateOf_year_lt (Nat.div_lt_of_lt_mul (Nat.mul_comm .. ▸ hmillis))
  have hmonths : ∀ day, (dateOf day).month < 100 := fun day =>
    Nat.lt_of_le_of_lt (dateOf_month_le day) (by decide)
  have hdays : ∀ day, (dateOf day).day < 100 := fun day =>
    Nat.lt_of_le_of_lt (dateOf_day_le day) (by decide)
  obtain ⟨hyear, h⟩ := pad4_append_injective (hyears ha) (hyears hb) h
  obtain ⟨hmonth, h⟩ := pad2_append_injective (hmonths _) (hmonths _) (List.cons.inj h).2
  obtain ⟨hday, h⟩ := pad2_append_injective (hdays _) (hdays _) (List.cons.inj h).2
  have hdate : a / dayMillis = b / dayMillis := by
    rw [← dayOf_dateOf (a / dayMillis), ← dayOf_dateOf (b / dayMillis), dayOf, dayOf, hyear,
      hmonth, hday]
  clear ha hb hyear hmonth hday
  unfold dayMillis at *
  obtain ⟨hhour, h⟩ := pad2_append_injective (by omega) (by omega) (List.cons.inj h).2
  obtain ⟨hminute, h⟩ := pad2_append_injective (by omega) (by omega) (List.cons.inj h).2
  obtain ⟨hsecond, h⟩ := pad2_append_injective (by omega) (by omega) (List.cons.inj h).2
  have hmillis := fraction_injective (by omega) (by omega) (List.append_cancel_right h)
  omega

example : String.ofList (rfc3339 63750153600005) = "2020-02-29T00:00:00.005Z" := by
  decide +kernel

end FlyVault.Lib.Calendar
