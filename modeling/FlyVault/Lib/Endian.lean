/-
  Fixed-width integers as byte strings, in both byte orders.

  `leNat` and `beNat` read a byte string of any length; `leBytes k n` and `beBytes k n` write
  the `k` low bytes of `n`, so a value that does not fit is truncated, as an `as` cast to a
  narrower integer does. What is written and fits is read back (`leNat_leBytes`,
  `beNat_beBytes`), and what is read is written back (`leBytes_leNat`, `beBytes_beNat`);
  of a value that does not fit, the remainder is written (`beBytes_mod`).
-/
import Mathlib.Algebra.Group.Nat.Defs

namespace FlyVault.Lib

/-- The number a byte string spells, low byte first. -/
def leNat : List UInt8 → Nat
  | [] => 0
  | b :: bs => b.toNat + 256 * leNat bs

/-- The `k` low bytes of `n`, low byte first. -/
def leBytes : Nat → Nat → List UInt8
  | 0, _ => []
  | k + 1, n => UInt8.ofNat n :: leBytes k (n / 256)

/-- The number a byte string spells, high byte first. -/
def beNat (bs : List UInt8) : Nat := leNat bs.reverse

/-- The `k` low bytes of `n`, high byte first. -/
def beBytes (k n : Nat) : List UInt8 := (leBytes k n).reverse

@[simp] theorem length_leBytes (k n : Nat) : (leBytes k n).length = k := by
  induction k generalizing n with
  | zero => rfl
  | succ k ih => simp [leBytes, ih]

@[simp] theorem length_beBytes (k n : Nat) : (beBytes k n).length = k := by
  simp [beBytes]

theorem leNat_lt (bs : List UInt8) : leNat bs < 256 ^ bs.length := by
  induction bs with
  | nil => simp [leNat]
  | cons b bs ih =>
      have hb : b.toNat < 256 := b.toNat_lt
      simp only [leNat, List.length_cons, Nat.pow_succ]
      omega

theorem leNat_leBytes (k n : Nat) (h : n < 256 ^ k) : leNat (leBytes k n) = n := by
  induction k generalizing n with
  | zero =>
      simp only [Nat.pow_zero] at h
      simp only [leBytes, leNat]
      omega
  | succ k ih =>
      rw [Nat.pow_succ] at h
      have hq : n / 256 < 256 ^ k := by omega
      simp only [leBytes, leNat, ih _ hq, UInt8.toNat_ofNat']
      omega

theorem beNat_lt (bs : List UInt8) : beNat bs < 256 ^ bs.length := by
  simpa [beNat] using leNat_lt bs.reverse

theorem leBytes_leNat (bs : List UInt8) : leBytes bs.length (leNat bs) = bs := by
  induction bs with
  | nil => rfl
  | cons b bs ih =>
      have hb : b.toNat < 256 := b.toNat_lt
      have hdiv : (b.toNat + 256 * leNat bs) / 256 = leNat bs := by omega
      have hlow : UInt8.ofNat (b.toNat + 256 * leNat bs) = b := by
        apply UInt8.toNat_inj.mp
        rw [UInt8.toNat_ofNat']
        omega
      simp only [List.length_cons, leNat, leBytes, hdiv, hlow, ih]

theorem beNat_beBytes (k n : Nat) (h : n < 256 ^ k) : beNat (beBytes k n) = n := by
  simp [beNat, beBytes, leNat_leBytes k n h]

theorem beBytes_beNat (bs : List UInt8) : beBytes bs.length (beNat bs) = bs := by
  have h := leBytes_leNat bs.reverse
  rw [List.length_reverse] at h
  simp [beNat, beBytes, h]

theorem leBytes_mod (k n : Nat) : leBytes k (n % 256 ^ k) = leBytes k n := by
  induction k generalizing n with
  | zero => rfl
  | succ k ih =>
      have hlow : n % (256 ^ k * 256) % 256 = n % 256 :=
        Nat.mod_mod_of_dvd n (Nat.dvd_mul_left 256 (256 ^ k))
      have hhigh : n % (256 ^ k * 256) / 256 = n / 256 % 256 ^ k :=
        Nat.mod_mul_left_div_self n 256 (256 ^ k)
      have hbyte : UInt8.ofNat (n % (256 ^ k * 256)) = UInt8.ofNat n := by
        apply UInt8.toNat_inj.mp
        rw [UInt8.toNat_ofNat', UInt8.toNat_ofNat']
        exact hlow
      rw [Nat.pow_succ, leBytes, leBytes, hbyte, hhigh, ih]

theorem beBytes_mod (k n : Nat) : beBytes k (n % 256 ^ k) = beBytes k n := by
  rw [beBytes, beBytes, leBytes_mod]

end FlyVault.Lib
