import Mathlib.Tactic.SplitIfs
import Mathlib.Algebra.Group.Nat.Defs
import Mathlib.Algebra.Ring.Int.Defs

/-!
# Integers of a fixed width

The value that an integer has after it was converted to a signed or unsigned type of a given
number of bits, and how the two compare with it.
-/

namespace XenShm.Library

variable {bits : Nat} {i : Int}

/-- An integer converted to a signed type of so many bits, as C compilers do it. -/
def toSigned (bits : Nat) (i : Int) : Int := i.bmod (2 ^ bits)

/-- An integer converted to an unsigned type of so many bits. -/
def toUnsigned (bits : Nat) (i : Int) : Nat := (i % 2 ^ bits).toNat

/-- A signed value lies in the range of its type. -/
theorem toSigned_range (bits : Nat) (i : Int) :
    -2 ^ bits ≤ toSigned (bits + 1) i ∧ toSigned (bits + 1) i < 2 ^ bits := by
  have hpos : (0 : Int) < 2 ^ bits := Int.pow_pos (by decide)
  have hmod := Int.emod_nonneg i (show (2 : Int) ^ bits * 2 ≠ 0 by omega)
  have hlt := Int.emod_lt_of_pos i (show (0 : Int) < 2 ^ bits * 2 by omega)
  rw [toSigned, Int.bmod_def]
  push_cast
  rw [Int.pow_succ]
  split_ifs <;> omega

/-- A value in the range of the signed type is kept by the conversion. -/
theorem toSigned_of_range (hlo : -2 ^ bits ≤ i) (hhi : i < 2 ^ bits) :
    toSigned (bits + 1) i = i := by
  rw [toSigned]
  refine Int.bmod_eq_of_le ?_ ?_
  · push_cast
    rw [Int.pow_succ]
    omega
  · push_cast
    rw [Int.pow_succ]
    omega

/-- No conversion makes a value that is not negative larger. -/
theorem toSigned_le (hi : 0 ≤ i) : toSigned bits i ≤ i := by
  have hle : i % ((2 ^ bits : Nat) : Int) ≤ i := by
    obtain ⟨n, rfl⟩ := Int.eq_ofNat_of_zero_le hi
    exact_mod_cast Nat.mod_le n (2 ^ bits)
  rw [toSigned, Int.bmod_def]
  split_ifs <;> omega

/-- A natural number is reduced modulo the number of values of the type. -/
theorem toUnsigned_natCast (bits n : Nat) : toUnsigned bits n = n % 2 ^ bits := by
  have hmod : (n : Int) % 2 ^ bits = (n % 2 ^ bits : Nat) := by
    push_cast
    rfl
  rw [toUnsigned, hmod, Int.toNat_natCast]

/-- A value in the range of the unsigned type is kept by the conversion. -/
theorem toUnsigned_of_range (hlo : 0 ≤ i) (hhi : i < 2 ^ bits) : toUnsigned bits i = i.toNat := by
  rw [toUnsigned, Int.emod_eq_of_lt hlo hhi]

/-- A negative value becomes a large one of the unsigned type. -/
theorem toUnsigned_of_neg (hlo : -2 ^ bits ≤ i) (hneg : i < 0) :
    (toUnsigned bits i : Int) = 2 ^ bits + i := by
  have hmod : i % 2 ^ bits = 2 ^ bits + i := by
    rw [← Int.add_emod_left]
    exact Int.emod_eq_of_lt (by omega) (by omega)
  rw [toUnsigned, hmod]
  omega

end XenShm.Library
