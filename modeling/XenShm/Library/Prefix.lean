import Mathlib.Logic.Function.Basic

/-!
# Arrays written from the front

An array is a function of the index. A loop that writes one entry after the other has written
a prefix of it.
-/

namespace XenShm.Library

variable {α : Type*} {f g old : Nat → α} {i n : Nat}

/-- The array after its first `n` entries were written. -/
def writeBelow (f old : Nat → α) (n : Nat) : Nat → α := fun i => if i < n then f i else old i

@[simp] theorem writeBelow_zero (f old : Nat → α) : writeBelow f old 0 = old := rfl

/-- Below the bound the entries are the written ones. -/
theorem writeBelow_of_lt (h : i < n) : writeBelow f old n i = f i := if_pos h

/-- From the bound on the entries are the old ones. -/
theorem writeBelow_of_le (h : n ≤ i) : writeBelow f old n i = old i := if_neg (by omega)

@[simp] theorem writeBelow_self (f old : Nat → α) (n : Nat) : writeBelow f old n n = old n :=
  writeBelow_of_le (Nat.le_refl n)

/-- Only the entries below the bound matter among the written ones. -/
theorem writeBelow_congr (h : ∀ i < n, f i = g i) : writeBelow f old n = writeBelow g old n := by
  funext i
  by_cases hlt : i < n
  · rw [writeBelow_of_lt hlt, writeBelow_of_lt hlt, h i hlt]
  · rw [writeBelow_of_le (by omega), writeBelow_of_le (by omega)]

/-- One more turn of the loop writes the entry at the bound. -/
theorem update_writeBelow (f old : Nat → α) (n : Nat) :
    Function.update (writeBelow f old n) n (f n) = writeBelow f old (n + 1) := by
  funext i
  by_cases h : i = n
  · subst h
    rw [Function.update_self, writeBelow_of_lt (Nat.lt_succ_self i)]
  · rw [Function.update_of_ne h]
    by_cases hlt : i < n
    · rw [writeBelow_of_lt hlt, writeBelow_of_lt (by omega)]
    · rw [writeBelow_of_le (by omega), writeBelow_of_le (by omega)]

end XenShm.Library
