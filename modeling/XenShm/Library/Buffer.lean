import Mathlib.Data.List.Basic
import Mathlib.Data.Set.Function
import Mathlib.Logic.Function.Basic
import Mathlib.Order.Interval.Set.Defs
import Mathlib.Tactic.Common

/-!
# Byte buffers

A buffer is a function from offsets to bytes. A received message fills its beginning
and leaves what was there before behind it. Words are stored with the least
significant byte first.
-/

namespace XenShm.Library

/-- A buffer in memory, with a byte at each offset and no end. -/
abbrev Buffer := Nat → UInt8

namespace Buffer

variable {b b' : Buffer} {a i n : Nat}

/-- What is in the buffer after some bytes were received into it. -/
def fill (bytes : List UInt8) (old : Buffer) : Buffer := fun i => bytes[i]?.getD (old i)

/-- The first bytes of the buffer, as they are sent. -/
def dump (b : Buffer) (n : Nat) : List UInt8 := (List.range n).map b

/-- Store one byte at an offset and leave the others. -/
def put (b : Buffer) (a : Nat) (v : UInt8) : Buffer := Function.update b a v

/-- Load a word of four bytes, the least significant one first. -/
def load32 (b : Buffer) (a : Nat) : BitVec 32 :=
  (b (a + 3)).toBitVec ++ (b (a + 2)).toBitVec ++ (b (a + 1)).toBitVec ++ (b a).toBitVec

/-- Store a word of four bytes, the least significant one first. -/
def store32 (b : Buffer) (a : Nat) (v : BitVec 32) : Buffer := fun i =>
  if a ≤ i ∧ i < a + 4 then ⟨v.extractLsb' (8 * (i - a)) 8⟩ else b i

@[simp] theorem length_dump : (dump b n).length = n := by simp [dump]

/-- The received part of a buffer is the message. -/
theorem fill_of_lt {bytes : List UInt8} (h : i < bytes.length) :
    fill bytes b i = bytes[i] := by simp [fill, h]

/-- To receive what was sent is to have the bytes of the sender below the length. -/
theorem fill_dump (h : i < n) : fill (dump b n) b' i = b i := by simp [fill, dump, h]

@[simp] theorem put_self {v : UInt8} : put b a v a = v := by simp [put]

@[simp] theorem put_of_ne {v : UInt8} (h : i ≠ a) : put b a v i = b i := by simp [put, h]

/-- A stored word leaves the other bytes alone. -/
theorem store32_of_not_mem {v : BitVec 32} (h : i < a ∨ a + 4 ≤ i) : store32 b a v i = b i := by
  rw [store32, if_neg (by omega)]

/-- Only the four bytes of a word matter. -/
theorem load32_congr (h : Set.EqOn b b' (Set.Ico a (a + 4))) : load32 b a = load32 b' a := by
  have hbyte : ∀ k < 4, b (a + k) = b' (a + k) := fun k hk => h ⟨by omega, by omega⟩
  have hfirst := hbyte 0 (by omega)
  rw [Nat.add_zero] at hfirst
  rw [load32, load32, hfirst, hbyte 1 (by omega), hbyte 2 (by omega), hbyte 3 (by omega)]

/-- A stored word is the one that is loaded from the same offset. -/
theorem load32_store32 (b : Buffer) (a : Nat) (v : BitVec 32) : load32 (store32 b a v) a = v := by
  have hbyte : ∀ k, k < 4 → store32 b a v (a + k) = ⟨v.extractLsb' (8 * k) 8⟩ := by
    intro k hk
    rw [store32, if_pos (by omega), Nat.add_sub_cancel_left]
  have hzero := hbyte 0 (by omega)
  rw [Nat.add_zero] at hzero
  rw [load32, hzero, hbyte 1 (by omega), hbyte 2 (by omega), hbyte 3 (by omega)]
  apply BitVec.eq_of_getLsbD_eq
  intro i hi
  simp only [BitVec.getLsbD_append, BitVec.getLsbD_extractLsb']
  split_ifs <;> simp <;> grind

/-- To store a word leaves another one alone that does not overlap with it. -/
theorem load32_store32_of_disjoint {v : BitVec 32} {c : Nat} (h : a + 4 ≤ c ∨ c + 4 ≤ a) :
    load32 (store32 b c v) a = load32 b a := by
  refine load32_congr fun _ hi => store32_of_not_mem ?_
  rw [Set.mem_Ico] at hi
  omega

/-- Storing one byte leaves the words alone that do not contain it. -/
theorem load32_put {v : UInt8} {c : Nat} (h : c < a ∨ a + 4 ≤ c) :
    load32 (put b c v) a = load32 b a := by
  refine load32_congr fun _ hi => put_of_ne ?_
  rw [Set.mem_Ico] at hi
  omega

/-- A word that was sent as a whole is loaded from what was received. -/
theorem load32_fill_dump (h : a + 4 ≤ n) : load32 (fill (dump b n) b') a = load32 b a :=
  load32_congr fun _ hi => fill_dump (Nat.lt_of_lt_of_le hi.2 h)

/-! Two buffers that are the same at some offsets. -/

/-- The received part of a buffer does not depend on what was there before. -/
theorem eqOn_fill (bytes : List UInt8) (old old' : Buffer) :
    Set.EqOn (fill bytes old) (fill bytes old') (Set.Iio bytes.length) := by
  intro i hi
  rw [fill_of_lt hi, fill_of_lt hi]

/-- What is sent from two buffers is the same when they begin in the same way. -/
theorem dump_congr (h : Set.EqOn b b' (Set.Iio n)) : b.dump n = b'.dump n :=
  List.map_congr_left fun _ hi => h (List.mem_range.mp hi)

/-- A byte that is stored in both buffers is the same there. -/
theorem eqOn_put {s : Set Nat} {v : UInt8} (h : Set.EqOn b b' s) :
    Set.EqOn (b.put a v) (b'.put a v) (insert a s) := by
  intro i hi
  by_cases he : i = a
  · rw [he, put_self, put_self]
  · rw [put_of_ne he, put_of_ne he, h (Set.mem_of_mem_insert_of_ne hi he)]

/-- A word that is stored in both buffers is the same there. -/
theorem eqOn_store32 {s : Set Nat} {v : BitVec 32} (h : Set.EqOn b b' s) :
    Set.EqOn (b.store32 a v) (b'.store32 a v) (Set.Ico a (a + 4) ∪ s) := by
  intro i hi
  unfold store32
  split
  · rfl
  · rename_i hout
    exact h (hi.resolve_left hout)

end Buffer

end XenShm.Library
