import Mathlib.Data.List.Basic
import Mathlib.Data.Nat.ModEq

/-!
# Streams stored in a ring of slots

A single producer and a single consumer number the elements of one unbounded
stream; element `k` lives in slot `k % n` of a ring with `n` slots. Positions are
kept modulo `n`, except that a cursor may rest on `n` itself until it is rewound.
-/

namespace XenShm.Library

/-- The cursor `pos` of a party that has passed `count` elements; `n` stands for `0`
until the cursor is rewound. -/
def CursorAt (n pos count : Nat) : Prop := pos ≤ n ∧ pos % n = count % n

/-- The number of slots a cursor may pass in one straight run towards a limit. -/
def straight (n pos limit : Nat) : Nat := if pos ≤ limit then limit - pos else n - pos

section Cursor

variable {n pos count limit bound k : Nat}

/-- The remainder of a count is a cursor for it. -/
theorem cursorAt_mod (hn : 0 < n) : CursorAt n (count % n) count :=
  ⟨(Nat.mod_lt _ hn).le, Nat.mod_mod _ _⟩

/-- A cursor off the end is the residue of its count. -/
theorem CursorAt.eq_mod (h : CursorAt n pos count) (hlt : pos < n) : pos = count % n := by
  rw [← h.2, Nat.mod_eq_of_lt hlt]

/-- Rewinding gives the residue of the count in both cases. -/
theorem CursorAt.rewind (h : CursorAt n pos count) :
    (if pos = n then 0 else pos) = count % n := by
  split
  · rename_i he
    rw [← h.2, he, Nat.mod_self]
  · rename_i he
    exact h.eq_mod (Nat.lt_of_le_of_ne h.1 he)

/-- A straight run of `k` elements moves cursor and count together. -/
theorem CursorAt.advance (h : CursorAt n pos count) (hk : pos + k ≤ n) :
    CursorAt n (pos + k) (count + k) :=
  ⟨hk, Nat.ModEq.add_right k h.2⟩

/-- The distance to a bound less than one round away, read off the two residues. -/
theorem mod_add_cases (hle : count ≤ bound) (hlt : bound < count + n) :
    (count % n ≤ bound % n ∧ bound - count = bound % n - count % n) ∨
      (bound % n < count % n ∧ bound - count = n - count % n + bound % n) := by
  have hn : 0 < n := by omega
  obtain ⟨d, rfl⟩ := Nat.exists_eq_add_of_le hle
  have hd : d < n := by omega
  have hc := Nat.mod_lt count hn
  have hb : (count + d) % n = (count % n + d) % n := (Nat.mod_add_mod count n d).symm
  by_cases hw : count % n + d < n
  · rw [Nat.mod_eq_of_lt hw] at hb
    omega
  · have hsub : (count % n + d) % n = count % n + d - n := by
      rw [Nat.mod_eq_sub_mod (Nat.le_of_not_lt hw), Nat.mod_eq_of_lt (by omega)]
    omega

/-- Residues less than one round apart agree only for equal counts. -/
theorem mod_eq_mod_iff (hle : count ≤ bound) (hlt : bound < count + n) :
    count % n = bound % n ↔ count = bound := by
  have hc := Nat.mod_lt count (show 0 < n by omega)
  have h := mod_add_cases hle hlt
  constructor
  · omega
  · rintro rfl
    rfl

/-- The distance from one slot on to another. -/
theorem add_sub_mod {i j : Nat} (hi : i < n) (hj : j < n) :
    (j + n - i) % n = if i ≤ j then j - i else j + n - i := by
  split
  · rw [show j + n - i = j - i + n by omega, Nat.add_mod_right, Nat.mod_eq_of_lt (by omega)]
  · rw [Nat.mod_eq_of_lt (by omega)]

/-- Every slot of the ring is met within one round from any count on. -/
theorem exists_mod_eq {r : Nat} (hr : r < n) (count : Nat) :
    ∃ d, d % n = r ∧ count ≤ d ∧ d < count + n := by
  have hdiv := Nat.div_add_mod count n
  have hc := Nat.mod_lt count (show 0 < n by omega)
  by_cases hle : count % n ≤ r
  · refine ⟨n * (count / n) + r, ?_, by omega, by omega⟩
    rw [Nat.mul_add_mod, Nat.mod_eq_of_lt hr]
  · refine ⟨n * (count / n + 1) + r, ?_, ?_, ?_⟩
    · rw [Nat.mul_add_mod, Nat.mod_eq_of_lt hr]
    · rw [Nat.mul_add, Nat.mul_one]
      omega
    · rw [Nat.mul_add, Nat.mul_one]
      omega

/-- A straight run stays inside the ring and never passes the bound. -/
theorem straight_spec (hle : count ≤ bound) (hlt : bound < count + n) :
    straight n (count % n) (bound % n) ≤ bound - count ∧
      count % n + straight n (count % n) (bound % n) ≤ n ∧
      (count % n ≠ bound % n → 0 < straight n (count % n) (bound % n)) := by
  have h := mod_add_cases hle hlt
  have hc := Nat.mod_lt count (show 0 < n by omega)
  have hb := Nat.mod_lt bound (show 0 < n by omega)
  unfold straight
  split <;> omega

end Cursor

section Slots

variable {α : Type*}

/-- The `n` consecutive cells of `cells` from address `a` on. -/
def segment (cells : Nat → α) (a n : Nat) : List α := (List.range n).map fun i => cells (a + i)

/-- Overwrite the cells from address `a` on with the elements of `xs`. -/
def overwrite (cells : Nat → α) (a : Nat) (xs : List α) : Nat → α := fun i =>
  if a ≤ i then (xs[i - a]?).getD (cells i) else cells i

@[simp] theorem length_segment (cells : Nat → α) (a n : Nat) :
    (segment cells a n).length = n := by simp [segment]

@[simp] theorem segment_zero (cells : Nat → α) (a : Nat) : segment cells a 0 = [] := rfl

@[simp] theorem overwrite_nil (cells : Nat → α) (a : Nat) : overwrite cells a [] = cells := by
  funext i
  simp [overwrite]

/-- An element of a stretch is the one of its cell. -/
theorem getElem?_segment {cells : Nat → α} {a n i : Nat} (hi : i < n) :
    (segment cells a n)[i]? = some (cells (a + i)) := by
  simp [segment, List.getElem?_range hi]

/-- Two consecutive stretches make one. -/
theorem segment_add (cells : Nat → α) (a n k : Nat) :
    segment cells a (n + k) = segment cells a n ++ segment cells (a + n) k := by
  simp [segment, List.range_add, Nat.add_assoc]

/-- A stretch inside a stretch is cut out of it by its offset and its length. -/
theorem segment_slice (cells : Nat → α) {a n j k : Nat} (h : j + k ≤ n) :
    ((segment cells a n).drop j).take k = segment cells (a + j) k := by
  obtain ⟨r, rfl⟩ := Nat.exists_eq_add_of_le h
  rw [Nat.add_assoc, segment_add, List.drop_left' (length_segment ..), segment_add,
    List.take_left' (length_segment ..)]

/-- Cells outside the overwritten run keep their element. -/
theorem overwrite_other (cells : Nat → α) {a i : Nat} (xs : List α)
    (h : i < a ∨ a + xs.length ≤ i) : overwrite cells a xs i = cells i := by
  unfold overwrite
  split
  · rw [List.getElem?_eq_none (by omega), Option.getD_none]
  · rfl

/-- Cells inside the overwritten run hold the new elements in order. -/
theorem getElem?_overwrite (cells : Nat → α) {a i : Nat} (xs : List α) (hi : i < xs.length) :
    some (overwrite cells a xs (a + i)) = xs[i]? := by
  simp [overwrite, List.getElem?_eq_getElem hi]

/-- A stretch before the overwritten run keeps its elements. -/
theorem segment_overwrite_of_le (cells : Nat → α) {a b n : Nat} (xs : List α) (h : a + n ≤ b) :
    segment (overwrite cells b xs) a n = segment cells a n := by
  simp only [segment, List.map_inj_left, List.mem_range]
  exact fun i hi => overwrite_other cells xs (.inl (by omega))

/-- The overwritten run itself has the new elements. -/
theorem segment_overwrite (cells : Nat → α) (a : Nat) (xs : List α) :
    segment (overwrite cells a xs) a xs.length = xs := by
  apply List.ext_getElem?
  intro i
  by_cases hi : i < xs.length
  · rw [getElem?_segment hi, getElem?_overwrite cells xs hi]
  · rw [List.getElem?_eq_none (by simpa using hi), List.getElem?_eq_none (by omega)]

/-- The cells `now` are the cells `old` with `k` elements copied in from `cells`: the element `i`
goes from the cell `source i` to the cell `target i`. -/
structure Transported (cells old now : Nat → α) (source target : Nat → Nat) (k : Nat) : Prop where
  /-- The copied elements are at their targets. -/
  moved : ∀ i < k, now (target i) = cells (source i)
  /-- Every cell that is no target keeps its element. -/
  kept : ∀ a, (∀ i < k, a ≠ target i) → now a = old a

/-- When nothing was copied, nothing has changed. -/
theorem transported_zero (cells old : Nat → α) (source target : Nat → Nat) :
    Transported cells old old source target 0 :=
  ⟨fun _ hi => absurd hi (Nat.not_lt_zero _), fun _ _ => rfl⟩

/-- One more straight run, from the cell `b` on to the cell `a` on. -/
theorem Transported.append {cells old now : Nat → α} {source target : Nat → Nat} {k j a b : Nat}
    (h : Transported cells old now source target k) (hsource : ∀ i < j, source (k + i) = b + i)
    (htarget : ∀ i < j, target (k + i) = a + i)
    (hne : ∀ i < k, ∀ i' < j, target i ≠ target (k + i')) :
    Transported cells old (overwrite now a (segment cells b j)) source target (k + j) where
  moved i hi := by
    by_cases hold : i < k
    · rw [overwrite_other, h.moved i hold]
      by_contra hin
      rw [length_segment] at hin
      push Not at hin
      have hi' : target i - a < j := by omega
      refine hne i hold _ hi' ?_
      rw [htarget _ hi']
      omega
    · obtain ⟨d, rfl⟩ := Nat.exists_eq_add_of_le (Nat.le_of_not_lt hold)
      have hd : d < j := by omega
      have hget := getElem?_overwrite now (a := a) (segment cells b j)
        (i := d) (by rwa [length_segment])
      rw [getElem?_segment hd, Option.some.injEq] at hget
      rw [htarget d hd, hsource d hd, hget]
  kept x hx := by
    rw [overwrite_other, h.kept x fun i hi => hx i (by omega)]
    by_contra hin
    rw [length_segment] at hin
    push Not at hin
    have hi' : x - a < j := by omega
    refine hx (k + (x - a)) (by omega) ?_
    rw [htarget _ hi']
    omega

/-- The elements `lo ≤ k < hi` of the stream are in their slots. -/
def Stored (n : Nat) (ring : Nat → α) (stream : List α) (lo hi : Nat) : Prop :=
  ∀ k, lo ≤ k → k < hi → stream[k]? = some (ring (k % n))

variable {n : Nat} {ring : Nat → α} {stream : List α} {lo hi pos : Nat}

/-- Part of a stored stretch is stored. -/
theorem Stored.mono {lo' hi' : Nat} (h : Stored n ring stream lo hi) (hlo : lo ≤ lo')
    (hhi : hi' ≤ hi) : Stored n ring stream lo' hi' :=
  fun k hk hk' => h k (hlo.trans hk) (hk'.trans_le hhi)

/-- Slots that a straight run of new elements occupies hold no element still stored. -/
theorem slot_free {c k i : Nat} (hc : CursorAt n pos c) (hfit : pos + i < n)
    (hk : k < c) (hroom : c + i < k + n) : k % n ≠ pos + i := by
  intro he
  have hi : pos + i = (c + i) % n := (hc.advance hfit.le).eq_mod hfit
  rw [hi] at he
  have := (mod_eq_mod_iff (show k ≤ c + i by omega) hroom).mp he
  omega

/-- Appending a straight run of new elements behind the stored ones. -/
theorem Stored.append (h : Stored n ring stream lo stream.length) (xs : List α)
    (hc : CursorAt n pos stream.length) (hfit : pos + xs.length ≤ n)
    (hroom : stream.length + xs.length ≤ lo + n) :
    Stored n (overwrite ring pos xs) (stream ++ xs) lo (stream.length + xs.length) := by
  intro k hlo hk
  by_cases hold : k < stream.length
  · rw [List.getElem?_append_left hold, h k hlo hold, overwrite_other]
    by_contra hin
    push Not at hin
    refine slot_free hc (i := k % n - pos) (by omega) hold (by omega) (by omega)
  · obtain ⟨i, rfl⟩ := Nat.exists_eq_add_of_le (Nat.le_of_not_lt hold)
    have hi : i < xs.length := by omega
    have hslot : pos + i = (stream.length + i) % n := (hc.advance (by omega)).eq_mod (by omega)
    rw [List.getElem?_append_right (by omega), Nat.add_sub_cancel_left, ← hslot,
      getElem?_overwrite ring xs hi]

/-- A straight run of stored slots is the next stretch of the stream. -/
theorem Stored.segment (h : Stored n ring stream lo hi) {c k : Nat} (hlo : lo ≤ c)
    (hhi : c + k ≤ hi) (hc : CursorAt n pos c) (hfit : pos + k ≤ n) :
    stream.take c ++ segment ring pos k = stream.take (c + k) := by
  rw [List.take_add]
  congr 1
  apply List.ext_getElem?
  intro i
  by_cases hi : i < k
  · have hslot : pos + i = (c + i) % n := (hc.advance (by omega)).eq_mod (by omega)
    rw [getElem?_segment hi, hslot, List.getElem?_take, if_pos hi, List.getElem?_drop,
      h (c + i) (by omega) (by omega)]
  · rw [List.getElem?_eq_none (by simpa using hi), List.getElem?_take, if_neg hi]

/-- The slots from index `i` on up to index `j`, in ring order. -/
def slotsBetween (n i j : Nat) : List Nat := (List.range ((j + n - i) % n)).map fun d => (i + d) % n

/-- Between two cursors there are as many slots as counts. -/
theorem length_slotsBetween {lo hi : Nat} (hle : lo ≤ hi) (hlt : hi < lo + n) :
    (slotsBetween n (lo % n) (hi % n)).length = hi - lo := by
  have hn : 0 < n := by omega
  have hl := Nat.mod_lt lo hn
  have hh := Nat.mod_lt hi hn
  simp only [slotsBetween, List.length_map, List.length_range]
  rcases mod_add_cases hle hlt with ⟨hc, hd⟩ | ⟨hc, hd⟩
  · rw [Nat.mod_eq_sub_mod (by omega), Nat.mod_eq_of_lt (by omega)]
    omega
  · rw [Nat.mod_eq_of_lt (by omega)]
    omega

/-- The stored stretch of the stream, read off the slots between its two indices. -/
theorem Stored.slots (h : Stored n ring stream lo hi) (hle : lo ≤ hi) (hlt : hi < lo + n) :
    (stream.take hi).drop lo = (slotsBetween n (lo % n) (hi % n)).map ring := by
  have hlen := length_slotsBetween hle hlt
  apply List.ext_getElem?
  intro i
  by_cases hi' : i < hi - lo
  · have hslot : (slotsBetween n (lo % n) (hi % n))[i]? = some ((lo + i) % n) := by
      have hi'' : i < (hi % n + n - lo % n) % n := by
        rw [← hlen] at hi'
        simpa [slotsBetween] using hi'
      rw [slotsBetween, List.getElem?_map, List.getElem?_range hi'']
      simp
    rw [List.getElem?_map, hslot, List.getElem?_drop, List.getElem?_take, if_pos (by omega),
      h (lo + i) (by omega) (by omega), Option.map_some]
  · rw [List.getElem?_eq_none, List.getElem?_eq_none]
    · simpa [hlen] using hi'
    · simp only [List.length_drop, List.length_take]
      omega

end Slots

end XenShm.Library
