import Mathlib.Data.List.Nodup
import Mathlib.Data.List.Perm.Subperm

/-!
# Linked lists in a heap

`next a` is the link stored in the node `a`, and `none` when there is no such node.
A head pointer is linked to a list when following the links from it visits exactly
the nodes of the list and then stops. Everything else about a linked list follows
from that: the list is determined by the pointer, and no node occurs twice.
-/

namespace XenShm.Library

variable {α : Type*}

/-- Following the links from `head` visits the nodes of the list in order and ends. -/
def Linked (next : α → Option (Option α)) : Option α → List α → Prop
  | head, [] => head = none
  | head, a :: l => head = some a ∧ ∃ tail, next a = some tail ∧ Linked next tail l

variable {next next' : α → Option (Option α)} {head : Option α} {a b : α} {l l₁ l₂ : List α}

/-- Every node that the chain visits exists. -/
theorem Linked.isSome (h : Linked next head l) (ha : a ∈ l) : (next a).isSome := by
  induction l generalizing head with
  | nil => simp at ha
  | cons c l ih =>
    obtain ⟨-, tail, hc, hl⟩ := h
    rcases List.mem_cons.mp ha with rfl | ha
    · simp [hc]
    · exact ih hl ha

/-- The pointers determine the list of the nodes. -/
theorem Linked.unique (h₁ : Linked next head l₁) (h₂ : Linked next head l₂) : l₁ = l₂ := by
  induction l₁ generalizing head l₂ with
  | nil =>
    cases l₂ with
    | nil => rfl
    | cons b l₂ =>
      have hnone : head = none := h₁
      simp [hnone, Linked] at h₂
  | cons a l₁ ih =>
    cases l₂ with
    | nil =>
      have hnone : head = none := h₂
      simp [hnone, Linked] at h₁
    | cons b l₂ =>
      obtain ⟨rfl, tail, ha, ht⟩ := h₁
      obtain ⟨heq, tail', hb, ht'⟩ := h₂
      cases heq
      obtain rfl : tail = tail' := Option.some.inj (ha.symm.trans hb)
      rw [ih ht ht']

/-- The list from one of its nodes on. -/
theorem Linked.suffix (h : Linked next head (l₁ ++ a :: l₂)) : Linked next (some a) (a :: l₂) := by
  induction l₁ generalizing head with
  | nil =>
    obtain ⟨rfl, h⟩ := h
    exact ⟨rfl, h⟩
  | cons c l₁ ih =>
    obtain ⟨-, tail, -, h⟩ := h
    exact ih h

/-- No node occurs twice: the list would not end. -/
theorem Linked.nodup (h : Linked next head l) : l.Nodup := by
  induction l generalizing head with
  | nil => exact List.nodup_nil
  | cons a l ih =>
    obtain ⟨hhead, tail, ha, hl⟩ := h
    refine List.nodup_cons.mpr ⟨fun hmem => ?_, ih hl⟩
    obtain ⟨l₁, l₂, rfl⟩ := List.append_of_mem hmem
    have hlong : Linked next (some a) (a :: (l₁ ++ a :: l₂)) := ⟨rfl, tail, ha, hl⟩
    have hsame := hlong.unique hl.suffix
    have := congrArg List.length hsame
    simp at this
    omega

/-- A node is none of those before and behind it, and they are apart. -/
theorem Linked.apart (h : Linked next head (l₁ ++ a :: l₂)) :
    (∀ b ∈ l₁, b ≠ a) ∧ (∀ b ∈ l₂, b ≠ a) ∧ ∀ b ∈ l₂, b ∉ l₁ := by
  have hnodup := h.nodup
  simp only [List.nodup_append, List.nodup_cons, List.mem_cons] at hnodup
  exact ⟨fun b hb => hnodup.2.2 b hb a (.inl rfl), fun b hb he => hnodup.2.1.1 (he ▸ hb),
    fun b hb hb' => hnodup.2.2 b hb' b (.inr hb) rfl⟩

/-- A list of nodes with numbers below a bound is no longer than the bound. -/
theorem Linked.length_le {next : Nat → Option (Option Nat)} {head : Option Nat} {l : List Nat}
    {n : Nat} (h : Linked next head l) (hn : ∀ i ∈ l, i < n) : l.length ≤ n := by
  have hsub : l ⊆ List.range n := fun i hi => List.mem_range.mpr (hn i hi)
  simpa using (List.subperm_of_subset h.nodup hsub).length_le

/-- Only the links of the visited nodes matter. -/
theorem Linked.congr (h : Linked next head l) (hsame : ∀ a ∈ l, next' a = next a) :
    Linked next' head l := by
  induction l generalizing head with
  | nil => exact h
  | cons c l ih =>
    obtain ⟨hhead, tail, hc, hl⟩ := h
    exact ⟨hhead, tail, (hsame c (by simp)).trans hc,
      ih hl fun a ha => hsame a (List.mem_cons_of_mem c ha)⟩

/-- A new node in front of the chain that points at its old head makes it longer by one. -/
theorem Linked.push (h : Linked next head l) (ha : next' a = some head)
    (hsame : ∀ b ∈ l, next' b = next b) : Linked next' (some a) (a :: l) :=
  ⟨rfl, head, ha, h.congr hsame⟩

/-- A node that is not the first is taken out by copying its link into the node before it. -/
theorem Linked.unlink (h : Linked next head (l₁ ++ a :: b :: l₂)) (ha : next' a = next b)
    (hsame : ∀ c, c ∈ l₁ ∨ c ∈ l₂ → next' c = next c) : Linked next' head (l₁ ++ a :: l₂) := by
  induction l₁ generalizing head with
  | nil =>
    obtain ⟨hhead, tail, -, hb, tail', hnext, hl⟩ := h
    exact ⟨hhead, tail', ha.trans hnext, hl.congr fun c hc => hsame c (.inr hc)⟩
  | cons c l₁ ih =>
    obtain ⟨hhead, tail, hc, hl⟩ := h
    refine ⟨hhead, tail, (hsame c (by simp)).trans hc, ih hl fun d hd => hsame d ?_⟩
    exact hd.imp_left (List.mem_cons_of_mem c)

/-- Only the node before the one that is taken out needs another link. -/
theorem Linked.unlink_of_ne (h : Linked next head (l₁ ++ a :: b :: l₂)) (ha : next' a = next b)
    (hsame : ∀ c, c ≠ a → c ≠ b → next' c = next c) : Linked next' head (l₁ ++ a :: l₂) := by
  have hb : Linked next head ((l₁ ++ [a]) ++ b :: l₂) := by
    rw [List.append_assoc]
    exact h
  refine h.unlink ha fun c hc => hsame c ?_ ?_
  · exact hc.elim (h.apart.1 c) fun hc => h.apart.2.1 c (List.mem_cons_of_mem b hc)
  · exact hc.elim (fun hc => hb.apart.1 c (List.mem_append_left [a] hc)) (hb.apart.2.1 c)

end XenShm.Library
