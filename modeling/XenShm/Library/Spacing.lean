import Mathlib.Algebra.BigOperators.Group.List.Basic
import Mathlib.Algebra.GroupWithZero.Nat
import Mathlib.Data.List.Induction
import Mathlib.Tactic.Common

/-!
# Marks in a trace

Some events of a trace are marks and every event has a weight. A trace is spaced
when no stretch of it without a mark weighs more than a bound. It is enough to
watch the weight since the last mark while the trace grows.
-/

namespace XenShm.Library

variable {ε : Type*} {mark : ε → Bool} {weight : ε → Nat} {bound : Nat} {es : List ε} {e : ε}

/-- No stretch without a mark weighs more than the bound. -/
def Spaced (mark : ε → Bool) (weight : ε → Nat) (bound : Nat) (es : List ε) : Prop :=
  ∀ before stretch after, es = before ++ stretch ++ after → (∀ e ∈ stretch, mark e = false) →
    (stretch.map weight).sum ≤ bound

/-- The weight that has come together since the last mark. -/
def sinceMark (mark : ε → Bool) (weight : ε → Nat) (es : List ε) : Nat :=
  es.foldl (fun n e => if mark e then 0 else n + weight e) 0

@[simp] theorem sinceMark_nil : sinceMark mark weight [] = 0 := rfl

@[simp] theorem sinceMark_concat : sinceMark mark weight (es ++ [e]) =
    if mark e then 0 else sinceMark mark weight es + weight e := by
  simp [sinceMark]

/-- A stretch up to now lies behind the last mark. -/
theorem sum_le_sinceMark (before stretch : List ε) (h : ∀ e ∈ stretch, mark e = false) :
    (stretch.map weight).sum ≤ sinceMark mark weight (before ++ stretch) := by
  induction stretch using List.reverseRecOn with
  | nil => simp
  | append_singleton stretch e ih =>
    have hstretch := ih fun x hx => h x (by simp [hx])
    have he : mark e = false := h e (by simp)
    rw [← List.append_assoc, sinceMark_concat, he, if_neg Bool.false_ne_true, List.map_append,
      List.sum_append, List.map_singleton, List.sum_singleton]
    omega

/-- Without events there is nothing that is too heavy. -/
theorem spaced_nil : Spaced mark weight bound [] := by
  intro before stretch after h _
  obtain ⟨h, -⟩ := List.append_eq_nil_iff.mp h.symm
  obtain ⟨-, rfl⟩ := List.append_eq_nil_iff.mp h
  exact Nat.zero_le _

/-- A trace stays spaced under a mark, and under an event that still fits behind the last one. -/
theorem Spaced.concat (h : Spaced mark weight bound es)
    (he : mark e = false → sinceMark mark weight es + weight e ≤ bound) :
    Spaced mark weight bound (es ++ [e]) := by
  intro before stretch after heq hmark
  rcases List.eq_nil_or_concat after with rfl | ⟨after, x, rfl⟩
  · have hsum : (stretch.map weight).sum ≤ sinceMark mark weight (before ++ stretch) :=
      sum_le_sinceMark before stretch hmark
    rw [List.append_nil] at heq
    rw [← heq, sinceMark_concat] at hsum
    cases hm : mark e with
    | true => simp_all
    | false =>
      have := he hm
      simp only [hm, Bool.false_eq_true, if_false] at hsum
      omega
  · rw [List.concat_eq_append, ← List.append_assoc] at heq
    exact h before stretch after (List.append_inj_left' heq rfl) hmark

end XenShm.Library
