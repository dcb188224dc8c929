import Mathlib.Logic.Relation
import Mathlib.Tactic.ByContra

/-!
# Runs of labelled transition systems

A system is a partial step function on states and inputs. A guard says which
inputs are considered in which state, so that one step function serves runs
under several assumptions on the environment. Invariants are proved for one
guarded step and then hold along every guarded run.
-/

namespace XenShm.Library

variable {σ ι : Type*}

/-- One step of the system on some input that the guard lets through. -/
def Moves (step : σ → ι → Option σ) (guard : σ → ι → Bool) (s t : σ) : Prop :=
  ∃ i, guard s i = true ∧ step s i = some t

/-- A finite run, all of whose inputs pass the guard. -/
abbrev Reaches (step : σ → ι → Option σ) (guard : σ → ι → Bool) : σ → σ → Prop :=
  Relation.ReflTransGen (Moves step guard)

variable {step : σ → ι → Option σ} {guard guard' : σ → ι → Bool} {s t : σ}

/-- What every guarded step keeps is kept by every guarded run. -/
theorem Reaches.invariant {inv : σ → Prop} (h : Reaches step guard s t) (hs : inv s)
    (hstep : ∀ s i t, inv s → guard s i = true → step s i = some t → inv t) : inv t := by
  induction h with
  | refl => exact hs
  | tail _ hm ih =>
    obtain ⟨i, hg, hi⟩ := hm
    exact hstep _ i _ ih hg hi

/-- A weaker guard admits every run of a stronger one. -/
theorem Reaches.weaken (h : Reaches step guard s t)
    (hg : ∀ s i, guard s i = true → guard' s i = true) : Reaches step guard' s t := by
  induction h with
  | refl => exact .refl
  | tail _ hm ih =>
    obtain ⟨i, hi, he⟩ := hm
    exact ih.tail ⟨i, hg _ i hi, he⟩

/-- One more input at the end of a run. -/
theorem Reaches.snoc {u : σ} (h : Reaches step guard s t) (i : ι) (hg : guard t i = true)
    (hi : step t i = some u) : Reaches step guard s u :=
  Relation.ReflTransGen.tail h ⟨i, hg, hi⟩

/-- A system that only records more about the states of another one runs as that one does. -/
theorem Reaches.forget {τ : Type*} {step' : τ → ι → Option τ} {guard' : τ → ι → Bool} {a b : τ}
    (f : τ → σ) (h : Reaches step' guard' a b)
    (hstep : ∀ a i b, guard' a i = true → step' a i = some b →
      guard (f a) i = true ∧ step (f a) i = some (f b)) : Reaches step guard (f a) (f b) := by
  induction h with
  | refl => exact .refl
  | tail _ hm ih =>
    obtain ⟨i, hg, hi⟩ := hm
    obtain ⟨hg', hi'⟩ := hstep _ i _ hg hi
    exact ih.tail ⟨i, hg', hi'⟩

/-- Every run of a system can be made by the system that records more about its states. -/
theorem Reaches.recorded {τ : Type*} {step' : τ → ι → Option τ} {guard' : τ → ι → Bool} {a : τ}
    (f : τ → σ) (h : Reaches step guard (f a) t)
    (hstep : ∀ a i t, guard (f a) i = true → step (f a) i = some t →
      ∃ b, guard' a i = true ∧ step' a i = some b ∧ f b = t) :
    ∃ b, Reaches step' guard' a b ∧ f b = t := by
  induction h with
  | refl => exact ⟨a, .refl, rfl⟩
  | tail _ hm ih =>
    obtain ⟨b, hb, rfl⟩ := ih
    obtain ⟨i, hg, hi⟩ := hm
    obtain ⟨c, hg', hi', rfl⟩ := hstep b i _ hg hi
    exact ⟨c, hb.tail ⟨i, hg', hi'⟩, rfl⟩

/-- Execute a list of inputs, stopping where the guard or the system refuses one. -/
def run (step : σ → ι → Option σ) (guard : σ → ι → Bool) : σ → List ι → Option σ
  | s, [] => some s
  | s, i :: is => if guard s i then (step s i).bind fun t => run step guard t is else none

/-- An executed list of inputs is a run. -/
theorem reaches_of_run {is : List ι} (h : run step guard s is = some t) :
    Reaches step guard s t := by
  induction is generalizing s with
  | nil => exact Option.some.inj h ▸ Relation.ReflTransGen.refl
  | cons i is ih =>
    simp only [run] at h
    split at h
    · rename_i hg
      obtain ⟨u, hu, hr⟩ := Option.bind_eq_some_iff.mp h
      exact Relation.ReflTransGen.head ⟨i, hg, hu⟩ (ih hr)
    · contradiction

/-- An executed list of inputs leads to a state with the properties it was tested for. -/
theorem exists_reaches_of_run {is : List ι} {p : σ → Bool}
    (h : (run step guard s is).any p = true) : ∃ t, Reaches step guard s t ∧ p t = true := by
  obtain ⟨t, ht, hp⟩ := (Option.any_eq_true p _).mp h
  exact ⟨t, reaches_of_run ht, hp⟩

/-- Total correctness under interference. Every run makes at most `bound` inputs of the system's
own kind, can go on with one as long as it has not stopped, and stops in a state that satisfies
`post`. -/
structure Finishes (step : σ → ι → Option σ) (guard : σ → ι → Bool) (own : ι → Bool)
    (stopped : σ → Prop) (bound : Nat) (post : σ → Prop) (s : σ) : Prop where
  /-- The inputs of the own kind come to an end. -/
  bounded : ∀ is t, run step guard s is = some t → is.countP own ≤ bound
  /-- As long as the system has not stopped, it waits for nothing but an own input. -/
  live : ∀ t, Reaches step guard s t → ¬ stopped t →
    ∃ i, own i = true ∧ guard t i = true ∧ (step t i).isSome = true
  /-- Where the system has stopped, the result is right. -/
  correct : ∀ t, Reaches step guard s t → stopped t → post t

/-- What finishes with a result finishes with a weaker one. -/
theorem Finishes.imp {own : ι → Bool} {stopped post post' : σ → Prop} {bound : Nat}
    (h : Finishes step guard own stopped bound post s) (himp : ∀ t, post t → post' t) :
    Finishes step guard own stopped bound post' s :=
  ⟨h.bounded, h.live, fun t ht hstop => himp t (h.correct t ht hstop)⟩

/-- Own inputs lower a rank that the other inputs do not raise. -/
theorem countP_le_of_rank {own : ι → Bool} {inv : σ → Prop} (rank : σ → Nat)
    (hstep : ∀ s i t, inv s → guard s i = true → step s i = some t → inv t)
    (hrank : ∀ s i t, inv s → guard s i = true → step s i = some t →
      rank t + (if own i then 1 else 0) ≤ rank s) {is : List ι} {s : σ} (hs : inv s)
    (h : run step guard s is = some t) : is.countP own + rank t ≤ rank s := by
  induction is generalizing s with
  | nil =>
    obtain rfl := Option.some.inj h
    exact Nat.le_of_eq (by rw [List.countP_nil, Nat.zero_add])
  | cons i is ih =>
    simp only [run] at h
    split at h
    · rename_i hg
      obtain ⟨u, hu, hr⟩ := Option.bind_eq_some_iff.mp h
      have hlast := ih (hstep s i u hs hg hu) hr
      have hfirst := hrank s i u hs hg hu
      rw [List.countP_cons]
      omega
    · contradiction

/-- The rule of total correctness: an invariant and a rank. -/
theorem finishes_of_rank {own : ι → Bool} {stopped inv post : σ → Prop} {bound : Nat}
    (rank : σ → Nat) (hs : inv s) (hbound : rank s ≤ bound)
    (hstep : ∀ s i t, inv s → guard s i = true → step s i = some t → inv t)
    (hrank : ∀ s i t, inv s → guard s i = true → step s i = some t →
      rank t + (if own i then 1 else 0) ≤ rank s)
    (hlive : ∀ s, inv s → ¬ stopped s →
      ∃ i, own i = true ∧ guard s i = true ∧ (step s i).isSome = true)
    (hpost : ∀ s, inv s → stopped s → post s) : Finishes step guard own stopped bound post s where
  bounded is t h := by
    have := countP_le_of_rank rank hstep hrank hs h
    omega
  live t h := hlive t (h.invariant hs hstep)
  correct t h := hpost t (h.invariant hs hstep)

/-- A property holds in every state of an executed list of inputs, the first one included. -/
def Always (step : σ → ι → Option σ) (inv : σ → Prop) : σ → List ι → Prop
  | s, [] => inv s
  | s, i :: is => inv s ∧ ∀ t, step s i = some t → Always step inv t is

/-- What holds along a run holds where it begins. -/
theorem Always.here {inv : σ → Prop} {is : List ι} (h : Always step inv s is) : inv s := by
  cases is with
  | nil => exact h
  | cons i is => exact h.1

/-- Every input that the system accepts along the list is taken in a state where it is fine. -/
def Along (step : σ → ι → Option σ) (fine : σ → ι → Prop) : σ → List ι → Prop
  | _, [] => True
  | s, i :: is => ∀ t, step s i = some t → fine s i ∧ Along step fine t is

/-- Whether the inputs are fine can be tested by executing them. -/
instance Along.decidable {fine : σ → ι → Prop} [∀ s i, Decidable (fine s i)] :
    (is : List ι) → (s : σ) → Decidable (Along step fine s is)
  | [], _ => isTrue trivial
  | i :: is, s =>
    match h : step s i with
    | none => isTrue fun t ht => by simp [h] at ht
    | some t =>
      have := @Along.decidable fine _ is t
      decidable_of_iff (fine s i ∧ Along step fine t is)
        ⟨fun hfine u hu => Option.some.inj (h.symm.trans hu) ▸ hfine, fun hall => hall t h⟩

/-- A run along which a condition on the inputs holds meets a weaker condition. -/
theorem Along.imp {fine fine' : σ → ι → Prop} {is : List ι} {s : σ} (h : Along step fine s is)
    (himp : ∀ s i, fine s i → fine' s i) : Along step fine' s is := by
  induction is generalizing s with
  | nil => trivial
  | cons i is ih => exact fun t ht => ⟨himp s i (h t ht).1, ih (h t ht).2⟩

/-- When fine steps keep an invariant that implies the property, the property holds all along
every list of fine steps. -/
theorem Along.always {inv keep : σ → Prop} {fine : σ → ι → Prop} (himp : ∀ s, keep s → inv s)
    (hkeep : ∀ s i t, keep s → fine s i → step s i = some t → keep t) {is : List ι} {s : σ}
    (h : Along step fine s is) (hs : keep s) : Always step inv s is := by
  induction is generalizing s with
  | nil => exact himp s hs
  | cons i is ih =>
    refine ⟨himp s hs, fun t ht => ?_⟩
    obtain ⟨hfine, hrest⟩ := h t ht
    exact ih hrest (hkeep s i t hs hfine ht)

/-- When moreover every other step breaks the property at once, the property holds all along
exactly the lists of fine steps. -/
theorem always_iff_along {inv keep : σ → Prop} {fine : σ → ι → Prop}
    (himp : ∀ s, keep s → inv s)
    (hkeep : ∀ s i t, keep s → fine s i → step s i = some t → keep t)
    (hbreak : ∀ s i t, keep s → ¬ fine s i → step s i = some t → ¬ inv t)
    (is : List ι) (s : σ) (hs : keep s) : Always step inv s is ↔ Along step fine s is := by
  refine ⟨fun h => ?_, fun h => h.always himp hkeep hs⟩
  induction is generalizing s with
  | nil => trivial
  | cons i is ih =>
    intro t ht
    have hfine : fine s i := by
      by_contra hn
      exact hbreak s i t hs hn ht (h.2 t ht).here
    exact ⟨hfine, ih t (hkeep s i t hs hfine ht) (h.2 t ht)⟩

end XenShm.Library
