import Mathlib.Logic.Relation
import Mathlib.Data.List.Basic
import Mathlib.Tactic.Common

/-!
# What a run shows

A step of a system may show something to the outside. A system is refined by another one
when everything that the runs of the second show can be shown by runs of the first, which
says less about how it is done and may take any number of steps in the place of one.
-/

namespace XenShm.Library

variable {σ τ ι ε : Type*}

/-- Execute a list of inputs and note what is shown. -/
def observe (step : σ → ι → Option σ) (see : σ → ι → σ → List ε) :
    σ → List ι → Option (σ × List ε)
  | s, [] => some (s, [])
  | s, i :: is =>
    (step s i).bind fun t => (observe step see t is).map fun r => (r.1, see s i t ++ r.2)

/-- A run that shows these events. A step shows one or none. -/
inductive Shows (next : τ → Option ε → τ → Prop) : τ → List ε → τ → Prop where
  | refl (a : τ) : Shows next a [] a
  | silent {a b c : τ} {es : List ε} (hstep : next a none b) (hrun : Shows next b es c) :
      Shows next a es c
  | event {a b c : τ} {e : ε} {es : List ε} (hstep : next a (some e) b)
      (hrun : Shows next b es c) : Shows next a (e :: es) c

namespace Shows

variable {next : τ → Option ε → τ → Prop} {a b c : τ} {e e' : ε} {es es' : List ε}

/-- One silent step is a run that shows nothing. -/
theorem step (h : next a none b) : Shows next a [] b := .silent h (.refl b)

/-- One step that shows an event is a run that shows that event. -/
theorem single (h : next a (some e) b) : Shows next a [e] b := .event h (.refl b)

/-- One run after the other shows the events of both. -/
theorem append (h : Shows next a es b) (h' : Shows next b es' c) : Shows next a (es ++ es') c := by
  induction h with
  | refl => exact h'
  | silent hstep _ ih => exact .silent hstep (ih h')
  | event hstep _ ih => exact .event hstep (ih h')

end Shows

/-- A simulation. The relation holds after each step of the system, when the other one has shown
the same. -/
def Simulates (step : σ → ι → Option σ) (see : σ → ι → σ → List ε)
    (next : τ → Option ε → τ → Prop) (rel : σ → τ → Prop) : Prop :=
  ∀ s i t a, rel s a → step s i = some t → ∃ b, Shows next a (see s i t) b ∧ rel t b

/-- What a system shows can be shown by every system that simulates it. -/
theorem Simulates.shows {step : σ → ι → Option σ} {see : σ → ι → σ → List ε}
    {next : τ → Option ε → τ → Prop} {rel : σ → τ → Prop} (h : Simulates step see next rel)
    {is : List ι} {s t : σ} {a : τ} {es : List ε} (hs : rel s a)
    (hrun : observe step see s is = some (t, es)) : ∃ b, Shows next a es b ∧ rel t b := by
  induction is generalizing s a es with
  | nil =>
    cases hrun
    exact ⟨a, .refl a, hs⟩
  | cons i is ih =>
    simp only [observe, Option.bind_eq_some_iff, Option.map_eq_some_iff] at hrun
    obtain ⟨u, hu, ⟨t', es'⟩, hrest, heq⟩ := hrun
    cases heq
    obtain ⟨b, hb, hrel⟩ := h s i u a hs hu
    obtain ⟨c, hc, hrel⟩ := ih hrel hrest
    exact ⟨c, hb.append hc, hrel⟩

end XenShm.Library
