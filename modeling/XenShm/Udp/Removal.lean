import Mathlib.Data.List.Find
import XenShm.Udp.Openings

/-!
# Taking an opening out of the list

`free_opening` looks for the node whose link leads to the one that is given back. The
first node of the list is behind no other: its memory is freed, and `current` still
leads to it.
-/

namespace XenShm.Udp

open Library

/-- The opening is gone and the list is the old one without it. -/
structure Removed (s : Server) (l : List Id) (o : Id) (s' : Server) : Prop where
  /-- The other nodes are visited in the old order. -/
  linked : Linked s'.link s'.current (l.erase o)
  /-- The removed node is freed and no other one. -/
  freed : ∀ i, (s'.openings i).isSome = true ↔ i ≠ o ∧ (s.openings i).isSome = true
  /-- The others keep their client and their pipe. -/
  kept : ∀ i node', s'.openings i = some node' → ∃ node, s.openings i = some node ∧
    node'.source = node.source ∧ node'.receiveFd = node.receiveFd
  /-- `find_opening` returns the first of them with the address, or `NULL`. -/
  found : ∀ source, findOpening s' source = some ((l.erase o).find? (s.isFrom source))

/-- What an opening says about its client, its address and its pipe. -/
def Opening.entry (node : Opening) : SockAddr × Option Handle := (node.source, node.receiveFd)

section Removal

variable {s s' : Server} {l : List Id} {o : Id}

/-- Whether an opening is from a client depends on what it says about its client. -/
theorem Server.isFrom_eq (source : SockAddr) (o : Id) : s.isFrom source o =
    ((s.openings o).map Opening.entry).any fun entry => entry.1 = source := by
  rw [Server.isFrom, Option.any_map]
  rfl

/-- Behind another node every opening can be taken out. -/
theorem removed_of_behind (h : s.Lists l) (ho : o ∈ l) (hbehind : s.current ≠ some o) :
    ∃ s', freeOpening s o = some s' ∧ Removed s l o s' := by
  obtain ⟨-, -, hfirst⟩ | ⟨-, l₁, a, l₂, rfl⟩ := h.position ho
  · exact absurd hfirst hbehind
  obtain ⟨before, removed, hbefore, hremoved, hne, hfree, hlinked⟩ := freeOpening_behind h
  have herase : (l₁ ++ a :: o :: l₂).erase o = l₁ ++ a :: l₂ := by
    rw [List.erase_append_right _ (h.linked.apart.2.2 o (by simp)),
      List.erase_cons_tail (by simpa using hne), List.erase_cons_head]
  set s' := (s.put a (some { before with next := removed.next })).put o none with hs'
  have hself : s'.openings a = some { before with next := removed.next } := by
    rw [hs', Server.put_openings_of_ne hne, Server.put_openings_self]
  have hother : ∀ i, i ≠ a → i ≠ o → s'.openings i = s.openings i := by
    intro i hia hio
    rw [hs', Server.put_openings_of_ne hio, Server.put_openings_of_ne hia]
  have hlists : s'.Lists (l₁ ++ a :: l₂) := by
    refine ⟨hlinked, fun i hi => h.bound i ?_⟩
    simp only [List.mem_append, List.mem_cons] at hi ⊢
    tauto
  have hgone : s'.openings o = none := Server.put_openings_self
  -- Only the link of the node before it changes.
  have hsame : ∀ i, i ≠ o →
      (s'.openings i).map Opening.entry = (s.openings i).map Opening.entry := by
    intro i hi
    by_cases hia : i = a
    · subst i
      rw [hself, hbefore]
      rfl
    · rw [hother i hia hi]
  refine ⟨s', hfree, ?_⟩
  constructor
  · rw [herase]
    exact hlinked
  · intro i
    by_cases hi : i = o
    · simp [hi, hgone]
    · rw [← Option.isSome_map, hsame i hi, Option.isSome_map]
      simp [hi]
  · intro i node' hnode'
    have hi : i ≠ o := by
      rintro rfl
      simp [hgone] at hnode'
    have hentry := hsame i hi
    rw [hnode', Option.map_some, eq_comm, Option.map_eq_some_iff] at hentry
    obtain ⟨node, hnode, he⟩ := hentry
    obtain ⟨hsource, hpipe⟩ := Prod.mk.inj he
    exact ⟨node, hnode, hsource.symm, hpipe.symm⟩
  · intro source
    rw [findOpening_eq hlists, herase]
    apply congrArg some
    apply List.find?_congr
    intro i hi
    have hi' : i ≠ o := by
      rintro rfl
      simpa [Server.link, hgone] using hlinked.isSome hi
    simp only [Server.isFrom_eq, hsame i hi']

/-- The first opening is freed, but not taken out. -/
theorem not_removed_of_first (h : s.Lists l) (hfirst : s.current = some o)
    (hfree : freeOpening s o = some s') : ¬ Removed s l o s' := by
  intro hremoved
  obtain ⟨l', rfl⟩ : ∃ l', l = o :: l' := by
    cases l with
    | nil => exact absurd h.linked (by simp [Linked, hfirst])
    | cons c l' =>
      obtain ⟨hc, -⟩ := h.linked
      cases hfirst.symm.trans hc
      exact ⟨l', rfl⟩
  cases hfree.symm.trans (freeOpening_of_first h)
  have hlinked := hremoved.linked
  rw [List.erase_cons_head] at hlinked
  cases l' with
  | nil =>
    have hnone : s.current = none := hlinked
    simp [hfirst] at hnone
  | cons c l' =>
    obtain ⟨hc, tail, hlink, -⟩ := hlinked
    cases hfirst.symm.trans hc
    simp [Server.link] at hlink

end Removal

/-- `free_opening` takes a node of the list out of it exactly when it is not the first one. -/
theorem removal_exact_iff {s : Server} {l : List Id} {o : Id} (h : s.Lists l) (ho : o ∈ l) :
    (∃ s', freeOpening s o = some s' ∧ Removed s l o s') ↔ s.current ≠ some o := by
  constructor
  · rintro ⟨s', hfree, hremoved⟩ hfirst
    exact not_removed_of_first h hfirst hfree hremoved
  · exact removed_of_behind h ho

/-- A server that two clients have greeted. -/
def twoOpenings : Server :=
  { Server.initial 4 with
    openings := fun o =>
      if o = 0 then some ⟨⟨4000, 7⟩, some 0, none⟩
      else if o = 1 then some ⟨⟨4001, 7⟩, some 1, some 0⟩
      else none
    current := some 1
    nextOpening := 2
    nextHandle := 2 }

/-- The list of the two openings leads from the second client to the first one. -/
theorem lists_twoOpenings : twoOpenings.Lists [1, 0] := by
  constructor
  · exact ⟨rfl, _, rfl, rfl, _, rfl, rfl⟩
  · decide

/-- The older of two openings is taken out of the list. -/
theorem removal_exact_older :
    ∃ s', freeOpening twoOpenings 0 = some s' ∧ Removed twoOpenings [1, 0] 0 s' :=
  (removal_exact_iff lists_twoOpenings (by decide)).mpr (by decide)

/-- The newer one is the first of the list, which still leads to it when it is freed. -/
theorem not_removal_exact : twoOpenings.Lists [1, 0] ∧
    ¬ ∃ s', freeOpening twoOpenings 1 = some s' ∧ Removed twoOpenings [1, 0] 1 s' := by
  refine ⟨lists_twoOpenings, ?_⟩
  rintro ⟨s', hfree, hremoved⟩
  exact not_removed_of_first lists_twoOpenings rfl hfree hremoved

end XenShm.Udp
