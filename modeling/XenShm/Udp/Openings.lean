import XenShm.Udp.Server

/-!
# The list of openings

As long as `current` is linked to a list of allocated nodes, `find_opening` is a search
in that list. `free_opening` takes any node out of it but the first: for that one no
link is changed, and `current` still leads to the node that was freed.
-/

namespace XenShm.Udp

open Library

variable {s s' : Server} {head : Option Id} {o a temp i : Id} {l l₁ l₂ : List Id} {fuel : Nat}
  {node : Opening} {source : SockAddr}

@[simp] theorem Server.put_openings_self {n : Option Opening} : (s.put o n).openings o = n := by
  simp [put]

/-- To replace one opening leaves the others. -/
theorem Server.put_openings_of_ne {n : Option Opening} (h : i ≠ o) :
    (s.put o n).openings i = s.openings i := by simp [put, h]

@[simp] theorem Server.put_current {n : Option Opening} : (s.put o n).current = s.current := rfl

/-- The link of an opening that was replaced is the one of the new node. -/
theorem Server.link_put_self {n : Option Opening} : (s.put o n).link o = n.map Opening.next := by
  simp [link]

/-- To replace one opening leaves the links of the others. -/
theorem Server.link_put_of_ne {n : Option Opening} (h : i ≠ o) :
    (s.put o n).link i = s.link i := by simp [link, put_openings_of_ne h]

/-- The opening was made for the client with this address. -/
def Server.isFrom (s : Server) (source : SockAddr) (o : Id) : Bool :=
  (s.openings o).any fun node => node.source = source

/-- The loop of `find_opening` is a search in the list. -/
theorem findLoop_eq (h : Linked s.link head l) (hfuel : l.length ≤ fuel) :
    findLoop s.openings source fuel head = some (l.find? (s.isFrom source)) := by
  induction l generalizing head fuel with
  | nil =>
    obtain rfl : head = none := h
    simp [findLoop]
  | cons c l ih =>
    obtain ⟨rfl, tail, hc, hl⟩ := h
    obtain ⟨fuel, rfl⟩ : ∃ n, fuel = n + 1 := ⟨fuel - 1, by simp at hfuel; omega⟩
    obtain ⟨node, hnode, rfl⟩ := Option.map_eq_some_iff.mp hc
    by_cases hsource : node.source = source
    · simp [findLoop, hnode, hsource, Server.isFrom]
    · simp [findLoop, hnode, hsource, Server.isFrom, ih hl (by simpa using hfuel)]

/-- The loop of `free_opening` when it finds the node before `o`. -/
theorem unlinkLoop_of_before {hd : Id} (h : Linked s.link (some hd) (l₁ ++ a :: o :: l₂))
    (hfuel : l₁.length < fuel) :
    ∃ before removed, s.openings a = some before ∧ s.openings o = some removed ∧
      unlinkLoop s o fuel hd = some (s.put a (some { before with next := removed.next })) := by
  have hnodup := h.nodup
  induction l₁ generalizing hd fuel with
  | nil =>
    obtain ⟨hhd, tail, ha, rfl, tail', ho, -⟩ := h
    cases hhd
    obtain ⟨before, hbefore, hnext⟩ := Option.map_eq_some_iff.mp ha
    obtain ⟨removed, hremoved, -⟩ := Option.map_eq_some_iff.mp ho
    obtain ⟨fuel, rfl⟩ : ∃ n, fuel = n + 1 := ⟨fuel - 1, by simp at hfuel; omega⟩
    exact ⟨before, removed, hbefore, hremoved, by simp [unlinkLoop, hbefore, hnext, hremoved]⟩
  | cons c l₁ ih =>
    obtain ⟨hhd, tail, hc, hl⟩ := h
    cases hhd
    obtain ⟨fuel, rfl⟩ : ∃ n, fuel = n + 1 := ⟨fuel - 1, by simp at hfuel; omega⟩
    have hlen : l₁.length < fuel := by simpa using hfuel
    obtain ⟨node, hnode, rfl⟩ := Option.map_eq_some_iff.mp hc
    -- The next node is still before `o`, so it is not `o`.
    obtain ⟨next, hnext, hne⟩ : ∃ next, node.next = some next ∧ next ≠ o := by
      cases l₁ with
      | nil => exact ⟨a, hl.1, by rintro rfl; simp at hnodup⟩
      | cons d l₁ => exact ⟨d, hl.1, by rintro rfl; simp at hnodup⟩
    rw [hnext] at hl
    obtain ⟨before, removed, hbefore, hremoved, hloop⟩ := ih hl hlen (List.nodup_cons.mp hnodup).2
    refine ⟨before, removed, hbefore, hremoved, ?_⟩
    simp [unlinkLoop, hnode, hnext, hne, hloop]

/-- The loop of `free_opening` when no node is before `o`. -/
theorem unlinkLoop_of_not_mem {hd : Id} (h : Linked s.link (some hd) (hd :: l)) (ho : o ∉ l)
    (hfuel : l.length < fuel) : unlinkLoop s o fuel hd = some s := by
  induction l generalizing hd fuel with
  | nil =>
    obtain ⟨-, tail, hhd, rfl⟩ := h
    obtain ⟨node, hnode, hnext⟩ := Option.map_eq_some_iff.mp hhd
    obtain ⟨fuel, rfl⟩ : ∃ n, fuel = n + 1 := ⟨fuel - 1, by simp at hfuel; omega⟩
    simp [unlinkLoop, hnode, hnext]
  | cons c l ih =>
    obtain ⟨-, tail, hhd, hl⟩ := h
    obtain ⟨rfl, -⟩ := id hl
    obtain ⟨node, hnode, hnext⟩ := Option.map_eq_some_iff.mp hhd
    obtain ⟨fuel, rfl⟩ : ∃ n, fuel = n + 1 := ⟨fuel - 1, by simp at hfuel; omega⟩
    have hne : c ≠ o := by rintro rfl; simp at ho
    simp [unlinkLoop, hnode, hnext, hne, ih hl (by simp at ho; exact ho.2) (by simpa using hfuel)]

/-- The loop of `free_opening` copies a link at most. -/
theorem unlinkLoop_cases {hd : Id} (h : unlinkLoop s o fuel hd = some s') :
    s' = s ∨ ∃ t node removed, s.openings t = some node ∧ node.next = some o ∧
      s.openings o = some removed ∧ s' = s.put t (some { node with next := removed.next }) := by
  induction fuel generalizing hd with
  | zero => simp [unlinkLoop] at h
  | succ fuel ih =>
    simp only [unlinkLoop, Option.bind_eq_bind] at h
    obtain ⟨node, hnode, h⟩ := Option.bind_eq_some_iff.mp h
    split at h
    · exact .inl (Option.some.inj h).symm
    · rename_i next hnext
      split at h
      · rename_i hnexto
        obtain ⟨removed, hremoved, h⟩ := Option.bind_eq_some_iff.mp h
        exact .inr ⟨hd, node, removed, hnode, hnext.trans (congrArg some hnexto), hremoved,
          (Option.some.inj h).symm⟩
      · exact ih h

/-- `free_opening` frees the node at most, and copies its link at most. -/
theorem freeOpening_cases (h : freeOpening s o = some s') :
    s' = s ∨ s' = s.put o none ∨ ∃ t node removed, s.openings t = some node ∧
      node.next = some o ∧ s.openings o = some removed ∧
        s' = (s.put t (some { node with next := removed.next })).put o none := by
  unfold freeOpening at h
  split at h
  · exact .inl (Option.some.inj h).symm
  · simp only [Option.bind_eq_bind] at h
    obtain ⟨u, hu, h⟩ := Option.bind_eq_some_iff.mp h
    obtain ⟨-, -, h⟩ := Option.bind_eq_some_iff.mp h
    cases h
    rcases unlinkLoop_cases hu with rfl | ⟨t, node, removed, hnode, hnext, hremoved, rfl⟩
    · exact .inr (.inl rfl)
    · exact .inr (.inr ⟨t, node, removed, hnode, hnext, hremoved, rfl⟩)

/-- These are the openings in the list of the server, in the order of its walk. -/
structure Server.Lists (s : Server) (l : List Id) : Prop where
  /-- The walk from `current` visits these nodes. -/
  linked : Linked s.link s.current l
  /-- Nodes are numbered in the order of their allocation. -/
  bound : ∀ o ∈ l, o < s.nextOpening

/-- The list has no more openings than were ever allocated. -/
theorem Server.Lists.length_le (h : s.Lists l) : l.length ≤ s.nextOpening :=
  h.linked.length_le h.bound

/-- `find_opening` returns the first node of the list with this address. -/
theorem findOpening_eq (h : s.Lists l) :
    findOpening s source = some (l.find? (s.isFrom source)) :=
  findLoop_eq h.linked h.length_le

/-- `free_opening` for a node that is not the first. -/
theorem freeOpening_of_before (h : s.Lists (l₁ ++ a :: o :: l₂)) :
    ∃ before removed, s.openings a = some before ∧ s.openings o = some removed ∧
      freeOpening s o =
        some ((s.put a (some { before with next := removed.next })).put o none) := by
  have hlen := h.length_le
  obtain ⟨hd, hcurrent⟩ : ∃ hd, s.current = some hd := by
    cases l₁ with
    | nil => exact ⟨a, h.linked.1⟩
    | cons c l₁ => exact ⟨c, h.linked.1⟩
  have hl := h.linked
  rw [hcurrent] at hl
  have hne : o ≠ a := h.linked.apart.2.1 o (by simp)
  obtain ⟨before, removed, hbefore, hremoved, hloop⟩ :=
    unlinkLoop_of_before hl (show l₁.length < s.nextOpening by simp at hlen; omega)
  refine ⟨before, removed, hbefore, hremoved, ?_⟩
  simp [freeOpening, hcurrent, hloop, Server.put_openings_of_ne hne, hremoved]

/-- `free_opening` for the first node only frees it. -/
theorem freeOpening_of_first (h : s.Lists (o :: l)) : freeOpening s o = some (s.put o none) := by
  have hlen := h.length_le
  have hcurrent : s.current = some o := h.linked.1
  have hl := h.linked
  rw [hcurrent] at hl
  have hloop := unlinkLoop_of_not_mem hl (List.nodup_cons.mp hl.nodup).1
    (show l.length < s.nextOpening by simp at hlen; omega)
  obtain ⟨node, hnode⟩ : ∃ node, s.openings o = some node := by
    obtain ⟨-, tail, ho, -⟩ := hl
    obtain ⟨node, hnode, -⟩ := Option.map_eq_some_iff.mp ho
    exact ⟨node, hnode⟩
  simp [freeOpening, hcurrent, hloop, hnode]

/-- A node of the list is the first one or behind another one. -/
theorem Server.Lists.position (h : s.Lists l) (ho : o ∈ l) :
    (∃ l', l = o :: l' ∧ s.current = some o) ∨
      (s.current ≠ some o ∧ ∃ l₁ a l₂, l = l₁ ++ a :: o :: l₂) := by
  obtain ⟨l₁, l₂, rfl⟩ := List.append_of_mem ho
  have hnodup := h.linked.nodup
  rcases List.eq_nil_or_concat l₁ with rfl | ⟨l₁, a, rfl⟩
  · exact .inl ⟨l₂, rfl, h.linked.1⟩
  · refine .inr ⟨fun hcurrent => ?_, l₁, a, l₂, by simp⟩
    have hl := h.linked
    rw [hcurrent] at hl
    cases l₁ with
    | nil =>
      obtain ⟨ha, -⟩ := hl
      cases ha
      simp at hnodup
    | cons c l₁ =>
      obtain ⟨hc, -⟩ := hl
      cases hc
      simp at hnodup

/-- A node behind another one is taken out, and nothing else changes. -/
theorem freeOpening_behind (h : s.Lists (l₁ ++ a :: o :: l₂)) :
    ∃ before removed, s.openings a = some before ∧ s.openings o = some removed ∧ a ≠ o ∧
      freeOpening s o = some ((s.put a (some { before with next := removed.next })).put o none) ∧
      Linked ((s.put a (some { before with next := removed.next })).put o none).link s.current
        (l₁ ++ a :: l₂) := by
  obtain ⟨before, removed, hbefore, hremoved, hfree⟩ := freeOpening_of_before h
  have hne : a ≠ o := Ne.symm (h.linked.apart.2.1 o (by simp))
  refine ⟨before, removed, hbefore, hremoved, hne, hfree, h.linked.unlink_of_ne ?_ ?_⟩
  · rw [Server.link_put_of_ne hne, Server.link_put_self]
    exact (congrArg (Option.map Opening.next) hremoved).symm
  · intro c hca hco
    rw [Server.link_put_of_ne hco, Server.link_put_of_ne hca]

end XenShm.Udp
