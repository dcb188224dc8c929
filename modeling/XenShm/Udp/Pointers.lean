import XenShm.Udp.Handled

/-!
# What the pointers of the server lead to

The list of openings may lead to a node that was freed, since the first node is freed without a
change to `current`. A node that is still allocated has a pipe that was offered to its client,
and no such node lies between another one and the node that its link leads to. So what
`find_opening` returns is the newest opening that the server still has for a client.
-/

namespace XenShm.Udp

section Pointers

variable {s s' : Server} {o i temp hd : Id} {fuel n : Nat} {source : SockAddr}
  {answered answered' : List (SockAddr × Handle)}

/-- If the node is still allocated, then its pipe was offered to its client. -/
def Server.Pointed (s : Server) (answered : List (SockAddr × Handle)) (o : Id) : Prop :=
  o < s.nextOpening ∧ ∀ node, s.openings o = some node →
    ∃ pipe, node.receiveFd = some pipe ∧ (node.source, pipe) ∈ answered

/-- No pointer leads to a node whose pipe was not offered. It may lead to a freed one. -/
structure Pointers (s : Server) (answered : List (SockAddr × Handle)) : Prop where
  /-- The head of the list is a node whose pipe was offered, if it is not freed. -/
  current : ∀ o, s.current = some o → s.Pointed answered o
  /-- The link of a node leads to one whose pipe was offered, if that is not freed. -/
  next : ∀ i node o, s.openings i = some node → node.next = some o → s.Pointed answered o

/-- What a pointer leads to stays offered when more is offered. -/
theorem Server.Pointed.mono (h : s.Pointed answered o) (hsub : answered ⊆ answered') :
    s.Pointed answered' o := by
  refine ⟨h.1, fun node hnode => ?_⟩
  obtain ⟨pipe, hpipe, hmem⟩ := h.2 node hnode
  exact ⟨pipe, hpipe, hsub hmem⟩

/-- More offers leave every pointer where it leads to an offered pipe. -/
theorem Pointers.mono (h : Pointers s answered) (hsub : answered ⊆ answered') :
    Pointers s answered' :=
  ⟨fun o ho => (h.current o ho).mono hsub, fun i node o hi ho => (h.next i node o hi ho).mono hsub⟩

/-- The number of pipes opened does not matter to the pointers. -/
theorem Pointers.withHandle (h : Pointers s answered) :
    Pointers { s with nextHandle := n } answered := ⟨h.current, h.next⟩

/-- What `find_opening` returns was offered to the client. -/
theorem findLoop_pointed {head : Option Id} (h : Pointers s answered)
    (hhead : ∀ o, head = some o → s.Pointed answered o)
    (hfound : findLoop s.openings source fuel head = some (some o)) :
    ∃ node pipe, s.openings o = some node ∧ node.source = source ∧ node.receiveFd = some pipe ∧
      (source, pipe) ∈ answered := by
  induction fuel generalizing head with
  | zero => cases head <;> simp [findLoop] at hfound
  | succ fuel ih =>
    cases head with
    | none => simp [findLoop] at hfound
    | some temp =>
      simp only [findLoop, Option.bind_eq_bind] at hfound
      obtain ⟨node, hnode, hfound⟩ := Option.bind_eq_some_iff.mp hfound
      split at hfound
      · rename_i hsource
        cases hfound
        obtain ⟨pipe, hpipe, hmem⟩ := (hhead _ rfl).2 node hnode
        exact ⟨node, pipe, hnode, hsource, hpipe, hsource ▸ hmem⟩
      · exact ih (fun o ho => h.next temp node o hnode ho) hfound

/-- An opening that is found for a client has the pipe that was offered to that client. -/
theorem findOpening_pointed (h : Pointers s answered)
    (hfound : findOpening s source = some (some o)) :
    ∃ node pipe, s.openings o = some node ∧ node.source = source ∧ node.receiveFd = some pipe ∧
      (source, pipe) ∈ answered :=
  findLoop_pointed h h.current hfound

/-- To free a node leaves the pointers that lead to it where they were. -/
theorem Pointers.put_none (h : Pointers s answered) : Pointers (s.put o none) answered := by
  have hsub : ∀ i node, (s.put o none).openings i = some node → s.openings i = some node := by
    intro i node hi
    by_cases hio : i = o
    · simp [hio] at hi
    · rwa [Server.put_openings_of_ne hio] at hi
  have hpointed : ∀ i, s.Pointed answered i → (s.put o none).Pointed answered i :=
    fun i hi => ⟨hi.1, fun node hnode => hi.2 node (hsub i node hnode)⟩
  exact ⟨fun i hi => hpointed i (h.current i hi),
    fun i node j hi hj => hpointed j (h.next i node j (hsub i node hi) hj)⟩

/-- To copy the link of a node that is taken out makes no new pointer. -/
theorem Pointers.put_next {node removed : Opening} (h : Pointers s answered)
    (ht : s.openings temp = some node) (ho : s.openings o = some removed) :
    Pointers (s.put temp (some { node with next := removed.next })) answered := by
  have hpointed : ∀ i, s.Pointed answered i →
      (s.put temp (some { node with next := removed.next })).Pointed answered i := by
    intro i hi
    refine ⟨hi.1, fun node' hnode' => ?_⟩
    by_cases hit : i = temp
    · subst i
      rw [Server.put_openings_self] at hnode'
      cases hnode'
      exact hi.2 node ht
    · rw [Server.put_openings_of_ne hit] at hnode'
      exact hi.2 node' hnode'
  refine ⟨fun i hi => hpointed i (h.current i hi), fun i node' j hi hj => hpointed j ?_⟩
  by_cases hit : i = temp
  · subst i
    rw [Server.put_openings_self] at hi
    cases hi
    exact h.next o removed j ho hj
  · rw [Server.put_openings_of_ne hit] at hi
    exact h.next i node' j hi hj

/-- To take an opening out of the list makes no new pointer and opens no pipe. -/
theorem Pointers.freeOpening (h : Pointers s answered) (hfree : freeOpening s o = some s') :
    Pointers s' answered ∧ s'.nextHandle = s.nextHandle := by
  rcases freeOpening_cases hfree with rfl | rfl | ⟨temp, before, removed, hbefore, -, hremoved, rfl⟩
  · exact ⟨h, rfl⟩
  · exact ⟨h.put_none, rfl⟩
  · exact ⟨(h.put_next hbefore hremoved).put_none, rfl⟩

/-- A new node whose link is empty makes no pointer to a node without an offer. -/
theorem Pointers.put_fresh {node : Opening} (h : Pointers s answered) (hnext : node.next = none) :
    Pointers { s.put s.nextOpening (some node) with
      nextOpening := s.nextOpening + 1
      nextHandle := n } answered := by
  have hpointed : ∀ i, s.Pointed answered i → Server.Pointed
      { s.put s.nextOpening (some node) with
        nextOpening := s.nextOpening + 1
        nextHandle := n } answered i := by
    intro i hi
    refine ⟨Nat.lt_succ_of_lt hi.1, fun node' hnode' => hi.2 node' ?_⟩
    rwa [← Server.put_openings_of_ne hi.1.ne]
  refine ⟨fun i hi => hpointed i (h.current i hi), fun i node' j hi hj => hpointed j ?_⟩
  by_cases hnew : i = s.nextOpening
  · subst i
    cases (Server.put_openings_self (s := s)).symm.trans hi
    simp [hnext] at hj
  · exact h.next i node' j ((Server.put_openings_of_ne hnew).symm.trans hi) hj

/-- A new opening whose pipe was offered to its client. -/
theorem Pointers.granted (h : Pointers s answered) :
    Pointers { s.put s.nextOpening (some ⟨source, some s.nextHandle, s.current⟩) with
      current := some s.nextOpening
      nextOpening := s.nextOpening + 1
      nextHandle := s.nextHandle + 1 } (answered ++ [(source, s.nextHandle)]) := by
  have hold : ∀ i, s.Pointed answered i → Server.Pointed
      { s.put s.nextOpening (some ⟨source, some s.nextHandle, s.current⟩) with
        current := some s.nextOpening
        nextOpening := s.nextOpening + 1
        nextHandle := s.nextHandle + 1 } (answered ++ [(source, s.nextHandle)]) i := by
    intro i hi
    refine ⟨Nat.lt_succ_of_lt hi.1, fun node hnode => ?_⟩
    obtain ⟨pipe, hpipe, hmem⟩ :=
      hi.2 node ((Server.put_openings_of_ne hi.1.ne).symm.trans hnode)
    exact ⟨pipe, hpipe, List.mem_append_left _ hmem⟩
  refine ⟨fun i hi => ?_, fun i node j hi hj => hold j ?_⟩
  · cases hi
    refine ⟨Nat.lt_succ_self _, fun node hnode => ?_⟩
    cases (Server.put_openings_self (s := s)).symm.trans hnode
    exact ⟨s.nextHandle, rfl, by simp⟩
  · by_cases hnew : i = s.nextOpening
    · subst i
      cases (Server.put_openings_self (s := s)).symm.trans hi
      exact h.current j hj
    · exact h.next i node j ((Server.put_openings_of_ne hnew).symm.trans hi) hj

end Pointers

/-- The node holds a pipe that was offered to its client. -/
def Server.Offers (s : Server) (answered : List (SockAddr × Handle)) (i : Id) : Prop :=
  ∃ node pipe, s.openings i = some node ∧ node.receiveFd = some pipe ∧
    (node.source, pipe) ∈ answered

/-- The list leads from newer to older openings and leaves none of them out. Nodes and pipes are
numbered in the order in which they are made. -/
structure Ordered (s : Server) (answered : List (SockAddr × Handle)) : Prop where
  /-- The pipes that were offered have been opened. -/
  offered : ∀ p ∈ answered, p.2 < s.nextHandle
  /-- The nodes have been allocated, and their pipes opened. -/
  bound : ∀ i node, s.openings i = some node →
    i < s.nextOpening ∧ ∀ pipe, node.receiveFd = some pipe → pipe < s.nextHandle
  /-- No opening is newer than the first one. -/
  current : ∀ i, s.Offers answered i → ∃ o, s.current = some o ∧ i ≤ o
  /-- No opening lies between another one and the node behind it. -/
  next : ∀ i node j, s.openings i = some node → s.Offers answered i → s.Offers answered j → j < i →
    ∃ o, node.next = some o ∧ j ≤ o

section Ordered

variable {s s' : Server} {o i temp : Id} {fuel n : Nat} {source : SockAddr}
  {answered : List (SockAddr × Handle)}

/-- `find_opening` passes no opening of the client before it returns one. -/
theorem findLoop_newest {head : Option Id} (h : Ordered s answered) (hp : Pointers s answered)
    (hhead : ∀ o, head = some o → s.Pointed answered o)
    (hcover : ∀ j, s.Offers answered j → s.isFrom source j = true → ∃ o, head = some o ∧ j ≤ o)
    (hfound : findLoop s.openings source fuel head = some (some o)) :
    ∀ j, s.Offers answered j → s.isFrom source j = true → j ≤ o := by
  induction fuel generalizing head with
  | zero => cases head <;> simp [findLoop] at hfound
  | succ fuel ih =>
    cases head with
    | none => simp [findLoop] at hfound
    | some temp =>
      simp only [findLoop, Option.bind_eq_bind] at hfound
      obtain ⟨node, hnode, hfound⟩ := Option.bind_eq_some_iff.mp hfound
      split at hfound
      · cases hfound
        intro j hj hfrom
        obtain ⟨o, ho, hle⟩ := hcover j hj hfrom
        cases ho
        exact hle
      · rename_i hsource
        refine ih (fun o ho => hp.next temp node o hnode ho) (fun j hj hfrom => ?_) hfound
        obtain ⟨o, ho, hle⟩ := hcover j hj hfrom
        cases ho
        have hne : j ≠ temp := by
          rintro rfl
          simp [Server.isFrom, hnode, hsource] at hfrom
        obtain ⟨pipe, hpipe, hmem⟩ := (hhead temp rfl).2 node hnode
        exact h.next temp node j hnode ⟨node, pipe, hnode, hpipe, hmem⟩ hj (lt_of_le_of_ne hle hne)

/-- The opening that is found for a client is the newest of those it was offered. -/
theorem findOpening_newest (h : Ordered s answered) (hp : Pointers s answered)
    (hfound : findOpening s source = some (some o)) :
    ∀ j, s.Offers answered j → s.isFrom source j = true → j ≤ o :=
  findLoop_newest h hp hp.current (fun j hj _ => h.current j hj) hfound

/-- Before the first offer there is nothing to be out of order. -/
theorem Ordered.initial (pageCount : UInt8) : Ordered (.initial pageCount) [] where
  offered := by simp
  bound := by simp [Server.initial]
  current := by simp [Server.Offers]
  next := by simp [Server.Offers]

/-- To open more pipes keeps the order. -/
theorem Ordered.withHandle (h : Ordered s answered) (hn : s.nextHandle ≤ n) :
    Ordered { s with nextHandle := n } answered where
  offered p hp := (h.offered p hp).trans_le hn
  bound i node hi := ⟨(h.bound i node hi).1, fun pipe hpipe =>
    ((h.bound i node hi).2 pipe hpipe).trans_le hn⟩
  current := h.current
  next := h.next

/-- To free an opening keeps the order of the others. -/
theorem Ordered.put_none (h : Ordered s answered) : Ordered (s.put o none) answered := by
  have hsub : ∀ i node, (s.put o none).openings i = some node → s.openings i = some node := by
    intro i node hi
    by_cases hio : i = o
    · simp [hio] at hi
    · rwa [Server.put_openings_of_ne hio] at hi
  have hoffers : ∀ i, (s.put o none).Offers answered i → s.Offers answered i := by
    rintro i ⟨node, pipe, hnode, hpipe, hmem⟩
    exact ⟨node, pipe, hsub i node hnode, hpipe, hmem⟩
  exact ⟨h.offered, fun i node hi => h.bound i node (hsub i node hi),
    fun i hi => h.current i (hoffers i hi),
    fun i node j hi hio hj hlt => h.next i node j (hsub i node hi) (hoffers i hio)
      (hoffers j hj) hlt⟩

/-- An opening is taken out from behind another node. -/
theorem Ordered.unlink {node removed : Opening} (h : Ordered s answered) (hp : Pointers s answered)
    (ht : s.openings temp = some node) (hnext : node.next = some o)
    (ho : s.openings o = some removed) :
    Ordered ((s.put temp (some { node with next := removed.next })).put o none) answered := by
  have hsub : ∀ i node',
      ((s.put temp (some { node with next := removed.next })).put o none).openings i = some node' →
        i ≠ o ∧ ∃ old, s.openings i = some old ∧ node'.source = old.source ∧
          node'.receiveFd = old.receiveFd ∧
          (i = temp → node'.next = removed.next) ∧ (i ≠ temp → node' = old) := by
    intro i node' hi
    have hio : i ≠ o := by
      rintro rfl
      simp at hi
    rw [Server.put_openings_of_ne hio] at hi
    refine ⟨hio, ?_⟩
    by_cases hit : i = temp
    · subst hit
      rw [Server.put_openings_self] at hi
      cases hi
      exact ⟨node, ht, rfl, rfl, fun _ => rfl, fun hne => absurd rfl hne⟩
    · rw [Server.put_openings_of_ne hit] at hi
      exact ⟨node', hi, rfl, rfl, fun he => absurd he hit, fun _ => rfl⟩
  have hoffers : ∀ i,
      ((s.put temp (some { node with next := removed.next })).put o none).Offers answered i →
        i ≠ o ∧ s.Offers answered i := by
    rintro i ⟨node', pipe, hnode, hpipe, hmem⟩
    obtain ⟨hio, old, hold, hsource, hfd, -⟩ := hsub i node' hnode
    exact ⟨hio, old, pipe, hold, hfd ▸ hpipe, hsource ▸ hmem⟩
  refine ⟨h.offered, fun i node' hi => ?_, fun i hi => h.current i (hoffers i hi).2,
    fun i node' j hi hio hj hlt => ?_⟩
  · obtain ⟨-, old, hold, -, hfd, -⟩ := hsub i node' hi
    rw [hfd]
    exact h.bound i old hold
  · obtain ⟨-, old, hold, -, -, hchanged, hsame⟩ := hsub i node' hi
    obtain ⟨k, hk, hle⟩ := h.next i old j hold (hoffers i hio).2 (hoffers j hj).2 hlt
    by_cases hit : i = temp
    · -- the node behind is now the one behind the opening that was taken out
      subst hit
      cases hold.symm.trans ht
      cases hnext.symm.trans hk
      obtain ⟨pipe, hpipe, hmem⟩ := (hp.next i node o ht hnext).2 removed ho
      rw [hchanged rfl]
      exact h.next o removed j ho ⟨removed, pipe, ho, hpipe, hmem⟩ (hoffers j hj).2
        (lt_of_le_of_ne hle (hoffers j hj).1)
    · rw [hsame hit]
      exact ⟨k, hk, hle⟩

/-- To take an opening out of the list keeps the order of the others. -/
theorem Ordered.freeOpening (h : Ordered s answered) (hp : Pointers s answered)
    (hfree : freeOpening s o = some s') : Ordered s' answered := by
  rcases freeOpening_cases hfree with
    rfl | rfl | ⟨temp, before, removed, hbefore, hnext, hremoved, rfl⟩
  · exact h
  · exact h.put_none
  · exact h.unlink hp hbefore hnext hremoved

/-- A node is made whose pipe is new and is not offered to anybody. -/
theorem Ordered.put_fresh {node : Opening} (h : Ordered s answered) (hn : s.nextHandle ≤ n)
    (hpipe : ∀ pipe, node.receiveFd = some pipe → pipe = s.nextHandle ∧ pipe < n) :
    Ordered { s.put s.nextOpening (some node) with
      nextOpening := s.nextOpening + 1
      nextHandle := n } answered := by
  have hoffers : ∀ i, Server.Offers { s.put s.nextOpening (some node) with
      nextOpening := s.nextOpening + 1
      nextHandle := n } answered i → i ≠ s.nextOpening ∧ s.Offers answered i := by
    rintro i ⟨node', pipe, hnode, hfd, hmem⟩
    by_cases hnew : i = s.nextOpening
    · subst hnew
      cases (Server.put_openings_self (s := s)).symm.trans hnode
      -- its pipe is newer than all that were offered
      have hlt := h.offered _ hmem
      rw [(hpipe pipe hfd).1] at hlt
      exact absurd hlt (lt_irrefl _)
    · exact ⟨hnew, node', pipe, (Server.put_openings_of_ne hnew).symm.trans hnode, hfd, hmem⟩
  refine ⟨fun p hp => (h.offered p hp).trans_le hn, fun i node' hi => ?_,
    fun i hi => h.current i (hoffers i hi).2, fun i node' j hi hio hj hlt => ?_⟩
  · by_cases hnew : i = s.nextOpening
    · subst hnew
      cases (Server.put_openings_self (s := s)).symm.trans hi
      exact ⟨Nat.lt_succ_self _, fun pipe hfd => (hpipe pipe hfd).2⟩
    · obtain ⟨hlt, hfd⟩ := h.bound i node' ((Server.put_openings_of_ne hnew).symm.trans hi)
      exact ⟨Nat.lt_succ_of_lt hlt, fun pipe hpipe => (hfd pipe hpipe).trans_le hn⟩
  · obtain ⟨hnew, hold⟩ := hoffers i hio
    exact h.next i node' j ((Server.put_openings_of_ne hnew).symm.trans hi) hold
      (hoffers j hj).2 hlt

/-- A new opening comes before all the others. -/
theorem Ordered.granted (h : Ordered s answered) :
    Ordered { s.put s.nextOpening (some ⟨source, some s.nextHandle, s.current⟩) with
      current := some s.nextOpening
      nextOpening := s.nextOpening + 1
      nextHandle := s.nextHandle + 1 } (answered ++ [(source, s.nextHandle)]) := by
  have hoffers : ∀ i, Server.Offers
      { s.put s.nextOpening (some ⟨source, some s.nextHandle, s.current⟩) with
        current := some s.nextOpening
        nextOpening := s.nextOpening + 1
        nextHandle := s.nextHandle + 1 } (answered ++ [(source, s.nextHandle)]) i →
      i = s.nextOpening ∨ i < s.nextOpening ∧ s.Offers answered i := by
    rintro i ⟨node', pipe, hnode, hfd, hmem⟩
    by_cases hnew : i = s.nextOpening
    · exact .inl hnew
    · have hold := (Server.put_openings_of_ne hnew).symm.trans hnode
      obtain ⟨hlt, hbound⟩ := h.bound i node' hold
      refine .inr ⟨hlt, node', pipe, hold, hfd,
        (List.mem_append.mp hmem).resolve_right fun hlast => ?_⟩
      have hpipe : pipe = s.nextHandle := congrArg Prod.snd (List.mem_singleton.mp hlast)
      exact absurd (hbound pipe hfd) (hpipe ▸ lt_irrefl _)
  refine ⟨fun p hp => ?_, fun i node' hi => ?_, fun i hi => ⟨s.nextOpening, rfl, ?_⟩,
    fun i node' j hi hio hj hlt => ?_⟩
  · rcases List.mem_append.mp hp with hp | hp
    · exact Nat.lt_succ_of_lt (h.offered p hp)
    · obtain rfl := List.mem_singleton.mp hp
      exact Nat.lt_succ_self _
  · by_cases hnew : i = s.nextOpening
    · subst hnew
      cases (Server.put_openings_self (s := s)).symm.trans hi
      exact ⟨Nat.lt_succ_self _, fun pipe hfd => by cases hfd; exact Nat.lt_succ_self _⟩
    · obtain ⟨hlt, hfd⟩ := h.bound i node' ((Server.put_openings_of_ne hnew).symm.trans hi)
      exact ⟨Nat.lt_succ_of_lt hlt, fun pipe hpipe => Nat.lt_succ_of_lt (hfd pipe hpipe)⟩
  · rcases hoffers i hi with rfl | ⟨hlt, -⟩
    · exact le_rfl
    · exact hlt.le
  · rcases hoffers i hio with rfl | ⟨hlti, hold⟩
    · cases (Server.put_openings_self (s := s)).symm.trans hi
      exact h.current j ((hoffers j hj).resolve_left hlt.ne).2
    · have hnew : i ≠ s.nextOpening := hlti.ne
      refine h.next i node' j ((Server.put_openings_of_ne hnew).symm.trans hi) hold ?_ hlt
      exact ((hoffers j hj).resolve_left (hlt.trans hlti).ne).2

end Ordered

end XenShm.Udp
