import XenShm.Library.Run
import XenShm.Udp.Handled

/-!
# Who owns the nodes and the pipes of the server

Every allocated opening should be in the list, and every open pipe should belong to one
opening or to one child. Three things break this. A `CLIENT_HELLO` that cannot be granted
leaves its node outside the list; the first node of the list is freed without being taken
out; and a child gets the pipe of an opening that stays in the list.
-/

namespace XenShm.Udp

open Library

/-- The server together with every call that it has made. -/
structure Served where
  /-- The server between two calls of `udp_readable_cb`. -/
  server : Server
  /-- The calls that were made so far, in their order. -/
  log : List Effect

/-- The server before it has received anything. -/
def Served.initial (pageCount : UInt8) : Served := ⟨.initial pageCount, []⟩

/-- One call of `udp_readable_cb`, with its calls added to the log. -/
def Served.step (v : Served) (w : Wakeup) : Option Served :=
  (udpReadable v.server w).map fun (s, effects) => ⟨s, v.log ++ effects⟩

/-- Who refers to a pipe and has to free it. -/
inductive Owner where
  /-- The opening with this number. -/
  | opening (o : Id)
  /-- The child with this number. -/
  | child (t : Id)

/-- The pipe is the receive pipe of the opening, or one of the pipes of the child. -/
def Server.Owns (s : Server) : Owner → Handle → Prop
  | .opening o, pipe => ∃ node, s.openings o = some node ∧ node.receiveFd = some pipe
  | .child t, pipe =>
    ∃ thread, s.threads t = some thread ∧ (thread.receiveFd = some pipe ∨ thread.sendFd = pipe)

/-- Every node and every pipe has one owner. -/
structure SingleOwnership (v : Served) : Prop where
  /-- The allocated openings are those in the list. By `Linked.nodup` each is there once, and
  by `Linked.isSome` none was freed. -/
  openings : ∃ l, Linked v.server.link v.server.current l ∧
    ∀ o, (v.server.openings o).isSome = true ↔ o ∈ l
  /-- A pipe that was opened and not freed has exactly one owner. -/
  owned : ∀ pipe, pipe ∈ v.log.filterMap Effect.opened → pipe ∉ v.log.filterMap Effect.freed →
    ∃! owner, v.server.Owns owner pipe
  /-- No pipe is freed twice in the whole log. -/
  freedOnce : (v.log.filterMap Effect.freed).Nodup
  /-- No pipe is freed that a child was started with before. -/
  heldKept : ∀ before pipe after, v.log = before ++ .pipeFree pipe :: after →
    ∀ receiveFd sendFd, Effect.threadCreate receiveFd sendFd true ∈ before →
      receiveFd ≠ some pipe ∧ sendFd ≠ pipe

/-- The call of `udp_readable_cb` is for no packet, for one that is ignored, or for one that is
handled well. -/
def KeepsTrack (v : Served) : Wakeup → Prop
  | .datagram source bytes stack env =>
    let len := min bytes.length Proto.maxLen
    let buffer := received bytes stack
    Proto.headerSize ≤ len → getVersion buffer = Proto.version →
      Fine v.server source len buffer env
  | _ => True

/-- What holds as long as every packet was fine. -/
structure Tidy (v : Served) (l : List Id) : Prop where
  /-- The list of the openings can be walked. -/
  lists : v.server.Lists l
  /-- Every allocated opening is in the list. -/
  mem : ∀ o, (v.server.openings o).isSome = true → o ∈ l
  /-- Every opening has a pipe of its own. -/
  pipe : ∀ o, (v.server.openings o).isSome = true → ∃ pipe, v.server.Owns (.opening o) pipe
  /-- The pipes of the openings were opened and not freed since. -/
  live : ∀ o pipe, v.server.Owns (.opening o) pipe →
    pipe ∈ v.log.filterMap Effect.opened ∧ pipe ∉ v.log.filterMap Effect.freed
  /-- No two openings share a pipe. -/
  single : ∀ o o' pipe, v.server.Owns (.opening o) pipe → v.server.Owns (.opening o') pipe → o = o'
  /-- Every open pipe belongs to an opening. -/
  owned : ∀ pipe, pipe ∈ v.log.filterMap Effect.opened → pipe ∉ v.log.filterMap Effect.freed →
    ∃ o, v.server.Owns (.opening o) pipe
  /-- Pipes are numbered in the order in which they were opened. -/
  bound : ∀ pipe ∈ v.log.filterMap Effect.opened, pipe < v.server.nextHandle
  /-- Only pipes that were opened are freed. -/
  freed : ∀ pipe ∈ v.log.filterMap Effect.freed, pipe ∈ v.log.filterMap Effect.opened
  /-- No pipe is freed twice in the whole log. -/
  freedOnce : (v.log.filterMap Effect.freed).Nodup
  /-- There are no children yet. -/
  childless : ∀ t, v.server.threads t = none
  /-- No child was ever started. -/
  unstarted : ∀ receiveFd sendFd, Effect.threadCreate receiveFd sendFd true ∉ v.log

section Steps

variable {v v' : Served} {s s' : Server} {l l₁ l₂ : List Id} {o a : Id} {effects : List Effect}
  {log : List Effect} {opens frees : List Handle} {source : SockAddr} {len : Nat} {buffer : Buffer}
  {env : Outcomes} {node : Opening} {pipe : Handle}

/-- As long as every packet was fine, every node and every pipe has one owner. -/
theorem Tidy.singleOwnership (h : Tidy v l) : SingleOwnership v where
  openings := ⟨l, h.lists.linked, fun o => ⟨h.mem o, fun ho => by
    simpa [Server.link] using h.lists.linked.isSome ho⟩⟩
  owned := by
    intro pipe hopened hfreed
    obtain ⟨o, ho⟩ := h.owned pipe hopened hfreed
    refine ⟨.opening o, ho, ?_⟩
    rintro (o' | t) howner
    · rw [h.single o' o pipe howner ho]
    · obtain ⟨thread, hthread, -⟩ := howner
      simp [h.childless] at hthread
  freedOnce := h.freedOnce
  heldKept := by
    intro before pipe after hlog receiveFd sendFd hmem
    exact absurd (by simp [hlog, hmem]) (h.unstarted receiveFd sendFd)

/-- Before the first packet there is nothing to be owned. -/
theorem Tidy.initial (pageCount : UInt8) : Tidy (.initial pageCount) [] where
  lists := ⟨rfl, by simp⟩
  mem := by simp [Served.initial, Server.initial]
  pipe := by simp [Served.initial, Server.initial]
  live := by simp [Server.Owns, Served.initial, Server.initial]
  single := by simp [Server.Owns, Served.initial, Server.initial]
  owned := by simp [Served.initial]
  bound := by simp [Served.initial]
  freed := by simp [Served.initial]
  freedOnce := by simp [Served.initial]
  childless := by simp [Served.initial, Server.initial]
  unstarted := by simp [Served.initial]

/-- The pipes opened so far are those of the log and those that the new effects open. -/
theorem Moves.mem_opened (h : Moves effects opens frees) :
    pipe ∈ (log ++ effects).filterMap Effect.opened ↔
      pipe ∈ log.filterMap Effect.opened ∨ pipe ∈ opens := by
  rw [List.filterMap_append, List.mem_append, h.opened]

/-- The pipes freed so far are those of the log and those that the new effects free. -/
theorem Moves.mem_freed (h : Moves effects opens frees) :
    pipe ∈ (log ++ effects).filterMap Effect.freed ↔
      pipe ∈ log.filterMap Effect.freed ∨ pipe ∈ frees := by
  rw [List.filterMap_append, List.mem_append, h.freed.mem_iff]

/-- No child was started before, and none is started now. -/
theorem Moves.unstarted_append (h : Moves effects opens frees)
    (hlog : ∀ receiveFd sendFd, Effect.threadCreate receiveFd sendFd true ∉ log)
    (receiveFd : Option Handle) (sendFd : Handle) :
    Effect.threadCreate receiveFd sendFd true ∉ log ++ effects := fun hmem =>
  (List.mem_append.mp hmem).elim (hlog receiveFd sendFd) (h.unstarted receiveFd sendFd)

/-- Pipes that were not open before are not in the log. -/
theorem Tidy.fresh (h : Tidy v l) : v.server.nextHandle ∉ v.log.filterMap Effect.opened ∧
    v.server.nextHandle ∉ v.log.filterMap Effect.freed := by
  refine ⟨fun hmem => ?_, fun hmem => ?_⟩
  · exact absurd (h.bound _ hmem) (Nat.lt_irrefl _)
  · exact absurd (h.bound _ (h.freed _ hmem)) (Nat.lt_irrefl _)

/-- An answer that opens and frees nothing changes nothing. -/
theorem Tidy.ignored (h : Tidy v l) (hmoves : Moves effects [] []) :
    Tidy ⟨v.server, v.log ++ effects⟩ l := by
  have hopened := hmoves.opened
  have hfreed := List.perm_nil.mp hmoves.freed
  refine ⟨h.lists, h.mem, h.pipe, ?_, h.single, ?_, ?_, ?_, ?_, h.childless,
    hmoves.unstarted_append h.unstarted⟩
  · simpa [hopened, hfreed] using h.live
  · simpa [hopened, hfreed] using h.owned
  · simpa [hopened, hfreed] using h.bound
  · simpa [hopened, hfreed] using h.freed
  · simpa [hopened, hfreed] using h.freedOnce

/-- The pipe of an opening was opened before. -/
theorem Tidy.owns_lt (h : Tidy v l) (ho : v.server.Owns (.opening o) pipe) :
    pipe < v.server.nextHandle :=
  h.bound pipe (h.live o pipe ho).1

/-- The pipes of openings after a new one is put in front. -/
theorem owns_of_granted (hs : s' = { s.put s.nextOpening
        (some ⟨source, some s.nextHandle, s.current⟩) with
      current := some s.nextOpening
      nextOpening := s.nextOpening + 1
      nextHandle := s.nextHandle + 1 }) :
    (∀ i, (s'.openings i).isSome = true ↔
        i = s.nextOpening ∨ i ≠ s.nextOpening ∧ (s.openings i).isSome = true) ∧
      ∀ i pipe, s'.Owns (.opening i) pipe ↔ (i = s.nextOpening ∧ pipe = s.nextHandle) ∨
        i ≠ s.nextOpening ∧ s.Owns (.opening i) pipe := by
  have hnew : s'.openings s.nextOpening = some ⟨source, some s.nextHandle, s.current⟩ := by
    simp [hs]
  have hold : ∀ i, i ≠ s.nextOpening → s'.openings i = s.openings i := by
    intro i hi
    rw [hs]
    exact Server.put_openings_of_ne hi
  refine ⟨fun i => ?_, fun i pipe => ?_⟩
  · by_cases hi : i = s.nextOpening
    · simp [hi, hnew]
    · simp [hi, hold i hi]
  · by_cases hi : i = s.nextOpening
    · subst i
      simp [Server.Owns, hnew, eq_comm]
    · simp [Server.Owns, hi, hold i hi]

/-- A new opening in front of the list owns the new pipe that it was given. -/
theorem Tidy.granted (h : Tidy v l) (hmoves : Moves effects [v.server.nextHandle] [])
    (hs : s = { v.server.put v.server.nextOpening
        (some ⟨source, some v.server.nextHandle, v.server.current⟩) with
      current := some v.server.nextOpening
      nextOpening := v.server.nextOpening + 1
      nextHandle := v.server.nextHandle + 1 }) :
    Tidy ⟨s, v.log ++ effects⟩ (v.server.nextOpening :: l) := by
  obtain ⟨hsome, howns⟩ := owns_of_granted hs
  obtain ⟨hfresh, hfresh'⟩ := h.fresh
  have hhandle : s.nextHandle = v.server.nextHandle + 1 := by rw [hs]
  have hne : ∀ i ∈ l, i ≠ v.server.nextOpening := fun i hi => (h.lists.bound i hi).ne
  have hopened : ∀ q, q ∈ (v.log ++ effects).filterMap Effect.opened ↔
      q ∈ v.log.filterMap Effect.opened ∨ q = v.server.nextHandle := fun q => by
    rw [hmoves.mem_opened, List.mem_singleton]
  have hfreed : ∀ q, q ∈ (v.log ++ effects).filterMap Effect.freed ↔
      q ∈ v.log.filterMap Effect.freed := fun q => by
    rw [hmoves.mem_freed]
    exact or_iff_left List.not_mem_nil
  refine ⟨⟨?_, ?_⟩, ?_, ?_, ?_, ?_, ?_, ?_, ?_, ?_, ?_, hmoves.unstarted_append h.unstarted⟩
  · rw [hs]
    refine h.lists.linked.push (by simp [Server.link]) fun i hi => ?_
    exact Server.link_put_of_ne (hne i hi)
  · intro i hi
    simp only [hs]
    rcases List.mem_cons.mp hi with rfl | hi
    · exact Nat.lt_succ_self _
    · exact Nat.lt_succ_of_lt (h.lists.bound i hi)
  · intro i hi
    rcases (hsome i).mp hi with rfl | ⟨-, hi⟩
    · exact List.mem_cons_self
    · exact List.mem_cons_of_mem _ (h.mem i hi)
  · intro i hi
    rcases (hsome i).mp hi with rfl | ⟨hne, hi⟩
    · exact ⟨_, (howns _ _).mpr (.inl ⟨rfl, rfl⟩)⟩
    · obtain ⟨q, hq⟩ := h.pipe i hi
      exact ⟨q, (howns i q).mpr (.inr ⟨hne, hq⟩)⟩
  · intro i q hi
    rw [hopened, hfreed]
    rcases (howns i q).mp hi with ⟨-, rfl⟩ | ⟨-, hi⟩
    · exact ⟨.inr rfl, hfresh'⟩
    · exact (h.live i q hi).imp_left .inl
  · intro i j q hi hj
    rcases (howns i q).mp hi with ⟨rfl, rfl⟩ | ⟨-, hi⟩ <;>
      rcases (howns j _).mp hj with ⟨rfl, hq⟩ | ⟨-, hj⟩
    · rfl
    · exact absurd (h.owns_lt hj) (Nat.lt_irrefl _)
    · exact absurd (h.owns_lt (hq ▸ hi)) (Nat.lt_irrefl _)
    · exact h.single i j q hi hj
  · intro q hq hnot
    rw [hfreed] at hnot
    rcases (hopened q).mp hq with hq | rfl
    · obtain ⟨i, hi⟩ := h.owned q hq hnot
      obtain ⟨node, hnode, -⟩ := id hi
      exact ⟨i, (howns i q).mpr (.inr ⟨hne i (h.mem i (by simp [hnode])), hi⟩)⟩
    · exact ⟨_, (howns _ _).mpr (.inl ⟨rfl, rfl⟩)⟩
  · intro q hq
    rw [hhandle]
    rcases (hopened q).mp hq with hq | rfl
    · exact Nat.lt_succ_of_lt (h.bound q hq)
    · exact Nat.lt_succ_self _
  · intro q hq
    exact (hopened q).mpr (.inl (h.freed q ((hfreed q).mp hq)))
  · simpa [List.perm_nil.mp hmoves.freed] using h.freedOnce
  · simpa [hs, Server.put] using h.childless

/-- The pipes of openings behind the first one after another is freed. -/
theorem owns_of_freed {n : Handle} (h : s.Lists (l₁ ++ a :: o :: l₂))
    (hfree : freeOpening { s with nextHandle := n } o = some s') :
    Linked s'.link s'.current (l₁ ++ a :: l₂) ∧ s'.threads = s.threads ∧
      s'.nextOpening = s.nextOpening ∧ s'.nextHandle = n ∧
      (∀ i, (s'.openings i).isSome = true ↔ i ≠ o ∧ (s.openings i).isSome = true) ∧
      ∀ i pipe, s'.Owns (.opening i) pipe ↔ i ≠ o ∧ s.Owns (.opening i) pipe := by
  have h' : Server.Lists { s with nextHandle := n } (l₁ ++ a :: o :: l₂) := ⟨h.linked, h.bound⟩
  obtain ⟨before, removed, hbefore, hremoved, hne, heq, hlinked⟩ := freeOpening_behind h'
  cases hfree.symm.trans heq
  have hopen : s.openings a = some before := hbefore
  refine ⟨hlinked, rfl, rfl, rfl, fun i => ?_, fun i pipe => ?_⟩
  · by_cases hi : i = o
    · simp [hi]
    by_cases hi' : i = a
    · subst i
      simp [Server.put_openings_of_ne hne, hne, hopen]
    · simp only [Server.put_openings_of_ne hi, Server.put_openings_of_ne hi', ne_eq, hi,
        not_false_eq_true, true_and]
  · by_cases hi : i = o
    · simp [Server.Owns, hi]
    by_cases hi' : i = a
    · subst i
      simp [Server.Owns, Server.put_openings_of_ne hne, hne, hopen]
    · simp only [Server.Owns, Server.put_openings_of_ne hi, Server.put_openings_of_ne hi',
      ne_eq, hi,
        not_false_eq_true, true_and]

/-- An opening is given back with its pipe, and so is a second pipe if one was opened. -/
theorem Tidy.freed_behind (h : Tidy v (l₁ ++ a :: o :: l₂))
    (howner : v.server.Owns (.opening o) pipe) (hopens : opens = [] ∨ opens = [v.server.nextHandle])
    (hfree : freeOpening { v.server with nextHandle := v.server.nextHandle + opens.length } o =
      some s) (hmoves : Moves effects opens (pipe :: opens)) :
    Tidy ⟨s, v.log ++ effects⟩ (l₁ ++ a :: l₂) := by
  obtain ⟨hlinked, hthreads, hnext, hhandle, hsome, howns⟩ := owns_of_freed h.lists hfree
  obtain ⟨hfresh, hfresh'⟩ := h.fresh
  have hsub : ∀ i, i ∈ l₁ ++ a :: l₂ → i ∈ l₁ ++ a :: o :: l₂ := by
    intro i hi
    simp only [List.mem_append, List.mem_cons] at hi ⊢
    tauto
  have hnew : ∀ q ∈ opens, q = v.server.nextHandle := by
    rcases hopens with rfl | rfl <;> simp
  have hopened : ∀ q, q ∈ (v.log ++ effects).filterMap Effect.opened ↔
      q ∈ v.log.filterMap Effect.opened ∨ q ∈ opens := fun _ => hmoves.mem_opened
  have hfreed : ∀ q, q ∈ (v.log ++ effects).filterMap Effect.freed ↔
      q ∈ v.log.filterMap Effect.freed ∨ q = pipe ∨ q ∈ opens := fun q => by
    rw [hmoves.mem_freed, List.mem_cons]
  obtain ⟨hpopened, hpfreed⟩ := h.live o pipe howner
  -- A pipe of an opening that stays is neither the freed one nor a new one.
  have hkept : ∀ i q, i ≠ o → v.server.Owns (.opening i) q → q ≠ pipe ∧ q ∉ opens := by
    intro i q hi hq
    refine ⟨?_, fun hmem => ?_⟩
    · rintro rfl
      exact hi (h.single i o q hq howner)
    · exact absurd (h.owns_lt hq) (by rw [hnew q hmem]; exact Nat.lt_irrefl _)
  refine ⟨⟨hlinked, ?_⟩, ?_, ?_, ?_, ?_, ?_, ?_, ?_, ?_, ?_, hmoves.unstarted_append h.unstarted⟩
  · intro i hi
    simpa only [hnext] using h.lists.bound i (hsub i hi)
  · intro i hi
    obtain ⟨hne, hi⟩ := (hsome i).mp hi
    have hmem := h.mem i hi
    simp only [List.mem_append, List.mem_cons] at hmem ⊢
    tauto
  · intro i hi
    obtain ⟨hne, hi⟩ := (hsome i).mp hi
    obtain ⟨q, hq⟩ := h.pipe i hi
    exact ⟨q, (howns i q).mpr ⟨hne, hq⟩⟩
  · intro i q hi
    obtain ⟨hne, hq⟩ := (howns i q).mp hi
    obtain ⟨hin, hnot⟩ := h.live i q hq
    obtain ⟨hqne, hqnew⟩ := hkept i q hne hq
    refine ⟨(hopened q).mpr (.inl hin), fun hmem => ?_⟩
    rcases (hfreed q).mp hmem with hmem | hmem | hmem
    · exact hnot hmem
    · exact hqne hmem
    · exact hqnew hmem
  · intro i j q hi hj
    exact h.single i j q ((howns i q).mp hi).2 ((howns j q).mp hj).2
  · intro q hq hnot
    have hnot' := mt (hfreed q).mpr hnot
    simp only [not_or] at hnot'
    obtain ⟨i, hi⟩ := h.owned q (((hopened q).mp hq).resolve_right hnot'.2.2) hnot'.1
    refine ⟨i, (howns i q).mpr ⟨?_, hi⟩⟩
    rintro rfl
    obtain ⟨node, hnode, hq⟩ := hi
    obtain ⟨node', hnode', hpipe⟩ := howner
    cases hnode.symm.trans hnode'
    exact hnot'.2.1 (Option.some.inj (hq.symm.trans hpipe))
  · intro q hq
    rw [hhandle]
    rcases (hopened q).mp hq with hq | hq
    · exact Nat.lt_add_right _ (h.bound q hq)
    · have hlen : 0 < opens.length := List.length_pos_of_mem hq
      rw [hnew q hq]
      exact Nat.lt_add_of_pos_right hlen
  · intro q hq
    rw [hopened]
    rcases (hfreed q).mp hq with hq | rfl | hq
    · exact .inl (h.freed q hq)
    · exact .inl hpopened
    · exact .inr hq
  · have hnodup : (pipe :: opens).Nodup := by
      rcases hopens with rfl | rfl
      · simp
      · have hne : pipe ≠ v.server.nextHandle := (h.bound pipe hpopened).ne
        simp [hne]
    rw [List.filterMap_append]
    refine List.Nodup.append h.freedOnce (hmoves.freed.nodup_iff.mpr hnodup) fun q hq hq' => ?_
    rcases List.mem_cons.mp (hmoves.freed.mem_iff.mp hq') with rfl | hq'
    · exact hpfreed hq
    · exact hfresh' (hnew q hq' ▸ hq)
  · simpa only [hthreads] using h.childless

/-- A node that is found is in the list, and behind another one unless it is the first. -/
theorem found_cases (h : s.Lists l) (hfound : findOpening s source = some (some o)) :
    (∃ l', l = o :: l' ∧ s.current = some o) ∨
      (s.current ≠ some o ∧ ∃ l₁ a l₂, l = l₁ ++ a :: o :: l₂) := by
  rw [findOpening_eq h] at hfound
  exact h.position (List.mem_of_find?_eq_some (Option.some.inj hfound))

/-- A packet that is handled well leaves everything tidy. -/
theorem Tidy.handled (h : Tidy v l) (hfine : Fine v.server source len buffer env)
    (hhandled : Handled v.server source len buffer env s effects) :
    ∃ l', Tidy ⟨s, v.log ++ effects⟩ l' := by
  cases hhandled with
  | ignored _ hmoves => exact ⟨l, h.ignored hmoves.toMoves⟩
  | leaked node opens frees _ _ _ _ hbad => exact absurd hfine hbad
  | granted grant => exact ⟨_, h.granted ⟨rfl, .nil, by simp [grantEffects]⟩ rfl⟩
  | freed o node pipe opens _ _ hfound hnode hpipe hopens hfree hmoves hiff =>
    rcases found_cases h.lists hfound with ⟨-, -, hfirst⟩ | ⟨-, l₁, a, l₂, rfl⟩
    · exact absurd hfirst (hiff.mp hfine)
    · exact ⟨_, h.freed_behind ⟨node, hnode, hpipe⟩ hopens hfree hmoves.toMoves⟩
  | started o node _ _ _ _ hbad => exact absurd hfine hbad

/-- A packet that is not handled well loses track of a node or of a pipe at once. -/
theorem Tidy.not_handled (h : Tidy v l) (hfine : ¬ Fine v.server source len buffer env)
    (hhandled : Handled v.server source len buffer env s effects) :
    ¬ SingleOwnership ⟨s, v.log ++ effects⟩ := by
  intro hsingle
  cases hhandled with
  | ignored _ _ hgood => exact hfine hgood
  | granted _ _ _ hgood => exact hfine hgood
  | leaked node opens frees _ _ _ _ _ =>
    -- The list that `current` leads to is the old one.
    obtain ⟨l', hl', hmem⟩ := hsingle.openings
    have hold : Linked (v.server.put v.server.nextOpening (some node)).link v.server.current l :=
      h.lists.linked.congr fun i hi => Server.link_put_of_ne (h.lists.bound i hi).ne
    obtain rfl := Linked.unique hl' hold
    have hin := (hmem v.server.nextOpening).mp (by simp)
    exact absurd (h.lists.bound _ hin) (Nat.lt_irrefl _)
  | freed o node pipe opens _ _ hfound hnode hpipe hopens hfree hmoves hiff =>
    rcases found_cases h.lists hfound with ⟨l', rfl, hfirst⟩ | ⟨hbehind, -⟩
    · -- `current` leads to the freed node.
      have h' : Server.Lists
          { v.server with nextHandle := v.server.nextHandle + opens.length } (o :: l') :=
        ⟨h.lists.linked, h.lists.bound⟩
      cases hfree.symm.trans (freeOpening_of_first h')
      obtain ⟨m, hm, hmem⟩ := hsingle.openings
      cases m with
      | nil =>
        have hnone : v.server.current = none := hm
        simp [hnone] at hfirst
      | cons c m =>
        obtain ⟨hc, tail, hlink, -⟩ := hm
        cases hfirst.symm.trans hc
        have hgone := Server.link_put_self (s := { v.server with
          nextHandle := v.server.nextHandle + opens.length }) (o := o) (n := none)
        cases hlink.symm.trans hgone
    · exact hfine (hiff.mpr hbehind)
  | started o node _ _ _ hnode _ =>
    -- The opening and the child refer to the same pipe.
    obtain ⟨pipe, node', hnode', hpipe⟩ := h.pipe o (by simp [hnode])
    cases hnode.symm.trans hnode'
    obtain ⟨hopened, hfreed⟩ := h.live o pipe ⟨node, hnode, hpipe⟩
    obtain ⟨owner, -, honly⟩ := hsingle.owned pipe
      (by simp only [List.filterMap_append, List.mem_append, hopened, true_or])
      (by simpa [startEffects, Effect.freed] using hfreed)
    have hopening := honly (.opening o) ⟨node, hnode, hpipe⟩
    have hchild := honly (.child v.server.nextThread)
      ⟨_, Function.update_self .., .inl hpipe⟩
    exact Owner.noConfusion (hopening.trans hchild.symm)

/-- A call of `udp_readable_cb` handles a packet or does nothing. -/
theorem Served.step_cases {w : Wakeup} (h : v.step w = some v') :
    (KeepsTrack v w ∧ ∃ effects, Moves effects [] [] ∧ v' = ⟨v.server, v.log ++ effects⟩) ∨
      ∃ source len buffer env s effects, (KeepsTrack v w ↔ Fine v.server source len buffer env) ∧
        Handled v.server source len buffer env s effects ∧ v' = ⟨s, v.log ++ effects⟩ := by
  obtain ⟨⟨s, effects⟩, hread, rfl⟩ := Option.map_eq_some_iff.mp h
  cases w with
  | event failed =>
    obtain ⟨rfl, rfl⟩ := Prod.mk.inj (Option.some.inj hread)
    refine .inl ⟨trivial, _, ?_, rfl⟩
    cases failed
    · exact moves_nil
    · exact ⟨rfl, .nil, by simp⟩
  | unreadable =>
    obtain ⟨rfl, rfl⟩ := Prod.mk.inj (Option.some.inj hread)
    exact .inl ⟨trivial, [], moves_nil, rfl⟩
  | datagram source bytes stack env =>
    rcases udpReadable_cases hread with ⟨rfl, rfl, hbad⟩ | ⟨hgood, hhandled⟩
    · exact .inl ⟨fun hlen hversion => absurd ⟨hlen, hversion⟩ hbad, [], moves_nil, rfl⟩
    · refine .inr ⟨source, _, _, env, s, effects, ?_, hhandled, rfl⟩
      simp [KeepsTrack, hgood]

/-- A call that keeps track leaves everything tidy. -/
theorem Tidy.step {w : Wakeup} (h : Tidy v l) (htrack : KeepsTrack v w)
    (hstep : v.step w = some v') : ∃ l', Tidy v' l' := by
  rcases Served.step_cases hstep with ⟨-, effects, hmoves, rfl⟩ | ⟨_, _, _, _, s, _, hiff, hs, rfl⟩
  · exact ⟨l, h.ignored hmoves⟩
  · exact h.handled (hiff.mp htrack) hs

end Steps

/-- Every node and every pipe has one owner after every call of `udp_readable_cb` in a run exactly
when each call keeps track of them. -/
theorem single_ownership_iff (pageCount : UInt8) (calls : List Wakeup) :
    Always Served.step SingleOwnership (.initial pageCount) calls ↔
      Along Served.step KeepsTrack (.initial pageCount) calls := by
  refine always_iff_along (fun v (h : ∃ l, Tidy v l) => ?_) (fun v w v' h hfine hstep => ?_)
    (fun v w v' h hfine hstep => ?_) calls _ ⟨[], .initial pageCount⟩
  · obtain ⟨l, hl⟩ := h
    exact hl.singleOwnership
  · obtain ⟨l, hl⟩ := h
    exact hl.step hfine hstep
  · obtain ⟨l, hl⟩ := h
    rcases Served.step_cases hstep with ⟨htrack, -⟩ | ⟨_, _, _, _, s, _, hiff, hs, rfl⟩
    · exact absurd htrack hfine
    · exact hl.not_handled (mt hiff.mpr hfine) hs

/-- The results of the calls made for a packet, when every one of them succeeds. -/
def Outcomes.success : Outcomes := ⟨true, true, some ⟨1, 8⟩, true, true⟩

/-- A client greets the server and changes its mind. -/
def greetAndReset : List Wakeup :=
  [.datagram ⟨4000, 7⟩ ([1, 1] ++ List.replicate 10 0) (fun _ => 0) .success,
    .datagram ⟨4000, 7⟩ ([1, 4] ++ List.replicate 6 0) (fun _ => 0) .success]

/-- The list still leads to the opening that was freed. -/
theorem not_single_ownership :
    ∃ v, Reaches Served.step (fun _ _ => true) (.initial 4) v ∧ ¬ SingleOwnership v := by
  have hrun : (run Served.step (fun _ _ => true) (.initial 4) greetAndReset).any (fun v =>
      v.server.current = some 0 ∧ v.server.openings 0 = none) = true := by decide +kernel
  obtain ⟨v, hreach, hv⟩ := exists_reaches_of_run hrun
  obtain ⟨hcurrent, hgone⟩ := of_decide_eq_true hv
  refine ⟨v, hreach, fun hsingle => ?_⟩
  obtain ⟨l, hl, hmem⟩ := hsingle.openings
  cases l with
  | nil =>
    have hnone : v.server.current = none := hl
    simp [hnone] at hcurrent
  | cons o l =>
    obtain ⟨ho, tail, hlink, -⟩ := hl
    cases hcurrent.symm.trans ho
    simp [Server.link, hgone] at hlink

end XenShm.Udp
