import Mathlib.Data.List.Count
import XenShm.Udp.Ownership

/-!
# The end of the server

Behind the event loop `run_server` walks the two lists that `udp_readable_cb` left: it
closes the openings, then asks the children to stop, waits for them and frees their
nodes. Only the first loop gives pipes back. As in the callback there is no step that
follows a pointer to a node that was freed.
-/

namespace XenShm.Udp

open Library

/-- What `run_server` does behind `ev_loop`, step by step. -/
inductive EndStep where
  /-- A pipe is freed by `xen_shm_pipe_free`. -/
  | pipeFree (pipe : Handle)
  /-- The node of an opening is freed. -/
  | freeOpening (o : Id)
  /-- The field `child_data.stop` is set. -/
  | stop (t : Id)
  /-- The end of a child is awaited by `pthread_join`. -/
  | join (t : Id)
  /-- The node of a child is freed. -/
  | freeChild (t : Id)
  /-- The socket is shut down. -/
  | shutdown
  /-- The memory of `data`, `event` and `event_killer` is freed. -/
  | freeData
  deriving DecidableEq, Repr

/-- The link stored in a child, if it is allocated. -/
def Server.childLink (s : Server) (t : Id) : Option (Option Id) := (s.threads t).map Thread.next

/-- Replace a child by a node, or by nothing when it is freed. -/
def Server.putChild (s : Server) (t : Id) (thread : Option Thread) : Server :=
  { s with threads := Function.update s.threads t thread }

/-- The loop that closes the half-opened connections, one after the other. -/
def closeOpenings : (fuel : Nat) → (oIt : Option Id) → Server → Option (Server × List EndStep)
  | _, none, s => some (s, [])
  | 0, some _, _ => none
  | fuel + 1, some o, s => do
    let node ← s.openings o
    let (s, steps) ← closeOpenings fuel node.next (s.put o none)
    some (s, node.receiveFd.toList.map .pipeFree ++ .freeOpening o :: steps)

/-- A loop over the children that does one thing to each. -/
def childLoop (call : Id → EndStep) (change : Thread → Option Thread) :
    (fuel : Nat) → (cIt : Option Id) → Server → Option (Server × List EndStep)
  | _, none, s => some (s, [])
  | 0, some _, _ => none
  | fuel + 1, some t, s => do
    let thread ← s.threads t
    let (s, steps) ← childLoop call change fuel thread.next (s.putChild t (change thread))
    some (s, call t :: steps)

/-- The loop in which the children are asked to die. -/
def stopChilds : (fuel : Nat) → (cIt : Option Id) → Server → Option (Server × List EndStep) :=
  childLoop .stop fun thread => some { thread with stop := true }

/-- The loop in which the ends of the children are awaited. -/
def joinChilds : (fuel : Nat) → (cIt : Option Id) → Server → Option (Server × List EndStep) :=
  childLoop .join some

/-- The loop in which the list of the children is freed. -/
def freeChilds : (fuel : Nat) → (cIt : Option Id) → Server → Option (Server × List EndStep) :=
  childLoop .freeChild fun _ => none

/-- `run_server` behind `ev_loop`: its four loops, and what follows them. -/
def endServer (s : Server) : Option (Server × List EndStep) := do
  let (s, closed) ← closeOpenings s.nextOpening s.current s
  let (s, stopped) ← stopChilds s.nextThread s.childs s
  let (s, joined) ← joinChilds s.nextThread s.childs s
  let (s, freed) ← freeChilds s.nextThread s.childs s
  some (s, closed ++ stopped ++ joined ++ freed ++ [.shutdown, .freeData])

/-- An opening or a child refers to the pipe, and it was not freed. -/
def Served.Holds (v : Served) (pipe : Handle) : Prop :=
  (∃ owner, v.server.Owns owner pipe) ∧ pipe ∉ v.log.filterMap Effect.freed

/-- Everything that the server holds is released once and in order. -/
structure Releases (v : Served) (steps : List EndStep) : Prop where
  /-- Every pipe that the server still holds is freed once. -/
  pipes : ∀ pipe, v.Holds pipe → steps.count (.pipeFree pipe) = 1
  /-- No other pipe is freed. -/
  held : ∀ pipe, .pipeFree pipe ∈ steps → v.Holds pipe
  /-- A pipe of a child is freed when the child has been joined. -/
  joined : ∀ before pipe after t, steps = before ++ .pipeFree pipe :: after →
    v.server.Owns (.child t) pipe → .join t ∈ before
  /-- Every opening is freed exactly once. -/
  openings : ∀ o, (v.server.openings o).isSome = true → steps.count (.freeOpening o) = 1
  /-- Every child is freed exactly once. -/
  childs : ∀ t, (v.server.threads t).isSome = true → steps.count (.freeChild t) = 1

/-- The end of the server touches no freed node, and it releases everything. -/
def Served.ReleasesAll (v : Served) : Prop :=
  ∃ s steps, endServer v.server = some (s, steps) ∧ Releases v steps

/-- These are the children in the list of the server, in the order of its walk. -/
structure Server.Children (s : Server) (ts : List Id) : Prop where
  /-- The walk from `childs` visits these nodes. -/
  linked : Linked s.childLink s.childs ts
  /-- The children are numbered in the order in which they were started. -/
  bound : ∀ t ∈ ts, t < s.nextThread
  /-- Every child that was started is among them. -/
  mem : ∀ t, (s.threads t).isSome = true → t ∈ ts

/-- What is done for one opening: its pipe is freed, if it has one, and its node. -/
def Server.closing (s : Server) (o : Id) : List EndStep :=
  ((s.openings o).bind Opening.receiveFd).toList.map .pipeFree ++ [.freeOpening o]

/-- The server when these openings were freed. -/
def Server.without (s : Server) (l : List Id) : Server :=
  { s with openings := fun o => if o ∈ l then none else s.openings o }

/-- The server when these children were changed or freed. -/
def Server.changed (s : Server) (change : Thread → Option Thread) (ts : List Id) : Server :=
  { s with threads := fun t => if t ∈ ts then (s.threads t).bind change else s.threads t }

@[simp] theorem Server.without_childs {s : Server} {l : List Id} :
    (s.without l).childs = s.childs := rfl

@[simp] theorem Server.without_nextThread {s : Server} {l : List Id} :
    (s.without l).nextThread = s.nextThread := rfl

@[simp] theorem Server.changed_childs {s : Server} {change : Thread → Option Thread}
    {ts : List Id} : (s.changed change ts).childs = s.childs := rfl

@[simp] theorem Server.changed_nextThread {s : Server} {change : Thread → Option Thread}
    {ts : List Id} : (s.changed change ts).nextThread = s.nextThread := rfl

/-- All that is done for these openings and these children. -/
def endSteps (s : Server) (l ts : List Id) : List EndStep :=
  l.flatMap s.closing ++ ts.map .stop ++ ts.map .join ++ ts.map .freeChild ++ [.shutdown, .freeData]

section Loops

variable {s s' : Server} {head : Option Id} {l ts : List Id} {fuel : Nat} {o t : Id} {pipe : Handle}
  {call : Id → EndStep} {change : Thread → Option Thread}

/-- Every opening of the list is closed, and nothing else changes. -/
theorem closeOpenings_eq (h : Linked s.link head l) (hfuel : l.length ≤ fuel) :
    closeOpenings fuel head s = some (s.without l, l.flatMap s.closing) := by
  induction l generalizing head fuel s with
  | nil =>
    obtain rfl : head = none := h
    simp [closeOpenings, Server.without]
  | cons o l ih =>
    have hnodup := List.nodup_cons.mp h.nodup
    obtain ⟨rfl, tail, ho, hl⟩ := h
    obtain ⟨fuel, rfl⟩ : ∃ n, fuel = n + 1 := ⟨fuel - 1, by simp at hfuel; omega⟩
    obtain ⟨node, hnode, rfl⟩ := Option.map_eq_some_iff.mp ho
    have hne : ∀ i ∈ l, i ≠ o := fun i hi => ne_of_mem_of_not_mem hi hnodup.1
    have hrest := ih (s := s.put o none) (hl.congr fun i hi => Server.link_put_of_ne (hne i hi))
      (by simpa using hfuel)
    -- The nodes behind the first one are as before.
    have hclosing : l.flatMap (s.put o none).closing = l.flatMap s.closing := by
      refine List.flatMap_congr fun i hi => ?_
      simp only [Server.closing, Server.put_openings_of_ne (hne i hi)]
    have hwithout : (s.put o none).without l = s.without (o :: l) := by
      simp only [Server.without, Server.put, Server.mk.injEq, true_and, and_true]
      funext i
      by_cases hi : i = o <;> simp [hi]
    simp [closeOpenings, hnode, hrest, hclosing, hwithout, Server.closing]

/-- A loop over the children visits every child of the list. -/
theorem childLoop_eq (h : Linked s.childLink head ts) (hfuel : ts.length ≤ fuel) :
    childLoop call change fuel head s = some (s.changed change ts, ts.map call) := by
  induction ts generalizing head fuel s with
  | nil =>
    obtain rfl : head = none := h
    simp [childLoop, Server.changed]
  | cons t ts ih =>
    have hnodup := List.nodup_cons.mp h.nodup
    obtain ⟨rfl, tail, ht, hts⟩ := h
    obtain ⟨fuel, rfl⟩ : ∃ n, fuel = n + 1 := ⟨fuel - 1, by simp at hfuel; omega⟩
    obtain ⟨thread, hthread, rfl⟩ := Option.map_eq_some_iff.mp ht
    have hrest := ih (s := s.putChild t (change thread)) (hts.congr fun i hi => by
        have hne : i ≠ t := ne_of_mem_of_not_mem hi hnodup.1
        simp [Server.childLink, Server.putChild, hne])
      (by simpa using hfuel)
    have hchanged : (s.putChild t (change thread)).changed change ts =
        s.changed change (t :: ts) := by
      simp only [Server.changed, Server.putChild, Server.mk.injEq, true_and, and_true]
      funext i
      by_cases hi : i = t
      · simp [hi, hnodup.1, hthread]
      · simp [hi]
    simp [childLoop, hthread, hrest, hchanged]

/-- The list stays when no link is changed. -/
theorem linked_changed (h : Linked s.childLink head ts)
    (hchange : ∀ thread, (change thread).map Thread.next = some thread.next) :
    Linked (s.changed change ts).childLink head ts := by
  refine h.congr fun t ht => ?_
  have hsome := h.isSome ht
  rw [Server.childLink, Option.isSome_map] at hsome
  obtain ⟨thread, hthread⟩ := Option.isSome_iff_exists.mp hsome
  simp [Server.childLink, Server.changed, ht, hthread, hchange]

/-- What the end of the server does with two proper lists. -/
theorem endServer_eq (h : s.Lists l) (hts : s.Children ts) :
    ∃ s', endServer s = some (s', endSteps s l ts) := by
  have hlen := hts.linked.length_le hts.bound
  set stopped := (s.without l).changed (fun thread => some { thread with stop := true }) ts
  have hstopped : Linked stopped.childLink s.childs ts :=
    linked_changed (s := s.without l) hts.linked fun _ => rfl
  have hjoined : Linked (stopped.changed some ts).childLink s.childs ts :=
    linked_changed hstopped fun _ => rfl
  have hclose := closeOpenings_eq h.linked h.length_le
  have hstop : stopChilds s.nextThread s.childs (s.without l) = some (stopped, ts.map .stop) :=
    childLoop_eq hts.linked hlen
  have hjoin : joinChilds s.nextThread s.childs stopped =
      some (stopped.changed some ts, ts.map .join) := childLoop_eq hstopped hlen
  have hfree : freeChilds s.nextThread s.childs (stopped.changed some ts) =
      some ((stopped.changed some ts).changed (fun _ => none) ts, ts.map .freeChild) :=
    childLoop_eq hjoined hlen
  refine ⟨(stopped.changed some ts).changed (fun _ => none) ts, ?_⟩
  simp [endServer, hclose, hstop, hjoin, hfree, endSteps, stopped]

/-- When the list leads to a node that was freed, the teardown reads freed memory. -/
theorem endServer_of_gone (hcurrent : s.current = some o) (hgone : s.openings o = none) :
    endServer s = none := by
  cases hn : s.nextOpening <;> simp [endServer, closeOpenings, hcurrent, hgone, hn]

/-- For an opening its pipe is freed and its node, and nothing else is done. -/
theorem mem_closing {step : EndStep} : step ∈ s.closing o ↔
    (∃ pipe, s.Owns (.opening o) pipe ∧ step = .pipeFree pipe) ∨ step = .freeOpening o := by
  simp only [Server.closing, Server.Owns, List.mem_append, List.mem_map, Option.mem_toList,
    Option.bind_eq_some_iff, List.mem_singleton, eq_comm (a := step)]

/-- A pipe is freed by the first loop or not at all. -/
theorem pipeFree_mem_endSteps :
    .pipeFree pipe ∈ endSteps s l ts ↔ ∃ o ∈ l, s.Owns (.opening o) pipe := by
  simp [endSteps, mem_closing]

/-- The teardown frees the openings that are in the list. -/
theorem freeOpening_mem_endSteps : .freeOpening o ∈ endSteps s l ts ↔ o ∈ l := by
  simp [endSteps, mem_closing]

/-- The teardown frees the children that are in the list. -/
theorem freeChild_mem_endSteps : .freeChild t ∈ endSteps s l ts ↔ t ∈ ts := by
  simp [endSteps, mem_closing]

/-- Nothing is done twice when no two openings share a pipe. -/
theorem nodup_endSteps (hl : l.Nodup) (hts : ts.Nodup)
    (hsingle : ∀ o o' pipe, s.Owns (.opening o) pipe → s.Owns (.opening o') pipe → o = o') :
    (endSteps s l ts).Nodup := by
  have hclosing : (l.flatMap s.closing).Nodup := by
    refine List.nodup_flatMap.mpr ⟨fun o _ => ?_, hl.imp fun {o o'} hne step ho ho' => hne ?_⟩
    · cases h : (s.openings o).bind Opening.receiveFd <;> simp [Server.closing, h]
    · rcases mem_closing.mp ho with ⟨pipe, howns, rfl⟩ | rfl <;>
        rcases mem_closing.mp ho' with ⟨pipe', howns', hstep⟩ | hstep
      · cases hstep
        exact hsingle o o' pipe howns howns'
      · cases hstep
      · cases hstep
      · exact EndStep.freeOpening.inj hstep
  have hstop : (ts.map EndStep.stop).Nodup := hts.map fun _ _ => EndStep.stop.inj
  have hjoin : (ts.map EndStep.join).Nodup := hts.map fun _ _ => EndStep.join.inj
  have hfree : (ts.map EndStep.freeChild).Nodup := hts.map fun _ _ => EndStep.freeChild.inj
  simp only [endSteps, List.append_assoc]
  refine List.Nodup.append hclosing ?_ fun step hstep hrest => ?_
  · simp [List.nodup_append, hstop, hjoin, hfree, or_imp, forall_and]
  · obtain ⟨o, -, hstep⟩ := List.mem_flatMap.mp hstep
    rcases mem_closing.mp hstep with ⟨pipe, -, rfl⟩ | rfl <;> simp at hrest

end Loops

section Steps

variable {v v' : Served} {s s' : Server} {l ts : List Id} {o : Id} {effects : List Effect}
  {source : SockAddr} {len : Nat} {buffer : Buffer} {env : Outcomes}

/-- The list of the children depends on the children alone. -/
theorem Server.Children.congr (h : s.Children ts) (hthreads : s'.threads = s.threads)
    (hchilds : s'.childs = s.childs) (hnext : s'.nextThread = s.nextThread) : s'.Children ts where
  linked := by
    rw [hchilds]
    exact h.linked.congr fun t _ => by simp only [Server.childLink, hthreads]
  bound := by rw [hnext]; exact h.bound
  mem := by rw [hthreads]; exact h.mem

/-- Freeing an opening does not touch the children. -/
theorem Server.Children.freeOpening {n : Handle} (h : s.Children ts)
    (hfree : Udp.freeOpening { s with nextHandle := n } o = some s') : s'.Children ts := by
  rcases freeOpening_cases hfree with rfl | rfl | ⟨-, -, -, -, -, -, rfl⟩ <;>
    exact h.congr rfl rfl rfl

/-- A new child in front makes the list longer by one. -/
theorem Server.Children.started {thread : Thread} (h : s.Children ts)
    (hnext : thread.next = s.childs) (hthreads : s'.threads =
      Function.update s.threads s.nextThread (some thread))
    (hchilds : s'.childs = some s.nextThread) (hnextThread : s'.nextThread = s.nextThread + 1) :
    s'.Children (s.nextThread :: ts) where
  linked := by
    have hother : ∀ t ∈ ts, s'.childLink t = s.childLink t := by
      intro t ht
      have hne : t ≠ s.nextThread := (h.bound t ht).ne
      simp [Server.childLink, hthreads, hne]
    rw [hchilds]
    exact h.linked.push (by simp [Server.childLink, hthreads, hnext]) hother
  bound t ht := by
    rw [hnextThread]
    rcases List.mem_cons.mp ht with rfl | ht
    · exact Nat.lt_succ_self _
    · exact Nat.lt_succ_of_lt (h.bound t ht)
  mem t ht := by
    by_cases hne : t = s.nextThread
    · simp [hne]
    · rw [hthreads, Function.update_of_ne hne] at ht
      exact List.mem_cons_of_mem _ (h.mem t ht)

theorem Server.Children.initial (pageCount : UInt8) : (Server.initial pageCount).Children [] :=
  ⟨rfl, by simp, by simp [Server.initial]⟩

/-- However a packet is handled, the children stay in a proper list. -/
theorem Server.Children.handled (h : s.Children ts)
    (hhandled : Handled s source len buffer env s' effects) : ∃ ts', s'.Children ts' := by
  cases hhandled with
  | ignored => exact ⟨ts, h⟩
  | leaked => exact ⟨ts, h.congr rfl rfl rfl⟩
  | granted => exact ⟨ts, h.congr rfl rfl rfl⟩
  | freed o node pipe opens _ _ _ _ _ _ hfree =>
    exact ⟨ts, h.freeOpening hfree⟩
  | started => exact ⟨_, h.started rfl rfl rfl rfl⟩

/-- Whatever the server receives, its children are in a list. -/
theorem Server.Children.step {w : Wakeup} (h : v.server.Children ts) (hstep : v.step w = some v') :
    ∃ ts', v'.server.Children ts' := by
  rcases Served.step_cases hstep with ⟨-, effects, -, rfl⟩ | ⟨_, _, _, _, s, _, -, hs, rfl⟩
  · exact ⟨ts, h⟩
  · exact h.handled hs

/-- When every packet was fine the end of the server releases everything. -/
theorem Tidy.releasesAll (h : Tidy v l) (hts : v.server.Children ts) : v.ReleasesAll := by
  obtain ⟨s, hend⟩ := endServer_eq h.lists hts
  have hnodup := nodup_endSteps h.lists.linked.nodup hts.linked.nodup h.single
  refine ⟨s, _, hend, ?_, ?_, ?_, ?_, ?_⟩
  · rintro pipe ⟨⟨o | t, howner⟩, -⟩
    · obtain ⟨node, hnode, -⟩ := id howner
      have hmem : o ∈ l := h.mem o (by simp [hnode])
      exact List.count_eq_one_of_mem hnodup (pipeFree_mem_endSteps.mpr ⟨o, hmem, howner⟩)
    · obtain ⟨thread, hthread, -⟩ := howner
      simp [h.childless] at hthread
  · intro pipe hmem
    obtain ⟨o, -, howner⟩ := pipeFree_mem_endSteps.mp hmem
    exact ⟨⟨.opening o, howner⟩, (h.live o pipe howner).2⟩
  · rintro before pipe after t - ⟨thread, hthread, -⟩
    simp [h.childless] at hthread
  · intro o ho
    exact List.count_eq_one_of_mem hnodup (freeOpening_mem_endSteps.mpr (h.mem o ho))
  · intro t ht
    exact List.count_eq_one_of_mem hnodup (freeChild_mem_endSteps.mpr (hts.mem t ht))

/-- After a packet that was not handled well the end of the server leaves something behind, or
follows `current` to a freed node. -/
theorem Tidy.not_releasesAll (h : Tidy v l) (hts : s.Children ts)
    (hfine : ¬ Fine v.server source len buffer env)
    (hhandled : Handled v.server source len buffer env s effects) :
    ¬ Served.ReleasesAll ⟨s, v.log ++ effects⟩ := by
  rintro ⟨s', steps, hend, hreleases⟩
  cases hhandled with
  | ignored _ _ hgood => exact hfine hgood
  | granted _ _ _ hgood => exact hfine hgood
  | leaked node opens frees _ _ _ _ _ =>
    -- The walk from `current` does not come to the new node.
    have hlists : Server.Lists { v.server.put v.server.nextOpening (some node) with
        nextOpening := v.server.nextOpening + 1
        nextHandle := v.server.nextHandle + opens.length } l :=
      ⟨h.lists.linked.congr fun i hi => Server.link_put_of_ne (h.lists.bound i hi).ne,
        fun i hi => Nat.lt_succ_of_lt (h.lists.bound i hi)⟩
    obtain ⟨s'', hend'⟩ := endServer_eq hlists hts
    cases hend.symm.trans hend'
    have hone := hreleases.openings v.server.nextOpening (by simp)
    have hmem := freeOpening_mem_endSteps.mp (List.count_pos_iff.mp (hone ▸ Nat.one_pos))
    exact absurd (h.lists.bound _ hmem) (Nat.lt_irrefl _)
  | freed o node pipe opens _ _ hfound hnode hpipe hopens hfree hmoves hiff =>
    rcases found_cases h.lists hfound with ⟨l', rfl, hfirst⟩ | ⟨hbehind, -⟩
    · -- The first node of the walk was freed.
      have h' : Server.Lists
          { v.server with nextHandle := v.server.nextHandle + opens.length } (o :: l') :=
        ⟨h.lists.linked, h.lists.bound⟩
      have hstuck : endServer s = none := by
        cases hfree.symm.trans (freeOpening_of_first h')
        exact endServer_of_gone hfirst Server.put_openings_self
      cases hend.symm.trans hstuck
    · exact hfine (hiff.mpr hbehind)
  | started o node _ _ _ hnode _ =>
    -- Nobody frees the pipe that the child sends on.
    have hlists : Server.Lists { v.server with
        threads := Function.update v.server.threads v.server.nextThread
          (some ⟨node.receiveFd, v.server.nextHandle, false, v.server.childs⟩)
        childs := some v.server.nextThread
        nextThread := v.server.nextThread + 1
        nextHandle := v.server.nextHandle + 1 } l := ⟨h.lists.linked, h.lists.bound⟩
    obtain ⟨s'', hend'⟩ := endServer_eq hlists hts
    cases hend.symm.trans hend'
    have hholds := hreleases.pipes v.server.nextHandle
      ⟨⟨.child v.server.nextThread, _, Function.update_self .., .inr rfl⟩, by
        simpa [startEffects, Effect.freed] using h.fresh.2⟩
    obtain ⟨i, -, howner⟩ :=
      pipeFree_mem_endSteps.mp (List.count_pos_iff.mp (hholds ▸ Nat.one_pos))
    exact absurd (h.owns_lt howner) (Nat.lt_irrefl _)

end Steps

/-- Wherever the event loop ends in a run, the end of the server releases everything once and in
order, exactly when each call of `udp_readable_cb` keeps track of the openings and pipes. -/
theorem releases_all_iff (pageCount : UInt8) (calls : List Wakeup) :
    Always Served.step Served.ReleasesAll (.initial pageCount) calls ↔
      Along Served.step KeepsTrack (.initial pageCount) calls := by
  have hinitial : (∃ l, Tidy (.initial pageCount) l) ∧
      ∃ ts, (Server.initial pageCount).Children ts := ⟨⟨[], .initial _⟩, [], .initial _⟩
  refine always_iff_along
    (fun v (h : (∃ l, Tidy v l) ∧ ∃ ts, v.server.Children ts) => ?_) ?_ ?_ calls _ hinitial
  · obtain ⟨⟨l, hl⟩, ts, hts⟩ := h
    exact hl.releasesAll hts
  · rintro v w v' ⟨⟨l, hl⟩, ts, hts⟩ hfine hstep
    exact ⟨hl.step hfine hstep, hts.step hstep⟩
  · rintro v w v' ⟨⟨l, hl⟩, ts, hts⟩ hfine hstep
    obtain ⟨ts', hts'⟩ := hts.step hstep
    rcases Served.step_cases hstep with ⟨htrack, -⟩ | ⟨_, _, _, _, s, _, hiff, hs, rfl⟩
    · exact absurd htrack hfine
    · exact hl.not_releasesAll hts' (mt hiff.mpr hfine) hs

/-- A client greets the server and answers its grant. -/
def greetAndGrant : List Wakeup :=
  [.datagram ⟨4000, 7⟩ ([1, 1] ++ List.replicate 10 0) (fun _ => 0) .success,
    .datagram ⟨4000, 7⟩ ([1, 5] ++ List.replicate 14 0 ++ [2, 4]) (fun _ => 0) .success]

/-- The receive pipe is freed before the child is joined, and the send pipe never is. -/
theorem not_releases_all :
    ∃ v, Reaches Served.step (fun _ _ => true) (.initial 4) v ∧ ¬ v.ReleasesAll := by
  have hrun : (run Served.step (fun _ _ => true) (.initial 4) greetAndGrant).any (fun v =>
      v.server.threads 0 = some ⟨some 0, 1, false, none⟩ ∧ v.log.filterMap Effect.freed = [] ∧
        (endServer v.server).map Prod.snd = some [.pipeFree 0, .freeOpening 0, .stop 0, .join 0,
          .freeChild 0, .shutdown, .freeData]) = true := by decide +kernel
  obtain ⟨v, hreach, hv⟩ := exists_reaches_of_run hrun
  obtain ⟨hthread, hfreed, hend⟩ := of_decide_eq_true hv
  refine ⟨v, hreach, ?_⟩
  rintro ⟨s, steps, hend', hreleases⟩
  rw [hend', Option.map_some, Option.some.injEq] at hend
  have hholds : v.Holds 1 := ⟨⟨.child 0, _, hthread, .inr rfl⟩, by simp [hfreed]⟩
  have hone := hreleases.pipes 1 hholds
  subst hend
  contradiction

end XenShm.Udp
