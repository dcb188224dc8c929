import XenShm.Kernel.Reclaim

/-!
# One sweep of the queue

`__xen_shm_free_delayed_queue` walks the queue with a pointer to the last instance that
stays, and takes out the ones that can be freed. Here every access to the queue is made
in memory and recorded, so that the order of the accesses can be compared with the
`kfree` of an instance. Nothing else is changed by the record.
-/

namespace XenShm.Kernel

open Library

/-- What the sweep does to an instance, access by access. -/
inductive SweepStep where
  /-- A call of `__xen_shm_prepare_free`, which returns 0 or not. -/
  | prepare (id : Id) (ok : Bool)
  /-- The field `next_delayed` is read. -/
  | readNext (id : Id)
  /-- The field `next_delayed` is written. -/
  | writeNext (id : Id)
  /-- The field `first_page_grant` is printed. -/
  | print (id : Id)
  /-- The memory of the instance is given back by `kfree`. -/
  | kfree (id : Id)
  deriving DecidableEq, Repr

/-- The instance that the step accesses. -/
def SweepStep.target : SweepStep → Id
  | .prepare id _ | .readNext id | .writeNext id | .print id | .kfree id => id

/-- The instance for which the step calls `__xen_shm_prepare_free`. -/
def SweepStep.prepared : SweepStep → Option Id
  | .prepare id _ => some id
  | _ => none

/-- The instance whose memory the step gives back. -/
def SweepStep.freed : SweepStep → Option Id
  | .kfree id => some id
  | _ => none

/-- What was freed by a step is not accessed by a later one. -/
def Untouched (steps : List SweepStep) : Prop :=
  steps.Pairwise fun earlier later => earlier.freed ≠ some later.target

/-- The link behind the last instance that stays, or the head of the queue, is replaced. -/
def Device.relink (dev : Device) (previous next : Option Id) : Device :=
  match previous with
  | none => { dev with queue := next }
  | some before => dev.setNext before next

/-- The loop of `__xen_shm_free_delayed_queue`, with a record of its accesses. -/
def sweepTrace (env : Id → FreeEnv) : (fuel : Nat) → (previous current : Option Id) → Device →
    Option (Device × List SweepStep)
  | _, _, none, dev => some (dev, [])
  | 0, _, some _, _ => none
  | fuel + 1, previous, some id, dev => do
    let d ← (dev.slots id).data
    let (result, d, events) := prepareFree d (env id)
    let dev := dev.put id { (dev.slots id).log events with data := some d }
    if result = .ok then
      let next ← dev.link id
      let dev := dev.relink previous next
      let next ← dev.link id
      (sweepTrace env fuel previous next (dev.put id (dev.slots id).kfree)).map fun (dev, steps) =>
        (dev, [.prepare id true, .readNext id] ++ previous.toList.map .writeNext ++
          [.readNext id, .print id, .kfree id] ++ steps)
    else
      let next ← dev.link id
      (sweepTrace env fuel (some id) next dev).map fun (dev, steps) =>
        (dev, [.prepare id false, .readNext id] ++ steps)

/-- A well-formed queue of allocated instances. By `Linked.nodup` each is there once. -/
structure Device.Queues (dev : Device) (l : List Id) : Prop where
  /-- Following the links from the queue visits them and ends. -/
  linked : Linked dev.link dev.queue l
  /-- Instances are numbered in the order of their allocation. -/
  bound : ∀ id ∈ l, id < dev.nextId

/-- For this instance `__xen_shm_prepare_free` returns 0. -/
def Device.givesUp (dev : Device) (env : Id → FreeEnv) (id : Id) : Bool :=
  (dev.slots id).data.any fun d => (prepareFree d (env id)).1 = .ok

/-- The instance as `__xen_shm_prepare_free` leaves it. -/
def Slot.retried (s : Slot) (env : FreeEnv) : Slot :=
  match s.data with
  | none => s
  | some d => { s.log (prepareFree d env).2.2 with data := some (prepareFree d env).2.1 }

/-- The instance with its link replaced by another one. -/
def Slot.withNext (s : Slot) (next : Option Id) : Slot :=
  { s with data := s.data.map fun d => { d with nextDelayed := next } }

/-- The sweep of a queue is a filter. -/
structure Filtered (env : Id → FreeEnv) (dev : Device) (l : List Id) (dev' : Device)
    (steps : List SweepStep) : Prop where
  /-- Every instance of the queue is tried once, in the order of the queue. -/
  tried : steps.filterMap SweepStep.prepared = l
  /-- The instances for which the try succeeds are freed, each of them once. -/
  freed : steps.filterMap SweepStep.freed = l.filter (dev.givesUp env)
  /-- The memory of the freed instances is gone. -/
  gone : ∀ id ∈ l, dev.givesUp env id = true → (dev'.slots id).data = none
  /-- The others are the new queue, in their old order. -/
  queue : dev'.Queues (l.filter fun id => !dev.givesUp env id)
  /-- The instances that stay are what `__xen_shm_prepare_free` has made of them. -/
  kept : ∀ id ∈ l, dev.givesUp env id = false →
    ∃ next, dev'.slots id = ((dev.slots id).retried (env id)).withNext next
  /-- Nothing happens to the instances outside the queue. -/
  others : ∀ id, id ∉ l → dev'.slots id = dev.slots id
  /-- An instance is not accessed after it was freed. -/
  untouched : Untouched steps

section Sweep

variable {dev dev' : Device} {env : Id → FreeEnv} {id i : Id} {s : Slot} {d : Instance}
  {kept rest l : List Id} {previous current next : Option Id} {fuel : Nat} {steps : List SweepStep}

/-- `__xen_shm_prepare_free` does not change the link of the instance. -/
theorem prepareFree_nextDelayed (d : Instance) (env : FreeEnv) :
    (prepareFree d env).2.1.nextDelayed = d.nextDelayed := by
  have hreceiver : ∀ (d : Instance) events,
      (prepareFreeReceiver d env events).2.1.nextDelayed = d.nextDelayed := by
    intro d events
    unfold prepareFreeReceiver
    split <;> rfl
  unfold prepareFree
  cases d.state with
  | opened => rfl
  | offerer =>
    simp only [prepareFreeOfferer]
    split <;> rfl
  | receiver => exact hreceiver d []
  | receiverMapped =>
    dsimp only
    split
    · exact hreceiver _ _
    · exact hreceiver d []

theorem Device.link_put_self : (dev.put id s).link id = s.data.map Instance.nextDelayed := by
  rw [link, put_self]

theorem Device.link_put_of_ne (h : i ≠ id) : (dev.put id s).link i = dev.link i := by
  rw [link, put_of_ne h, link]

/-- To link one instance anew changes nothing in another one. -/
theorem Device.relink_slots (h : previous ≠ some i) :
    (dev.relink previous next).slots i = dev.slots i := by
  cases previous with
  | none => rfl
  | some before => exact put_of_ne fun he => h (he ▸ rfl)

/-- In the instance before it only the link changes. -/
theorem Device.relink_last (h : previous = some i) :
    (dev.relink previous next).slots i = (dev.slots i).withNext next := by
  subst previous
  exact put_self

@[simp] theorem Device.relink_nextId : (dev.relink previous next).nextId = dev.nextId := by
  cases previous <;> rfl

/-- Replacing an instance while the link before it is replaced. -/
theorem Device.put_relink (t : Slot) :
    ((dev.put id s).relink previous next).put id t = (dev.relink previous next).put id t := by
  cases previous with
  | none => simp [relink, put]
  | some before =>
    simp only [relink, setNext, put, Device.mk.injEq, true_and, and_true]
    by_cases h : before = id
    · subst before
      simp
    · rw [Function.update_of_ne h, Function.update_comm (Ne.symm h), Function.update_idem,
        Function.update_comm h]

/-- To link an instance anew replaces its link only, so it is freed with the same trace. -/
theorem Device.relink_kfree (dev : Device) (previous next : Option Id) (id : Id) :
    ((dev.relink previous next).slots id).kfree = (dev.slots id).kfree := by
  by_cases h : previous = some id
  · subst previous
    simp [relink, setNext, Slot.kfree, Slot.log]
  · rw [relink_slots h]

/-- The link that is copied can be read again. -/
theorem Device.relink_link (previous : Option Id) (h : dev.link id = some next) :
    (dev.relink previous next).link id = some next := by
  by_cases hp : previous = some id
  · subst previous
    obtain ⟨d, hd, -⟩ := Option.map_eq_some_iff.mp h
    simp [relink, setNext, link, hd]
  · rw [link, relink_slots hp]
    exact h

/-- An instance that is tried keeps its link. -/
theorem Device.link_retried (env : Id → FreeEnv) (hd : (dev.slots id).data = some d) :
    (dev.put id ((dev.slots id).retried (env id))).link id = some d.nextDelayed := by
  rw [link_put_self, Slot.retried, hd]
  exact congrArg some (prepareFree_nextDelayed d (env id))

/-- One turn of the loop for an instance that is freed. -/
theorem sweepTrace_freed (hd : (dev.slots id).data = some d)
    (hok : (prepareFree d (env id)).1 = .ok) :
    sweepTrace env (fuel + 1) previous (some id) dev =
      (sweepTrace env fuel previous d.nextDelayed ((dev.relink previous d.nextDelayed).put id
        ((dev.slots id).retried (env id)).kfree)).map fun (dev, steps) =>
          (dev, [.prepare id true, .readNext id] ++ previous.toList.map .writeNext ++
            [.readNext id, .print id, .kfree id] ++ steps) := by
  have hlink := Device.link_retried env hd
  have hagain := Device.relink_link previous hlink
  have hfree := Device.relink_kfree (dev.put id ((dev.slots id).retried (env id))) previous
    d.nextDelayed id
  simp only [Slot.retried, hd, Device.put_self] at hlink hagain hfree ⊢
  simp only [sweepTrace, hd, Option.bind_eq_bind, Option.bind_some, hok, if_true, hlink, hagain,
    hfree, Device.put_relink]

/-- One turn of the loop for an instance that stays. -/
theorem sweepTrace_kept (hd : (dev.slots id).data = some d)
    (hfail : (prepareFree d (env id)).1 ≠ .ok) :
    sweepTrace env (fuel + 1) previous (some id) dev =
      (sweepTrace env fuel (some id) d.nextDelayed
        (dev.put id ((dev.slots id).retried (env id)))).map fun (dev, steps) =>
          (dev, [.prepare id false, .readNext id] ++ steps) := by
  have hlink := Device.link_retried env hd
  simp only [Slot.retried, hd] at hlink ⊢
  simp only [sweepTrace, hd, Option.bind_eq_bind, Option.bind_some, hfail, if_false, hlink]

/-- The record of the accesses changes nothing in what the sweep does. -/
theorem sweepTrace_fst (env : Id → FreeEnv) (fuel : Nat) (previous current : Option Id)
    (dev : Device) :
    (sweepTrace env fuel previous current dev).map Prod.fst =
      sweepLoop env fuel previous current dev := by
  induction fuel generalizing previous current dev with
  | zero => cases current <;> rfl
  | succ fuel ih =>
    cases current with
    | none => rfl
    | some id =>
      cases hd : (dev.slots id).data with
      | none => simp [sweepTrace, sweepLoop, hd]
      | some d =>
        by_cases hok : (prepareFree d (env id)).1 = .ok
        · rw [sweepTrace_freed hd hok]
          cases previous <;>
            simp [sweepLoop, hd, hok, ← ih, Function.comp_def, prepareFree_nextDelayed,
              Slot.retried, Device.relink]
        · rw [sweepTrace_kept hd hok]
          simp [sweepLoop, hd, hok, ← ih, Function.comp_def, prepareFree_nextDelayed, Slot.retried]

/-- The queue while it is swept: some instances stay, and the others are still looked at. -/
structure Sweeping (dev : Device) (kept rest : List Id) (current : Option Id) : Prop where
  /-- All of them are in the queue. -/
  linked : Linked dev.link dev.queue (kept ++ rest)
  /-- The walk goes on with the others. -/
  current : Linked dev.link current rest

/-- The rest of a sweep, when some instances have been kept. -/
structure Swept (env : Id → FreeEnv) (dev : Device) (kept rest : List Id) (dev' : Device)
    (steps : List SweepStep) : Prop where
  /-- The calls of `__xen_shm_prepare_free` are made for the rest, in its order. -/
  tried : steps.filterMap SweepStep.prepared = rest
  /-- The calls of `kfree` are made for those of the rest that give up. -/
  freed : steps.filterMap SweepStep.freed = rest.filter (dev.givesUp env)
  /-- The memory of those that were freed is gone. -/
  gone : ∀ id ∈ rest, dev.givesUp env id = true → (dev'.slots id).data = none
  /-- The queue at the end links those that were kept and those that stay. -/
  linked : Linked dev'.link dev'.queue (kept ++ rest.filter fun id => !dev.givesUp env id)
  /-- The instances that stay have nothing but their link replaced. -/
  stays : ∀ id ∈ rest, dev.givesUp env id = false →
    ∃ next, dev'.slots id = ((dev.slots id).retried (env id)).withNext next
  /-- Of those that were passed only the link changes. -/
  passed : ∀ id ∈ kept, ∃ next, dev'.slots id = (dev.slots id).withNext next
  /-- The instances outside the queue are untouched. -/
  others : ∀ id, id ∉ kept → id ∉ rest → dev'.slots id = dev.slots id
  /-- Only instances of the queue are accessed. -/
  targets : ∀ step ∈ steps, step.target ∈ kept ∨ step.target ∈ rest
  /-- No instance is accessed after it was freed. -/
  untouched : Untouched steps
  nextId : dev'.nextId = dev.nextId

/-- The instance that is looked at stays, and the sweep goes on behind it. -/
theorem Sweeping.keep (h : Sweeping dev kept (id :: rest) (some id))
    (hd : (dev.slots id).data = some d) :
    Sweeping (dev.put id ((dev.slots id).retried (env id))) (kept ++ [id]) rest d.nextDelayed := by
  have hsame : ∀ i, (dev.put id ((dev.slots id).retried (env id))).link i = dev.link i := by
    intro i
    by_cases hi : i = id
    · subst i
      rw [Device.link_retried env hd, Device.link, hd]
      rfl
    · exact Device.link_put_of_ne hi
  obtain ⟨-, tail, htail, hrest⟩ := h.current
  have hnext : dev.link id = some d.nextDelayed := by
    rw [Device.link, hd]
    rfl
  obtain rfl : d.nextDelayed = tail := Option.some.inj (hnext.symm.trans htail)
  constructor
  · rw [List.append_assoc]
    exact h.linked.congr fun i _ => hsame i
  · exact hrest.congr fun i _ => hsame i

/-- The instance that is looked at is taken out. -/
theorem Sweeping.remove (h : Sweeping dev kept (id :: rest) (some id))
    (hnext : dev.link id = some next) :
    Sweeping ((dev.relink kept.getLast? next).put id s) kept rest next := by
  obtain ⟨hkept, hid, hapart⟩ := h.linked.apart
  obtain ⟨-, tail, htail, hrest⟩ := h.current
  obtain rfl : next = tail := Option.some.inj (hnext.symm.trans htail)
  -- The link before the instance is the only one that is replaced.
  have hsame : ∀ i, i ≠ id → kept.getLast? ≠ some i →
      ((dev.relink kept.getLast? next).put id s).link i = dev.link i := by
    intro i hi hlast
    rw [Device.link_put_of_ne hi, Device.link, Device.relink_slots hlast, Device.link]
  have hlast : ∀ i ∈ rest, kept.getLast? ≠ some i :=
    fun i hi he => hapart i hi (List.mem_of_getLast? he)
  have hcurrent : Linked ((dev.relink kept.getLast? next).put id s).link next rest :=
    hrest.congr fun i hi => hsame i (hid i hi) (hlast i hi)
  refine ⟨?_, hcurrent⟩
  rcases List.eq_nil_or_concat kept with rfl | ⟨k, before, rfl⟩
  · exact hcurrent
  · have hlinked := h.linked
    have hne : before ≠ id := hkept before (by simp)
    obtain ⟨d, hd⟩ : ∃ d, (dev.slots before).data = some d := by
      have := hlinked.isSome (a := before) (by simp)
      simpa [Device.link, Option.isSome_iff_exists] using this
    simp only [List.append_assoc, List.concat_eq_append, List.singleton_append,
      List.getLast?_append, List.getLast?_singleton, Option.some_or] at hlinked hsame ⊢
    have hqueue : ((dev.relink (some before) next).put id s).queue = dev.queue := rfl
    rw [hqueue]
    apply hlinked.unlink_of_ne
    · rw [Device.link_put_of_ne hne, hnext]
      simp [Device.relink, Device.setNext, Device.link, hd]
    · intro i hbefore hi
      exact hsame i hi fun he => hbefore (Option.some.inj he).symm

/-- Accesses that free nothing in front of others. -/
theorem Untouched.append {before : List SweepStep} (hbefore : ∀ step ∈ before, step.freed = none)
    (h : Untouched steps) : Untouched (before ++ steps) := by
  refine List.pairwise_append.mpr ⟨List.pairwise_of_forall_mem_list ?_, h, ?_⟩
  · intro a ha b _
    simp [hbefore a ha]
  · intro a ha b _
    simp [hbefore a ha]

/-- Whether an instance gives up depends on that instance alone. -/
theorem Device.givesUp_congr (h : dev'.slots i = dev.slots i) :
    dev'.givesUp env i = dev.givesUp env i := by
  rw [givesUp, h, givesUp]

/-- An allocated instance gives up when `__xen_shm_prepare_free` succeeds. -/
theorem Device.givesUp_iff (hd : (dev.slots id).data = some d) :
    dev.givesUp env id = true ↔ (prepareFree d (env id)).1 = .ok := by
  simp [givesUp, hd]

@[simp] theorem Slot.withNext_withNext (s : Slot) (n m : Option Id) :
    (s.withNext n).withNext m = s.withNext m := by
  simp [withNext, Function.comp_def]

/-- Whatever its link is, an instance is itself with that link. -/
theorem Slot.exists_withNext (s : Slot) : ∃ next, s = s.withNext next := by
  cases hd : s.data with
  | none => exact ⟨none, by rw [withNext, hd, Option.map_none, ← hd]⟩
  | some d => exact ⟨d.nextDelayed, by rw [withNext, hd, Option.map_some, ← hd]⟩

/-- A turn that keeps the instance, and the rest of the sweep. -/
theorem Swept.keep (h : Swept env (dev.put id ((dev.slots id).retried (env id))) (kept ++ [id]) rest
      dev' steps) (hlinked : Linked dev.link dev.queue (kept ++ id :: rest))
    (hfail : dev.givesUp env id = false) :
    Swept env dev kept (id :: rest) dev' ([.prepare id false, .readNext id] ++ steps) := by
  obtain ⟨hkept, hrest, -⟩ := hlinked.apart
  have hgives : ∀ i ∈ rest,
      (dev.put id ((dev.slots id).retried (env id))).givesUp env i = dev.givesUp env i :=
    fun i hi => Device.givesUp_congr (Device.put_of_ne (hrest i hi))
  constructor
  · simp [List.filterMap_cons, SweepStep.prepared, h.tried]
  · simp [List.filterMap_cons, SweepStep.freed, h.freed, hfail, List.filter_congr hgives]
  · intro i hi hok
    rcases List.mem_cons.mp hi with rfl | hi
    · simp [hfail] at hok
    · exact h.gone i hi ((hgives i hi).trans hok)
  · have hqueue := h.linked
    rw [List.filter_congr fun i hi => by rw [hgives i hi]] at hqueue
    simpa [hfail] using hqueue
  · intro i hi hkeep
    rcases List.mem_cons.mp hi with rfl | hi
    · obtain ⟨next, hnext⟩ := h.passed i (by simp)
      rw [Device.put_self] at hnext
      exact ⟨next, hnext⟩
    · obtain ⟨next, hnext⟩ := h.stays i hi ((hgives i hi).trans hkeep)
      rw [Device.put_of_ne (hrest i hi)] at hnext
      exact ⟨next, hnext⟩
  · intro i hi
    obtain ⟨next, hnext⟩ := h.passed i (List.mem_append_left _ hi)
    rw [Device.put_of_ne (hkept i hi)] at hnext
    exact ⟨next, hnext⟩
  · intro i hi hi'
    obtain ⟨hne, hi'⟩ := not_or.mp (mt List.mem_cons.mpr hi')
    rw [h.others i (by simp [hi, hne]) hi', Device.put_of_ne hne]
  · intro step hstep
    simp only [List.mem_append, List.mem_cons, List.not_mem_nil, or_false] at hstep ⊢
    rcases hstep with (rfl | rfl) | hstep
    · exact .inr (.inl rfl)
    · exact .inr (.inl rfl)
    · have := h.targets step hstep
      simp only [List.mem_append, List.mem_singleton] at this
      tauto
  · exact .append (by simp [SweepStep.freed]) h.untouched
  · exact h.nextId

/-- A turn that frees the instance, and the rest of the sweep. -/
theorem Swept.remove (h : Swept env ((dev.relink kept.getLast? next).put id s) kept rest dev' steps)
    (hlinked : Linked dev.link dev.queue (kept ++ id :: rest)) (hok : dev.givesUp env id = true)
    (hgone : s.data = none) :
    Swept env dev kept (id :: rest) dev' ([.prepare id true, .readNext id] ++
      kept.getLast?.toList.map .writeNext ++ [.readNext id, .print id, .kfree id] ++ steps) := by
  obtain ⟨hkept, hrest, hapart⟩ := hlinked.apart
  have hlast : ∀ i, i ∉ kept → kept.getLast? ≠ some i :=
    fun i hi he => hi (List.mem_of_getLast? he)
  have hsame : ∀ i, i ≠ id → i ∉ kept →
      ((dev.relink kept.getLast? next).put id s).slots i = dev.slots i := fun i hi hk =>
    (Device.put_of_ne hi).trans (Device.relink_slots (hlast i hk))
  have hgives : ∀ i ∈ rest,
      ((dev.relink kept.getLast? next).put id s).givesUp env i = dev.givesUp env i :=
    fun i hi => Device.givesUp_congr (hsame i (hrest i hi) (hapart i hi))
  have hwrites : ∀ step ∈ kept.getLast?.toList.map SweepStep.writeNext,
      step.freed = none ∧ step.target ∈ kept := by
    intro step hstep
    obtain ⟨i, hi, rfl⟩ := List.mem_map.mp hstep
    exact ⟨rfl, List.mem_of_getLast? (Option.mem_toList.mp hi)⟩
  constructor
  · simp [List.filterMap_cons, SweepStep.prepared, h.tried]
  · simp [List.filterMap_cons, SweepStep.freed, h.freed, hok, List.filter_congr hgives]
  · intro i hi hfree
    rcases List.mem_cons.mp hi with rfl | hi
    · rw [h.others i (fun hk => hkept i hk rfl) (fun hr => hrest i hr rfl), Device.put_self]
      exact hgone
    · exact h.gone i hi ((hgives i hi).trans hfree)
  · have hqueue := h.linked
    rw [List.filter_congr fun i hi => by rw [hgives i hi]] at hqueue
    simpa [hok] using hqueue
  · intro i hi hkeep
    rcases List.mem_cons.mp hi with rfl | hi
    · simp [hok] at hkeep
    · obtain ⟨next, hnext⟩ := h.stays i hi ((hgives i hi).trans hkeep)
      rw [hsame i (hrest i hi) (hapart i hi)] at hnext
      exact ⟨next, hnext⟩
  · intro i hi
    obtain ⟨n, hn⟩ := h.passed i hi
    rw [Device.put_of_ne (hkept i hi)] at hn
    by_cases hi' : kept.getLast? = some i
    · rw [Device.relink_last hi', Slot.withNext_withNext] at hn
      exact ⟨n, hn⟩
    · rw [Device.relink_slots hi'] at hn
      exact ⟨n, hn⟩
  · intro i hi hi'
    obtain ⟨hne, hi'⟩ := not_or.mp (mt List.mem_cons.mpr hi')
    rw [h.others i hi hi', hsame i hne hi]
  · intro step hstep
    simp only [List.mem_append, List.mem_cons, List.not_mem_nil, or_false] at hstep ⊢
    rcases hstep with (((rfl | rfl) | hstep) | rfl | rfl | rfl) | hstep
    · exact .inr (.inl rfl)
    · exact .inr (.inl rfl)
    · exact .inl (hwrites step hstep).2
    · exact .inr (.inl rfl)
    · exact .inr (.inl rfl)
    · exact .inr (.inl rfl)
    · exact (h.targets step hstep).imp_right .inr
  · -- Only the `kfree` at the end of the turn frees something.
    have hlater : Untouched (.kfree id :: steps) := by
      refine List.pairwise_cons.mpr ⟨fun step hstep he => ?_, h.untouched⟩
      obtain rfl : id = step.target := Option.some.inj he
      rcases h.targets step hstep with hk | hr
      · exact hkept _ hk rfl
      · exact hrest _ hr rfl
    have hturn : Untouched ([.prepare id true, .readNext id] ++
        (kept.getLast?.toList.map .writeNext ++ ([.readNext id, .print id] ++
          .kfree id :: steps))) := by
      refine .append (by simp [SweepStep.freed]) (.append (fun step hstep => ?_)
        (.append (by simp [SweepStep.freed]) hlater))
      exact (hwrites step hstep).1
    simpa only [List.append_assoc, List.cons_append, List.nil_append] using hturn
  · exact h.nextId.trans Device.relink_nextId

/-- The loop from any instance of the queue on. -/
theorem sweepTrace_swept (env : Id → FreeEnv) (h : Sweeping dev kept rest current)
    (hfuel : rest.length ≤ fuel) :
    ∃ dev' steps, sweepTrace env fuel kept.getLast? current dev = some (dev', steps) ∧
      Swept env dev kept rest dev' steps := by
  induction rest generalizing dev kept current fuel with
  | nil =>
    obtain rfl : current = none := h.current
    refine ⟨dev, [], by cases fuel <;> rfl, ?_⟩
    constructor
    · rfl
    · rfl
    · simp
    · simpa using h.linked
    · simp
    · exact fun i _ => (dev.slots i).exists_withNext
    · simp
    · simp
    · exact List.Pairwise.nil
    · rfl
  | cons id rest ih =>
    have hcurrent := h.current
    obtain ⟨rfl, next, hnext, -⟩ := hcurrent
    obtain ⟨fuel, rfl⟩ : ∃ n, fuel = n + 1 := ⟨fuel - 1, by simp at hfuel; omega⟩
    have hlen : rest.length ≤ fuel := by simpa using hfuel
    obtain ⟨d, hd, rfl⟩ := Option.map_eq_some_iff.mp hnext
    cases hgives : dev.givesUp env id with
    | false =>
      have hfail : (prepareFree d (env id)).1 ≠ .ok := fun hok => by
        simp [(Device.givesUp_iff hd).mpr hok] at hgives
      obtain ⟨dev', steps, htrace, hswept⟩ := ih (h.keep hd) hlen
      rw [List.getLast?_append, List.getLast?_singleton, Option.some_or] at htrace
      rw [sweepTrace_kept hd hfail, htrace]
      exact ⟨dev', _, rfl, hswept.keep h.linked hgives⟩
    | true =>
      obtain ⟨dev', steps, htrace, hswept⟩ := ih (h.remove hnext) hlen
      rw [sweepTrace_freed hd ((Device.givesUp_iff hd).mp hgives), htrace]
      exact ⟨dev', _, rfl, hswept.remove h.linked hgives rfl⟩

end Sweep

/-- The sweep of a well-formed queue ends. It tries every instance once and in order, frees exactly
those for which `__xen_shm_prepare_free` returns 0 and leaves the others in the queue. -/
theorem sweep_filters {dev : Device} {l : List Id} (env : Id → FreeEnv) (h : dev.Queues l) :
    ∃ dev' steps, sweep dev env = some dev' ∧
      sweepTrace env dev.nextId none dev.queue dev = some (dev', steps) ∧
      Filtered env dev l dev' steps := by
  have hstart : Sweeping dev [] l dev.queue := ⟨h.linked, h.linked⟩
  obtain ⟨dev', steps, htrace, hswept⟩ :=
    sweepTrace_swept env hstart (h.linked.length_le h.bound)
  rw [List.getLast?_nil] at htrace
  refine ⟨dev', steps, ?_, htrace, ?_⟩
  · rw [sweep, ← sweepTrace_fst, htrace]
    rfl
  · constructor
    · exact hswept.tried
    · exact hswept.freed
    · exact hswept.gone
    · refine ⟨hswept.linked, fun id hid => ?_⟩
      rw [hswept.nextId]
      exact h.bound id (List.mem_of_mem_filter hid)
    · exact hswept.stays
    · exact fun id hid => hswept.others id (by simp) hid
    · exact hswept.untouched

/-- Three receivers in the queue, the last one at its head. -/
def threeQueued : Device where
  domid := 1
  queue := some 2
  slots id := ⟨some { Instance.fresh with
    state := .receiver
    nextDelayed := if id = 0 then none else some (id - 1) }, false, false, []⟩
  nextId := 3

/-- The peer of the second one still uses the header page. -/
def oneInUse (id : Id) : FreeEnv := ⟨.zero, fun _ => true, if id = 1 then -1 else 0⟩

/-- Of three queued receivers, the second one is in use and stays, and the others are freed. -/
theorem sweep_filters_threeQueued :
    ∃ dev', sweep threeQueued oneInUse = some dev' ∧ Linked dev'.link dev'.queue [1] := by
  have hqueues : threeQueued.Queues [2, 1, 0] := by
    constructor
    · exact ⟨rfl, _, rfl, rfl, _, rfl, rfl, _, rfl, rfl⟩
    · decide
  obtain ⟨dev', steps, hsweep, -, hfiltered⟩ := sweep_filters oneInUse hqueues
  exact ⟨dev', hsweep, hfiltered.queue.linked⟩

end XenShm.Kernel
