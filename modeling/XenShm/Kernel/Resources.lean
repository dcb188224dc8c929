import XenShm.Kernel.Reclaim

/-!
# The resources of one instance

What is obtained by open and mmap should be given back before the memory of the
instance is. The release of an instance gives the memory back first and reads from it
afterwards, so only an instance whose opening fails early ends as it should.
-/

namespace XenShm.Kernel

open Library

/-- The event gives ballooned pages back. -/
def Event.isBalloonReturn : Event → Bool
  | .release (.balloon _) => true
  | _ => false

/-- The events before the memory was given back. -/
def beforeKfree (trace : List Event) : List Event := trace.takeWhile (· ≠ .release .memory)

/-- The events from the successful mmap of the receiver on. -/
def fromMapped (trace : List Event) : List Event := trace.dropWhile (· ≠ .mapped)

/-- How the trace of an instance has to end: all that was obtained is given back once and in
time. -/
structure EndsClean (trace : List Event) : Prop where
  /-- The reference to the address space is dropped. -/
  mm : Balanced trace .mm
  /-- A registered notifier is unregistered exactly once. -/
  notifier : Balanced trace .notifier
  /-- The notifier is unregistered while the memory of the instance exists. -/
  inTime : (beforeKfree trace).count (.release .notifier) = trace.count (.acquire .notifier)
  /-- The pages of a successful mmap are returned once. -/
  balloon : (fromMapped trace).countP Event.isBalloonReturn = trace.count .mapped
  /-- No field is used after the memory was given back. -/
  unused : .stale ∉ trace

instance (trace : List Event) : Decidable (EndsClean trace) :=
  decidable_of_iff
    (Balanced trace .mm ∧ Balanced trace .notifier ∧
      (beforeKfree trace).count (.release .notifier) = trace.count (.acquire .notifier) ∧
      (fromMapped trace).countP Event.isBalloonReturn = trace.count .mapped ∧ .stale ∉ trace)
    ⟨fun ⟨h₁, h₂, h₃, h₄, h₅⟩ => ⟨h₁, h₂, h₃, h₄, h₅⟩,
      fun ⟨h₁, h₂, h₃, h₄, h₅⟩ => ⟨h₁, h₂, h₃, h₄, h₅⟩⟩

/-- The opening fails before anything but the memory was obtained. -/
def OpenEnv.failsEarly (env : OpenEnv) : Bool := env.pvDomain ∧ ¬ env.taskMm

/-- The opening fails when the reference to the address space was already taken. -/
def OpenEnv.failsLate (env : OpenEnv) : Bool := env.pvDomain ∧ env.taskMm ∧ env.register ≠ 0

section Slots

variable {dev dev' : Device} {id : Id} {op : Op} {s : Slot}

/-- An instance whose end was not complete, or that has not ended. -/
def Slot.Doomed (s : Slot) : Prop := s.data = none → .stale ∈ s.trace

/-- Nothing refers to the instance any more, neither the kernel nor a process. -/
structure Slot.Dead (s : Slot) : Prop where
  /-- The memory of the instance was given back. -/
  data : s.data = none
  /-- The instance has no descriptor. -/
  file : s.file = false
  /-- The kernel calls no notifier of the instance. -/
  notifier : s.notifier = false

/-- What opening makes of the new slot: it fails early, or the instance has its notifier. -/
theorem openSlot_cases (raw : Instance) (domid : Nat) (env : OpenEnv) :
    env.failsEarly = true ∧ (openSlot raw domid env).2.Dead ∧
        (openSlot raw domid env).2.trace = [.acquire .memory, .release .memory] ∨
      env.failsLate = true ∧ (openSlot raw domid env).2.Dead ∧ (openSlot raw domid env).2.trace =
        [.acquire .memory, .acquire .mm, .release .memory] ∨
      env.failsEarly = false ∧ (openSlot raw domid env).2.Doomed := by
  unfold openSlot
  by_cases hpv : env.pvDomain = true
  swap
  · rw [if_pos hpv]
    exact .inr (.inr ⟨by simp [OpenEnv.failsEarly, hpv], by simp [Slot.Doomed]⟩)
  rw [if_neg (not_not_intro hpv)]
  by_cases hmm : env.taskMm = true
  swap
  · rw [if_pos hmm]
    exact .inl ⟨by simp [OpenEnv.failsEarly, hpv, hmm], ⟨rfl, rfl, rfl⟩, rfl⟩
  rw [if_neg (not_not_intro hmm)]
  dsimp only
  by_cases hreg : env.register ≠ 0
  · rw [if_pos hreg]
    exact .inr (.inl ⟨by simp [OpenEnv.failsLate, hpv, hmm, hreg], ⟨rfl, rfl, rfl⟩, rfl⟩)
  · rw [if_neg hreg]
    exact .inr (.inr ⟨by simp [OpenEnv.failsEarly, hmm], by simp [Slot.Doomed, Slot.log]⟩)

/-- A call leaves the instance in existence, or it has found the memory given back. -/
theorem Slot.doomed_call {f : Instance → Instance × List Event} : (s.call f).Doomed := by
  unfold Slot.call Slot.Doomed
  cases hd : s.data with
  | none => simp [Slot.log]
  | some d => simp [Slot.log]

/-- The release that gives an instance back uses it afterwards. -/
theorem doomed_freeReleased (env : ReleaseEnv) : (freeReleased s env).Doomed := by
  intro _
  unfold freeReleased
  dsimp only
  split <;> simp [Slot.log]

/-- After its release an instance waits, or it was used after its memory was given back. -/
theorem doomed_releaseSwept {d : Instance} {env : ReleaseEnv} :
    ((releaseSwept dev id d env).slots id).Doomed := by
  by_cases hfree : d.Freeable env.free
  · rw [releaseSwept_of_freeable hfree, Device.put_self]
    exact doomed_freeReleased env
  · rw [releaseSwept_of_not_freeable hfree]
    simp [Slot.Doomed, addDelayedFree_slot, Device.setNext, releasedSlot]

/-- The release of an instance touches no other one. -/
theorem releaseSwept_of_ne {i : Id} {d : Instance} {env : ReleaseEnv} (h : i ≠ id) :
    (releaseSwept dev id d env).slots i = dev.slots i := by
  by_cases hfree : d.Freeable env.free
  · rw [releaseSwept_of_freeable hfree, Device.put_of_ne h]
  · rw [releaseSwept_of_not_freeable hfree, addDelayedFree_slot, Device.setNext,
      Device.put_of_ne h, Device.put_of_ne h]

theorem opened_of_ne {t : Slot} {n : Nat} (h : id ≠ dev.nextId) :
    ({ dev.put dev.nextId t with nextId := n } : Device).slots id = dev.slots id :=
  Device.put_of_ne h

theorem SlotStep.nextId_le (h : SlotStep dev op dev') : dev.nextId ≤ dev'.nextId := by
  cases h with
  | idle => exact le_rfl
  | opened raw env hraw => exact Nat.le_succ _
  | called => exact le_rfl
  | released id d env hfile hd =>
    refine le_of_eq ?_
    by_cases hfree : d.Freeable env.free
    · rw [releaseSwept_of_freeable hfree, Device.put_nextId]
    · rw [releaseSwept_of_not_freeable hfree]
      rfl

/-- Nothing happens any more to a dead slot. -/
theorem SlotStep.dead (h : SlotStep dev op dev') (hid : id < dev.nextId)
    (hdead : (dev.slots id).Dead) : dev'.slots id = dev.slots id := by
  cases h with
  | idle => rfl
  | opened raw env hraw => exact opened_of_ne (ne_of_lt hid)
  | called op i f hne hready =>
    refine Device.put_of_ne fun heq => ?_
    subst heq
    simp [hdead.file, hdead.notifier] at hready
  | released i d env hfile hd =>
    refine releaseSwept_of_ne fun heq => ?_
    subst heq
    simp [hdead.data] at hd

/-- No operation makes the end of a doomed slot complete. -/
theorem SlotStep.doomed (h : SlotStep dev op dev') (hid : id < dev.nextId)
    (hdoomed : (dev.slots id).Doomed) : (dev'.slots id).Doomed := by
  cases h with
  | idle => exact hdoomed
  | opened raw env hraw => rwa [opened_of_ne (ne_of_lt hid)]
  | called op i f hne hready =>
    by_cases heq : id = i
    · subst heq
      rw [Device.put_self]
      exact Slot.doomed_call
    · rwa [Device.put_of_ne heq]
  | released i d env hfile hd =>
    by_cases heq : id = i
    · subst heq
      exact doomed_releaseSwept
    · rwa [releaseSwept_of_ne heq]

end Slots

section Runs

variable {dev dev' : Device} {id : Id} {guard : Device → Op → Bool} {p : Slot → Prop}

/-- The instance exists already and has the property. -/
structure Since (id : Id) (p : Slot → Prop) (dev : Device) : Prop where
  /-- The queue of the module is empty. -/
  queue : dev.queue = none
  /-- The instance was allocated. -/
  allocated : id < dev.nextId
  slot : p (dev.slots id)

/-- What every step keeps of an allocated instance is kept for ever. -/
theorem Since.forever (hs : Since id p dev) (h : Reaches Device.step guard dev dev')
    (hkeep : ∀ now op next, SlotStep now op next → id < now.nextId → p (now.slots id) →
      p (next.slots id)) : Since id p dev' := by
  refine h.invariant hs ?_
  intro now op next hnow _ hstep
  have hcases := Device.step_cases hnow.queue hstep
  exact ⟨hcases.queue_eq.trans hnow.queue, hnow.allocated.trans_le hcases.nextId_le,
    hkeep now op next hcases hnow.allocated hnow.slot⟩

/-- A dead instance is left alone in every run. -/
theorem Since.dead {s : Slot} (hs : Since id (· = s) dev) (hdead : s.Dead)
    (h : Reaches Device.step guard dev dev') : dev'.slots id = s :=
  (hs.forever h fun _ _ _ hstep hid hnow => (hstep.dead hid (hnow ▸ hdead)).trans hnow).slot

/-- No run makes the end of a doomed instance complete. -/
theorem Since.doomed (hs : Since id Slot.Doomed dev) (h : Reaches Device.step guard dev dev') :
    (dev'.slots id).Doomed :=
  (hs.forever h fun _ _ _ hstep hid hnow => hstep.doomed hid hnow).slot

end Runs

/-- An instance ends with everything given back in time exactly when its opening fails before
anything but its memory was obtained. -/
theorem ends_clean_iff (domid : Nat) (dev opened last : Device) (env : OpenEnv)
    (hreach : Reaches Device.step (fun _ _ => true) (.initial domid) dev)
    (hopen : dev.step (.openDevice env) = some opened) (hmemory : env.memory.isSome = true)
    (hrun : Reaches Device.step (fun _ _ => true) opened last)
    (hend : (last.slots dev.nextId).data = none) :
    EndsClean (last.slots dev.nextId).trace ↔ env.failsEarly = true := by
  have hq := queue_eq_none hreach
  obtain ⟨raw, hraw⟩ := Option.isSome_iff_exists.mp hmemory
  obtain rfl := Option.some.inj ((Device.step_open hq hraw).symm.trans hopen)
  have hsince : ∀ p : Slot → Prop, p (openSlot raw dev.domid env).2 → Since dev.nextId p
      { dev.put dev.nextId (openSlot raw dev.domid env).2 with nextId := dev.nextId + 1 } :=
    fun p hp => ⟨hq, Nat.lt_succ_self _, by simpa using hp⟩
  rcases openSlot_cases raw dev.domid env with ⟨hearly, hdead, htrace⟩ | ⟨hlate, hdead, htrace⟩ |
    ⟨hearly, hdoomed⟩
  · rw [(hsince (· = _) rfl).dead hdead hrun, htrace]
    exact iff_of_true (by decide) hearly
  · rw [(hsince (· = _) rfl).dead hdead hrun, htrace]
    refine iff_of_false (by decide) fun hearly => ?_
    simp only [OpenEnv.failsLate, OpenEnv.failsEarly, decide_eq_true_eq] at hlate hearly
    exact hearly.2 hlate.2.1
  · have hstale := (hsince _ hdoomed).doomed hrun hend
    exact iff_of_false (fun hclean => hclean.unused hstale) (by simp [hearly])

/-- A domain without an address space to refer to. -/
def OpenEnv.noMm : OpenEnv := ⟨some .fresh, true, false, 0, fun _ => .inUse⟩

/-- The opening that fails early, in a paravirtualised domain. -/
theorem ends_clean_noMm :
    EndsClean ((((Device.initial 1).step (.openDevice .noMm)).getD (.initial 1)).slots 0).trace :=
  (ends_clean_iff 1 (.initial 1) _ _ .noMm .refl rfl rfl .refl rfl).mpr rfl

/-- A receiver of a paravirtualised domain maps one page and closes its descriptor. -/
def mappedReceiver : List Op :=
  [.openDevice ⟨some .fresh, true, true, 0, fun _ => .inUse⟩,
    .init 0 (.receiver ⟨1, 2, 8⟩ ⟨some pageSize, 0, 0, 3, { Header.zero with pagesCount := 2 },
      some 5, 9⟩) ⟨true, true, true⟩,
    .mmap 0 ⟨0, pageSize, true, true⟩
      ⟨(· / pageSize), 0, 0, id, .zero, 0, 1, id, id, id, 0, fun _ => 0, fun i => 4 + i,
        fun _ => 0⟩,
    .release 0 ⟨fun _ => .inUse, { FreeEnv.inUse with unmapStatus := 0 }, true⟩]

/-- The ballooned pages of a receiver are never returned, and its notifier is unregistered from
memory that was given back before. -/
theorem not_ends_clean : ∃ dev, Reaches Device.step (fun _ _ => true) (.initial 1) dev ∧
    (dev.slots 0).data = none ∧ ¬ EndsClean (dev.slots 0).trace := by
  have hrun : (run Device.step (fun _ _ => true) (.initial 1) mappedReceiver).any (fun dev =>
      (dev.slots 0).data.isNone = true ∧ ¬ EndsClean (dev.slots 0).trace) = true := by
    decide +kernel
  obtain ⟨dev, hreach, hdev⟩ := exists_reaches_of_run hrun
  obtain ⟨hdata, hclean⟩ := of_decide_eq_true hdev
  exact ⟨dev, hreach, Option.isNone_iff_eq_none.mp hdata, hclean⟩

end XenShm.Kernel
