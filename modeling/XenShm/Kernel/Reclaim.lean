import XenShm.Kernel.Device

/-!
# Released instances

An instance whose resources are still in use when it is released has to wait in the
queue. The function that should append it assigns to the queue the value it just read
from it, so the queue stays empty for ever and the instance is lost.
-/

namespace XenShm.Kernel

open Library

/-- The instance is released, and its resources were not given back yet. -/
def Device.Pending (dev : Device) (id : Id) : Prop :=
  (dev.slots id).data.isSome = true ∧ (dev.slots id).file = false

/-- Exactly the pending instances are in the queue. By `Linked.nodup` each is there once. -/
def NoneForgotten (dev : Device) : Prop :=
  ∃ l, Linked dev.link dev.queue l ∧ ∀ id, id ∈ l ↔ dev.Pending id

/-- The operation does not release an instance whose resources are in use. -/
def ReleasesUnused (dev : Device) : Op → Prop
  | .release id env => ∀ d, (dev.slots id).data = some d → d.Freeable env.free
  | _ => True

section Steps

variable {dev dev' : Device} {id i : Id} {s t : Slot} {op : Op} {env : Id → FreeEnv}

@[simp] theorem Device.put_self : (dev.put id s).slots id = s := by simp [put]

theorem Device.put_of_ne (h : i ≠ id) : (dev.put id s).slots i = dev.slots i := by simp [put, h]

@[simp] theorem Device.put_queue : (dev.put id s).queue = dev.queue := rfl

@[simp] theorem Device.put_nextId : (dev.put id s).nextId = dev.nextId := rfl

/-- An empty queue is swept without looking at any instance. -/
@[simp] theorem sweep_of_empty (h : dev.queue = none) : sweep dev env = some dev := by
  simp only [sweep, h]
  cases dev.nextId <;> rfl

/-- The assignment that should append the instance leaves the queue as it was. -/
theorem addDelayedFree_queue (h : (dev.slots id).data.isSome = true) :
    (addDelayedFree dev id).queue = dev.queue := by
  obtain ⟨d, hd⟩ := Option.isSome_iff_exists.mp h
  simp [addDelayedFree, Device.setNext, hd]

/-- The instance to be queued is linked, and no other slot changes. -/
theorem addDelayedFree_slot :
    (addDelayedFree dev id).slots i = (dev.setNext id dev.queue).slots i := rfl

/-- What one operation does to the slots when the queue is empty. -/
inductive SlotStep (dev : Device) : Op → Device → Prop where
  /-- Nothing was allocated, or nothing was there to sweep. -/
  | idle (op : Op) (hop : ∀ id env, op ≠ .release id env) : SlotStep dev op dev
  /-- A descriptor is opened, and the next slot gets a new instance. -/
  | opened (raw : Instance) (env : OpenEnv) (hraw : env.memory = some raw) :
      SlotStep dev (.openDevice env)
        { dev.put dev.nextId (openSlot raw dev.domid env).2 with nextId := dev.nextId + 1 }
  /-- A call on one instance changes its slot only. -/
  | called (op : Op) (id : Id) (f : Instance → Instance × List Event)
      (hop : ∀ id env, op ≠ .release id env)
      (hready : (dev.slots id).file = true ∨ (dev.slots id).notifier = true) :
      SlotStep dev op (dev.put id ((dev.slots id).call f))
  /-- The end of an instance, or of its descriptor. -/
  | released (id : Id) (d : Instance) (env : ReleaseEnv) (hfile : (dev.slots id).file = true)
      (hd : (dev.slots id).data = some d) :
      SlotStep dev (.release id env) (releaseSwept dev id d env)

/-- Open, when there is memory for the instance, fills the next slot. -/
theorem Device.step_open {raw : Instance} {env : OpenEnv} (hq : dev.queue = none)
    (hraw : env.memory = some raw) : dev.step (.openDevice env) = some
      { dev.put dev.nextId (openSlot raw dev.domid env).2 with nextId := dev.nextId + 1 } := by
  simp only [Device.step, Kernel.openDevice, hraw]
  split
  · rw [sweep_of_empty (by simpa using hq)]
    rfl
  · rfl

/-- While the queue is empty every operation is one of these. -/
theorem Device.step_cases (hq : dev.queue = none) (h : dev.step op = some dev') :
    SlotStep dev op dev' := by
  cases op with
  | openDevice env =>
    cases hraw : env.memory with
    | none =>
      simp only [Device.step, Kernel.openDevice, hraw, Option.map_some, Option.some.injEq] at h
      exact h ▸ .idle _ nofun
    | some raw => exact Option.some.inj ((step_open hq hraw).symm.trans h) ▸ .opened raw env hraw
  | init id cmd u =>
    simp only [Device.step, Option.ite_none_right_eq_some, Option.some.injEq] at h
    exact h.2 ▸ .called _ id _ nofun (.inl h.1)
  | mmap id vma env =>
    simp only [Device.step, Option.ite_none_right_eq_some, Option.some.injEq] at h
    exact h.2 ▸ .called _ id _ nofun (.inl h.1)
  | invalidate id start stop =>
    simp only [Device.step, Option.ite_none_right_eq_some, Option.some.injEq] at h
    exact h.2 ▸ .called _ id _ nofun (.inr h.1)
  | exit id =>
    simp only [Device.step, Option.ite_none_right_eq_some, Option.some.injEq] at h
    exact h.2 ▸ .called _ id _ nofun (.inr h.1)
  | release id env =>
    simp only [Device.step, Option.ite_none_right_eq_some, releaseDevice, sweep_of_empty hq,
      Option.bind_eq_bind, Option.bind_some] at h
    obtain ⟨hfile, h⟩ := h
    obtain ⟨d, hd, h⟩ := Option.bind_eq_some_iff.mp h
    exact Option.some.inj h ▸ .released id d env hfile hd
  | sweep env =>
    simp only [Device.step, sweep_of_empty hq, Option.some.injEq] at h
    exact h ▸ .idle _ nofun

/-- The slot of a released instance before it is given back or kept. -/
def releasedSlot (s : Slot) (d : Instance) (env : ReleaseEnv) : Slot :=
  let (header, told) := announceRelease d env.free.header
  let (_, d, events) := prepareFree d { env.free with header := header }
  { s.log (told ++ events) with data := some d, file := false }

/-- An instance that is not in use is given back at once. -/
theorem releaseSwept_of_freeable {d : Instance} {env : ReleaseEnv} (h : d.Freeable env.free) :
    releaseSwept dev id d env =
      dev.put id (freeReleased (releasedSlot (dev.slots id) d env) env) := by
  have hok := (prepareFree_ok_iff d
    { env.free with header := (announceRelease d env.free.header).1 }).mpr h
  simp [releaseSwept, releasedSlot, hok]

/-- An instance that is in use is kept. -/
theorem releaseSwept_of_not_freeable {d : Instance} {env : ReleaseEnv}
    (h : ¬ d.Freeable env.free) :
    releaseSwept dev id d env =
      addDelayedFree (dev.put id (releasedSlot (dev.slots id) d env)) id := by
  have hfail := mt (prepareFree_ok_iff d
    { env.free with header := (announceRelease d env.free.header).1 }).mp h
  simp only [releaseSwept, releasedSlot, ne_eq, hfail, not_false_eq_true, if_true]

/-- The queue stays empty, since nothing is ever put into it. -/
theorem SlotStep.queue_eq (h : SlotStep dev op dev') : dev'.queue = dev.queue := by
  cases h with
  | idle | opened | called => rfl
  | released id d env hfile hd =>
    by_cases hfree : d.Freeable env.free
    · rw [releaseSwept_of_freeable hfree, Device.put_queue]
    · rw [releaseSwept_of_not_freeable hfree,
        addDelayedFree_queue (by simp [releasedSlot]), Device.put_queue]

/-- No device ever has an instance in its queue. -/
theorem queue_eq_none {guard : Device → Op → Bool} {domid : Nat}
    (h : Reaches Device.step guard (.initial domid) dev) : dev.queue = none := by
  have hinit : (fun dev : Device => dev.queue = none) (.initial domid) := rfl
  exact h.invariant hinit fun _ _ _ hq _ hstep => (Device.step_cases hq hstep).queue_eq.trans hq

/-- An instance that is pending while the queue is empty is forgotten. -/
theorem not_noneForgotten (hq : dev.queue = none) (h : dev.Pending id) : ¬ NoneForgotten dev := by
  rintro ⟨l, hl, hmem⟩
  have hin : id ∈ l := (hmem id).mpr h
  cases l with
  | nil => simp at hin
  | cons a l => simp [Linked, hq] at hl

/-- The queue is empty and no instance waits for it. -/
structure Quiet (dev : Device) : Prop where
  queue : dev.queue = none
  pending : ∀ id, ¬ dev.Pending id

/-- When nothing is pending, nothing is forgotten. -/
theorem Quiet.noneForgotten (h : Quiet dev) : NoneForgotten dev :=
  ⟨[], h.queue, fun id => by simp [h.pending id]⟩

/-- Replacing a slot by one that is not pending. -/
theorem Quiet.put (h : Quiet dev) (hs : s.data.isSome = true → s.file = true) :
    Quiet (dev.put id s) where
  queue := h.queue
  pending := by
    intro i ⟨hi, hfile⟩
    by_cases heq : i = id
    · subst i
      rw [Device.put_self] at hi hfile
      simp [hs hi] at hfile
    · rw [Device.put_of_ne heq] at hi hfile
      exact h.pending i ⟨hi, hfile⟩

/-- An instance that open has left allocated has a descriptor. -/
theorem openSlot_file (raw : Instance) (domid : Nat) (env : OpenEnv) :
    (openSlot raw domid env).2.data.isSome = true → (openSlot raw domid env).2.file = true := by
  unfold openSlot
  split
  · simp
  · split
    · simp [Slot.kfree]
    · dsimp only
      split <;> simp [Slot.kfree]

theorem Slot.call_data {f : Instance → Instance × List Event} :
    (s.call f).data.isSome = s.data.isSome := by
  unfold Slot.call
  cases hd : s.data <;> simp [Slot.log, hd]

theorem Slot.call_file {f : Instance → Instance × List Event} : (s.call f).file = s.file := by
  unfold Slot.call
  cases s.data <;> rfl

theorem freeReleased_data {env : ReleaseEnv} : (freeReleased s env).data = none := by
  unfold freeReleased
  dsimp only
  split <;> rfl

/-- An operation that releases nothing in use leaves nothing pending. -/
theorem Quiet.step (h : Quiet dev) (hop : ReleasesUnused dev op)
    (hstep : dev.step op = some dev') : Quiet dev' := by
  cases Device.step_cases h.queue hstep with
  | idle => exact h
  | opened raw env hraw =>
    have hput : Quiet (dev.put dev.nextId (openSlot raw dev.domid env).2) :=
      h.put (openSlot_file raw dev.domid env)
    exact ⟨hput.queue, hput.pending⟩
  | called op id f hne hready =>
    refine h.put fun hd => ?_
    rw [Slot.call_data] at hd
    rw [Slot.call_file]
    have hnot := h.pending id
    simpa [Device.Pending, hd] using hnot
  | released id d env hfile hd =>
    rw [releaseSwept_of_freeable (hop d hd)]
    exact h.put fun hsome => by simp [freeReleased_data] at hsome

theorem releasesUnused_of_ne (h : ∀ id env, op ≠ .release id env) : ReleasesUnused dev op := by
  cases op with
  | release id env => exact absurd rfl (h id env)
  | _ => trivial

/-- Releasing an instance that is in use forgets it. -/
theorem Quiet.forgotten (h : Quiet dev) (hop : ¬ ReleasesUnused dev op)
    (hstep : dev.step op = some dev') : ¬ NoneForgotten dev' := by
  cases Device.step_cases h.queue hstep with
  | idle op hne => exact absurd (releasesUnused_of_ne hne) hop
  | opened raw env hraw => exact absurd trivial hop
  | called op id f hne hready => exact absurd (releasesUnused_of_ne hne) hop
  | released id d env hfile hd =>
    have hfree : ¬ d.Freeable env.free := by
      simpa [ReleasesUnused, hd] using hop
    rw [releaseSwept_of_not_freeable hfree]
    have hqueue : (addDelayedFree (dev.put id (releasedSlot (dev.slots id) d env)) id).queue =
        dev.queue := addDelayedFree_queue (by simp [releasedSlot])
    refine @not_noneForgotten _ id (hqueue.trans h.queue) ?_
    simp [Device.Pending, addDelayedFree_slot, Device.setNext, releasedSlot]

end Steps

/-- Before the first open nothing is queued and nothing is pending. -/
theorem quiet_initial (domid : Nat) : Quiet (.initial domid) :=
  ⟨rfl, fun _ h => by simp [Device.Pending, Device.initial] at h⟩

/-- The released instances that were not given back are exactly those in the queue, in every
state of a run, exactly when the run releases no instance that is in use. -/
theorem none_forgotten_iff (domid : Nat) (ops : List Op) :
    Always Device.step NoneForgotten (.initial domid) ops ↔
      Along Device.step ReleasesUnused (.initial domid) ops :=
  always_iff_along (fun _ (h : Quiet _) => h.noneForgotten)
    (fun _ _ _ h hop hstep => h.step hop hstep) (fun _ _ _ h hop hstep => h.forgotten hop hstep)
    ops _ (quiet_initial domid)

/-- Every page is still mapped by the peer. -/
def FreeEnv.inUse : FreeEnv := ⟨.zero, fun _ => false, -1⟩

/-- A domain opens the device, offers one page and closes the descriptor while its peer still
uses the page. -/
def lostOfferer : List Op :=
  [.openDevice ⟨some .fresh, false, true, 0, fun _ => .inUse⟩,
    .init 0 (.offerer ⟨1, 2, 0, 0⟩ ⟨pageSize, .zero, fun i => 8 + i, some 5, 9⟩) ⟨true, true, true⟩,
    .release 0 ⟨fun _ => .inUse, .inUse, false⟩]

/-- The instance is neither freed nor in the queue. -/
theorem not_none_forgotten :
    ∃ dev, Reaches Device.step (fun _ _ => true) (.initial 1) dev ∧ ¬ NoneForgotten dev := by
  have hrun : (run Device.step (fun _ _ => true) (.initial 1) lostOfferer).any (fun dev =>
      dev.queue = none ∧ (dev.slots 0).data.isSome = true ∧ (dev.slots 0).file = false) = true := by
    decide +kernel
  obtain ⟨dev, hreach, hdev⟩ := exists_reaches_of_run hrun
  obtain ⟨hq, hpending⟩ := of_decide_eq_true hdev
  exact ⟨dev, hreach, not_noneForgotten hq hpending⟩

end XenShm.Kernel
