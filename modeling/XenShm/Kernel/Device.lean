import XenShm.Kernel.Free
import XenShm.Library.Chain
import XenShm.Library.Run

/-!
# The device with all its instances

The file operations act on the heap of instances and on the queue of instances whose
release has to be completed later. Each operation is one step. Everything that was
obtained for an instance and given back is kept with it, also after its memory is
gone, so that later steps can be checked against it.
-/

namespace XenShm.Kernel

open Library

/-- An instance and what the kernel knows about it. -/
structure Slot where
  /-- The memory of the instance, until it is given back. -/
  data : Option Instance
  /-- A descriptor of some process refers to it. -/
  file : Bool
  /-- Whether the kernel calls the mmu notifier of the instance. -/
  notifier : Bool
  /-- The events of the instance so far, the latest one at the end. -/
  trace : List Event

/-- Append what an operation has done to the trace of the slot. -/
def Slot.log (s : Slot) (events : List Event) : Slot := { s with trace := s.trace ++ events }

/-- The memory of the instance is given back by `kfree`. -/
def Slot.kfree (s : Slot) : Slot := { s.log [.release .memory] with data := none }

/-- The state of the module: its instances, its queue and the domain it runs in. -/
structure Device where
  domid : Nat
  /-- `xen_shm_delayed_free_queue`, the head of the queue. -/
  queue : Option Id
  /-- The instances, by the order in which they were allocated. -/
  slots : Id → Slot
  /-- How many instances were allocated, and the name of the next one. -/
  nextId : Id

/-- The module as it was loaded, before any descriptor was opened. -/
def Device.initial (domid : Nat) : Device := ⟨domid, none, fun _ => ⟨none, false, false, []⟩, 0⟩

/-- Replace what the kernel knows about one instance. -/
def Device.put (dev : Device) (id : Id) (s : Slot) : Device :=
  { dev with slots := Function.update dev.slots id s }

/-- The link stored in an instance, if it is allocated. -/
def Device.link (dev : Device) (id : Id) : Option (Option Id) :=
  (dev.slots id).data.map Instance.nextDelayed

/-- The store `data->next_delayed = next` into the instance with this name. -/
def Device.setNext (dev : Device) (id : Id) (next : Option Id) : Device :=
  let s := dev.slots id
  dev.put id { s with data := s.data.map fun d => { d with nextDelayed := next } }

/-- `__xen_shm_add_delayed_free`: the queue is assigned what was just read from it. -/
def addDelayedFree (dev : Device) (id : Id) : Device :=
  let dev := dev.setNext id dev.queue
  { dev with queue := ((dev.slots id).data.bind Instance.nextDelayed) }

/-- The loop of `__xen_shm_free_delayed_queue`, which frees what it can and keeps the rest
linked. -/
def sweepLoop (env : Id → FreeEnv) : (fuel : Nat) → (previous current : Option Id) → Device →
    Option Device
  | _, _, none, dev => some dev
  | 0, _, some _, _ => none
  | fuel + 1, previous, some id, dev => do
    let d ← (dev.slots id).data
    let (result, d, events) := prepareFree d (env id)
    let s := { (dev.slots id).log events with data := some d }
    if result = .ok then
      let dev :=
        match previous with
        | none => { dev with queue := d.nextDelayed }
        | some before => dev.setNext before d.nextDelayed
      sweepLoop env fuel previous d.nextDelayed (dev.put id s.kfree)
    else sweepLoop env fuel (some id) d.nextDelayed (dev.put id s)

/-- `__xen_shm_free_delayed_queue`: no queue is longer than the number of instances. -/
def sweep (dev : Device) (env : Id → FreeEnv) : Option Device :=
  sweepLoop env dev.nextId none dev.queue dev

/-- What the calls made by open return. -/
structure OpenEnv where
  /-- The memory returned by `kmalloc`, with its old content. -/
  memory : Option Instance
  /-- `xen_pv_domain`, by which the kernel says that it runs without page tables of its own. -/
  pvDomain : Bool
  /-- Whether `get_task_mm` finds an address space. -/
  taskMm : Bool
  /-- What `mmu_notifier_register` returns. -/
  register : Int
  /-- The result of `mmu_notifier_register`, 0 when the notifier is registered. -/
  sweep : Id → FreeEnv

/-- The fields that open initialises, while the others keep what the memory contains. -/
def Instance.init (raw : Instance) (domid : Nat) (pvDomain : Bool) : Instance :=
  { raw with
    state := .opened
    localDomid := domid
    sharedMemory := 0
    nextDelayed := none
    unmappedArea := none
    userMem := none
    signals := ⟨false, false, false⟩
    usePtemod := pvDomain }

/-- `xen_shm_open` for the new instance, up to the sweep of the queue. -/
def openSlot (raw : Instance) (domid : Nat) (env : OpenEnv) : Result × Slot :=
  let s : Slot := ⟨some (raw.init domid env.pvDomain), false, false, [.acquire .memory]⟩
  if ¬ env.pvDomain then (.ok, { s with file := true })
  else if ¬ env.taskMm then (.error .enomem, s.kfree)
  else
    let s := s.log [.acquire .mm]
    if env.register ≠ 0 then (.error .enomem, s.kfree)
    else (.ok, { s.log [.acquire .notifier, .release .mm] with file := true, notifier := true })

/-- `xen_shm_open`, which sweeps the queue when it has succeeded. -/
def openDevice (dev : Device) (env : OpenEnv) : Option (Result × Device) :=
  match env.memory with
  | none => some (.error .enomem, dev)
  | some raw =>
    let (result, s) := openSlot raw dev.domid env
    let dev := { dev.put dev.nextId s with nextId := dev.nextId + 1 }
    if result = .ok then (sweep dev env.sweep).map fun dev => (result, dev)
    else some (result, dev)

/-- What the calls made by release return. -/
structure ReleaseEnv where
  /-- The results in the sweep at the beginning of release. -/
  sweep : Id → FreeEnv
  /-- The results of the calls for the instance itself. -/
  free : FreeEnv
  /-- What the place of `use_ptemod` holds when the memory was already given back. -/
  garbage : Bool

/-- Release after `__xen_shm_prepare_free` succeeded: the memory is given back first. -/
def freeReleased (s : Slot) (env : ReleaseEnv) : Slot :=
  let s := s.kfree.log [.stale]
  if env.garbage then { s.log [.stale, .release .notifier] with notifier := false } else s

/-- `xen_shm_release` after the sweep: the instance is freed, or it is left to a later sweep. -/
def releaseSwept (dev : Device) (id : Id) (d : Instance) (env : ReleaseEnv) : Device :=
  let (header, told) := announceRelease d env.free.header
  let (result, d, events) := prepareFree d { env.free with header := header }
  let s := { (dev.slots id).log (told ++ events) with data := some d, file := false }
  if result ≠ .ok then addDelayedFree (dev.put id s) id
  else dev.put id (freeReleased s env)

/-- `xen_shm_release`, which sweeps the queue before it looks at its own instance. -/
def releaseDevice (dev : Device) (id : Id) (env : ReleaseEnv) : Option Device := do
  let dev ← sweep dev env.sweep
  let d ← (dev.slots id).data
  return releaseSwept dev id d env

/-- A call on an instance that only changes the instance. -/
def Slot.call (s : Slot) (f : Instance → Instance × List Event) : Slot :=
  match s.data with
  -- the callback finds the notifier in memory that was given back
  | none => s.log [.stale]
  | some d => { s.log (f d).2 with data := some (f d).1 }

/-- The operations of the device, with the results of the calls they make. -/
inductive Op where
  /-- A process opens the device, `xen_shm_open`. -/
  | openDevice (env : OpenEnv)
  /-- `xen_shm_ioctl` with one of the INIT commands. -/
  | init (id : Id) (cmd : InitCmd) (u : UserAccess)
  /-- The process maps an instance, `xen_shm_mmap`. -/
  | mmap (id : Id) (vma : Vma) (env : MmapEnv)
  /-- The mmu notifier is told that a range is given up. -/
  | invalidate (id : Id) (start stop : Nat)
  /-- The mmu notifier is told that the address space is given up. -/
  | exit (id : Id)
  /-- The last reference to a descriptor is gone, `xen_shm_release`. -/
  | release (id : Id) (env : ReleaseEnv)
  /-- The queue alone is swept, `__xen_shm_free_delayed_queue`. -/
  | sweep (env : Id → FreeEnv)

/-- One operation, `none` when it cannot be asked for. -/
def Device.step (dev : Device) : Op → Option Device
  | .openDevice env => (Kernel.openDevice dev env).map Prod.snd
  | .init id cmd u =>
    if (dev.slots id).file then
      some (dev.put id ((dev.slots id).call fun d => (ioctlInit d cmd u).2))
    else none
  | .mmap id vma env =>
    if (dev.slots id).file then
      some (dev.put id ((dev.slots id).call fun d => (Kernel.mmap d vma env).2))
    else none
  | .invalidate id start stop =>
    if (dev.slots id).notifier then
      some (dev.put id ((dev.slots id).call fun d => mnInvlRangeStart d start stop))
    else none
  | .exit id =>
    if (dev.slots id).notifier then some (dev.put id ((dev.slots id).call mnRelease)) else none
  | .release id env => if (dev.slots id).file then releaseDevice dev id env else none
  | .sweep env => Kernel.sweep dev env

end XenShm.Kernel
