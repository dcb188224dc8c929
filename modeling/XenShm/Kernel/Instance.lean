import Mathlib.Data.BitVec
import Mathlib.Data.List.Count

/-!
# An instance of the device

Opening the device creates one `struct xen_shm_instance_data`. Calls into the kernel
and the hypervisor are not modelled themselves: their results are inputs of the
functions that make them, and what was obtained and given back is kept as a list of
events in the order of the calls. The header page can be changed by the peer at any
time, so its content is an input too.
-/

namespace XenShm.Kernel

/-- The size of a page of memory, `PAGE_SIZE` of the kernel on the machines the module is built
for. -/
def pageSize : Nat := 4096

/-- `XEN_SHM_ALLOC_ALIGNED_PAGES`, the length of the arrays that hold one entry for each page. -/
def allocAlignedPages : Nat := 128

/-- `XEN_SHM_MAX_SHARED_PAGES`, the largest number of data pages beside the page of the header. -/
def maxSharedPages : Nat := allocAlignedPages - 1

/-- `DOMID_SELF`, by which a domain names itself in an argument of the hypervisor. -/
def domidSelf : Nat := 0x7FF0

/-- `GNTMAP_host_map`, the flag of a grant that is mapped into the memory of the domain. -/
def gntmapHostMap : Nat := 0x02

/-- `GNTMAP_application_map`, the flag of a grant that is mapped for a user process. -/
def gntmapApplicationMap : Nat := 0x08

/-- `GNTMAP_contains_pte`, the flag that makes the address of an operation that of a page table
entry. -/
def gntmapContainsPte : Nat := 0x10

/-- `grant_ref_t`, an unsigned type, so that no reference is ever found to be negative. -/
abbrev GrantRef := BitVec 32

/-- The value a `grant_ref_t` has after an `int` was stored in it. -/
def GrantRef.ofInt (i : Int) : GrantRef := BitVec.ofInt 32 i

/-- `ref < 0`, compared as the type says. -/
def GrantRef.isNegative (r : GrantRef) : Bool := (r.toNat : Int) < 0

/-- The test of a grant reference for an error succeeds for no reference. -/
@[simp] theorem GrantRef.isNegative_eq (r : GrantRef) : r.isNegative = false := by
  simp [isNegative]

/-- Instances are told apart by the order in which they were allocated. -/
abbrev Id := Nat

/-- `enum xen_shm_state_t`, the states an instance goes through between its opening and its
release. -/
inductive State where
  | opened
  | offerer
  | receiver
  | receiverMapped
  deriving DecidableEq, Repr

/-- `xen_shm_meta_page_state`, the states of the two ends as the header page shows them to the
peer. -/
inductive MetaState where
  | none
  | opened
  | closed
  deriving DecidableEq, Repr

/-- The error numbers that the system calls of the device return, with a place for any other one. -/
inductive Errno where
  | enotty
  | einval
  | enomem
  | efault
  | eio
  | enodata
  | epipe
  | enosys
  | edeadlk
  | erestartsys
  /-- A code passed on as it came. -/
  | code (c : Int)
  deriving DecidableEq, Repr

/-- What a function of the device returns, 0 or a negated error number. -/
inductive Result where
  | ok
  | error (e : Errno)
  deriving DecidableEq, Repr

/-- The negative number that the caller gets for an error. -/
def Errno.value : Errno → Int
  | .enotty => -25
  | .einval => -22
  | .enomem => -12
  | .efault => -14
  | .eio => -5
  | .enodata => -61
  | .epipe => -32
  | .enosys => -38
  | .edeadlk => -35
  | .erestartsys => -512
  | .code c => c

/-- The error numbers that the module names, which tell results from each other. -/
def Errno.named : List Errno :=
  [.enotty, .einval, .enomem, .efault, .eio, .enodata, .epipe, .enosys, .edeadlk, .erestartsys]

/-- The error that the caller reads in a number, whatever the number was meant for. -/
def Errno.ofValue (v : Int) : Errno := (named.find? fun e => e.value = v).getD (.code v)

/-- Reading a number as an error does not change the number. -/
theorem Errno.value_ofValue (v : Int) : (ofValue v).value = v := by
  unfold ofValue
  cases hfind : named.find? fun e => e.value = v with
  | none => rfl
  | some e => simpa using List.find?_some hfind

/-- The number that a function returns, as the process or the kernel sees it. -/
def Result.value : Result → Int
  | .ok => 0
  | .error e => e.value

/-- `struct xen_shm_meta_page_data`, which the two ends of a connection share in the first page. -/
structure Header where
  offererState : MetaState
  receiverState : MetaState
  /-- Number of shared pages, this one included. -/
  pagesCount : Nat
  /-- The port the receiver binds its own event channel to. -/
  offererEcPort : Nat
  /-- The count of the mutex of waiting calls, 1 while none of them holds it. -/
  ecMutexCount : Int
  /-- The grant of each page, the header page included, as the receiver reads them. -/
  grantRefs : Nat → GrantRef

/-- A page of zeros, read as a header. -/
def Header.zero : Header := ⟨.none, .none, 0, 0, 0, fun _ => 0⟩

/-- `struct vm_area_struct`, as far as the device looks at it. -/
structure Vma where
  start : Nat
  /-- The address behind the last one, as `vm_end` is. -/
  stop : Nat
  /-- Whether the process asked for `VM_WRITE`. -/
  write : Bool
  /-- Whether the process asked for `VM_SHARED`. -/
  shared : Bool
  deriving DecidableEq, Repr

/-- `struct gnttab_map_grant_ref`, one operation by which a grant of another domain is mapped. -/
structure MapOp where
  /-- Address to map at, or address of the page table entry. -/
  hostAddr : Nat
  /-- The `GNTMAP_` flags, which also say what the address is an address of. -/
  flags : Nat
  ref : GrantRef
  /-- The domain that made the grant. -/
  dom : Nat
  /-- Set by the hypervisor, negative when the grant was not mapped. -/
  status : Int
  /-- Set by the hypervisor, the name by which the mapping is undone. -/
  handle : Int
  deriving DecidableEq, Repr

/-- `struct gnttab_unmap_grant_ref`, one operation by which a mapping is undone. -/
structure UnmapOp where
  /-- Address it was mapped at, or address of the page table entry. -/
  hostAddr : Nat
  /-- The `GNTMAP_` flags the mapping was made with. -/
  flags : Nat
  /-- Handle of the mapping, -1 when there is none. -/
  handle : Int
  deriving DecidableEq, Repr

/-- The part of an instance that its event handler writes. -/
structure Signals where
  /-- Whether the first event of the peer was received. -/
  initialSignal : Bool
  /-- An event was received since the last wait began. -/
  userSignal : Bool
  /-- An event was received and not handled. -/
  latentUserSignal : Bool
  deriving DecidableEq, Repr

/-- `struct xen_shm_instance_data`, all that the module keeps for one open descriptor. -/
structure Instance where
  state : State
  /-- Whether the pages of the user are mapped through page table entries. -/
  usePtemod : Bool
  /-- Number of shared pages with the header page. -/
  pagesCount : Nat
  /-- Kernel address of the header page, or 0. -/
  sharedMemory : Nat
  /-- The domain this instance runs in. -/
  localDomid : Nat
  /-- The domain at the other end. -/
  distantDomid : Nat
  /-- The port of the event channel in the own domain. -/
  localEcPort : Nat
  /-- Of a receiver only, the port that the offerer has allocated. -/
  distEcPort : Nat
  /-- The next instance whose release is delayed. -/
  nextDelayed : Option Id
  /-- The interrupt that the event channel is bound to. -/
  ecIrq : Int
  /-- What was received through the event channel. -/
  signals : Signals
  /-- The grant of the header page, by which a receiver finds all others. -/
  firstPageGrant : GrantRef
  /-- Offerer only: order of the page allocation. -/
  offererAllocOrder : Nat
  /-- Receiver only: area the header page is mapped in. -/
  unmappedArea : Option Nat
  /-- Of a receiver only, the mapping that the user process has made. -/
  userMem : Option Vma
  /-- Receiver only: pages behind the mapping of the user. -/
  userPages : Nat → Nat
  /-- `grant_map_handles[0]`, by which the mapping of the header page is undone. -/
  headerHandle : Int
  /-- The operations that map the data pages, by offset from the first of them. -/
  mapOps : Nat → MapOp
  /-- The operations that undo what `mapOps` maps, by the same offsets. -/
  unmapOps : Nat → UnmapOp
  /-- Operations that map them for the kernel. -/
  kmapOps : Nat → MapOp

/-- An instance of domain 1 as `xen_shm_open` leaves it, before any ioctl. -/
def Instance.fresh : Instance where
  state := .opened
  usePtemod := false
  pagesCount := 0
  sharedMemory := 0
  localDomid := 1
  distantDomid := 0
  localEcPort := 0
  distEcPort := 0
  nextDelayed := none
  ecIrq := 0
  signals := ⟨false, false, false⟩
  firstPageGrant := 0
  offererAllocOrder := 0
  unmappedArea := none
  userMem := none
  userPages := fun _ => 0
  headerHandle := 0
  mapOps := fun _ => ⟨0, 0, 0, 0, 0, 0⟩
  unmapOps := fun _ => ⟨0, 0, 0⟩
  kmapOps := fun _ => ⟨0, 0, 0, 0, 0, 0⟩

/-- What an instance obtains from the kernel and has to give back. -/
inductive Resource where
  /-- The memory that holds the instance itself. -/
  | memory
  /-- The reference to the address space that `get_task_mm` has taken. -/
  | mm
  /-- The registration of the mmu notifier with that address space. -/
  | notifier
  /-- The pages an offerer shares, allocated by their order. -/
  | pages (addr order : Nat)
  | grant (ref : GrantRef)
  /-- The area of kernel addresses in which a receiver maps the header page. -/
  | vmArea (addr : Nat)
  /-- The mapping of the header page, named by its handle. -/
  | headerMap (handle : Int)
  /-- The port of an event channel, allocated or bound. -/
  | channel (port : Nat)
  /-- The handler bound to an event channel. -/
  | handler (irq : Int)
  /-- The ballooned pages that stand behind the mapping of a receiver. -/
  | balloon (count : Nat)
  deriving DecidableEq, Repr

/-- What happened to an instance, as far as others can see it. -/
inductive Event where
  /-- A call obtained the resource, which is to be given back later. -/
  | acquire (r : Resource)
  /-- The call that gives the resource back was made. -/
  | release (r : Resource)
  /-- The data page at this offset was unmapped. -/
  | unmapPage (offset : Nat)
  /-- A failed mmap has passed this operation of a data page to the hypervisor. -/
  | unmapRefs (offset : Nat) (op : UnmapOp)
  /-- `remap_pfn_range` has mapped so many bytes at an address to adjacent page frames. -/
  | remapPfnRange (addr pfn size : Nat)
  /-- `vm_insert_page` has mapped a page of the kernel at an address. -/
  | insertPage (addr page : Nat)
  /-- An event was sent to the peer. -/
  | notify (port : Nat)
  /-- The mmap of a receiver has succeeded. -/
  | mapped
  /-- A field of the instance was used after its memory was given back. -/
  | stale
  deriving DecidableEq, Repr

/-- Each time the resource was obtained it was given back once. -/
def Balanced (trace : List Event) (r : Resource) : Prop :=
  trace.count (.release r) = trace.count (.acquire r)

/-- Each time the resource was obtained it was given back. -/
def GivenBack (trace : List Event) (r : Resource) : Prop :=
  trace.count (.acquire r) ≤ trace.count (.release r)

instance (trace : List Event) (r : Resource) : Decidable (Balanced trace r) :=
  inferInstanceAs (Decidable (_ = _))

instance (trace : List Event) (r : Resource) : Decidable (GivenBack trace r) :=
  inferInstanceAs (Decidable (_ ≤ _))

end XenShm.Kernel
