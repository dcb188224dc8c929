import Mathlib.Logic.Function.Basic
import XenShm.Kernel.Instance

/-!
# Mapping the data pages

`xen_shm_mmap` maps the pages of an offerer directly. A receiver prepares one map and
one unmap operation for each data page, has the hypervisor map them all, and with
`use_ptemod` lets an mmu notifier unmap what the user gives up.
-/

namespace XenShm.Kernel

/-- The pages of the user, behind the header page. -/
def Instance.dataPages (d : Instance) : Nat := d.pagesCount - 1

/-- The loop of `__xen_shm_unmap_receiver_grant_pages`: unmap `nb` mapped pages from `offset` on,
where `rest` pages follow the one at `offset`. -/
def unmapPages (ops : Nat → UnmapOp) : (rest offset nb : Nat) → (Nat → UnmapOp) × List Event
  | _, _, 0 => (ops, [])
  | rest, offset, nb + 1 =>
    let isMapped := (ops offset).handle ≠ -1
    let ops := if isMapped then Function.update ops offset { ops offset with handle := -1 } else ops
    let events := if isMapped then [Event.unmapPage offset] else []
    match rest with
    | 0 => (ops, events)
    | rest + 1 =>
      let (ops, later) := unmapPages ops rest (offset + 1) (if isMapped then nb else nb + 1)
      (ops, events ++ later)

/-- `__xen_shm_unmap_receiver_grant_pages`, one hypercall for each page with a handle. -/
def unmapReceiverGrantPages (d : Instance) (offset nb : Nat) : Instance × List Event :=
  let (ops, events) := unmapPages d.unmapOps (d.dataPages - (offset + 1)) offset nb
  ({ d with unmapOps := ops }, events)

/-- `__xen_shm_mn_invl_range_start`, which unmaps the pages of the mapping in the range. -/
def mnInvlRangeStart (d : Instance) (start stop : Nat) : Instance × List Event :=
  match d.userMem with
  | none => (d, [])
  | some vma =>
    if vma.stop ≤ start ∨ stop ≤ vma.start then (d, [])
    else
      let mstart := max start vma.start
      let mend := min stop vma.stop
      unmapReceiverGrantPages d ((mstart - vma.start) / pageSize) ((mend - mstart) / pageSize)

/-- `__xen_shm_mn_invl_page`, the invalidation of the one page at the address. -/
def mnInvlPage (d : Instance) (address : Nat) : Instance × List Event :=
  mnInvlRangeStart d address (address + pageSize)

/-- `__xen_shm_mn_release`, the invalidation of the whole mapping at the end of an address space. -/
def mnRelease (d : Instance) : Instance × List Event :=
  match d.userMem with
  | none => (d, [])
  | some _ => unmapReceiverGrantPages d 0 d.dataPages

/-- `gnttab_set_map_op` for an operation, whose status and handle it leaves alone. -/
def MapOp.set (op : MapOp) (addr flags : Nat) (ref : GrantRef) (dom : Nat) : MapOp :=
  { op with hostAddr := addr, flags := flags, ref := ref, dom := dom }

/-- `gnttab_set_unmap_op`, which fills in all that an unmap operation has. -/
def UnmapOp.set (addr flags : Nat) (handle : Int) : UnmapOp := ⟨addr, flags, handle⟩

/-- What the calls made by mmap return, by page where there is one call for each page. -/
structure MmapEnv where
  /-- The frame of a kernel address, as `virt_to_pfn` tells it. -/
  virtToPfn : Nat → Nat
  /-- What `remap_pfn_range` returns to an offerer. -/
  remap : Int
  /-- The result of `alloc_xenballooned_pages`, 0 when the pages are there. -/
  balloon : Int
  /-- The ballooned pages that it has found, by their order. -/
  pages : Nat → Nat
  /-- What the header page contains at that time. -/
  header : Header
  /-- The result of `apply_to_page_range`, 0 when all pages were visited. -/
  apply : Int
  /-- Page table entries visited before it returned. -/
  visited : Nat
  /-- Machine addresses of the page table entries of the user. -/
  pteAddr : Nat → Nat
  /-- Machine addresses of the page table entries of the kernel, by page. -/
  kernelPte : Nat → Nat
  /-- The kernel addresses of the ballooned pages. -/
  kernelAddr : Nat → Nat
  /-- The result of `gnttab_map_refs`, which stands for the hypercall as a whole. -/
  mapRefs : Int
  /-- The statuses that the hypervisor sets, by page. -/
  status : Nat → Int
  /-- The handles that the hypervisor sets, by page. -/
  handle : Nat → Int
  /-- What `vm_insert_page` returns for each page. -/
  insert : Nat → Int

/-- `__xen_shm_contruct_receiver_k_ops`, called for one page table entry of the range. -/
def constructReceiverKOps (d : Instance) (h : Header) (offset pteMaddr : Nat) : Instance :=
  let flags := gntmapHostMap ||| gntmapApplicationMap ||| gntmapContainsPte
  { d with
    mapOps := Function.update d.mapOps offset
      ((d.mapOps offset).set pteMaddr flags (h.grantRefs (offset + 1)) d.distantDomid)
    unmapOps := Function.update d.unmapOps offset (.set pteMaddr flags (-1)) }

/-- `apply_to_page_range` calls the function above for each entry it visits. -/
def applyToPageRange (d : Instance) (env : MmapEnv) : (visited : Nat) → Instance
  | 0 => d
  | visited + 1 =>
    constructReceiverKOps (applyToPageRange d env visited) env.header visited (env.pteAddr visited)

/-- The loop that prepares the mappings of the kernel. -/
def constructKmapOps (d : Instance) (env : MmapEnv) : (offset : Nat) → Instance
  | 0 => d
  | offset + 1 =>
    let d := constructKmapOps d env offset
    let op := (d.kmapOps offset).set (env.kernelPte (d.userPages offset))
      (gntmapHostMap ||| gntmapContainsPte) (env.header.grantRefs (offset + 1)) d.distantDomid
    { d with kmapOps := Function.update d.kmapOps offset op }

/-- The loop that prepares the operations without page table entries. The address and the flags
of the unmap operation are the flags and the grant. -/
def constructMapOps (d : Instance) (env : MmapEnv) : (offset : Nat) → Instance
  | 0 => d
  | offset + 1 =>
    let d := constructMapOps d env offset
    let ref := env.header.grantRefs (offset + 1)
    { d with
      mapOps := Function.update d.mapOps offset
        ((d.mapOps offset).set (env.kernelAddr (d.userPages offset)) gntmapHostMap ref
          d.distantDomid)
      unmapOps := Function.update d.unmapOps offset (.set gntmapHostMap ref.toNat (-1)) }

/-- What the hypervisor writes into the map operations when `gnttab_map_refs` succeeds. -/
def hypervisorMap (d : Instance) (env : MmapEnv) : Instance :=
  { d with mapOps := fun i =>
      if i < d.dataPages then { d.mapOps i with status := env.status i, handle := env.handle i }
      else d.mapOps i }

/-- The store `data->unmap_ops[offset].handle = handle`, after a mapping or an unmapping. -/
def Instance.setHandle (d : Instance) (offset : Nat) (handle : Int) : Instance :=
  { d with
    unmapOps := Function.update d.unmapOps offset { d.unmapOps offset with handle := handle } }

/-- The loop that copies the handles of the mapped pages, and whether all are mapped. -/
def copyHandles (d : Instance) : (offset : Nat) → Instance × Bool
  | 0 => (d, true)
  | offset + 1 =>
    let (d, all) := copyHandles d offset
    if (d.mapOps offset).status ≠ 0 then (d, false)
    else (d.setHandle offset (d.mapOps offset).handle, all)

/-- The loop that inserts the pages with `vm_insert_page` until one fails, and whether none has. -/
def insertPages (d : Instance) (vma : Vma) (env : MmapEnv) :
    (left offset : Nat) → List Event × Bool
  | 0, _ => ([], true)
  | left + 1, offset =>
    if env.insert offset ≠ 0 then ([], false)
    else
      let (events, all) := insertPages d vma env left (offset + 1)
      (.insertPage (vma.start + offset * pageSize) (d.userPages offset) :: events, all)

/-- The label `clean_pages` of mmap, where the ballooned pages are given back. -/
def cleanPages (d : Instance) (events : List Event) : Result × Instance × List Event :=
  (.error .efault, { d with userMem := none }, events ++ [.release (.balloon d.dataPages)])

/-- The loop at the label `clean` of mmap, which unmaps each page that has a handle. -/
def cleanUnmap (d : Instance) : (left offset : Nat) → Instance × List Event
  | 0, _ => (d, [])
  | left + 1, offset =>
    if (d.unmapOps offset).handle ≠ -1 then
      let (after, events) := cleanUnmap (d.setHandle offset (-1)) left (offset + 1)
      (after, .unmapRefs offset (d.unmapOps offset) :: events)
    else cleanUnmap d left (offset + 1)

/-- The label `clean` of mmap, where what was mapped is unmapped again. -/
def clean (d : Instance) (events : List Event) : Result × Instance × List Event :=
  let (d, unmapped) := cleanUnmap d d.dataPages 0
  cleanPages d (events ++ unmapped)

/-- The mmap of a receiver from `gnttab_map_refs` on, with its three ways to fail. -/
def mapEverything (d : Instance) (vma : Vma) (env : MmapEnv) (events : List Event) :
    Result × Instance × List Event :=
  if env.mapRefs ≠ 0 then clean d events
  else
    let (d, all) := copyHandles (hypervisorMap d env) d.dataPages
    if ¬ all then clean d events
    else
      let (inserted, all) :=
        if d.usePtemod then ([], true) else insertPages d vma env d.dataPages 0
      if ¬ all then clean d (events ++ inserted)
      else (.ok, { d with state := .receiverMapped }, events ++ inserted ++ [.mapped])

/-- mmap of a receiver from the allocation of the pages on. -/
def mmapReceiver (d : Instance) (vma : Vma) (env : MmapEnv) : Result × Instance × List Event :=
  if env.balloon ≠ 0 then cleanPages d []
  else
    let events := [.acquire (.balloon d.dataPages)]
    let d := { d with userPages := env.pages, userMem := some vma }
    if d.usePtemod then
      let d := applyToPageRange d env env.visited
      if env.apply ≠ 0 then cleanPages d events
      else mapEverything (constructKmapOps d env d.dataPages) vma env events
    else mapEverything (constructMapOps d env d.dataPages) vma env events

/-- `xen_shm_mmap`: the checks of the mapping, and then the part of the offerer or the receiver. -/
def mmap (d : Instance) (vma : Vma) (env : MmapEnv) : Result × Instance × List Event :=
  if vma.write ∧ ¬ vma.shared then (.error .einval, d, [])
  else
    match d.state with
    | .opened => (.error .enodata, d, [])
    | .offerer =>
      if vma.stop - vma.start ≠ d.dataPages * pageSize then (.error .einval, d, [])
      else if env.remap ≠ 0 then (.error (.code env.remap), d, [])
      else
        (.ok, d, [.remapPfnRange vma.start (env.virtToPfn (d.sharedMemory + pageSize))
          (vma.stop - vma.start)])
    | .receiverMapped => (.error .epipe, d, [])
    | .receiver =>
      if (vma.stop - vma.start) / pageSize ≠ d.dataPages then (.error .einval, d, [])
      else mmapReceiver d vma env

end XenShm.Kernel
