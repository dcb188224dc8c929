import Mathlib.Data.List.TakeWhile
import XenShm.Kernel.Granted
import XenShm.Kernel.MapOps
import XenShm.Kernel.Ready
import XenShm.Pipe.Shared

/-!
# The bytes behind the two mappings

An offerer maps the pages behind its header page as they lie in its memory. A receiver maps page
by page what the header page lists, one place further than the place of the page in the mapping.
Which byte a user finds at an address follows from the calls that mmap has made: what was remapped
or inserted there, or else what the hypervisor has written into the page table. Both ends find the
same bytes at the same offsets.
-/

namespace XenShm.Kernel

/-- How the kernel of the offerer and the hypervisor translate addresses. -/
structure Platform where
  /-- The frame number of an address of the offerer, as its `virt_to_pfn` tells it. -/
  virtToPfn : Nat → Nat
  /-- The machine frame behind a page frame of the offerer. -/
  pfnToMfn : Nat → Nat
  /-- The machine frame that a domain has granted under a reference. -/
  granted : Nat → GrantRef → Option Nat
  /-- What a machine frame contains, read as a header page. -/
  content : Nat → Header

/-- The host address of the operation is that of a page table entry. -/
def MapOp.atPte (op : MapOp) : Bool := op.flags &&& gntmapContainsPte ≠ 0

namespace Platform

variable (p : Platform)

/-- `virt_to_mfn`, the frame of the machine behind an address of the offerer. -/
def virtToMfn (addr : Nat) : Nat := p.pfnToMfn (p.virtToPfn addr)

/-- The frame that the hypervisor has mapped at a page table entry, or at an address of the kernel,
when it has made the mappings one after the other. -/
def hostMap (ops : Nat → MapOp) (pte : Bool) : (count : Nat) → (addr : Nat) → Option Nat
  | 0, _ => none
  | count + 1, addr =>
    if (ops count).status = 0 ∧ (ops count).atPte = pte ∧ (ops count).hostAddr = addr then
      p.granted (ops count).dom (ops count).ref
    else hostMap ops pte count addr

/-- The frame that a call of mmap has put at an address of the user. An inserted page shows what the
hypervisor has mapped at its address in the kernel. -/
def frameAt (d : Instance) (env : MmapEnv) (addr : Nat) : Event → Option Nat
  | .remapPfnRange start pfn size =>
    if start ≤ addr ∧ addr < start + size then some (p.pfnToMfn (pfn + (addr - start) / pageSize))
    else none
  | .insertPage start page =>
    if start ≤ addr ∧ addr < start + pageSize then
      p.hostMap d.mapOps false d.dataPages (env.kernelAddr page)
    else none
  | _ => none

/-- The byte that a user finds at an offset of its mapping after mmap, as a frame and an offset in
it. Where no page was remapped or inserted, the page table entry is the one that the hypervisor has
written. -/
def userByte (d : Instance) (vma : Vma) (env : MmapEnv) (x : Nat) : Option (Nat × Nat) :=
  let (_, after, calls) := mmap d vma env
  let frame := (calls.findSome? (p.frameAt after env (vma.start + x))).or
    (p.hostMap after.mapOps true after.dataPages (env.pteAddr (x / pageSize)))
  frame.map fun frame => (frame, (vma.start + x) % pageSize)

/-- The page allocator returns adjacent pages, and each of them has a frame of its own. -/
structure Allocates (addr order : Nat) : Prop where
  /-- One page comes after the other in frame numbers too. -/
  contiguous : ∀ page < 2 ^ order,
    p.virtToPfn (addr + page * pageSize) = p.virtToPfn addr + page
  /-- Different pages of the allocation are in different frames of the machine. -/
  apart : ∀ page < 2 ^ order, ∀ other < 2 ^ order,
    p.pfnToMfn (p.virtToPfn addr + page) = p.pfnToMfn (p.virtToPfn addr + other) → page = other

/-- `gnttab_grant_foreign_access` lists the frame under the reference it returns, and an error is
not the number of a grant. -/
structure Grants (domid addr count : Nat) (grant : Nat → Int) : Prop where
  /-- A successful call lists the frame of its page for the domain of the receiver. -/
  listed : ∀ page < count, 0 ≤ grant page →
    p.granted domid (.ofInt (grant page)) = some (p.virtToMfn (addr + page * pageSize))
  /-- The number that a failed call returns is not that of a grant. -/
  refused : ∀ page < count, grant page < 0 → p.granted domid (.ofInt (grant page)) = none

/-- The hypervisor maps nothing but grants, each page of the mapping at an address of its own. -/
structure Maps (d : Instance) (env : MmapEnv) : Prop where
  /-- A page that was mapped was granted before. -/
  granted : ∀ page < d.dataPages, env.status page = 0 →
    (p.granted d.distantDomid (env.header.grantRefs (page + 1))).isSome = true
  /-- No two pages have the same page table entry, or the same kernel address. -/
  distinct : ∀ page < d.dataPages, ∀ other < d.dataPages,
    env.hostAddr d page = env.hostAddr d other → page = other

end Platform

/-- The fields that nothing changes between INIT and mmap. -/
structure Instance.Keeps (d d' : Instance) : Prop where
  state : d'.state = d.state
  pagesCount : d'.pagesCount = d.pagesCount
  sharedMemory : d'.sharedMemory = d.sharedMemory
  distantDomid : d'.distantDomid = d.distantDomid
  usePtemod : d'.usePtemod = d.usePtemod

/-- The pages behind the header page stay as many as INIT has counted. -/
theorem Instance.Keeps.dataPages {d d' : Instance} {n : Nat} (h : d.Keeps d')
    (hcount : d.pagesCount = n + 1) : d'.dataPages = n := by
  rw [Instance.dataPages, h.pagesCount, hcount]
  rfl

/-- An offerer and a receiver are initialised with the same grant. The receiver reads the header
page from the frame behind that grant, and finds what the offerer has written there. -/
structure Meet (p : Platform) (domid : Nat) (o : Outcome OffererArg) (arg : ReceiverArg)
    (env : ReceiverEnv) (r : Outcome ReceiverArg) : Prop where
  /-- The grant is that of the offerer. -/
  grant : arg.grant = o.arg.grant
  /-- The receiver looks for the grant in the domain of the offerer. -/
  domain : r.data.distantDomid = domid
  /-- The receiver maps the header page of the offerer and reads what it contains. -/
  mapped : ∃ frame, p.granted domid arg.grant = some frame ∧ env.page = p.content frame
  /-- The page count in the first page of the offerer is the one it has written there. -/
  pagesCount : (p.content (p.virtToMfn o.data.sharedMemory)).pagesCount = o.header.pagesCount
  /-- The grants in the first page of the offerer are those it has written there. -/
  grantRefs : (p.content (p.virtToMfn o.data.sharedMemory)).grantRefs = o.header.grantRefs

/-- The mapping of a user consists of whole pages. -/
def Vma.Aligned (vma : Vma) : Prop := pageSize ∣ vma.start ∧ pageSize ∣ vma.stop

/-- The mappings of an offerer and of a receiver have the same length, and at the same offset both
users find the same byte, which lies in the page that is granted for it and not in the header
page. -/
structure SameBytes (p : Platform) (domid : Nat) (h : Header) (a b : Instance) (vma vma' : Vma)
    (env env' : MmapEnv) : Prop where
  /-- The length of the mapping of the offerer. -/
  length : vma.stop - vma.start = a.dataPages * pageSize
  /-- The length of the mapping of the receiver. -/
  length' : vma'.stop - vma'.start = a.dataPages * pageSize
  /-- Both users find the same byte at an offset, in the page that was granted for it. -/
  byte : ∀ x < a.dataPages * pageSize, ∃ frame,
    p.userByte a vma env x = some (frame, x % pageSize) ∧
    p.userByte b vma' env' x = some (frame, x % pageSize) ∧
    p.granted domid (h.grantRefs (x / pageSize + 1)) = some frame ∧
    frame ≠ p.virtToMfn a.sharedMemory

section Frames

variable {p : Platform} {d d' : Instance} {env : MmapEnv} {vma : Vma} {ops : Nat → MapOp}
  {count page : Nat}

/-- The order of an allocation is large enough for its pages. -/
theorem lt_two_pow_allocOrder (n : Nat) : n < 2 ^ allocOrder n := by
  have horder : allocOrder n = if n = 0 then 0 else Nat.log2 n + 1 := by
    rw [allocOrder, if_neg]
    rw [Nat.one_shiftLeft]
    exact (Nat.two_pow_pos _).ne
  rw [horder]
  split
  · omega
  · exact Nat.lt_log2_self

/-- A later mapping at another address does not matter. -/
theorem hostMap_eq (hpage : page < count) (hstatus : (ops page).status = 0)
    (hdistinct : ∀ other < count, (ops other).hostAddr = (ops page).hostAddr → other = page) :
    p.hostMap ops (ops page).atPte count (ops page).hostAddr =
      p.granted (ops page).dom (ops page).ref := by
  induction count with
  | zero => omega
  | succ count ih =>
    by_cases heq : page = count
    · subst heq
      rw [Platform.hostMap, if_pos ⟨hstatus, rfl, rfl⟩]
    · have hother : (ops count).hostAddr ≠ (ops page).hostAddr := fun h =>
        heq (hdistinct count (Nat.lt_succ_self _) h).symm
      rw [Platform.hostMap, if_neg fun h => hother h.2.2]
      exact ih (by omega) fun other hlt => hdistinct other (by omega)

/-- Where none of the operations maps an address, nothing is mapped. -/
theorem hostMap_eq_none {pte : Bool} {addr : Nat} (h : ∀ page < count, (ops page).atPte ≠ pte) :
    p.hostMap ops pte count addr = none := by
  induction count with
  | zero => rfl
  | succ count ih =>
    rw [Platform.hostMap, if_neg fun hmap => h count (Nat.lt_succ_self _) hmap.2.1]
    exact ih fun page hlt => h page (by omega)

/-- The operations name page table entries when these are used. -/
theorem MappedOps.atPte (h : MappedOps d d' env page) : (d'.mapOps page).atPte = d.usePtemod := by
  rw [MapOp.atPte, h.mapOp]
  change decide (d.mapFlags &&& gntmapContainsPte ≠ 0) = d.usePtemod
  rw [Instance.mapFlags]
  cases d.usePtemod <;> decide

/-- An address lies in the page that its offset says, and in no other one. -/
theorem in_page_iff (start x other : Nat) :
    start + other * pageSize ≤ start + x ∧ start + x < start + other * pageSize + pageSize ↔
      other = x / pageSize := by
  have hpos : 0 < pageSize := by decide
  rw [eq_comm, Nat.div_eq_iff hpos]
  omega

/-- An offset in the mapping lies in one of its pages. -/
theorem page_lt {x : Nat} (hx : x < count * pageSize) : x / pageSize < count :=
  (Nat.div_lt_iff_lt_mul (by decide)).mpr hx

/-- The slots of the ring lie in the pages of the mapping, behind the indices. -/
theorem slot_page_lt (g : Pipe.Geometry) {slot : Nat} (hslot : slot < g.bufferSize) :
    (Pipe.sharedHeaderSize + slot) / pageSize < g.pageCount := by
  refine page_lt ?_
  change slot < g.pageCount * 4096 - 16 at hslot
  change 16 + slot < g.pageCount * 4096
  omega

/-- Pages that are mapped begin and end with a page. -/
theorem aligned_mod (haligned : vma.Aligned) (x : Nat) :
    (vma.start + x) % pageSize = x % pageSize := by
  obtain ⟨n, hn⟩ := haligned.1
  rw [hn, Nat.mul_add_mod]

/-- When only one element of a list gives something, the search for it finds that. -/
private theorem findSome?_eq_of_unique {α β : Type*} {l : List α} {f : α → Option β} {a : α}
    (ha : a ∈ l) (h : ∀ b ∈ l, b ≠ a → f b = none) : l.findSome? f = f a := by
  induction l with
  | nil => cases ha
  | cons b l ih =>
    rw [List.findSome?_cons]
    by_cases hba : b = a
    · subst hba
      cases hb : f b with
      | some => rfl
      | none =>
        refine List.findSome?_eq_none_iff.mpr fun c hc => ?_
        by_cases hcb : c = b
        · rw [hcb, hb]
        · exact h c (List.mem_cons_of_mem b hc) hcb
    · rw [h b List.mem_cons_self hba]
      exact ih ((List.mem_cons.mp ha).resolve_left (Ne.symm hba)) fun c hc =>
        h c (List.mem_cons_of_mem b hc)

/-- The calls of mmap leave it to the hypervisor what the user finds, or put the page of the kernel
there at whose address the hypervisor has mapped. -/
theorem calls_receiver (hok : env.mapsAll (d.prepare vma env))
    (hprep : Prepared d (d.prepare vma env) vma env) (after : Instance) {x : Nat}
    (hx : x / pageSize < d.dataPages) :
    ([Event.acquire (.balloon d.dataPages)] ++ env.inserted (d.prepare vma env) vma ++
        [Event.mapped]).findSome? (p.frameAt after env (vma.start + x)) =
      if d.usePtemod then none
      else p.hostMap after.mapOps false after.dataPages
        (env.kernelAddr (env.pages (x / pageSize))) := by
  have hdata : (d.prepare vma env).dataPages = d.dataPages := congrArg (· - 1) hprep.pagesCount
  rw [MmapEnv.inserted, hprep.usePtemod]
  by_cases hpte : d.usePtemod = true
  · rw [if_pos hpte, if_pos hpte]
    rfl
  rw [if_neg hpte, if_neg hpte, hdata, hprep.userPages, List.takeWhile_eq_self_iff.mpr]
  swap
  · intro page hpage
    have hlt : page < d.dataPages := by simpa using hpage
    simpa using (hok.2.2.resolve_left (by rwa [hprep.usePtemod])) page (hdata.symm ▸ hlt)
  have hmem : Event.insertPage (vma.start + x / pageSize * pageSize) (env.pages (x / pageSize)) ∈
      (List.range' 0 d.dataPages).map fun page =>
        Event.insertPage (vma.start + page * pageSize) (env.pages page) :=
    List.mem_map.mpr ⟨x / pageSize, by simpa using hx, rfl⟩
  rw [findSome?_eq_of_unique (List.mem_append_left _ (List.mem_append_right _ hmem))
    fun b hb hne => ?_]
  · exact if_pos ((in_page_iff vma.start x _).mpr rfl)
  · rcases List.mem_append.mp hb with hb | hb
    · rcases List.mem_append.mp hb with hb | hb
      · rw [List.mem_singleton.mp hb]
        rfl
      · obtain ⟨page, -, rfl⟩ := List.mem_map.mp hb
        refine if_neg fun hin => hne ?_
        rw [(in_page_iff vma.start x page).mp hin]
    · rw [List.mem_singleton.mp hb]
      rfl

/-- The byte that the user of a receiver finds lies in the frame that is granted under the reference
of its page. -/
theorem userByte_receiver (hd : d.state = .receiver) (hok : (mmap d vma env).1 = .ok)
    (hwalk : env.WalksRange d) (hmaps : p.Maps d env) (haligned : vma.Aligned) {x : Nat}
    (hx : x / pageSize < d.dataPages) : p.userByte d vma env x =
      (p.granted d.distantDomid (env.header.grantRefs (x / pageSize + 1))).map
        fun frame => (frame, x % pageSize) := by
  obtain ⟨-, happly, hall, hafter, hcalls⟩ := mmap_ok hd hok
  have hprep : Prepared d (d.prepare vma env) vma env :=
    prepared vma fun hpte => hwalk.all (happly hpte)
  have hops : ∀ page < d.dataPages, MappedOps d (mmap d vma env).2.1 env page :=
    fun page hpage => mappedOps hd hok hwalk hpage
  have hdata : (mmap d vma env).2.1.dataPages = d.dataPages := by
    rw [hafter]
    exact congrArg (· - 1) hprep.pagesCount
  have hop := (hops _ hx).mapOp
  -- the hypervisor has mapped where the operation of the page says
  have hhost : p.hostMap (mmap d vma env).2.1.mapOps d.usePtemod d.dataPages
      (env.hostAddr d (x / pageSize)) =
        p.granted d.distantDomid (env.header.grantRefs (x / pageSize + 1)) := by
    have heq : p.hostMap (mmap d vma env).2.1.mapOps
        ((mmap d vma env).2.1.mapOps (x / pageSize)).atPte d.dataPages
        ((mmap d vma env).2.1.mapOps (x / pageSize)).hostAddr = _ :=
      hostMap_eq hx (by rw [hop]; exact (hops _ hx).status) fun other hother hsame =>
        hmaps.distinct other hother _ hx (by rwa [hop, (hops _ hother).mapOp] at hsame)
    rwa [(hops _ hx).atPte, hop] at heq
  simp only [Platform.userByte, aligned_mod haligned, hdata]
  rw [hcalls, calls_receiver hall hprep _ hx, hdata, ← hhost, MmapEnv.hostAddr]
  by_cases hpte : d.usePtemod = true
  · rw [if_pos hpte, if_pos hpte, Option.none_or, hpte]
  · have hnone : p.hostMap (mmap d vma env).2.1.mapOps true d.dataPages
        (env.pteAddr (x / pageSize)) = none :=
      hostMap_eq_none fun page hpage => by rwa [(hops page hpage).atPte]
    rw [if_neg hpte, if_neg hpte, hnone, Option.or_none, Bool.eq_false_iff.mpr hpte]

end Frames

section Meeting

variable {p : Platform} {domid : Nat} {arg : OffererArg} {env : OffererEnv}
  {o : Outcome OffererArg} {d e b : Instance} {page : Nat} {arg' : ReceiverArg}
  {env' : ReceiverEnv} {r : Outcome ReceiverArg} {vma : Vma} {mapped : MmapEnv}

/-- A frame is granted under the reference of a page only when the call for that page succeeded. -/
theorem granted_eq (hready : OffererReady arg env o)
    (hgrants : p.Grants domid env.alloc (arg.pagesCount + 1) env.grant)
    (hpage : page ≤ arg.pagesCount) (hsome : (p.granted domid (o.header.grantRefs page)).isSome) :
    p.granted domid (o.header.grantRefs page) =
      some (p.virtToMfn (env.alloc + page * pageSize)) := by
  rw [hready.grantRefs page hpage] at hsome ⊢
  refine hgrants.listed page (by omega) (not_lt.mp fun hneg => ?_)
  rw [hgrants.refused page (by omega) hneg] at hsome
  cases hsome

/-- An offerer accepts a mapping of the right size. -/
theorem mmap_offerer_size (hd : d.state = .offerer)
    (hok : (mmap d vma mapped).1 = .ok) : vma.stop - vma.start = d.dataPages * pageSize := by
  simp only [mmap, hd] at hok
  split_ifs at hok with hwrite hsize
  exact not_not.mp hsize

/-- An offerer maps what follows its header page in one call of `remap_pfn_range`. -/
theorem mmap_offerer (hd : d.state = .offerer) (hok : (mmap d vma mapped).1 = .ok) :
    mmap d vma mapped = (.ok, d, [.remapPfnRange vma.start
      (mapped.virtToPfn (d.sharedMemory + pageSize)) (vma.stop - vma.start)]) := by
  simp only [mmap, hd] at hok ⊢
  split_ifs at hok ⊢
  rfl

/-- The byte that the user of an offerer finds lies in the page that is granted for it. -/
theorem userByte_offerer (hready : OffererReady arg env o)
    (halloc : p.Allocates env.alloc (allocOrder (arg.pagesCount + 1))) (hd : o.data.Keeps d)
    (hok : (mmap d vma mapped).1 = .ok) (hvirt : mapped.virtToPfn = p.virtToPfn)
    (haligned : vma.Aligned) {x : Nat} (hx : x / pageSize < arg.pagesCount) :
    p.userByte d vma mapped x =
      some (p.virtToMfn (env.alloc + (x / pageSize + 1) * pageSize), x % pageSize) := by
  have hstate : d.state = .offerer := hd.state.trans hready.state
  have hbig := lt_two_pow_allocOrder (arg.pagesCount + 1)
  have hsecond := halloc.contiguous 1 (by omega)
  have hthis := halloc.contiguous (x / pageSize + 1) (by omega)
  have hsize := mmap_offerer_size hstate hok
  have hdata : d.dataPages = arg.pagesCount := hd.dataPages hready.pagesCount
  have hin : vma.start ≤ vma.start + x ∧ vma.start + x < vma.start + (vma.stop - vma.start) := by
    rw [hsize, hdata]
    exact ⟨Nat.le_add_right _ _, Nat.add_lt_add_left ((Nat.div_lt_iff_lt_mul (by decide)).mp hx) _⟩
  rw [Nat.one_mul] at hsecond
  simp only [Platform.userByte, mmap_offerer hstate hok, List.findSome?_cons, Platform.frameAt,
    if_pos hin, Option.some_or, Option.map_some, aligned_mod haligned, Nat.add_sub_cancel_left]
  rw [hvirt, hd.sharedMemory, hready.sharedMemory, hsecond, Platform.virtToMfn, hthis,
    Nat.add_assoc, Nat.add_comm 1]

/-- The page that is granted for a byte is another one than the header page. -/
theorem virtToMfn_ne (hready : OffererReady arg env o)
    (halloc : p.Allocates env.alloc (allocOrder (arg.pagesCount + 1))) (hd : o.data.Keeps d)
    (hpage : page < arg.pagesCount) :
    p.virtToMfn (env.alloc + (page + 1) * pageSize) ≠ p.virtToMfn d.sharedMemory := by
  have hbig := lt_two_pow_allocOrder (arg.pagesCount + 1)
  rw [hd.sharedMemory, hready.sharedMemory, Platform.virtToMfn, Platform.virtToMfn,
    halloc.contiguous _ (by omega)]
  exact fun hsame => absurd (halloc.apart (page + 1) (by omega) 0 (by omega) hsame)
    (Nat.succ_ne_zero page)

/-- The receiver maps the first page of the offerer as its header page. -/
theorem Meet.header_eq (h : Meet p domid o arg' env' r) (hready : OffererReady arg env o)
    (hgrants : p.Grants domid env.alloc (arg.pagesCount + 1) env.grant) :
    env'.page = p.content (p.virtToMfn o.data.sharedMemory) := by
  obtain ⟨frame, hframe, hpage⟩ := h.mapped
  rw [h.grant, hready.grant] at hframe
  have hfirst := granted_eq hready hgrants (Nat.zero_le _) (by rw [hframe]; rfl)
  rw [hframe, Nat.zero_mul, Nat.add_zero, ← hready.sharedMemory] at hfirst
  rw [hpage, Option.some.inj hfirst]

/-- An offerer and a receiver that have met have the same number of pages. -/
theorem Meet.pagesCount_eq (h : Meet p domid o arg' env' r) (hready : OffererReady arg env o)
    (hready' : ReceiverReady e arg' env' r)
    (hgrants : p.Grants domid env.alloc (arg.pagesCount + 1) env.grant) :
    arg'.pagesCount = arg.pagesCount := by
  have hsame := hready'.headerPages
  rw [h.header_eq hready hgrants, h.pagesCount, hready.headerPages] at hsame
  omega

/-- The grants that the receiver finds in the header page are those of the offerer. -/
theorem Meet.grantRefs_eq (h : Meet p domid o arg' env' r) (hready : OffererReady arg env o)
    (hgrants : p.Grants domid env.alloc (arg.pagesCount + 1) env.grant) :
    env'.page.grantRefs = o.header.grantRefs := by
  rw [h.header_eq hready hgrants, h.grantRefs]

/-- The page behind a byte that the receiver has mapped is granted. -/
theorem granted_byte (hready : OffererReady arg env o)
    (hgrants : p.Grants domid env.alloc (arg.pagesCount + 1) env.grant)
    (hb : b.state = .receiver) (hok : (mmap b vma mapped).1 = .ok) (hhyper : p.Maps b mapped)
    (hdomain : b.distantDomid = domid) (hlist : mapped.header.grantRefs = o.header.grantRefs)
    (hdata : b.dataPages = arg.pagesCount) (hpage : page < arg.pagesCount) :
    p.granted domid (o.header.grantRefs (page + 1)) =
      some (p.virtToMfn (env.alloc + (page + 1) * pageSize)) := by
  obtain ⟨-, -, ⟨-, hstatus, -⟩, -⟩ := mmap_ok hb hok
  refine granted_eq hready hgrants (by omega) ?_
  rw [← hlist, ← hdomain]
  exact hhyper.granted _ (by omega) (hstatus _ (by rw [(prepare_frame b vma mapped).2.2]; omega))

end Meeting

/-- Whatever is mapped between the two ends, both see the same bytes at the same offsets, and so
the same ring. -/
theorem same_bytes (p : Platform) (d e : Instance) (hd : d.state = .opened) (he : e.state = .opened)
    (arg : OffererArg) (env : OffererEnv) (hoffers : (initOfferer d arg env).result = .ok)
    (halloc : p.Allocates env.alloc (allocOrder (arg.pagesCount + 1)))
    (hgrants : p.Grants d.localDomid env.alloc (arg.pagesCount + 1) env.grant)
    (arg' : ReceiverArg) (env' : ReceiverEnv)
    (hreceives : (initReceiver e arg' env').result = .ok)
    (hmeet : Meet p d.localDomid (initOfferer d arg env) arg' env' (initReceiver e arg' env'))
    (a b : Instance) (ha : (initOfferer d arg env).data.Keeps a)
    (hb : (initReceiver e arg' env').data.Keeps b) (vma vma' : Vma) (mapped mapped' : MmapEnv)
    (hmaps : (mmap a vma mapped).1 = .ok) (hmaps' : (mmap b vma' mapped').1 = .ok)
    (haligned : vma.Aligned) (haligned' : vma'.Aligned) (hvirt : mapped.virtToPfn = p.virtToPfn)
    (hwalk : mapped'.WalksRange b) (hheader : mapped'.header.grantRefs = env'.page.grantRefs)
    (hhyper : p.Maps b mapped') :
    SameBytes p d.localDomid (initOfferer d arg env).header a b vma vma' mapped mapped' ∧
      ∀ g g' : Pipe.Geometry, g.pageCount = arg.pagesCount → g'.pageCount = arg'.pagesCount →
        g.bufferSize = g'.bufferSize ∧ ∀ slot < g.bufferSize, ∃ byte,
          p.userByte a vma mapped (Pipe.sharedHeaderSize + slot) = some byte ∧
            p.userByte b vma' mapped' (Pipe.sharedHeaderSize + slot) = some byte := by
  have hready := initOfferer_ready hd hoffers
  have hready' := initReceiver_ready he hreceives
  have hcount : arg'.pagesCount = arg.pagesCount := hmeet.pagesCount_eq hready hready' hgrants
  have hlist : mapped'.header.grantRefs = (initOfferer d arg env).header.grantRefs :=
    hheader.trans (hmeet.grantRefs_eq hready hgrants)
  have hdata : a.dataPages = arg.pagesCount := ha.dataPages hready.pagesCount
  have hdata' : b.dataPages = arg.pagesCount := (hb.dataPages hready'.pagesCount).trans hcount
  have hstate' : b.state = .receiver := hb.state.trans hready'.state
  have hdomain : b.distantDomid = d.localDomid := hb.distantDomid.trans hmeet.domain
  have hgranted : ∀ x, x / pageSize < arg.pagesCount →
      p.granted d.localDomid ((initOfferer d arg env).header.grantRefs (x / pageSize + 1)) =
        some (p.virtToMfn (env.alloc + (x / pageSize + 1) * pageSize)) := fun x hx =>
    granted_byte hready hgrants hstate' hmaps' hhyper hdomain hlist hdata' hx
  have hoffered : ∀ x, x / pageSize < arg.pagesCount → p.userByte a vma mapped x =
      some (p.virtToMfn (env.alloc + (x / pageSize + 1) * pageSize), x % pageSize) := fun x hx =>
    userByte_offerer hready halloc ha hmaps hvirt haligned hx
  have hreceived : ∀ x, x / pageSize < arg.pagesCount → p.userByte b vma' mapped' x =
      some (p.virtToMfn (env.alloc + (x / pageSize + 1) * pageSize), x % pageSize) := by
    intro x hx
    rw [userByte_receiver hstate' hmaps' hwalk hhyper haligned' (by omega), hdomain, hlist,
      hgranted x hx]
    rfl
  refine ⟨⟨?_, ?_, fun x hx => ?_⟩, fun g g' hg hg' => ?_⟩
  · exact mmap_offerer_size (ha.state.trans hready.state) hmaps
  · rw [hdata, ← hdata', ← (mmap_ok hstate' hmaps').1.1,
      Nat.div_mul_cancel (Nat.dvd_sub haligned'.2 haligned'.1)]
  · have hpage : x / pageSize < arg.pagesCount := page_lt (hdata ▸ hx)
    exact ⟨_, hoffered x hpage, hreceived x hpage, hgranted x hpage,
      virtToMfn_ne hready halloc ha hpage⟩
  · have hsize : g.bufferSize = g'.bufferSize := by
      rw [Pipe.Geometry.bufferSize, Pipe.Geometry.bufferSize, hg, hg', hcount]
    refine ⟨hsize, fun slot hslot => ?_⟩
    have hpage : (Pipe.sharedHeaderSize + slot) / pageSize < arg.pagesCount :=
      hg ▸ slot_page_lt g hslot
    exact ⟨_, hoffered _ hpage, hreceived _ hpage⟩

/-- The offerer of one page, after its INIT. -/
def Outcome.offered : Outcome OffererArg :=
  initOfferer .fresh .onePage (.granting fun page => 8 + page)

/-- A platform on which the grants are numbered from 8 on and the frames from 101 on. -/
def Platform.plain : Platform where
  virtToPfn addr := addr / pageSize
  pfnToMfn pfn := pfn + 100
  granted _ ref := if 8 ≤ ref.toNat then some (ref.toNat + 93) else none
  content _ := Outcome.offered.header

/-- The results of the calls of a receiver that maps the header page of that offerer. -/
def ReceiverEnv.plain : ReceiverEnv :=
  ⟨some (4 * pageSize), 0, 0, 3, Outcome.offered.header, some 7, 9⟩

/-- The receiver of that page, after its INIT. -/
def Outcome.received : Outcome ReceiverArg := initReceiver .fresh ⟨1, 1, 8⟩ .plain

/-- The results of the calls of its mmap, which finds the header page of the offerer. -/
def MmapEnv.plain : MmapEnv := { MmapEnv.easy with header := Outcome.offered.header }

/-- The mapping of one page at address 0 consists of whole pages. -/
theorem Vma.aligned_onePage : Vma.onePage.Aligned := ⟨by decide, by decide⟩

/-- One page is offered, received and mapped by both, and both users find the same bytes. -/
theorem same_bytes_onePage :
    SameBytes .plain 1 Outcome.offered.header Outcome.offered.data Outcome.received.data
        .onePage .onePage .easy .plain ∧
      ∀ g g' : Pipe.Geometry, g.pageCount = 1 → g'.pageCount = 1 →
        g.bufferSize = g'.bufferSize ∧ ∀ slot < g.bufferSize, ∃ byte,
          Platform.plain.userByte Outcome.offered.data .onePage .easy
              (Pipe.sharedHeaderSize + slot) = some byte ∧
            Platform.plain.userByte Outcome.received.data .onePage .plain
              (Pipe.sharedHeaderSize + slot) = some byte :=
  same_bytes .plain .fresh .fresh rfl rfl .onePage (.granting fun page => 8 + page) (by decide)
    ⟨by decide, by decide⟩ ⟨by decide, by decide⟩ ⟨1, 1, 8⟩ .plain (by decide)
    ⟨rfl, rfl, ⟨101, rfl, rfl⟩, rfl, rfl⟩ Outcome.offered.data Outcome.received.data
    ⟨rfl, rfl, rfl, rfl, rfl⟩ ⟨rfl, rfl, rfl, rfl, rfl⟩ .onePage .onePage .easy .plain (by decide)
    (by decide) Vma.aligned_onePage Vma.aligned_onePage rfl ⟨by decide, fun _ => rfl⟩ rfl
    ⟨by decide, by decide⟩

end XenShm.Kernel
