import XenShm.Kernel.Invalidate
import XenShm.Library.Prefix

/-!
# The operations of the data pages

What the loops of `xen_shm_mmap` write into the map and unmap operations of a receiver. An unmap
operation undoes a mapping when it names the address, the flags and the handle of the map
operation that made it.
-/

namespace XenShm.Kernel

open Library

/-- The flags of a mapping through a page table entry of the user. -/
def gntmapPte : Nat := gntmapHostMap ||| gntmapApplicationMap ||| gntmapContainsPte

section Loops

variable (d : Instance) (env : MmapEnv)

/-- The operations of the visited pages are prepared, without a handle. -/
theorem applyToPageRange_eq (visited : Nat) :
    applyToPageRange d env visited = { d with
      mapOps := writeBelow (fun page => (d.mapOps page).set (env.pteAddr page) gntmapPte
        (env.header.grantRefs (page + 1)) d.distantDomid) d.mapOps visited
      unmapOps := writeBelow (fun page => .set (env.pteAddr page) gntmapPte (-1))
        d.unmapOps visited } := by
  induction visited with
  | zero => rfl
  | succ visited ih =>
    simp only [applyToPageRange, constructReceiverKOps, ih, ← update_writeBelow, writeBelow_self]
    rfl

/-- The mappings of the kernel are prepared, and nothing else is changed. -/
theorem constructKmapOps_eq (offset : Nat) :
    ∃ ops, constructKmapOps d env offset = { d with kmapOps := ops } := by
  induction offset with
  | zero => exact ⟨d.kmapOps, rfl⟩
  | succ offset ih =>
    obtain ⟨ops, hops⟩ := ih
    rw [constructKmapOps, hops]
    exact ⟨_, rfl⟩

/-- In a domain without page table entries of its own the map operations are filled in one loop,
which gives the unmap operations other values than the map operations have. -/
theorem constructMapOps_eq (offset : Nat) :
    constructMapOps d env offset = { d with
      mapOps := writeBelow (fun page => (d.mapOps page).set (env.kernelAddr (d.userPages page))
        gntmapHostMap (env.header.grantRefs (page + 1)) d.distantDomid) d.mapOps offset
      unmapOps := writeBelow (fun page =>
        .set gntmapHostMap (env.header.grantRefs (page + 1)).toNat (-1)) d.unmapOps offset } := by
  induction offset with
  | zero => rfl
  | succ offset ih =>
    simp only [constructMapOps, ih, ← update_writeBelow, writeBelow_self]

/-- The handles of the mapped pages are copied. -/
theorem copyHandles_eq (offset : Nat) :
    copyHandles d offset = (d.withOps (writeBelow (fun page =>
      if (d.mapOps page).status = 0 then { d.unmapOps page with handle := (d.mapOps page).handle }
      else d.unmapOps page) d.unmapOps offset),
        decide (∀ page < offset, (d.mapOps page).status = 0)) := by
  induction offset with
  | zero => simp [copyHandles]
  | succ offset ih =>
    simp only [copyHandles, ih, Nat.forall_lt_succ_right, ← update_writeBelow]
    by_cases hstatus : (d.mapOps offset).status = 0
    · simp [Instance.withOps, Instance.setHandle, hstatus]
    · simp [Instance.withOps, hstatus]

/-- The loop at `clean` unmaps what has a handle. -/
theorem cleanUnmap_eq (left offset : Nat) :
    cleanUnmap d left offset =
      (d.withOps (unmapAll d.unmapOps (mappedPages d.unmapOps offset left)),
        (mappedPages d.unmapOps offset left).map
          fun page => .unmapRefs page (d.unmapOps page)) := by
  induction left generalizing d offset with
  | zero => simp [cleanUnmap, mappedPages]
  | succ left ih =>
    rw [mappedPages_succ]
    by_cases hmapped : (d.unmapOps offset).handle = -1
    · simp [cleanUnmap, hmapped, UnmapOp.isMapped, ih]
    · have hlater : mappedPages (Function.update d.unmapOps offset
          { d.unmapOps offset with handle := -1 }) (offset + 1) left =
            mappedPages d.unmapOps (offset + 1) left :=
        mappedPages_congr fun page hlo _ => Function.update_of_ne (by omega) _ _
      have hops : ∀ page ∈ mappedPages d.unmapOps (offset + 1) left,
          Function.update d.unmapOps offset { d.unmapOps offset with handle := -1 } page =
            d.unmapOps page := by
        intro page hpage
        have hlo := (mem_mappedPages.mp hpage).1
        exact Function.update_of_ne (by omega) _ _
      have hevents := List.map_congr_left fun page hpage =>
        congrArg (Event.unmapRefs page) (hops page hpage)
      simp [cleanUnmap, hmapped, UnmapOp.isMapped, ih, Instance.setHandle, Instance.withOps, hlater,
        unmapAll_cons, hevents]

end Loops

/-- The unmap operation takes back what the map operation did. -/
structure UnmapOp.Undoes (op : UnmapOp) (map : MapOp) : Prop where
  /-- The two operations name the same address. -/
  hostAddr : op.hostAddr = map.hostAddr
  /-- The two operations have the same flags. -/
  flags : op.flags = map.flags
  /-- The unmap operation has the handle that the map operation returned. -/
  handle : op.handle = map.handle

/-- `apply_to_page_range` visits the pages of its range in their order, and all of them if it does
not fail. -/
structure MmapEnv.WalksRange (env : MmapEnv) (d : Instance) : Prop where
  /-- No page behind the range is visited. -/
  le : env.visited ≤ d.dataPages
  /-- All pages are visited when no error is reported. -/
  all : env.apply = 0 → env.visited = d.dataPages

section Mmap

variable {d : Instance} {vma : Vma} {env : MmapEnv} {events : List Event} {page : Nat}

/-- The pages before the first failure are inserted one after the other. -/
theorem insertPages_eq (d : Instance) (vma : Vma) (env : MmapEnv) (left offset : Nat) :
    insertPages d vma env left offset =
      (((List.range' offset left).takeWhile fun page => env.insert page = 0).map fun page =>
          .insertPage (vma.start + page * pageSize) (d.userPages page),
        decide (∀ page, offset ≤ page → page < offset + left → env.insert page = 0)) := by
  induction left generalizing offset with
  | zero =>
    have hnone : ∀ page, offset ≤ page → page < offset + 0 → env.insert page = 0 :=
      fun page hlo hhi => by omega
    simp [insertPages]
    omega
  | succ left ih =>
    by_cases hinsert : env.insert offset = 0
    · have hiff : (∀ page, offset + 1 ≤ page → page < offset + 1 + left → env.insert page = 0) ↔
          ∀ page, offset ≤ page → page < offset + (left + 1) → env.insert page = 0 := by
        refine ⟨fun h page hlo hhi => ?_, fun h page hlo hhi => h page (by omega) (by omega)⟩
        rcases Nat.eq_or_lt_of_le hlo with rfl | hlt
        · exact hinsert
        · exact h page hlt (by omega)
      simp only [insertPages, hinsert, ne_eq, not_true_eq_false, if_false, ih, List.range'_succ,
        List.takeWhile_cons, decide_true, if_true, List.map_cons, hiff]
    · have hnot : ¬ ∀ page, offset ≤ page → page < offset + (left + 1) → env.insert page = 0 :=
        fun h => hinsert (h offset (Nat.le_refl _) (by omega))
      simp [insertPages, hinsert, List.range'_succ, decide_eq_false hnot]

/-- The pages that mmap inserts into the mapping of the user, page by page until one fails. -/
def MmapEnv.inserted (env : MmapEnv) (d : Instance) (vma : Vma) : List Event :=
  if d.usePtemod then []
  else ((List.range' 0 d.dataPages).takeWhile fun page => env.insert page = 0).map fun page =>
    .insertPage (vma.start + page * pageSize) (d.userPages page)

/-- What the hypervisor has to grant for the mapping to succeed. -/
def MmapEnv.mapsAll (env : MmapEnv) (d : Instance) : Prop :=
  env.mapRefs = 0 ∧ (∀ page < d.dataPages, env.status page = 0) ∧
    (d.usePtemod = true ∨ ∀ page < d.dataPages, env.insert page = 0)

/-- The unmap operations after the handles of the mapped pages were copied. -/
def MmapEnv.handled (env : MmapEnv) (d : Instance) : Nat → UnmapOp :=
  writeBelow (fun page =>
    if env.status page = 0 then { d.unmapOps page with handle := env.handle page }
    else d.unmapOps page) d.unmapOps d.dataPages

/-- After the hypercall the unmap operations have the handles of the pages that were mapped, and the
copy tells whether these are all pages. -/
theorem copyHandles_hypervisorMap (d : Instance) (env : MmapEnv) :
    copyHandles (hypervisorMap d env) d.dataPages =
      ((hypervisorMap d env).withOps (env.handled d),
        decide (∀ page < d.dataPages, env.status page = 0)) := by
  have hop : ∀ page < d.dataPages, (hypervisorMap d env).mapOps page =
      { d.mapOps page with status := env.status page, handle := env.handle page } :=
    fun page hpage => if_pos hpage
  rw [copyHandles_eq, writeBelow_congr (g := fun page => if env.status page = 0 then
    { d.unmapOps page with handle := env.handle page } else d.unmapOps page)
    fun page hpage => by rw [hop page hpage]; rfl]
  refine Prod.ext rfl (decide_eq_decide.mpr (forall₂_congr fun page hpage => ?_))
  rw [hop page hpage]

/-- What is inserted when the hypervisor has mapped the pages, and whether nothing is missing. -/
theorem insertPages_inserted (d : Instance) (vma : Vma) (env : MmapEnv) (ops : Nat → UnmapOp) :
    (if ((hypervisorMap d env).withOps ops).usePtemod then ([], true)
      else insertPages ((hypervisorMap d env).withOps ops) vma env
        (hypervisorMap d env).dataPages 0) =
      (env.inserted d vma,
        decide (d.usePtemod = true ∨ ∀ page < d.dataPages, env.insert page = 0)) := by
  have hpte : ((hypervisorMap d env).withOps ops).usePtemod = d.usePtemod := rfl
  rw [hpte, MmapEnv.inserted]
  by_cases huse : d.usePtemod = true
  · rw [if_pos huse, if_pos huse, decide_eq_true (.inl huse)]
  · rw [if_neg huse, if_neg huse, insertPages_eq]
    refine Prod.ext rfl (decide_eq_decide.mpr ?_)
    simp only [Nat.zero_le, forall_const, Nat.zero_add]
    exact (or_iff_right huse).symm

/-- Mapping everything succeeds, or what was mapped is unmapped. -/
theorem mapEverything_cases (d : Instance) (vma : Vma) (env : MmapEnv) (events : List Event) :
    env.mapsAll d ∧ mapEverything d vma env events =
        (.ok, { (hypervisorMap d env).withOps (env.handled d) with state := .receiverMapped },
          events ++ env.inserted d vma ++ [.mapped]) ∨
      ¬ env.mapsAll d ∧ env.mapRefs ≠ 0 ∧ mapEverything d vma env events = clean d events ∨
      ¬ env.mapsAll d ∧ env.mapRefs = 0 ∧ ∃ inserted : List Event,
        (∀ e ∈ inserted, ∃ addr page, e = .insertPage addr page) ∧ mapEverything d vma env events =
          clean ((hypervisorMap d env).withOps (env.handled d)) (events ++ inserted) := by
  by_cases hrefs : env.mapRefs = 0
  swap
  · exact .inr (.inl ⟨fun h => hrefs h.1, hrefs, by rw [mapEverything, if_pos hrefs]⟩)
  rw [mapEverything, if_neg (not_not_intro hrefs), copyHandles_hypervisorMap]
  by_cases hall : ∀ page < d.dataPages, env.status page = 0
  swap
  · refine .inr (.inr ⟨fun h => hall h.2.1, hrefs, [], by simp, ?_⟩)
    simp only [decide_eq_false hall, Bool.false_eq_true, not_false_eq_true, if_true,
      List.append_nil]
  simp only [decide_eq_true hall, not_true_eq_false, if_false, Instance.withOps_dataPages,
    insertPages_inserted]
  by_cases hok : d.usePtemod = true ∨ ∀ page < d.dataPages, env.insert page = 0
  · refine .inl ⟨⟨hrefs, hall, hok⟩, ?_⟩
    simp only [decide_eq_true hok, not_true_eq_false, if_false]
  · refine .inr (.inr ⟨fun h => hok h.2.2, hrefs, env.inserted d vma, fun e he => ?_, ?_⟩)
    · unfold MmapEnv.inserted at he
      split at he
      · cases he
      · obtain ⟨page, -, rfl⟩ := List.mem_map.mp he
        exact ⟨_, _, rfl⟩
    · simp only [decide_eq_false hok, Bool.false_eq_true, not_false_eq_true, if_true]

/-- The instance when all operations are prepared, in whichever of the two ways. -/
def Instance.prepare (d : Instance) (vma : Vma) (env : MmapEnv) : Instance :=
  let d := { d with userPages := env.pages, userMem := some vma }
  if d.usePtemod then constructKmapOps (applyToPageRange d env env.visited) env d.dataPages
  else constructMapOps d env d.dataPages

/-- Only the mapping of the user and the operations are prepared. -/
theorem prepare_shape (d : Instance) (vma : Vma) (env : MmapEnv) : ∃ ops unmaps kops,
    d.prepare vma env = { d with
      userPages := env.pages
      userMem := some vma
      mapOps := ops
      unmapOps := unmaps
      kmapOps := kops } := by
  by_cases hpte : d.usePtemod = true
  · obtain ⟨ops, hops⟩ := constructKmapOps_eq
      (applyToPageRange { d with userPages := env.pages, userMem := some vma } env env.visited) env
      d.dataPages
    have hprep : d.prepare vma env = _ := (if_pos hpte).trans hops
    rw [hprep, applyToPageRange_eq]
    exact ⟨_, _, _, rfl⟩
  · have hprep : d.prepare vma env = _ := (if_neg hpte).trans (constructMapOps_eq
      { d with userPages := env.pages, userMem := some vma } env d.dataPages)
    rw [hprep]
    exact ⟨_, _, _, rfl⟩

/-- The preparations need neither a walk nor anything else to keep the kind of the instance. -/
theorem prepare_frame (d : Instance) (vma : Vma) (env : MmapEnv) :
    (d.prepare vma env).state = d.state ∧ (d.prepare vma env).usePtemod = d.usePtemod ∧
      (d.prepare vma env).dataPages = d.dataPages := by
  obtain ⟨ops, unmaps, kops, hprep⟩ := prepare_shape d vma env
  rw [hprep]
  exact ⟨rfl, rfl, rfl⟩

/-- The preparations do not decide whether the mapping succeeds. -/
theorem mapsAll_prepare (d : Instance) (vma : Vma) (env : MmapEnv) :
    env.mapsAll (d.prepare vma env) ↔ env.mapsAll d := by
  obtain ⟨-, hpte, hdata⟩ := prepare_frame d vma env
  rw [MmapEnv.mapsAll, MmapEnv.mapsAll, hpte, hdata]

/-- Where a page is mapped: at the page table entry of the user, or at the page of the kernel. -/
def MmapEnv.hostAddr (env : MmapEnv) (d : Instance) (page : Nat) : Nat :=
  if d.usePtemod then env.pteAddr page else env.kernelAddr (env.pages page)

/-- The flags with which the data pages are mapped, by the way the memory is mapped. -/
def Instance.mapFlags (d : Instance) : Nat := if d.usePtemod then gntmapPte else gntmapHostMap

/-- The preparations keep everything that is read later. -/
structure Prepared (d d' : Instance) (vma : Vma) (env : MmapEnv) : Prop where
  /-- The state is the one of before. -/
  state : d'.state = d.state
  /-- Page table entries are used as before. -/
  usePtemod : d'.usePtemod = d.usePtemod
  /-- The number of pages stays. -/
  pagesCount : d'.pagesCount = d.pagesCount
  /-- The mapping of the user is known. -/
  userMem : d'.userMem = some vma
  /-- The ballooned pages are known to the instance. -/
  userPages : d'.userPages = env.pages
  /-- The map operations name the address, the flags, the grant and the peer of their page. -/
  mapOps : ∀ page < d.dataPages, d'.mapOps page = (d.mapOps page).set (env.hostAddr d page)
    d.mapFlags (env.header.grantRefs (page + 1)) d.distantDomid
  /-- The unmap operations name the same only when the memory has page table entries. -/
  unmapOps : ∀ page < d.dataPages, d'.unmapOps page =
    if d.usePtemod then .set (env.hostAddr d page) d.mapFlags (-1)
    else .set gntmapHostMap (env.header.grantRefs (page + 1)).toNat (-1)

/-- The preparations keep everything that is read later, if all pages are visited. -/
theorem prepared (vma : Vma) (hwalk : d.usePtemod = true → env.visited = d.dataPages) :
    Prepared d (d.prepare vma env) vma env := by
  by_cases hpte : d.usePtemod = true
  · obtain ⟨ops, hops⟩ := constructKmapOps_eq
      (applyToPageRange { d with userPages := env.pages, userMem := some vma } env env.visited) env
      d.dataPages
    have hprep : d.prepare vma env = _ := (if_pos hpte).trans hops
    rw [hprep, applyToPageRange_eq]
    refine ⟨rfl, rfl, rfl, rfl, rfl, fun page hpage => ?_, fun page hpage => ?_⟩
    · simp only [hwalk hpte, writeBelow_of_lt hpage, MmapEnv.hostAddr, Instance.mapFlags,
        if_pos hpte]
    · simp only [hwalk hpte, writeBelow_of_lt hpage, MmapEnv.hostAddr, Instance.mapFlags,
        if_pos hpte]
  · have hprep : d.prepare vma env = _ := (if_neg hpte).trans (constructMapOps_eq
      { d with userPages := env.pages, userMem := some vma } env d.dataPages)
    rw [hprep]
    refine ⟨rfl, rfl, rfl, rfl, rfl, fun page hpage => ?_, fun page hpage => ?_⟩
    · simp only [writeBelow_of_lt hpage, MmapEnv.hostAddr, Instance.mapFlags, if_neg hpte]
    · simp only [writeBelow_of_lt hpage, if_neg hpte]

/-- mmap of a receiver stops before the pages are mapped, or comes to the mapping with all
operations prepared. -/
theorem mmapReceiver_cases (d : Instance) (vma : Vma) (env : MmapEnv) :
    env.balloon ≠ 0 ∧ mmapReceiver d vma env = cleanPages d [] ∨
      env.balloon = 0 ∧ d.usePtemod = true ∧ env.apply ≠ 0 ∧ mmapReceiver d vma env =
        cleanPages (applyToPageRange { d with userPages := env.pages, userMem := some vma } env
          env.visited) [.acquire (.balloon d.dataPages)] ∨
      env.balloon = 0 ∧ (d.usePtemod = true → env.apply = 0) ∧ mmapReceiver d vma env =
        mapEverything (d.prepare vma env) vma env [.acquire (.balloon d.dataPages)] := by
  unfold mmapReceiver
  by_cases hballoon : env.balloon = 0
  swap
  · exact .inl ⟨hballoon, if_pos hballoon⟩
  rw [if_neg (not_not_intro hballoon)]
  by_cases hpte : d.usePtemod = true
  · by_cases happly : env.apply = 0
    · refine .inr (.inr ⟨hballoon, fun _ => happly, ?_⟩)
      simp [Instance.prepare, hpte, happly, applyToPageRange_eq, Instance.dataPages]
    · exact .inr (.inl ⟨hballoon, hpte, happly, by simp [hpte, happly]⟩)
  · refine .inr (.inr ⟨hballoon, fun h => absurd h hpte, ?_⟩)
    simp [Instance.prepare, hpte, Instance.dataPages]

/-- The size of the mapping is right, and it is shared if it can be written. -/
def Vma.fits (vma : Vma) (d : Instance) : Prop :=
  (vma.stop - vma.start) / pageSize = d.dataPages ∧ ¬ (vma.write ∧ ¬ vma.shared)

/-- A receiver whose mapping passes the checks goes on to map its pages. -/
theorem mmap_of_fits (hd : d.state = .receiver) (hfits : vma.fits d) :
    mmap d vma env = mmapReceiver d vma env := by
  simp only [mmap, if_neg hfits.2, hd, hfits.1, ne_eq, not_true_eq_false, if_false]

/-- What a successful mmap of a receiver has found and leaves behind. -/
theorem mmap_ok (hd : d.state = .receiver) (hok : (mmap d vma env).1 = .ok) :
    vma.fits d ∧ (d.usePtemod = true → env.apply = 0) ∧ env.mapsAll (d.prepare vma env) ∧
      (mmap d vma env).2.1 = { (hypervisorMap (d.prepare vma env) env).withOps
        (env.handled (d.prepare vma env)) with state := .receiverMapped } ∧
      (mmap d vma env).2.2 = [.acquire (.balloon d.dataPages)] ++
        env.inserted (d.prepare vma env) vma ++ [.mapped] := by
  have hfits : vma.fits d := by
    simp only [mmap, hd] at hok
    split_ifs at hok with hwrite hsize
    exact ⟨not_not.mp hsize, hwrite⟩
  rw [mmap_of_fits hd hfits] at hok ⊢
  refine ⟨hfits, ?_⟩
  rcases mmapReceiver_cases d vma env with ⟨-, heq⟩ | ⟨-, -, -, heq⟩ | ⟨-, happly, heq⟩
  · rw [heq] at hok
    cases hok
  · rw [heq] at hok
    cases hok
  · rw [heq] at hok ⊢
    refine ⟨happly, ?_⟩
    rcases mapEverything_cases (d.prepare vma env) vma env [.acquire (.balloon d.dataPages)] with
      ⟨hall, hmap⟩ | ⟨-, -, hmap⟩ | ⟨-, -, _, -, hmap⟩
    · exact ⟨hall, by rw [hmap], by rw [hmap]⟩
    · rw [hmap] at hok
      cases hok
    · rw [hmap] at hok
      cases hok

/-- The operations of a page after a successful mmap. -/
structure MappedOps (d d' : Instance) (env : MmapEnv) (page : Nat) : Prop where
  /-- The hypervisor has mapped the page. -/
  status : env.status page = 0
  /-- The map operation, as the hypervisor left it. -/
  mapOp : d'.mapOps page = ⟨env.hostAddr d page, d.mapFlags, env.header.grantRefs (page + 1),
    d.distantDomid, env.status page, env.handle page⟩
  /-- The unmap operation, which is that of the map operation only with page table entries. -/
  unmapOp : d'.unmapOps page =
    if d.usePtemod then .set (env.hostAddr d page) d.mapFlags (env.handle page)
    else .set gntmapHostMap (env.header.grantRefs (page + 1)).toNat (env.handle page)

/-- A successful mmap leaves both operations of a page as the preparations have filled them in, with
the handle of its mapping. -/
theorem mappedOps (hd : d.state = .receiver) (hok : (mmap d vma env).1 = .ok)
    (hwalk : env.WalksRange d) (hpage : page < d.dataPages) :
    MappedOps d (mmap d vma env).2.1 env page := by
  obtain ⟨-, happly, ⟨-, hstatus, -⟩, heq, -⟩ := mmap_ok hd hok
  have hprep : Prepared d (d.prepare vma env) vma env :=
    prepared vma fun hpte => hwalk.all (happly hpte)
  have hdata : (d.prepare vma env).dataPages = d.dataPages := by
    rw [Instance.dataPages, hprep.pagesCount]
    rfl
  have hpage' : page < (d.prepare vma env).dataPages := hdata.symm ▸ hpage
  have hpages := hstatus page hpage'
  refine ⟨hpages, ?_, ?_⟩
  · rw [heq]
    refine (if_pos hpage').trans ?_
    rw [hprep.mapOps page hpage]
    rfl
  · rw [heq]
    change env.handled (d.prepare vma env) page = _
    rw [MmapEnv.handled, writeBelow_of_lt hpage', if_pos hpages, hprep.unmapOps page hpage]
    split <;> rfl

end Mmap

/-- The unmap operation of a page names the address and the flags of its mapping exactly when page
table entries are used, or the address of the page and its grant both happen to be the number of the
flag. -/
theorem undoes_iff (d : Instance) (env : MmapEnv) (page : Nat) (dom : Nat) (status handle : Int) :
    (if d.usePtemod then UnmapOp.set (env.hostAddr d page) d.mapFlags handle
      else .set gntmapHostMap (env.header.grantRefs (page + 1)).toNat handle).Undoes
        ⟨env.hostAddr d page, d.mapFlags, env.header.grantRefs (page + 1), dom, status, handle⟩ ↔
      d.usePtemod = true ∨ env.kernelAddr (env.pages page) = gntmapHostMap ∧
        (env.header.grantRefs (page + 1)).toNat = gntmapHostMap := by
  by_cases hpte : d.usePtemod = true
  · rw [if_pos hpte]
    exact iff_of_true ⟨rfl, rfl, rfl⟩ (.inl hpte)
  · rw [if_neg hpte, MmapEnv.hostAddr, Instance.mapFlags, if_neg hpte, if_neg hpte]
    constructor
    · intro h
      exact .inr ⟨h.hostAddr.symm, h.flags⟩
    · intro h
      obtain ⟨haddr, hflags⟩ := h.resolve_left hpte
      exact ⟨haddr.symm, hflags, rfl⟩

/-- After a successful mmap the unmap operation of a page undoes its mapping exactly when page table
entries are used, or the address of the page and its grant both happen to be the number of the
flag. -/
theorem unmap_matches_iff (d : Instance) (vma : Vma) (env : MmapEnv) (hd : d.state = .receiver)
    (hok : (mmap d vma env).1 = .ok) (hwalk : env.WalksRange d) (page : Nat)
    (hpage : page < d.dataPages) :
    ((mmap d vma env).2.1.unmapOps page).Undoes ((mmap d vma env).2.1.mapOps page) ↔
      d.usePtemod = true ∨ env.kernelAddr (env.pages page) = gntmapHostMap ∧
        (env.header.grantRefs (page + 1)).toNat = gntmapHostMap := by
  have hops := mappedOps hd hok hwalk hpage
  rw [hops.mapOp, hops.unmapOp]
  exact undoes_iff d env page _ _ _

/-- A receiver of one data page, before its mmap. -/
def Instance.onePageReceiver (usePtemod : Bool) : Instance := { Instance.fresh with
  state := .receiver
  usePtemod := usePtemod
  pagesCount := 2 }

/-- The mapping of one page at address 0, as a user asks for it. -/
def Vma.onePage : Vma := ⟨0, pageSize, true, true⟩

/-- The results of the calls when everything succeeds. -/
def MmapEnv.easy : MmapEnv :=
  ⟨(· / pageSize), 0, 0, id, { Header.zero with grantRefs := fun page => 8 + page }, 0, 1,
    fun _ => 640,
    fun _ => 648, fun page => (page + 1) * pageSize, 0, fun _ => 0, fun page => 4 + page,
    fun _ => 0⟩

/-- When everything succeeds, every page of the range is visited. -/
theorem MmapEnv.walksRange_easy (usePtemod : Bool) :
    MmapEnv.easy.WalksRange (.onePageReceiver usePtemod) :=
  ⟨Nat.le_refl 1, fun _ => rfl⟩

/-- With page table entries the one page is unmapped by what has mapped it. -/
theorem unmap_matches_ptemod : ((mmap (.onePageReceiver true) .onePage .easy).2.1.unmapOps 0).Undoes
    ((mmap (.onePageReceiver true) .onePage .easy).2.1.mapOps 0) :=
  (unmap_matches_iff (.onePageReceiver true) .onePage .easy rfl (by decide)
    (MmapEnv.walksRange_easy true) 0 (by decide)).mpr (.inl rfl)

/-- In a domain without page table entries of its own, the unmap operation names the flag as the
address and the grant as the flags. -/
theorem not_unmap_matches : (mmap (.onePageReceiver false) .onePage .easy).1 = .ok ∧
    (mmap (.onePageReceiver false) .onePage .easy).2.1.mapOps 0 =
      ⟨pageSize, gntmapHostMap, 9, 0, 0, 4⟩ ∧
    (mmap (.onePageReceiver false) .onePage .easy).2.1.unmapOps 0 = ⟨gntmapHostMap, 9, 4⟩ ∧
    ¬ ((mmap (.onePageReceiver false) .onePage .easy).2.1.unmapOps 0).Undoes
      ((mmap (.onePageReceiver false) .onePage .easy).2.1.mapOps 0) :=
  ⟨by decide, by decide, by decide, fun h => absurd h.hostAddr (by decide)⟩

end XenShm.Kernel
