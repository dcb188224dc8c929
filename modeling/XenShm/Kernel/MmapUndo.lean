import XenShm.Kernel.MapOps

/-!
# A failed mmap of a receiver

Everything that can fail in `xen_shm_mmap` leads to one of two labels at its end. What they undo
is decided by the handles of the unmap operations, and the pages are given back by the one as by
the other. An unmap operation that names another address than the map operation did undoes nothing,
whether its handle is valid or not.
-/

namespace XenShm.Kernel

open Library

/-- The hypervisor was asked for the pages and has mapped this one. -/
def MmapEnv.Maps (env : MmapEnv) (d : Instance) (page : Nat) : Prop :=
  env.balloon = 0 ∧ (d.usePtemod = true → env.apply = 0) ∧ env.mapRefs = 0 ∧ env.status page = 0

/-- The operation with which the hypervisor was asked to unmap this page. -/
def Event.unmapOp (page : Nat) : Event → Option UnmapOp
  | .unmapRefs offset op => if offset = page then some op else none
  | _ => none

/-- A failed mmap of a receiver has undone all that it did before it failed. -/
structure MmapUndone (d : Instance) (vma : Vma) (env : MmapEnv) : Prop where
  /-- The receiver is again one that has not mapped its data pages. -/
  state : (mmap d vma env).2.1.state = .receiver
  /-- No mapping of the user is left. -/
  userMem : (mmap d vma env).2.1.userMem = none
  /-- For each page that was mapped one unmap operation is passed, and it undoes the mapping. -/
  unmapped : ∀ page < d.dataPages, env.Maps d page →
    ∃ op, (mmap d vma env).2.2.filterMap (Event.unmapOp page) = [op] ∧
      op.Undoes ((mmap d vma env).2.1.mapOps page)
  /-- Pages that were not mapped are not unmapped. -/
  others : ∀ page, ¬ (page < d.dataPages ∧ env.Maps d page) →
    (mmap d vma env).2.2.filterMap (Event.unmapOp page) = []
  /-- No handle is left in the operations of the instance. -/
  handles : ∀ page < d.dataPages, ((mmap d vma env).2.1.unmapOps page).handle = -1
  /-- Ballooned pages are given back if they were obtained, once. -/
  balloon : (mmap d vma env).2.2.count (.release (.balloon d.dataPages)) =
    if env.balloon = 0 then 1 else 0
  /-- A later mmap does what it would have done before. -/
  retry : ∀ vma' env', (mmap (mmap d vma env).2.1 vma' env').1 = (mmap d vma' env').1

/-- A page that the hypervisor maps has a valid handle. -/
def MmapEnv.ValidHandles (env : MmapEnv) : Prop :=
  ∀ page, env.status page = 0 → env.handle page ≠ -1

/-- What has a handle is unmapped, and the pages are given back. -/
def undoEvents (d : Instance) : List Event :=
  (mappedPages d.unmapOps 0 d.dataPages).map (fun page => .unmapRefs page (d.unmapOps page)) ++
    [.release (.balloon d.dataPages)]

section Undo

variable {d d' : Instance} {vma : Vma} {env : MmapEnv} {page : Nat}

/-- The label `clean` unmaps the pages that have a handle. -/
theorem clean_eq (d : Instance) (events : List Event) : clean d events =
    (.error .efault, { d.withOps (unmapAll d.unmapOps (mappedPages d.unmapOps 0 d.dataPages)) with
      userMem := none }, events ++ undoEvents d) := by
  rw [clean, cleanUnmap_eq, undoEvents, ← List.append_assoc]
  rfl

/-- Once all mapped pages are unmapped, no page has a handle. -/
theorem unmapAll_handle (hpage : page < d.dataPages) :
    (unmapAll d.unmapOps (mappedPages d.unmapOps 0 d.dataPages) page).handle = -1 := by
  rw [unmapAll]
  split
  · rfl
  · rename_i hout
    by_contra hhandle
    have hmapped : (d.unmapOps page).isMapped = true := by simpa [UnmapOp.isMapped] using hhandle
    exact hout (mem_mappedPages.mpr ⟨Nat.zero_le _, by omega, hmapped⟩)

/-- One element of a list without repetitions is found there once. -/
private theorem filterMap_of_nodup {l : List Nat} (h : l.Nodup) (ops : Nat → UnmapOp) (page : Nat) :
    l.filterMap (fun offset => if offset = page then some (ops offset) else none) =
      if page ∈ l then [ops page] else [] := by
  induction l with
  | nil => rfl
  | cons offset l ih =>
    obtain ⟨hnot, hl⟩ := List.nodup_cons.mp h
    by_cases heq : offset = page
    · subst heq
      simp [ih hl, hnot]
    · simp [heq, ih hl, Ne.symm heq]

/-- The operation with which the undo path unmaps a page is the one prepared for it. -/
theorem unmapOp_undoEvents (d : Instance) (page : Nat) :
    (undoEvents d).filterMap (Event.unmapOp page) =
      if page < d.dataPages ∧ (d.unmapOps page).isMapped then [d.unmapOps page] else [] := by
  rw [undoEvents, List.filterMap_append, List.filterMap_map]
  have hmem : page ∈ mappedPages d.unmapOps 0 d.dataPages ↔
      page < d.dataPages ∧ (d.unmapOps page).isMapped = true := by
    simp [mem_mappedPages]
  have hone := filterMap_of_nodup (nodup_mappedPages d.unmapOps 0 d.dataPages) d.unmapOps page
  simp only [hmem] at hone
  exact (List.append_nil _).trans hone

/-- How often the ballooned pages are given back. -/
theorem count_balloon (d : Instance) :
    (undoEvents d).count (.release (.balloon d.dataPages)) = 1 := by
  have hnone : ((mappedPages d.unmapOps 0 d.dataPages).map fun page =>
      Event.unmapRefs page (d.unmapOps page)).count (.release (.balloon d.dataPages)) = 0 :=
    List.count_eq_zero.mpr (by simp)
  simp [undoEvents, List.count_append, hnone]

/-- Before the labels, pages are obtained and inserted. -/
def obtainEvents (d : Instance) (inserted : List Event) : List Event :=
  .acquire (.balloon d.dataPages) :: inserted

/-- None of the events before the failure unmaps a page or gives one back. -/
theorem obtainEvents_nothing (d : Instance) {inserted : List Event}
    (h : ∀ e ∈ inserted, ∃ addr page, e = .insertPage addr page) :
    (∀ page, (obtainEvents d inserted).filterMap (Event.unmapOp page) = []) ∧
      ∀ r, (obtainEvents d inserted).count (.release r) = 0 := by
  constructor
  · intro page
    refine List.filterMap_eq_nil_iff.mpr fun e he => ?_
    rcases List.mem_cons.mp he with rfl | he
    · rfl
    · obtain ⟨addr, page, rfl⟩ := h e he
      rfl
  · intro r
    refine List.count_eq_zero.mpr fun he => ?_
    rcases List.mem_cons.mp he with he | he
    · cases he
    · obtain ⟨addr, page, hinsert⟩ := h _ he
      cases hinsert

/-- mmap of a receiver succeeds when everything does, and fails in one way. Neither depends on what
the operations contained before. -/
theorem mmapReceiver_result (d : Instance) (vma : Vma) (env : MmapEnv) :
    (env.balloon = 0 ∧ (d.usePtemod = true → env.apply = 0) ∧ env.mapsAll d) ∧
        (mmapReceiver d vma env).1 = .ok ∨
      ¬ (env.balloon = 0 ∧ (d.usePtemod = true → env.apply = 0) ∧ env.mapsAll d) ∧
        (mmapReceiver d vma env).1 = .error .efault := by
  rcases mmapReceiver_cases d vma env with ⟨hballoon, heq⟩ | ⟨-, hpte, happly, heq⟩ |
    ⟨hballoon, happly, heq⟩
  · exact .inr ⟨fun h => hballoon h.1, by rw [heq]; rfl⟩
  · exact .inr ⟨fun h => happly (h.2.1 hpte), by rw [heq]; rfl⟩
  · rw [← mapsAll_prepare d vma env, heq]
    rcases mapEverything_cases (d.prepare vma env) vma env [.acquire (.balloon d.dataPages)] with
      ⟨hall, hmap⟩ | ⟨hnot, -, hmap⟩ | ⟨hnot, -, _, -, hmap⟩
    · exact .inl ⟨⟨hballoon, happly, hall⟩, by rw [hmap]⟩
    · exact .inr ⟨fun h => hnot h.2.2, by rw [hmap]; rfl⟩
    · exact .inr ⟨fun h => hnot h.2.2, by rw [hmap]; rfl⟩

/-- A receiver of the same kind gets the same answer. -/
theorem mmap_congr (hd : d.state = .receiver) (hd' : d'.state = .receiver)
    (hpte : d'.usePtemod = d.usePtemod) (hpages : d'.pagesCount = d.pagesCount) (vma : Vma)
    (env : MmapEnv) : (mmap d' vma env).1 = (mmap d vma env).1 := by
  have hdata : d'.dataPages = d.dataPages := by rw [Instance.dataPages, hpages]; rfl
  simp only [mmap, hd, hd', hdata]
  split_ifs
  · rfl
  · rfl
  · have hmaps : env.mapsAll d' ↔ env.mapsAll d := by
      rw [MmapEnv.mapsAll, MmapEnv.mapsAll, hpte, hdata]
    rcases mmapReceiver_result d vma env with ⟨hok, heq⟩ | ⟨hfail, heq⟩ <;>
      rcases mmapReceiver_result d' vma env with ⟨hok', heq'⟩ | ⟨hfail', heq'⟩ <;>
      rw [hpte, hmaps] at * <;> rw [heq, heq'] <;> contradiction

/-- When just the mapped pages have a handle, the label `clean` undoes everything exactly if the
unmap operations of these pages undo their mappings. -/
theorem mmap_undone_clean (d' : Instance) (inserted : List Event) (hd : d.state = .receiver)
    (hfits : vma.fits d)
    (hballoon : env.balloon = 0) (hstate : d'.state = d.state) (hpte : d'.usePtemod = d.usePtemod)
    (hpages : d'.pagesCount = d.pagesCount)
    (hinserted : ∀ e ∈ inserted, ∃ addr page, e = .insertPage addr page)
    (hcall : mmapReceiver d vma env = clean d' (obtainEvents d inserted))
    (hmaps : ∀ page < d.dataPages, (d'.unmapOps page).isMapped = true ↔ env.Maps d page) :
    MmapUndone d vma env ↔
      ∀ page < d.dataPages, env.Maps d page → (d'.unmapOps page).Undoes (d'.mapOps page) := by
  have hdata : d'.dataPages = d.dataPages := by rw [Instance.dataPages, hpages]; rfl
  obtain ⟨hnone, hkept⟩ := obtainEvents_nothing d hinserted
  have heq : mmap d vma env = _ := (mmap_of_fits hd hfits).trans (hcall.trans (clean_eq d' _))
  have hpassed : ∀ page, (mmap d vma env).2.2.filterMap (Event.unmapOp page) =
      if page < d'.dataPages ∧ (d'.unmapOps page).isMapped then [d'.unmapOps page] else [] := by
    intro page
    rw [heq, List.filterMap_append, hnone, List.nil_append]
    exact unmapOp_undoEvents d' page
  have hmapOps : (mmap d vma env).2.1.mapOps = d'.mapOps := by rw [heq]; rfl
  have hone : ∀ page < d.dataPages, env.Maps d page →
      (mmap d vma env).2.2.filterMap (Event.unmapOp page) = [d'.unmapOps page] :=
    fun page hpage hmap =>
      (hpassed page).trans (if_pos ⟨hdata.symm ▸ hpage, (hmaps page hpage).mpr hmap⟩)
  constructor
  · intro h page hpage hmap
    obtain ⟨op, hop, hundoes⟩ := h.unmapped page hpage hmap
    obtain rfl := List.singleton_inj.mp ((hone page hpage hmap).symm.trans hop)
    rwa [hmapOps] at hundoes
  intro hundo
  refine ⟨?_, ?_, fun page hpage hmap => ⟨_, hone page hpage hmap, ?_⟩, fun page hout => ?_,
    fun page hpage => ?_, ?_, fun vma' env' => ?_⟩
  · rw [heq]
    exact hstate.trans hd
  · rw [heq]
  · rw [hmapOps]
    exact hundo page hpage hmap
  · rw [hpassed, if_neg fun h => hout ⟨hdata ▸ h.1, (hmaps page (hdata ▸ h.1)).mp h.2⟩]
  · rw [heq]
    exact unmapAll_handle (hdata.symm ▸ hpage)
  · rw [heq, if_pos hballoon, ← hdata, List.count_append, hkept, Nat.zero_add]
    exact count_balloon d'
  · rw [heq]
    refine mmap_congr hd ?_ ?_ ?_ vma' env'
    · exact hstate.trans hd
    · exact hpte
    · exact hpages

/-- When the walk over the page table fails, the pages that it has not reached keep the handle that
they had before. -/
theorem mmap_undone_walkFailed (hd : d.state = .receiver) (hfits : vma.fits d)
    (hballoon : env.balloon = 0) (hpte : d.usePtemod = true) (happly : env.apply ≠ 0)
    (hcall : mmapReceiver d vma env =
      cleanPages (applyToPageRange { d with userPages := env.pages, userMem := some vma } env
        env.visited) [.acquire (.balloon d.dataPages)]) :
    MmapUndone d vma env ↔
      ∀ page < d.dataPages, env.visited ≤ page → (d.unmapOps page).handle = -1 := by
  have hmmap : mmap d vma env = mmapReceiver d vma env := mmap_of_fits hd hfits
  rw [applyToPageRange_eq] at hcall
  have hmaps : ∀ page, ¬ env.Maps d page := fun page h => happly (h.2.1 hpte)
  constructor
  · intro h page hpage hle
    have hhandle := h.handles page hpage
    rw [hmmap, hcall] at hhandle
    simpa only [cleanPages, writeBelow_of_le hle] using hhandle
  · intro h
    refine ⟨?_, ?_, fun page hpage hmap => absurd hmap (hmaps page), fun page _ => ?_,
      fun page hpage => ?_, ?_, fun vma' env' => ?_⟩
    · rw [hmmap, hcall]
      exact hd
    · rw [hmmap, hcall]
      rfl
    · rw [hmmap, hcall]
      rfl
    · rw [hmmap, hcall]
      simp only [cleanPages]
      by_cases hlt : page < env.visited
      · rw [writeBelow_of_lt hlt]
        rfl
      · rw [writeBelow_of_le (not_lt.mp hlt)]
        exact h page hpage (not_lt.mp hlt)
    · rw [hmmap, hcall, if_pos hballoon]
      simp [cleanPages, Instance.dataPages]
    · rw [hmmap, hcall]
      refine mmap_congr hd ?_ ?_ ?_ vma' env'
      · exact hd
      · rfl
      · rfl

/-- The operations that were just prepared have no handles yet. -/
theorem prepare_isMapped (vma : Vma) (hwalk : d.usePtemod = true → env.visited = d.dataPages)
    (hpage : page < d.dataPages) : ((d.prepare vma env).unmapOps page).isMapped = false := by
  rw [(prepared vma hwalk).unmapOps page hpage]
  split <;> rfl

/-- When the operations are prepared, those that the hypervisor has carried out have a handle, and
their unmap operations undo them when they name the same address. -/
theorem mmap_undone_applied (hd : d.state = .receiver) (hfits : vma.fits d)
    (hfail : (mmap d vma env).1 ≠ .ok) (hwalk : env.WalksRange d) (hvalid : env.ValidHandles)
    (hballoon : env.balloon = 0) (happly : d.usePtemod = true → env.apply = 0)
    (hcall : mmapReceiver d vma env =
      mapEverything (d.prepare vma env) vma env [.acquire (.balloon d.dataPages)]) :
    MmapUndone d vma env ↔ ∀ page < d.dataPages, env.Maps d page →
      d.usePtemod = true ∨ env.kernelAddr (env.pages page) = gntmapHostMap ∧
        (env.header.grantRefs (page + 1)).toNat = gntmapHostMap := by
  obtain ⟨hstate, hpte, hdata⟩ := prepare_frame d vma env
  have hprep : Prepared d (d.prepare vma env) vma env := prepared vma fun h => hwalk.all (happly h)
  have hnone : ∀ page < d.dataPages, ((d.prepare vma env).unmapOps page).isMapped = false :=
    fun page hpage => prepare_isMapped vma (fun h => hwalk.all (happly h)) hpage
  rcases mapEverything_cases (d.prepare vma env) vma env [.acquire (.balloon d.dataPages)] with
    ⟨-, hmap⟩ | ⟨-, hrefs, hmap⟩ | ⟨-, hrefs, inserted, hinserted, hmap⟩
  · rw [mmap_of_fits hd hfits, hcall, hmap] at hfail
    exact absurd rfl hfail
  · have hnever : ∀ page, ¬ env.Maps d page := fun page h => hrefs h.2.2.1
    rw [mmap_undone_clean _ [] hd hfits hballoon hstate hpte hprep.pagesCount (by simp)
      (hcall.trans hmap) fun page hpage => iff_of_false (by simp [hnone page hpage]) (hnever page)]
    exact iff_of_true (fun page _ h => absurd h (hnever page)) fun page _ h =>
      absurd h (hnever page)
  · have hops : ∀ page < d.dataPages, env.handled (d.prepare vma env) page =
        if env.status page = 0 then
          { (d.prepare vma env).unmapOps page with handle := env.handle page }
        else (d.prepare vma env).unmapOps page :=
      fun page hpage => writeBelow_of_lt (hdata.symm ▸ hpage)
    rw [mmap_undone_clean ((hypervisorMap (d.prepare vma env) env).withOps
      (env.handled (d.prepare vma env))) inserted hd hfits hballoon hstate hpte hprep.pagesCount
      hinserted (hcall.trans hmap) fun page hpage => ?_]
    · refine forall₃_congr fun page hpage hmaps => ?_
      have hmapOp : (hypervisorMap (d.prepare vma env) env).mapOps page = {
          (d.prepare vma env).mapOps
          page with status := env.status page, handle := env.handle page } :=
        if_pos (hdata.symm ▸ hpage)
      rw [← undoes_iff d env page d.distantDomid (env.status page) (env.handle page)]
      refine iff_of_eq (congrArg₂ UnmapOp.Undoes ?_ ?_)
      · refine (hops page hpage).trans ?_
        rw [if_pos hmaps.2.2.2, hprep.unmapOps page hpage]
        split <;> rfl
      · refine hmapOp.trans ?_
        rw [hprep.mapOps page hpage]
        rfl
    · change (env.handled (d.prepare vma env) page).isMapped = true ↔ _
      rw [hops page hpage]
      by_cases hstatus : env.status page = 0
      · rw [if_pos hstatus]
        refine iff_of_true ?_ ⟨hballoon, happly, hrefs, hstatus⟩
        simpa [UnmapOp.isMapped] using hvalid page hstatus
      · rw [if_neg hstatus]
        exact iff_of_false (by simp [hnone page hpage]) fun h => hstatus h.2.2.2

end Undo

/-- A failed mmap of a receiver undoes itself exactly when the pages were allocated, with page table
entries the pages that a failed walk did not reach had no handle before, and without them no page
was mapped, apart from pages whose address and grant both happen to be the number of the flag. -/
theorem mmap_undone_iff (d : Instance) (vma : Vma) (env : MmapEnv) (hd : d.state = .receiver)
    (hfits : vma.fits d) (hfail : (mmap d vma env).1 ≠ .ok) (hwalk : env.WalksRange d)
    (hvalid : env.ValidHandles) :
    MmapUndone d vma env ↔ env.balloon = 0 ∧
      (d.usePtemod = true → env.apply ≠ 0 →
        ∀ page < d.dataPages, env.visited ≤ page → (d.unmapOps page).handle = -1) ∧
      ∀ page < d.dataPages, env.Maps d page →
        d.usePtemod = true ∨ env.kernelAddr (env.pages page) = gntmapHostMap ∧
          (env.header.grantRefs (page + 1)).toNat = gntmapHostMap := by
  rcases mmapReceiver_cases d vma env with ⟨hballoon, heq⟩ | ⟨hballoon, hpte, happly, heq⟩ |
    ⟨hballoon, happly, heq⟩
  · -- the pages are given back although there are none
    refine iff_of_false (fun h => ?_) fun h => hballoon h.1
    have hcount := h.balloon
    rw [if_neg hballoon, mmap_of_fits hd hfits, heq] at hcount
    simp [cleanPages] at hcount
  · rw [mmap_undone_walkFailed hd hfits hballoon hpte happly heq]
    exact ⟨fun h => ⟨hballoon, fun _ _ => h, fun _ _ _ => .inl hpte⟩, fun h => h.2.1 hpte happly⟩
  · rw [mmap_undone_applied hd hfits hfail hwalk hvalid hballoon happly heq]
    exact ⟨fun h => ⟨hballoon, fun hpte hbad => absurd (happly hpte) hbad, h⟩, fun h => h.2.2⟩

/-- The hypervisor maps the first of two pages and refuses the second one. -/
def MmapEnv.refused : MmapEnv := { MmapEnv.easy with
  visited := 2
  pteAddr := fun page => 640 + 8 * page
  status := fun page => if page = 0 then 0 else -1 }

/-- The results of the calls when no ballooned pages are to be had. -/
def MmapEnv.exhausted : MmapEnv := { MmapEnv.easy with balloon := -12 }

/-- The results of the calls when the page cannot be inserted into the mapping of the user. -/
def MmapEnv.notInserted : MmapEnv := { MmapEnv.easy with insert := fun _ => -12 }

/-- A receiver of two data pages, and a mapping of this size. -/
def Instance.twoPageReceiver : Instance := { Instance.onePageReceiver true with pagesCount := 3 }

/-- The mapping of two pages at address 0, as a user asks for it. -/
def Vma.twoPages : Vma := ⟨0, 2 * pageSize, true, true⟩

/-- Of two pages one is refused, and the page that was mapped is unmapped again. -/
theorem mmap_undone_refused : MmapEnv.refused.Maps .twoPageReceiver 0 ∧
    MmapUndone .twoPageReceiver .twoPages .refused :=
  ⟨⟨rfl, fun _ => rfl, rfl, rfl⟩,
    (mmap_undone_iff .twoPageReceiver .twoPages .refused rfl ⟨by decide, by decide⟩ (by decide)
      ⟨Nat.le_refl 2, fun _ => rfl⟩ fun page _ => by
        simp [MmapEnv.refused, MmapEnv.easy]; omega).mpr
      ⟨rfl, fun _ h => absurd rfl h, fun _ _ _ => .inl rfl⟩⟩

/-- When there are no ballooned pages, the user gets an error, and pages that do not exist are given
back. In a domain without page table entries of its own, a page that could not be inserted stays
mapped, for its operation names the flag as the address and the grant as the flags. -/
theorem not_mmap_undone : ((mmap (.onePageReceiver true) .onePage .exhausted) =
      (.error .efault, .onePageReceiver true, [.release (.balloon 1)]) ∧
      ¬ MmapUndone (.onePageReceiver true) .onePage .exhausted) ∧
    (mmap (.onePageReceiver false) .onePage .notInserted).1 = .error .efault ∧
    (mmap (.onePageReceiver false) .onePage .notInserted).2.2 =
      [.acquire (.balloon 1), .unmapRefs 0 ⟨gntmapHostMap, 9, 4⟩, .release (.balloon 1)] ∧
    (mmap (.onePageReceiver false) .onePage .notInserted).2.1.mapOps 0 =
      ⟨pageSize, gntmapHostMap, 9, 0, 0, 4⟩ ∧
    ¬ MmapUndone (.onePageReceiver false) .onePage .notInserted := by
  refine ⟨⟨rfl, fun h => absurd h.balloon (by decide)⟩, by decide, by decide, by decide,
    fun h => ?_⟩
  obtain ⟨op, hop, hundoes⟩ := h.unmapped 0 (by decide) ⟨rfl, nofun, rfl, rfl⟩
  obtain rfl : ⟨gntmapHostMap, 9, 4⟩ = op := List.singleton_inj.mp hop
  exact absurd hundoes.hostAddr (by decide)

end XenShm.Kernel
