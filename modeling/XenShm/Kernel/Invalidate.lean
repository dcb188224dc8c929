import Mathlib.Data.List.Range
import XenShm.Kernel.Mapping
import XenShm.Library.Run

/-!
# What an invalidation unmaps

The loop of `__xen_shm_unmap_receiver_grant_pages` counts the pages it unmaps, not those it
passes. It unmaps the first mapped pages from its offset on, and these lie behind the range when
the range has holes.
-/

namespace XenShm.Kernel

open Library

/-- The operation belongs to a mapping that is still to be undone. -/
def UnmapOp.isMapped (op : UnmapOp) : Bool := op.handle ≠ -1

/-- The mapped ones of `count` pages from `offset` on. -/
def mappedPages (ops : Nat → UnmapOp) (offset count : Nat) : List Nat :=
  (List.range' offset count).filter fun page => (ops page).isMapped

/-- The operations of the instance when the listed pages were unmapped. -/
def unmapAll (ops : Nat → UnmapOp) (pages : List Nat) (page : Nat) : UnmapOp :=
  if page ∈ pages then { ops page with handle := -1 } else ops page

section Loop

variable {ops ops' : Nat → UnmapOp} {offset count page rest nb : Nat}

/-- A page is listed when it lies in the range and is mapped. -/
theorem mem_mappedPages :
    page ∈ mappedPages ops offset count ↔
      offset ≤ page ∧ page < offset + count ∧ (ops page).isMapped = true := by
  simp only [mappedPages, List.mem_filter, List.mem_range'_1, and_assoc]

/-- No page is listed twice. -/
theorem nodup_mappedPages (ops : Nat → UnmapOp) (offset count : Nat) :
    (mappedPages ops offset count).Nodup :=
  (List.nodup_range' 1).filter _

/-- The list begins with the first page of the range if that is mapped. -/
theorem mappedPages_succ (ops : Nat → UnmapOp) (offset count : Nat) :
    mappedPages ops offset (count + 1) =
      (if (ops offset).isMapped then [offset] else []) ++ mappedPages ops (offset + 1) count := by
  rw [mappedPages, List.range'_succ, List.filter_cons]
  split <;> rfl

/-- The list of a range is that of its first pages followed by that of the others. -/
theorem mappedPages_add (ops : Nat → UnmapOp) (offset a b : Nat) :
    mappedPages ops offset (a + b) =
      mappedPages ops offset a ++ mappedPages ops (offset + a) b := by
  rw [mappedPages, ← List.range'_append_1, List.filter_append]
  rfl

/-- Only the operations of the range decide which of its pages are mapped. -/
theorem mappedPages_congr
    (h : ∀ page, offset ≤ page → page < offset + count → ops page = ops' page) :
    mappedPages ops offset count = mappedPages ops' offset count := by
  refine List.filter_congr fun page hpage => ?_
  obtain ⟨hlo, hhi⟩ := List.mem_range'_1.mp hpage
  rw [h page hlo hhi]

/-- A range has no more mapped pages than pages. -/
theorem length_mappedPages_le (ops : Nat → UnmapOp) (offset count : Nat) :
    (mappedPages ops offset count).length ≤ count := by
  have h := List.length_filter_le (fun page => (ops page).isMapped) (List.range' offset count)
  rwa [List.length_range'] at h

/-- As many pages are mapped as there are exactly when all are. -/
theorem length_mappedPages_eq_iff :
    (mappedPages ops offset count).length = count ↔
      ∀ page, offset ≤ page → page < offset + count → (ops page).isMapped = true := by
  have h := List.length_filter_eq_length_iff (p := fun page => (ops page).isMapped)
    (l := List.range' offset count)
  rw [List.length_range'] at h
  refine h.trans ⟨fun hall page hlo hhi => hall page (List.mem_range'_1.mpr ⟨hlo, hhi⟩), ?_⟩
  intro hall page hpage
  obtain ⟨hlo, hhi⟩ := List.mem_range'_1.mp hpage
  exact hall page hlo hhi

@[simp] theorem unmapAll_nil (ops : Nat → UnmapOp) : unmapAll ops [] = ops := by
  funext page
  simp [unmapAll]

/-- Unmapping a list of pages is unmapping its first page and then the others. -/
theorem unmapAll_cons (ops : Nat → UnmapOp) (offset : Nat) (pages : List Nat) :
    unmapAll ops (offset :: pages) =
      unmapAll (Function.update ops offset { ops offset with handle := -1 }) pages := by
  funext page
  by_cases heq : page = offset
  · subst heq
    simp [unmapAll]
  · simp [unmapAll, heq]

/-- The loop unmaps the first `nb` mapped pages. -/
theorem unmapPages_eq (ops : Nat → UnmapOp) (rest offset nb : Nat) :
    unmapPages ops rest offset nb =
      (unmapAll ops ((mappedPages ops offset (rest + 1)).take nb),
        ((mappedPages ops offset (rest + 1)).take nb).map .unmapPage) := by
  induction rest generalizing ops offset nb with
  | zero =>
    cases nb with
    | zero => simp [unmapPages]
    | succ nb =>
      rw [mappedPages_succ]
      by_cases hmapped : (ops offset).handle = -1
      · simp [unmapPages, hmapped, UnmapOp.isMapped, mappedPages]
      · simp [unmapPages, hmapped, UnmapOp.isMapped, mappedPages, unmapAll_cons]
  | succ rest ih =>
    cases nb with
    | zero => simp [unmapPages]
    | succ nb =>
      rw [mappedPages_succ]
      by_cases hmapped : (ops offset).handle = -1
      · simp [unmapPages, hmapped, UnmapOp.isMapped, ih]
      · have hlater : mappedPages (Function.update ops offset { ops offset with handle := -1 })
            (offset + 1) (rest + 1) = mappedPages ops (offset + 1) (rest + 1) :=
          mappedPages_congr fun page hlo _ => Function.update_of_ne (by omega) _ _
        simp [unmapPages, hmapped, UnmapOp.isMapped, ih, hlater, unmapAll_cons]

end Loop

/-- The page of a mapping lies in the range. -/
def Vma.covers (vma : Vma) (start stop page : Nat) : Bool :=
  start ≤ vma.start + page * pageSize ∧ vma.start + (page + 1) * pageSize ≤ stop

/-- The instance of a receiver whose user mapping has kept its bounds. -/
structure Instance.MapsAt (d : Instance) (vma : Vma) : Prop where
  /-- The receiver has mapped its data pages. -/
  state : d.state = .receiverMapped
  /-- The instance knows the mapping of the user. -/
  userMem : d.userMem = some vma
  pages : 0 < d.dataPages
  /-- The mapping begins at a page boundary. -/
  aligned : pageSize ∣ vma.start
  /-- The mapping has the size that mmap has checked. -/
  size : vma.stop = vma.start + d.dataPages * pageSize

/-- The instance with its unmap operations replaced by others. -/
def Instance.withOps (d : Instance) (ops : Nat → UnmapOp) : Instance := { d with unmapOps := ops }

@[simp] theorem Instance.withOps_self (d : Instance) : d.withOps d.unmapOps = d := rfl

@[simp] theorem Instance.withOps_unmapOps (d : Instance) (ops : Nat → UnmapOp) :
    (d.withOps ops).unmapOps = ops := rfl

@[simp] theorem Instance.withOps_dataPages (d : Instance) (ops : Nat → UnmapOp) :
    (d.withOps ops).dataPages = d.dataPages := rfl

/-- An operation when the pages of the range are unmapped. -/
def Instance.invalidated (d : Instance) (vma : Vma) (start stop page : Nat) : UnmapOp :=
  if page < d.dataPages ∧ vma.covers start stop page then { d.unmapOps page with handle := -1 }
  else d.unmapOps page

/-- An invalidation unmaps the mapped pages of the range and no other page. -/
structure InvalidatesExactly (d : Instance) (vma : Vma) (start stop : Nat) : Prop where
  /-- The pages that are unmapped, each once. -/
  events : (mnInvlRangeStart d start stop).2 =
    ((mappedPages d.unmapOps 0 d.dataPages).filter (vma.covers start stop)).map .unmapPage
  /-- The handles, and that nothing else is changed. -/
  handles : (mnInvlRangeStart d start stop).1 = d.withOps (d.invalidated vma start stop)
  /-- No operation behind the last page is read. -/
  inside : ∀ ops, (∀ page < d.dataPages, ops page = d.unmapOps page) →
    (mnInvlRangeStart (d.withOps ops) start stop).2 = (mnInvlRangeStart d start stop).2

/-- All pages of the range are mapped, or no page behind the range is. -/
def Instance.CoversNoHole (d : Instance) (vma : Vma) (start stop : Nat) : Prop :=
  (∀ page < d.dataPages, vma.covers start stop page = true → (d.unmapOps page).isMapped = true) ∨
    ∀ page < d.dataPages, (d.unmapOps page).isMapped = true →
      vma.start + page * pageSize < stop

section Range

variable {d : Instance} {vma : Vma} {start stop page : Nat}

/-- The range clipped to the mapping, in pages: `count` pages from `offset` on. -/
structure Clipped (d : Instance) (vma : Vma) (start stop offset count : Nat) : Prop where
  /-- The clipped range begins in the mapping. -/
  offset_lt : offset < d.dataPages
  /-- The clipped range ends in the mapping. -/
  end_le : offset + count ≤ d.dataPages
  /-- The callback unmaps these pages, whatever has become of the operations. -/
  call : ∀ ops, mnInvlRangeStart (d.withOps ops) start stop =
    unmapReceiverGrantPages (d.withOps ops) offset count
  /-- The pages of the mapping that lie in the range. -/
  covers : ∀ page < d.dataPages,
    vma.covers start stop page = true ↔ offset ≤ page ∧ page < offset + count
  /-- The pages of the mapping behind the range. -/
  behind : ∀ page < d.dataPages, offset + count ≤ page ↔ stop ≤ vma.start + page * pageSize

/-- A range is either outside of the mapping, where nothing happens, or is clipped to it. -/
theorem clipped_cases (hd : d.MapsAt vma) (hstart : pageSize ∣ start) (hstop : pageSize ∣ stop) :
    (∀ ops, mnInvlRangeStart (d.withOps ops) start stop = (d.withOps ops, [])) ∧
        (∀ page < d.dataPages, vma.covers start stop page = false) ∨
      ∃ offset count, Clipped d vma start stop offset count := by
  obtain ⟨v, hv⟩ := hd.aligned
  obtain ⟨a, rfl⟩ := hstart
  obtain ⟨b, rfl⟩ := hstop
  have hsize := hd.size
  have hmem := hd.userMem
  have hpages := hd.pages
  simp only [pageSize] at hv hsize ⊢
  by_cases hout : vma.stop ≤ 4096 * a ∨ 4096 * b ≤ vma.start
  · refine .inl ⟨fun ops => by simp [mnInvlRangeStart, Instance.withOps, hmem, hout], ?_⟩
    intro page hpage
    rw [Vma.covers, decide_eq_false_iff_not, pageSize]
    omega
  have hcall : ∀ ops, mnInvlRangeStart (d.withOps ops) (4096 * a) (4096 * b) =
      unmapReceiverGrantPages (d.withOps ops) (max a v - v)
        (min b (v + d.dataPages) - max a v) := by
    intro ops
    have hoffset : (max (4096 * a) vma.start - vma.start) / 4096 = max a v - v := by omega
    have hcount : (min (4096 * b) vma.stop - max (4096 * a) vma.start) / 4096 =
        min b (v + d.dataPages) - max a v := by omega
    simp [mnInvlRangeStart, Instance.withOps, hmem, hout, pageSize, hoffset, hcount]
  by_cases hempty : b ≤ a
  · refine .inl ⟨fun ops => ?_, fun page hpage => ?_⟩
    · rw [hcall, show min b (v + d.dataPages) - max a v = 0 by omega]
      simp [unmapReceiverGrantPages, unmapPages_eq, Instance.withOps]
    · rw [Vma.covers, decide_eq_false_iff_not, pageSize]
      omega
  · refine .inr ⟨_, _, by omega, by omega, hcall, fun page hpage => ?_, fun page hpage => ?_⟩
    · rw [Vma.covers, decide_eq_true_iff, pageSize]
      omega
    · rw [pageSize]
      omega

/-- Pages behind the range that are unmapped too: as many mapped ones as the range has holes. -/
def overrun (d : Instance) (offset count : Nat) : List Nat :=
  (mappedPages d.unmapOps (offset + count) (d.dataPages - (offset + count))).take
    (count - (mappedPages d.unmapOps offset count).length)

section Clipped

variable {offset count : Nat}

/-- What the callback does to the clipped range. -/
theorem Clipped.call_eq (h : Clipped d vma start stop offset count) (ops : Nat → UnmapOp) :
    mnInvlRangeStart (d.withOps ops) start stop =
      (d.withOps (unmapAll ops
          (mappedPages ops offset count ++ overrun (d.withOps ops) offset count)),
        (mappedPages ops offset count ++ overrun (d.withOps ops) offset count).map .unmapPage) := by
  have hlo := h.offset_lt
  have hhi := h.end_le
  have hsplit : (mappedPages ops offset (d.dataPages - (offset + 1) + 1)).take count =
      mappedPages ops offset count ++ overrun (d.withOps ops) offset count := by
    rw [show d.dataPages - (offset + 1) + 1 = count + (d.dataPages - (offset + count)) by omega,
      mappedPages_add, List.take_append,
      List.take_of_length_le (length_mappedPages_le ops offset count)]
    rfl
  rw [h.call, unmapReceiverGrantPages, unmapPages_eq, Instance.withOps_dataPages,
    Instance.withOps_unmapOps, hsplit]
  rfl

/-- The pages of the mapping that the range covers and that are mapped are those the callback
finds. -/
theorem Clipped.filter_eq (h : Clipped d vma start stop offset count) :
    (mappedPages d.unmapOps 0 d.dataPages).filter (vma.covers start stop) =
      mappedPages d.unmapOps offset count := by
  have hlo := h.offset_lt
  have hhi := h.end_le
  rw [show d.dataPages = offset + (count + (d.dataPages - (offset + count))) by omega,
    mappedPages_add, mappedPages_add, Nat.zero_add, List.filter_append, List.filter_append]
  have hout : ∀ page < d.dataPages, (page < offset ∨ offset + count ≤ page) →
      ¬ vma.covers start stop page = true := by
    intro page hpage hside
    rw [h.covers page hpage]
    omega
  have hbefore : (mappedPages d.unmapOps 0 offset).filter (vma.covers start stop) = [] := by
    refine List.filter_eq_nil_iff.mpr fun page hpage => ?_
    have hmem := mem_mappedPages.mp hpage
    exact hout page (by omega) (by omega)
  have hbehind : (mappedPages d.unmapOps (offset + count) (d.dataPages - (offset + count))).filter
      (vma.covers start stop) = [] := by
    refine List.filter_eq_nil_iff.mpr fun page hpage => ?_
    have hmem := mem_mappedPages.mp hpage
    exact hout page (by omega) (by omega)
  have hin : (mappedPages d.unmapOps offset count).filter (vma.covers start stop) =
      mappedPages d.unmapOps offset count := by
    refine List.filter_eq_self.mpr fun page hpage => ?_
    have hmem := mem_mappedPages.mp hpage
    exact (h.covers page (by omega)).mpr (by omega)
  rw [hbefore, hbehind, hin, List.nil_append, List.append_nil]

/-- Nothing behind the range is unmapped exactly when the range has no hole or nothing behind it is
mapped. -/
theorem Clipped.overrun_eq_nil (h : Clipped d vma start stop offset count) :
    overrun d offset count = [] ↔ d.CoversNoHole vma start stop := by
  have hlo := h.offset_lt
  have hhi := h.end_le
  have hle := length_mappedPages_le d.unmapOps offset count
  rw [overrun, List.take_eq_nil_iff, Instance.CoversNoHole,
    show count - (mappedPages d.unmapOps offset count).length = 0 ↔
      (mappedPages d.unmapOps offset count).length = count by omega, length_mappedPages_eq_iff]
  refine or_congr ⟨fun hall page hpage hcovers => ?_, fun hall page hge hlt => ?_⟩ ?_
  · obtain ⟨hge, hlt⟩ := (h.covers page hpage).mp hcovers
    exact hall page hge hlt
  · exact hall page (by omega) ((h.covers page (by omega)).mpr ⟨hge, hlt⟩)
  · rw [List.eq_nil_iff_forall_not_mem]
    constructor
    · intro hnone page hpage hmapped
      by_contra hbehind
      exact hnone page (mem_mappedPages.mpr
        ⟨(h.behind page hpage).mpr (not_lt.mp hbehind), by omega, hmapped⟩)
    · intro hnone page hpage
      obtain ⟨hge, hlt, hmapped⟩ := mem_mappedPages.mp hpage
      have hstop := (h.behind page (by omega)).mp hge
      exact absurd (hnone page (by omega) hmapped) (not_lt.mpr hstop)

/-- No operation behind the last page is read, whatever the range. -/
theorem Clipped.inside (h : Clipped d vma start stop offset count) {ops : Nat → UnmapOp}
    (hops : ∀ page < d.dataPages, ops page = d.unmapOps page) :
    (mnInvlRangeStart (d.withOps ops) start stop).2 = (mnInvlRangeStart d start stop).2 := by
  have hhi := h.end_le
  have hmapped : ∀ lo n, lo + n ≤ d.dataPages →
      mappedPages ops lo n = mappedPages d.unmapOps lo n :=
    fun lo n hn => mappedPages_congr fun page _ hpage => hops page (by omega)
  have hself := h.call_eq d.unmapOps
  rw [Instance.withOps_self] at hself
  rw [h.call_eq ops, hself, overrun, overrun, Instance.withOps_dataPages, Instance.withOps_unmapOps,
    hmapped offset count hhi, hmapped _ _ (by omega)]

/-- When nothing behind the range is unmapped, the operations of the range are the changed ones. -/
theorem Clipped.unmapAll_eq (h : Clipped d vma start stop offset count) :
    unmapAll d.unmapOps (mappedPages d.unmapOps offset count) = d.invalidated vma start stop := by
  have hhi := h.end_le
  funext page
  simp only [unmapAll, mem_mappedPages, Instance.invalidated]
  by_cases hcovers : page < d.dataPages ∧ vma.covers start stop page = true
  · rw [if_pos hcovers]
    obtain ⟨hge, hlt⟩ := (h.covers page hcovers.1).mp hcovers.2
    by_cases hmapped : (d.unmapOps page).isMapped = true
    · rw [if_pos ⟨hge, hlt, hmapped⟩]
    · -- the handle of an unmapped page is -1 already
      have hhandle : (d.unmapOps page).handle = -1 := by simpa [UnmapOp.isMapped] using hmapped
      rw [if_neg fun hin => hmapped hin.2.2, ← hhandle]
  · rw [if_neg hcovers, if_neg fun hin => hcovers
      ⟨by omega, (h.covers page (by omega)).mpr ⟨hin.1, hin.2.1⟩⟩]

end Clipped

/-- One invalidation is exact exactly when its range has no holes that pages behind could fill. -/
theorem invalidatesExactly_iff (hd : d.MapsAt vma) (hstart : pageSize ∣ start)
    (hstop : pageSize ∣ stop) :
    InvalidatesExactly d vma start stop ↔ d.CoversNoHole vma start stop := by
  rcases clipped_cases hd hstart hstop with ⟨hcall, hnone⟩ | ⟨offset, count, h⟩
  · have hself := hcall d.unmapOps
    rw [Instance.withOps_self] at hself
    have hmapped : (mappedPages d.unmapOps 0 d.dataPages).filter (vma.covers start stop) = [] := by
      refine List.filter_eq_nil_iff.mpr fun page hpage => ?_
      have hmem := mem_mappedPages.mp hpage
      simp [hnone page (by omega)]
    have hops : d.invalidated vma start stop = d.unmapOps := by
      funext page
      exact if_neg fun hin => by simp [hnone page hin.1] at hin
    refine iff_of_true ⟨?_, ?_, fun ops _ => ?_⟩ (.inl fun page hpage hcovers => ?_)
    · rw [hself, hmapped]
      rfl
    · rw [hself, hops, Instance.withOps_self]
    · rw [hcall ops, hself]
    · simp [hnone page hpage] at hcovers
  · have hself := h.call_eq d.unmapOps
    rw [Instance.withOps_self] at hself
    rw [← h.overrun_eq_nil]
    constructor
    · intro hexact
      have hevents := hexact.events
      rw [h.filter_eq, hself] at hevents
      have hlen := congrArg List.length hevents
      simp only [List.length_map, List.length_append] at hlen
      exact List.length_eq_zero_iff.mp (by omega)
    · intro hnone
      rw [hnone, List.append_nil] at hself
      refine ⟨?_, ?_, fun ops => h.inside⟩
      · rw [h.filter_eq, hself]
      · rw [hself, h.unmapAll_eq]

/-- Unmapping pages leaves the mapping of the user where it is. -/
theorem Instance.MapsAt.withOps (hd : d.MapsAt vma) (ops : Nat → UnmapOp) :
    (d.withOps ops).MapsAt vma :=
  ⟨hd.state, hd.userMem, hd.pages, hd.aligned, hd.size⟩

end Range

/-- One call of the invalidation callback, as a step from instance to instance. -/
def invalidate (d : Instance) (range : Nat × Nat) : Option Instance :=
  some (mnInvlRangeStart d range.1 range.2).1

/-- The instance when the callback was called for each of the ranges in turn. -/
def invalidateAll (d : Instance) (ranges : List (Nat × Nat)) : Instance :=
  ranges.foldl (fun d range => (mnInvlRangeStart d range.1 range.2).1) d

/-- The unmapped pages are the union of the ranges and what was unmapped before. -/
theorem invalidateAll_handle {d : Instance} {vma : Vma} (hd : d.MapsAt vma)
    {ranges : List (Nat × Nat)}
    (haligned : ∀ range ∈ ranges, pageSize ∣ range.1 ∧ pageSize ∣ range.2)
    (hfine : Along invalidate (fun d range => d.CoversNoHole vma range.1 range.2) d ranges)
    (page : Nat) : ((invalidateAll d ranges).unmapOps page).handle =
      if page < d.dataPages ∧ ∃ range ∈ ranges, vma.covers range.1 range.2 page then -1
      else (d.unmapOps page).handle := by
  induction ranges generalizing d with
  | nil => simp [invalidateAll]
  | cons range ranges ih =>
    obtain ⟨hfirst, hrest⟩ := hfine _ rfl
    obtain ⟨hstart, hstop⟩ := haligned range List.mem_cons_self
    have hexact := (invalidatesExactly_iff hd hstart hstop).mpr hfirst
    rw [hexact.handles] at hrest
    have hlater := ih (hd.withOps _) (fun r hr => haligned r (List.mem_cons_of_mem range hr)) hrest
    have hall : invalidateAll d (range :: ranges) =
        invalidateAll (d.withOps (d.invalidated vma range.1 range.2)) ranges := by
      rw [← hexact.handles]
      rfl
    rw [hall, hlater]
    simp only [Instance.withOps_dataPages, Instance.withOps_unmapOps, Instance.invalidated,
      List.mem_cons, exists_eq_or_imp]
    by_cases hcovers : page < d.dataPages ∧ vma.covers range.1 range.2 page = true
    · simp [hcovers]
    · by_cases hpage : page < d.dataPages
      · have hout : ¬ vma.covers range.1 range.2 page = true := fun hc => hcovers ⟨hpage, hc⟩
        simp only [hout, Bool.false_eq_true, false_or, and_false, if_false]
      · simp [hpage]

/-- An invalidation is exact exactly when its range has no holes that pages behind it could fill,
and a sequence of such invalidations unmaps the union of the ranges. -/
theorem invalidates_exactly_iff (d : Instance) (vma : Vma) (hd : d.MapsAt vma) :
    (∀ start stop, pageSize ∣ start → pageSize ∣ stop →
      (InvalidatesExactly d vma start stop ↔ d.CoversNoHole vma start stop)) ∧
    ∀ ranges : List (Nat × Nat), (∀ range ∈ ranges, pageSize ∣ range.1 ∧ pageSize ∣ range.2) →
      Along invalidate (fun d range => d.CoversNoHole vma range.1 range.2) d ranges →
      ∀ page, ((invalidateAll d ranges).unmapOps page).handle =
        if page < d.dataPages ∧ ∃ range ∈ ranges, vma.covers range.1 range.2 page then -1
        else (d.unmapOps page).handle :=
  ⟨fun _ _ hstart hstop => invalidatesExactly_iff hd hstart hstop,
    fun _ haligned hfine => invalidateAll_handle hd haligned hfine⟩

/-- A mapping of three pages at address 0. -/
def Vma.threePages : Vma := ⟨0, 3 * pageSize, true, true⟩

/-- A receiver that has just mapped three data pages. -/
def Instance.threePages : Instance := { Instance.fresh with
  state := .receiverMapped
  pagesCount := 4
  userMem := some .threePages
  unmapOps := fun page => ⟨0, gntmapHostMap, 4 + page⟩ }

/-- The receiver of three pages is one whose user mapping has kept its bounds. -/
theorem Instance.mapsAt_threePages : Instance.threePages.MapsAt .threePages :=
  ⟨rfl, rfl, by decide, by decide, by decide⟩

/-- All three pages can be invalidated at once. -/
theorem invalidates_exactly_threePages :
    InvalidatesExactly .threePages .threePages 0 (3 * pageSize) :=
  ((invalidates_exactly_iff .threePages .threePages Instance.mapsAt_threePages).1
    0 (3 * pageSize) (by decide) (by decide)).mpr (.inl (by decide))

/-- When the second page is unmapped already, the invalidation of the first two unmaps the third. -/
theorem not_invalidates_exactly :
    (invalidateAll .threePages [(pageSize, 2 * pageSize)]).MapsAt .threePages ∧
    (mnInvlRangeStart (invalidateAll .threePages [(pageSize, 2 * pageSize)]) 0 (2 * pageSize)).2 =
      [.unmapPage 0, .unmapPage 2] ∧
    ¬ InvalidatesExactly (invalidateAll .threePages [(pageSize, 2 * pageSize)]) .threePages
      0 (2 * pageSize) :=
  ⟨⟨rfl, rfl, by decide, by decide, by decide⟩, by decide,
    fun h => absurd h.events (by decide)⟩

end XenShm.Kernel
