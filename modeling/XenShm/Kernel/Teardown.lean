import XenShm.Kernel.Free
import XenShm.Kernel.Granted
import XenShm.Kernel.MapOps
import XenShm.Kernel.Ready

/-!
# Repeated attempts to give an instance up

`__xen_shm_prepare_free` is called by release and then again by every sweep, until it succeeds.
The page count says where an offerer goes on, the handles what a receiver still has to unmap.
Whether the hypercall that unmaps the header page has failed is not looked at: then the status
is what was on the stack.
-/

namespace XenShm.Kernel

open Library

/-- What the hypercall that unmaps the header page does. -/
structure UnmapCall where
  /-- The value that the hypercall returns. -/
  ret : Int
  /-- The status it sets, unless it fails. -/
  status : Int
  /-- What the place of the status held before. -/
  stack : Int
  deriving DecidableEq, Repr

/-- The status that the code tests, which is not set when the hypercall fails. -/
def UnmapCall.found (c : UnmapCall) : Int := if c.ret = 0 then c.status else c.stack

/-- The hypercall unmaps the header page. -/
def UnmapCall.Unmaps (c : UnmapCall) : Prop := c.ret = 0 ∧ c.status = 0

/-- The hypercall fails and the status found looks like success. -/
def UnmapCall.FailsSilently (c : UnmapCall) : Prop := c.ret ≠ 0 ∧ c.stack = 0

/-- What one call of `__xen_shm_prepare_free` meets in the page and from the hypervisor. -/
structure FreeCall where
  /-- What the header page contains at that time. -/
  header : Header
  /-- Whether `gnttab_end_foreign_access_ref` ends the grant of the page. -/
  ended : Nat → Bool
  /-- What the hypercall for the header page does. -/
  unmap : UnmapCall

/-- The results that the function looks at, as it finds them. -/
def FreeCall.env (c : FreeCall) : FreeEnv := ⟨c.header, c.ended, c.unmap.found⟩

/-- The instance after one more call, as a step from instance to instance. -/
def retryFree (d : Instance) (call : FreeCall) : Option Instance :=
  some (prepareFree d call.env).2.1

/-- The call does not succeed, and the instance waits for another one. -/
def FailsFree (d : Instance) (call : FreeCall) : Prop := (prepareFree d call.env).1 ≠ .ok

instance (d : Instance) (call : FreeCall) : Decidable (FailsFree d call) :=
  inferInstanceAs (Decidable (_ ≠ _))

/-- The instance after some calls, and everything they did. -/
def freeAll (d : Instance) : List FreeCall → Instance × List Event
  | [] => (d, [])
  | call :: calls =>
    let (_, d, events) := prepareFree d call.env
    let (d, later) := freeAll d calls
    (d, events ++ later)

/-- The ends of the grants of the pages from `left` up to `count`, the last one first. -/
def endsFrom (refs : Nat → GrantRef) (count left : Nat) : List Event :=
  (List.range' left (count - left)).reverse.map fun page => .release (.grant (refs page))

/-- What is given back at last, in this order. -/
def Instance.held (d : Instance) : List Resource :=
  match d.state, d.unmappedArea with
  | .opened, _ => []
  | .offerer, _ =>
    [.handler d.ecIrq, .channel d.localEcPort, .pages d.sharedMemory d.offererAllocOrder]
  | _, none => [.headerMap d.headerHandle, .handler d.ecIrq, .channel d.localEcPort]
  | _, some addr =>
    [.headerMap d.headerHandle, .handler d.ecIrq, .channel d.localEcPort, .vmArea addr]

/-- The instance of an offerer or a receiver owns the pages or the vm area. -/
structure Instance.Initialised (d : Instance) : Prop where
  /-- The instance is an offerer or a receiver. -/
  state : d.state ≠ .opened
  /-- The pages of an offerer were allocated. -/
  pages : d.state = .offerer → d.sharedMemory ≠ 0
  /-- The vm area of a receiver was allocated. -/
  area : d.state ≠ .offerer → d.unmappedArea.isSome = true

/-- A sequence of calls, of which all but the last have failed, ends the grants one after the other
and gives back everything else when nobody uses it any more. -/
structure TornDown (refs : Nat → GrantRef) (d : Instance) (failed : List FreeCall)
    (call : FreeCall) : Prop where
  /-- The grants ended so far are the last ones, in their order and each once. -/
  grants : d.state = .offerer →
    (freeAll d (failed ++ [call])).2.filter Event.endsGrant =
      endsFrom refs d.pagesCount (freeAll d (failed ++ [call])).1.pagesCount
  /-- The last call resumes at the first grant not yet ended. -/
  resumes : d.state = .offerer →
    (prepareFree (freeAll d failed).1 call.env).2.2.filter Event.endsGrant =
      endsFrom refs (freeAll d failed).1.pagesCount (freeAll d (failed ++ [call])).1.pagesCount
  /-- A call for an offerer stops only at a grant that is in use. -/
  stops : d.state = .offerer → ∀ left, (freeAll d (failed ++ [call])).1.pagesCount = left + 1 →
    call.ended left = false
  /-- A call for an offerer succeeds exactly when no grant is left. -/
  ended : d.state = .offerer →
    (¬ FailsFree (freeAll d failed).1 call ↔ (freeAll d (failed ++ [call])).1.pagesCount = 0)
  /-- No data page is unmapped twice, by one call or by several. -/
  data : ∀ page, (freeAll d (failed ++ [call])).2.count (.unmapPage page) ≤ 1
  /-- The header page of a receiver stays mapped while the calls fail. -/
  mapped : d.state ≠ .offerer → ∀ c ∈ failed, ¬ c.unmap.Unmaps
  /-- A call for a receiver succeeds exactly when it unmaps the header page. -/
  unmapped : d.state ≠ .offerer → (¬ FailsFree (freeAll d failed).1 call ↔ call.unmap.Unmaps)
  /-- Everything else is given back once, by the first call that succeeds. -/
  once : ∀ r ∈ d.held, (freeAll d (failed ++ [call])).2.count (.release r) =
    if FailsFree (freeAll d failed).1 call then 0 else 1
  /-- The call that succeeds gives back everything else behind the grants and the pages. -/
  last : ¬ FailsFree (freeAll d failed).1 call →
    ∃ earlier, (prepareFree (freeAll d failed).1 call.env).2.2 = earlier ++ d.held.map .release

section Calls

variable {refs : Nat → GrantRef} {d : Instance} {env : FreeEnv} {call : FreeCall}
  {calls failed : List FreeCall} {n m left page : Nat}

/-- From a number down to itself no grant is ended. -/
theorem endsFrom_self (refs : Nat → GrantRef) (n : Nat) : endsFrom refs n n = [] := by
  simp [endsFrom]

/-- To end the grants down to one page and then down to another is to end them in one go. -/
theorem endsFrom_append (refs : Nat → GrantRef) (hm : m ≤ n) (hleft : left ≤ m) :
    endsFrom refs n m ++ endsFrom refs m left = endsFrom refs n left := by
  obtain ⟨a, rfl⟩ := Nat.exists_eq_add_of_le hleft
  obtain ⟨b, rfl⟩ := Nat.exists_eq_add_of_le hm
  rw [endsFrom, endsFrom, endsFrom, ← List.map_append, ← List.reverse_append]
  simp only [Nat.add_sub_cancel_left, show left + a + b - left = a + b by omega]
  rw [List.range'_append_1]

@[simp] theorem filter_endsFrom (refs : Nat → GrantRef) (n left : Nat) :
    (endsFrom refs n left).filter Event.endsGrant = endsFrom refs n left := by
  refine List.filter_eq_self.mpr fun e he => ?_
  obtain ⟨page, -, rfl⟩ := List.mem_map.mp he
  rfl

/-- The loop of an offerer ends the last grants, until one is in use. -/
theorem endGrants_eq (h : Header) (ended : Nat → Bool) (n : Nat) :
    ∃ left ≤ n, endGrants h ended n = (left, endsFrom h.grantRefs n left) ∧
      ∀ l, left = l + 1 → ended l = false := by
  induction n with
  | zero => exact ⟨0, Nat.le_refl 0, rfl, fun l hl => by omega⟩
  | succ n ih =>
    obtain ⟨left, hle, heq, hstop⟩ := ih
    by_cases hn : ended n = true
    · refine ⟨left, by omega, ?_, hstop⟩
      have hone : endsFrom h.grantRefs (n + 1) n = [.release (.grant (h.grantRefs n))] := by
        simp [endsFrom]
      rw [← endsFrom_append h.grantRefs (Nat.le_succ n) hle, hone]
      simp only [endGrants, if_pos hn, heq, List.singleton_append]
    · refine ⟨n + 1, Nat.le_refl _, ?_, fun l hl => ?_⟩
      · simp only [endGrants, if_neg hn, endsFrom_self]
      · obtain rfl : n = l := by omega
        exact Bool.not_eq_true _ ▸ hn

/-- The last of several calls goes on where those before it have stopped. -/
theorem freeAll_concat (d : Instance) (failed : List FreeCall) (call : FreeCall) :
    freeAll d (failed ++ [call]) = ((prepareFree (freeAll d failed).1 call.env).2.1,
      (freeAll d failed).2 ++ (prepareFree (freeAll d failed).1 call.env).2.2) := by
  induction failed generalizing d with
  | nil => simp [freeAll]
  | cons c failed ih =>
    simp only [List.cons_append, freeAll, ih, List.append_assoc]

/-- The instance of an offerer with the grants of so many pages. -/
def Instance.withLeft (d : Instance) (left : Nat) : Instance := { d with pagesCount := left }

@[simp] theorem Instance.withLeft_state (d : Instance) (left : Nat) :
    (d.withLeft left).state = d.state := rfl

@[simp] theorem Instance.withLeft_pagesCount (d : Instance) (left : Nat) :
    (d.withLeft left).pagesCount = left := rfl

@[simp] theorem Instance.withLeft_withLeft (d : Instance) (n left : Nat) :
    (d.withLeft n).withLeft left = d.withLeft left := rfl

@[simp] theorem Instance.held_withLeft (d : Instance) (left : Nat) :
    (d.withLeft left).held = d.held := rfl

/-- What an offerer gives back when its last grant was ended. -/
theorem released_offerer (hpages : d.sharedMemory ≠ 0) (hd : d.state = .offerer) :
    closeEc d ++ freeSharedMemoryOfferer d = d.held.map .release := by
  simp [closeEc, freeSharedMemoryOfferer, Instance.held, hd, hpages]

/-- One call for an offerer ends grants from the last page down, and gives back the rest at the
end. -/
theorem prepareFree_offerer (hpages : d.sharedMemory ≠ 0) (hd : d.state = .offerer)
    (call : FreeCall) :
    ∃ left ≤ d.pagesCount, (∀ l, left = l + 1 → call.ended l = false) ∧
      (left ≠ 0 ∧ prepareFree d call.env = (.error (.code (-1)), d.withLeft left,
          endsFrom call.header.grantRefs d.pagesCount left) ∨
        left = 0 ∧ prepareFree d call.env = (.ok, d.withLeft left,
          endsFrom call.header.grantRefs d.pagesCount left ++ d.held.map .release)) := by
  obtain ⟨left, hle, hends, hstop⟩ := endGrants_eq call.header call.ended d.pagesCount
  refine ⟨left, hle, hstop, ?_⟩
  have hcall : prepareFree d call.env =
      if left ≠ 0 then (.error (.code (-1)), d.withLeft left,
        endsFrom call.header.grantRefs d.pagesCount left)
      else (.ok, d.withLeft left, endsFrom call.header.grantRefs d.pagesCount left ++ closeEc d ++
        freeSharedMemoryOfferer d) := by
    have hoffers : prepareFree d call.env = prepareFreeOfferer d call.env := by
      simp only [prepareFree, hd]
    have hloop : endGrants call.env.header call.env.ended d.pagesCount = _ := hends
    rw [hoffers, prepareFreeOfferer, hloop]
    rfl
  by_cases hleft : left = 0
  · refine .inr ⟨hleft, ?_⟩
    rw [hcall, if_neg (not_not_intro hleft), ← released_offerer hpages hd, ← List.append_assoc]
  · exact .inl ⟨hleft, by rw [hcall, if_pos hleft]⟩

/-- What failed calls leave of an offerer: the first grants. -/
theorem freeAll_offerer (hpages : d.sharedMemory ≠ 0) (hd : d.state = .offerer)
    (hpeer : ∀ c ∈ failed, c.header.grantRefs = refs)
    (hfailed : Along retryFree FailsFree d failed) : ∃ left ≤ d.pagesCount,
    freeAll d failed = (d.withLeft left, endsFrom refs d.pagesCount left) := by
  induction failed generalizing d with
  | nil => exact ⟨d.pagesCount, Nat.le_refl _, by rw [endsFrom_self]; rfl⟩
  | cons call failed ih =>
    obtain ⟨hfails, hrest⟩ := hfailed _ rfl
    obtain ⟨left, hle, -, ⟨-, hcall⟩ | ⟨-, hcall⟩⟩ := prepareFree_offerer hpages hd call
    swap
    · exact absurd (by rw [hcall]) hfails
    rw [hpeer call List.mem_cons_self] at hcall
    simp only [hcall] at hrest
    obtain ⟨last, hlast, hlater⟩ := ih (d := d.withLeft left) hpages hd
      (fun c hc => hpeer c (List.mem_cons_of_mem _ hc)) hrest
    rw [Instance.withLeft_pagesCount] at hlast hlater
    refine ⟨last, hlast.trans hle, ?_⟩
    simp only [freeAll, hcall, hlater, endsFrom_append refs hle hlast, Instance.withLeft_withLeft]

/-- The data pages that a call for this instance unmaps. -/
def Instance.stillMapped (d : Instance) : List Nat :=
  if d.state = .receiverMapped ∧ d.usePtemod = false then
    (mappedPages d.unmapOps 0 (d.dataPages - 1 + 1)).take d.dataPages
  else []

/-- The instance of a receiver when these pages are unmapped. -/
def Instance.unmapStill (d : Instance) : Instance :=
  d.withOps (unmapAll d.unmapOps d.stillMapped)

/-- The data pages of a receiver are unmapped first. -/
theorem prepareFree_eq (hopened : d.state ≠ .opened) (hd : d.state ≠ .offerer) (env : FreeEnv) :
    prepareFree d env = prepareFreeReceiver d.unmapStill env (d.stillMapped.map .unmapPage) := by
  rw [Instance.unmapStill]
  cases hstate : d.state with
  | opened => exact absurd hstate hopened
  | offerer => exact absurd hstate hd
  | receiver => simp [prepareFree, hstate, Instance.stillMapped]
  | receiverMapped =>
    cases hpte : d.usePtemod with
    | true => simp [prepareFree, hstate, hpte, Instance.stillMapped]
    | false =>
      simp [prepareFree, hstate, hpte, Instance.stillMapped, unmapReceiverGrantPages, unmapPages_eq,
        Instance.withOps]

/-- What a receiver gives back when its header page was unmapped. -/
theorem released_receiver (hopened : d.state ≠ .opened) (hd : d.state ≠ .offerer) :
    [.release (.headerMap d.headerHandle)] ++ closeEc d ++ freeSharedMemoryReceiver d =
      d.held.map .release := by
  cases hstate : d.state with
  | opened => exact absurd hstate hopened
  | offerer => exact absurd hstate hd
  | receiver =>
    cases harea : d.unmappedArea <;>
      simp [Instance.held, closeEc, freeSharedMemoryReceiver, hstate, harea]
  | receiverMapped =>
    cases harea : d.unmappedArea <;>
      simp [Instance.held, closeEc, freeSharedMemoryReceiver, hstate, harea]

/-- One call for a receiver unmaps the data pages, and gives back the rest if the header page
goes. -/
theorem prepareFree_receiver (hopened : d.state ≠ .opened) (hd : d.state ≠ .offerer)
    (call : FreeCall) :
    call.unmap.found ≠ 0 ∧ prepareFree d call.env =
        (.error (.code (-1)), d.unmapStill, d.stillMapped.map .unmapPage) ∨
      call.unmap.found = 0 ∧ prepareFree d call.env =
        (.ok, { d.unmapStill with pagesCount := d.pagesCount - 1 },
          d.stillMapped.map .unmapPage ++ d.held.map .release) := by
  rw [prepareFree_eq hopened hd, prepareFreeReceiver]
  by_cases hfound : call.env.unmapStatus = 0
  · refine .inr ⟨hfound, ?_⟩
    rw [if_pos hfound, ← released_receiver hopened hd]
    simp only [List.append_assoc]
    rfl
  · exact .inl ⟨hfound, if_neg hfound⟩

/-- No data page is listed twice among those that are mapped. -/
theorem nodup_stillMapped (d : Instance) : d.stillMapped.Nodup := by
  unfold Instance.stillMapped
  split
  · exact (nodup_mappedPages ..).sublist (List.take_sublist ..)
  · exact List.nodup_nil

/-- Only pages that are mapped are listed for a call. -/
theorem isMapped_of_mem_stillMapped (h : page ∈ d.stillMapped) :
    (d.unmapOps page).isMapped = true := by
  unfold Instance.stillMapped at h
  split at h
  · exact (mem_mappedPages.mp (List.mem_of_mem_take h)).2.2
  · cases h

/-- To unmap two lists of pages is to unmap one after the other. -/
theorem unmapAll_append (ops : Nat → UnmapOp) (pages later : List Nat) :
    unmapAll (unmapAll ops pages) later = unmapAll ops (pages ++ later) := by
  funext page
  by_cases hpages : page ∈ pages <;> by_cases hlater : page ∈ later <;>
    simp [unmapAll, hpages, hlater]

/-- What failed calls leave of a receiver: everything but some data pages, each unmapped once. -/
theorem freeAll_receiver (hopened : d.state ≠ .opened) (hd : d.state ≠ .offerer)
    (hfailed : Along retryFree FailsFree d failed) : ∃ pages : List Nat, pages.Nodup ∧
      (∀ page ∈ pages, (d.unmapOps page).isMapped = true) ∧
      freeAll d failed = (d.withOps (unmapAll d.unmapOps pages), pages.map .unmapPage) ∧
      ∀ c ∈ failed, c.unmap.found ≠ 0 := by
  induction failed generalizing d with
  | nil => exact ⟨[], List.nodup_nil, by simp, by simp [freeAll], by simp⟩
  | cons call failed ih =>
    obtain ⟨hfails, hrest⟩ := hfailed _ rfl
    rcases prepareFree_receiver hopened hd call with ⟨hfound, hcall⟩ | ⟨-, hcall⟩
    swap
    · exact absurd (by rw [hcall]) hfails
    simp only [hcall] at hrest
    obtain ⟨pages, hnodup, hpages, hlater, hothers⟩ := ih (d := d.unmapStill) hopened hd hrest
    simp only [Instance.unmapStill, Instance.withOps_unmapOps] at hpages hlater
    -- what a later call unmaps was still mapped after this one
    have hnot : ∀ page ∈ pages, page ∉ d.stillMapped := by
      intro page hpage hmem
      have hmapped := hpages page hpage
      simp [unmapAll, hmem, UnmapOp.isMapped] at hmapped
    refine ⟨d.stillMapped ++ pages, ?_, ?_, ?_, ?_⟩
    · refine List.nodup_append.mpr ⟨nodup_stillMapped d, hnodup, ?_⟩
      rintro page hmem _ hpage rfl
      exact hnot page hpage hmem
    · intro page hpage
      rcases List.mem_append.mp hpage with hmem | hmem
      · exact isMapped_of_mem_stillMapped hmem
      · have hmapped := hpages page hmem
        rwa [unmapAll, if_neg (hnot page hmem)] at hmapped
    · simp only [freeAll, hcall, Instance.unmapStill, hlater, unmapAll_append, List.map_append]
      rfl
    · exact List.forall_mem_cons.mpr ⟨hfound, hothers⟩

/-- An instance holds each of its resources once. -/
theorem nodup_held (d : Instance) : d.held.Nodup := by
  unfold Instance.held
  split <;> simp

/-- What an instance holds is given back once by a call that gives back all of it. -/
theorem count_held {r : Resource} (h : r ∈ d.held) :
    (d.held.map Event.release).count (.release r) = 1 :=
  List.count_eq_one_of_mem ((nodup_held d).map fun _ _ h => Event.release.inj h)
    (List.mem_map_of_mem h)

/-- To unmap data pages gives back none of the resources. -/
theorem count_unmapPages (pages : List Nat) (r : Resource) :
    (pages.map Event.unmapPage).count (.release r) = 0 :=
  List.count_eq_zero.mpr (by simp)

/-- To give back the resources unmaps none of the data pages. -/
theorem count_release (held : List Resource) (page : Nat) :
    (held.map Event.release).count (.unmapPage page) = 0 :=
  List.count_eq_zero.mpr (by simp)

/-- The grants of an offerer are not among what it gives back at last. -/
theorem filter_held (hd : d.state = .offerer) :
    (d.held.map Event.release).filter Event.endsGrant = [] := by
  simp [Instance.held, hd, Event.endsGrant]

/-- To end the grants of an offerer gives back nothing else that it holds. -/
theorem count_endsFrom (hd : d.state = .offerer) {r : Resource} (h : r ∈ d.held) (n left : Nat) :
    (endsFrom refs n left).count (.release r) = 0 := by
  refine List.count_eq_zero.mpr fun hmem => ?_
  obtain ⟨page, -, heq⟩ := List.mem_map.mp hmem
  obtain rfl := Event.release.inj heq
  simp [Instance.held, hd] at h

/-- An offerer always gives itself up as it should. -/
theorem TornDown.of_offerer (hpages : d.sharedMemory ≠ 0) (hd : d.state = .offerer)
    (hpeer : ∀ c ∈ failed ++ [call], c.header.grantRefs = refs)
    (hfailed : Along retryFree FailsFree d failed) : TornDown refs d failed call := by
  obtain ⟨before, hbefore, hrun⟩ :=
    freeAll_offerer hpages hd (fun c hc => hpeer c (List.mem_append_left _ hc)) hfailed
  obtain ⟨left, hleft, hstop, hcases⟩ :=
    prepareFree_offerer (d := d.withLeft before) hpages hd call
  rw [hpeer call (by simp), Instance.withLeft_pagesCount] at hcases
  simp only [Instance.withLeft_withLeft, Instance.held_withLeft] at hcases
  -- what the last call does behind the grants
  obtain ⟨result, tail, hcall, hfails, htail⟩ : ∃ result tail,
      prepareFree (d.withLeft before) call.env =
        (result, d.withLeft left, endsFrom refs before left ++ tail) ∧
      (result ≠ .ok ↔ left ≠ 0) ∧ tail = if left = 0 then d.held.map .release else [] := by
    rcases hcases with ⟨hzero, hcall⟩ | ⟨hzero, hcall⟩
    · exact ⟨_, [], by rw [hcall, List.append_nil], iff_of_true (by simp) hzero,
        by rw [if_neg hzero]⟩
    · exact ⟨_, _, hcall, iff_of_false (by simp) (not_not_intro hzero), by rw [if_pos hzero]⟩
  have hfree : FailsFree (freeAll d failed).1 call ↔ left ≠ 0 := by
    rwa [FailsFree, hrun, hcall]
  have hall : freeAll d (failed ++ [call]) =
      (d.withLeft left, endsFrom refs d.pagesCount left ++ tail) := by
    rw [freeAll_concat, hrun, hcall, ← List.append_assoc, endsFrom_append refs hbefore hleft]
  have hnone : tail.filter Event.endsGrant = [] := by
    rw [htail]
    split
    · exact filter_held hd
    · rfl
  constructor
  · intro _
    rw [hall, List.filter_append, hnone, filter_endsFrom, List.append_nil]
    rfl
  · intro _
    rw [hall, hrun, hcall, List.filter_append, hnone, filter_endsFrom, List.append_nil]
    rfl
  · intro _ l hl
    rw [hall] at hl
    exact hstop l hl
  · intro _
    rw [hfree, hall, not_not]
    rfl
  · intro page
    have hends : (endsFrom refs d.pagesCount left).count (.unmapPage page) = 0 :=
      List.count_eq_zero.mpr (by simp [endsFrom])
    rw [hall, List.count_append, hends, htail]
    split
    · rw [count_release]
      exact Nat.zero_le _
    · exact Nat.zero_le _
  · exact fun h => absurd hd h
  · exact fun h => absurd hd h
  · intro r hr
    rw [hall, List.count_append, count_endsFrom hd hr, htail]
    by_cases hzero : left = 0
    · rw [if_pos hzero, if_neg (by rw [hfree]; exact not_not_intro hzero), count_held hr]
    · rw [if_neg hzero, if_pos (hfree.mpr hzero)]
      rfl
  · intro h
    rw [hfree, not_not] at h
    rw [hrun, hcall, htail, if_pos h]
    exact ⟨_, rfl⟩

/-- A receiver does unless the failure of the hypercall is not seen. -/
theorem tornDown_receiver_iff (hopened : d.state ≠ .opened) (hd : d.state ≠ .offerer)
    (hfailed : Along retryFree FailsFree d failed) :
    TornDown refs d failed call ↔ ∀ c ∈ failed ++ [call], ¬ c.unmap.FailsSilently := by
  obtain ⟨pages, hnodup, -, hrun, hfound⟩ := freeAll_receiver hopened hd hfailed
  have hcases := prepareFree_receiver (d := d.withOps (unmapAll d.unmapOps pages)) hopened hd call
  have hfree : FailsFree (freeAll d failed).1 call ↔ call.unmap.found ≠ 0 := by
    rw [FailsFree, hrun]
    rcases hcases with ⟨hne, hcall⟩ | ⟨heq, hcall⟩
    · exact iff_of_true (by rw [hcall]; simp) hne
    · exact iff_of_false (by rw [hcall]; simp) (not_not_intro heq)
  constructor
  · intro h c hc hsilent
    -- the call has found the status 0, so it is the last one, and the header page is unmapped
    have hzero : c.unmap.found = 0 := by rw [UnmapCall.found, if_neg hsilent.1, hsilent.2]
    rcases List.mem_append.mp hc with hmem | hmem
    · exact hfound c hmem hzero
    · obtain rfl := List.mem_singleton.mp hmem
      exact hsilent.1 ((h.unmapped hd).mp (by rw [hfree]; exact not_not_intro hzero)).1
  · intro hseen
    have hunmaps : ∀ c ∈ failed ++ [call], (c.unmap.found = 0 ↔ c.unmap.Unmaps) := by
      intro c hc
      rw [UnmapCall.found, UnmapCall.Unmaps]
      by_cases hret : c.unmap.ret = 0
      · rw [if_pos hret, and_iff_right hret]
      · rw [if_neg hret]
        exact iff_of_false (fun h => hseen c hc ⟨hret, h⟩) fun h => hret h.1
    have hlast := hunmaps call (by simp)
    -- the pages unmapped by the last call
    obtain ⟨later, result, after, tail, hcall, hlater, hmapped, htail⟩ :
        ∃ (later : List Nat) (result : Result) (after : Instance) (tail : List Event),
        prepareFree (d.withOps (unmapAll d.unmapOps pages)) call.env =
          (result, after, later.map Event.unmapPage ++ tail) ∧ later.Nodup ∧
        (∀ page ∈ later, page ∉ pages) ∧
        tail = if call.unmap.found = 0 then d.held.map .release else [] := by
      have hnot : ∀ page ∈ (d.withOps (unmapAll d.unmapOps pages)).stillMapped, page ∉ pages := by
        intro page hpage hmem
        have hmapped := isMapped_of_mem_stillMapped hpage
        simp [unmapAll, hmem, UnmapOp.isMapped] at hmapped
      rcases hcases with ⟨hne, hcall⟩ | ⟨heq, hcall⟩
      · exact ⟨_, _, _, [], by rw [hcall, List.append_nil], nodup_stillMapped _, hnot,
          by rw [if_neg hne]⟩
      · exact ⟨_, _, _, _, hcall, nodup_stillMapped _, hnot, by rw [if_pos heq]; rfl⟩
    have hall : (freeAll d (failed ++ [call])).2 = (pages ++ later).map .unmapPage ++ tail := by
      rw [freeAll_concat, hrun, hcall, List.map_append, List.append_assoc]
    constructor
    · exact fun h => absurd h hd
    · exact fun h => absurd h hd
    · exact fun h => absurd h hd
    · exact fun h => absurd h hd
    · intro page
      have honce : ((pages ++ later).map Event.unmapPage).Nodup := by
        refine List.Nodup.map (fun _ _ h => Event.unmapPage.inj h) ?_
        refine List.nodup_append.mpr ⟨hnodup, hlater, ?_⟩
        rintro page hmem _ hpage rfl
        exact hmapped page hpage hmem
      have hnone : tail.count (.unmapPage page) = 0 := by
        rw [htail]
        split
        · exact count_release _ _
        · rfl
      rw [hall, List.count_append, hnone]
      exact List.nodup_iff_count_le_one.mp honce _
    · intro _ c hc h
      exact hfound c hc ((hunmaps c (List.mem_append_left _ hc)).mpr h)
    · intro _
      rw [hfree, not_not]
      exact hlast
    · intro r hr
      rw [hall, List.count_append, count_unmapPages, htail]
      by_cases hzero : call.unmap.found = 0
      · rw [if_pos hzero, if_neg (by rw [hfree]; exact not_not_intro hzero), count_held hr]
      · rw [if_neg hzero, if_pos (hfree.mpr hzero)]
        rfl
    · intro h
      rw [hfree, not_not] at h
      rw [hrun, hcall, htail, if_pos h]
      exact ⟨_, rfl⟩

end Calls

section Initialised

variable {d : Instance}

/-- INIT leaves an offerer that owns its pages. -/
theorem OffererReady.initialised {arg : OffererArg} {env : OffererEnv} {o : Outcome OffererArg}
    (h : OffererReady arg env o) : o.data.Initialised where
  state := by simp [h.state]
  pages _ := h.sharedMemory ▸ h.alloc
  area hn := absurd h.state hn

/-- INIT leaves a receiver that owns its vm area. -/
theorem ReceiverReady.initialised {arg : ReceiverArg} {env : ReceiverEnv}
    {o : Outcome ReceiverArg} (h : ReceiverReady d arg env o) : o.data.Initialised where
  state := by simp [h.state]
  pages hs := by simp [h.state] at hs
  area _ := h.area

/-- The mmu notifier changes nothing but the handles. -/
theorem mnInvlRangeStart_withOps (d : Instance) (start stop : Nat) :
    ∃ ops, (mnInvlRangeStart d start stop).1 = d.withOps ops := by
  unfold mnInvlRangeStart
  split
  · exact ⟨d.unmapOps, rfl⟩
  · split
    · exact ⟨d.unmapOps, rfl⟩
    · exact ⟨_, rfl⟩

/-- The preparations of mmap leave the memory of the instance alone. -/
theorem prepare_memory (d : Instance) (vma : Vma) (env : MmapEnv) :
    (d.prepare vma env).sharedMemory = d.sharedMemory ∧
      (d.prepare vma env).unmappedArea = d.unmappedArea := by
  obtain ⟨ops, unmaps, kops, hprep⟩ := prepare_shape d vma env
  rw [hprep]
  exact ⟨rfl, rfl⟩

/-- A failed mmap that cleans up keeps the pages and the vm area. -/
theorem clean_memory (d : Instance) (events : List Event) :
    (clean d events).2.1.sharedMemory = d.sharedMemory ∧
      (clean d events).2.1.unmappedArea = d.unmappedArea ∧
      (clean d events).2.1.state = d.state := by
  have heq : (clean d events).2.1 = { (cleanUnmap d d.dataPages 0).1 with userMem := none } := rfl
  rw [heq, cleanUnmap_eq]
  exact ⟨rfl, rfl, rfl⟩

/-- The mmap of a receiver keeps the pages and the vm area, however it ends. -/
theorem mapEverything_memory (d : Instance) (vma : Vma) (env : MmapEnv) (events : List Event) :
    (mapEverything d vma env events).2.1.sharedMemory = d.sharedMemory ∧
      (mapEverything d vma env events).2.1.unmappedArea = d.unmappedArea ∧
      ((mapEverything d vma env events).2.1.state = d.state ∨
        (mapEverything d vma env events).2.1.state = .receiverMapped) := by
  rcases mapEverything_cases d vma env events with ⟨-, heq⟩ | ⟨-, -, heq⟩ | ⟨-, -, inserted, -, heq⟩
  · rw [heq]
    exact ⟨rfl, rfl, .inr rfl⟩
  · rw [heq]
    obtain ⟨hmem, harea, hstate⟩ := clean_memory d events
    exact ⟨hmem, harea, .inl hstate⟩
  · rw [heq]
    obtain ⟨hmem, harea, hstate⟩ :=
      clean_memory ((hypervisorMap d env).withOps (env.handled d)) (events ++ inserted)
    exact ⟨hmem, harea, .inl hstate⟩

/-- Only mmap of a receiver changes anything, when it does not refuse the mapping. -/
theorem mmap_refused {vma : Vma} {env : MmapEnv} (h : ¬ (d.state = .receiver ∧ vma.fits d)) :
    (mmap d vma env).2.1 = d := by
  unfold mmap
  by_cases hwrite : vma.write ∧ ¬ vma.shared
  · rw [if_pos hwrite]
  rw [if_neg hwrite]
  cases hstate : d.state with
  | receiver =>
    simp only
    rw [if_pos fun hsize => h ⟨hstate, hsize, hwrite⟩]
  | offerer =>
    simp only
    split_ifs <;> rfl
  | opened => rfl
  | receiverMapped => rfl

/-- mmap keeps the memory and does not go back to an opened instance. -/
theorem mmap_memory (d : Instance) (vma : Vma) (env : MmapEnv) :
    (mmap d vma env).2.1.sharedMemory = d.sharedMemory ∧
      (mmap d vma env).2.1.unmappedArea = d.unmappedArea ∧
      ((mmap d vma env).2.1.state = d.state ∨
        d.state = .receiver ∧ (mmap d vma env).2.1.state = .receiverMapped) := by
  by_cases hcall : d.state = .receiver ∧ vma.fits d
  swap
  · rw [mmap_refused hcall]
    exact ⟨rfl, rfl, .inl rfl⟩
  obtain ⟨hd, hfits⟩ := hcall
  rw [mmap_of_fits hd hfits]
  obtain ⟨hmem, harea⟩ := prepare_memory d vma env
  have hstate := (prepare_frame d vma env).1
  rcases mmapReceiver_cases d vma env with ⟨-, heq⟩ | ⟨-, -, -, heq⟩ | ⟨-, -, heq⟩
  · rw [heq]
    exact ⟨rfl, rfl, .inl rfl⟩
  · rw [heq, applyToPageRange_eq]
    exact ⟨rfl, rfl, .inl rfl⟩
  · rw [heq]
    obtain ⟨hmem', harea', hstate'⟩ :=
      mapEverything_memory (d.prepare vma env) vma env [.acquire (.balloon d.dataPages)]
    exact ⟨hmem'.trans hmem, harea'.trans harea,
      hstate'.imp (fun h => h.trans hstate) fun h => ⟨hd, h⟩⟩

/-- An mmap keeps an initialised instance initialised, whatever it returns. -/
theorem Instance.Initialised.mmap (h : d.Initialised) (vma : Vma) (env : MmapEnv) :
    (Kernel.mmap d vma env).2.1.Initialised := by
  obtain ⟨hmem, harea, hstate⟩ := mmap_memory d vma env
  constructor
  · rcases hstate with hstate | ⟨-, hstate⟩
    · rw [hstate]
      exact h.state
    · simp [hstate]
  · intro hoffers
    rw [hmem]
    rcases hstate with hstate | ⟨-, hstate⟩
    · exact h.pages (hstate ▸ hoffers)
    · simp [hstate] at hoffers
  · intro hreceives
    rw [harea]
    rcases hstate with hstate | ⟨hstate, -⟩
    · exact h.area (hstate ▸ hreceives)
    · exact h.area (by simp [hstate])

/-- An invalidation keeps an initialised instance initialised. -/
theorem Instance.Initialised.invalidate (h : d.Initialised) (start stop : Nat) :
    (mnInvlRangeStart d start stop).1.Initialised := by
  obtain ⟨ops, heq⟩ := mnInvlRangeStart_withOps d start stop
  rw [heq]
  exact ⟨h.state, h.pages, h.area⟩

end Initialised

/-- Whatever an initialised instance meets while it is given up, everything happens once and in
order exactly as long as no failure of the hypercall is taken for success. -/
theorem teardown_resumes_iff (d : Instance) (hd : d.Initialised) (refs : Nat → GrantRef)
    (failed : List FreeCall) (call : FreeCall)
    (hpeer : ∀ c ∈ failed ++ [call], c.header.grantRefs = refs)
    (hfailed : Along retryFree FailsFree d failed) :
    TornDown refs d failed call ↔
      d.state = .offerer ∨ ∀ c ∈ failed ++ [call], ¬ c.unmap.FailsSilently := by
  by_cases hstate : d.state = .offerer
  · exact iff_of_true (.of_offerer (hd.pages hstate) hstate hpeer hfailed) (.inl hstate)
  · rw [or_iff_right hstate]
    exact tornDown_receiver_iff hd.state hstate hfailed

/-- A call that finds the header page in use by the peer. -/
def FreeCall.busy : FreeCall := ⟨.zero, fun page => page ≠ 0, ⟨0, 1, 0⟩⟩

/-- A call that finds nothing in use by the peer any more. -/
def FreeCall.free : FreeCall := ⟨.zero, fun _ => true, ⟨0, 0, 0⟩⟩

/-- The hypercall fails above a zero on the stack. -/
def FreeCall.broken : FreeCall := ⟨.zero, fun _ => true, ⟨-14, 1, 0⟩⟩

/-- An offerer of one data page and the header page. -/
def Instance.twoPages : Instance := { Instance.fresh with
  state := .offerer
  pagesCount := 2
  sharedMemory := pageSize }

/-- Two calls find the header page in use, and the third one ends its grant and frees the pages. -/
theorem teardown_resumes_twoPages : TornDown (fun _ => 0) .twoPages [.busy, .busy] .free :=
  (teardown_resumes_iff .twoPages ⟨by decide, by decide, by decide⟩ (fun _ => 0) [.busy, .busy]
    .free (by simp [FreeCall.busy, FreeCall.free, Header.zero]) (by decide)).mpr (.inl rfl)

/-- A receiver that has not mapped its data page. -/
def Instance.oneArea : Instance := { Instance.fresh with
  state := .receiver
  pagesCount := 2
  sharedMemory := pageSize
  unmappedArea := some pageSize }

/-- The area is given back with the header page mapped in it. -/
theorem not_teardown_resumes : (prepareFree .oneArea FreeCall.broken.env).1 = .ok ∧
    .release (.vmArea pageSize) ∈ (prepareFree .oneArea FreeCall.broken.env).2.2 ∧
    ¬ FreeCall.broken.unmap.Unmaps ∧ ¬ TornDown (fun _ => 0) .oneArea [] .broken :=
  ⟨by decide, by decide, fun h => absurd h.1 (by decide), fun h => absurd
    ((h.unmapped (by decide)).mp (by decide)).1 (by decide)⟩

end XenShm.Kernel
