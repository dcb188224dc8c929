import XenShm.Kernel.Init

/-!
# The grants of an offerer

INIT_OFFERER grants one page after the other and tests each result when it has been stored in
the header page, whose field is unsigned. Here its outcome is compared with that of a loop
that sees every failure.
-/

namespace XenShm.Kernel

/-- The event is the end of a grant. -/
def Event.endsGrant : Event → Bool
  | .release (.grant _) => true
  | _ => false

/-- The grants of the pages before `page`, in the order in which they are made. -/
def madeGrants (grant : Nat → Int) : (page : Nat) → List Event
  | 0 => []
  | page + 1 => madeGrants grant page ++ [.acquire (.grant (.ofInt (grant page)))]

/-- The ends of these grants, the last one first. -/
def endedGrants (grant : Nat → Int) : (page : Nat) → List Event
  | 0 => []
  | page + 1 => .release (.grant (.ofInt (grant page))) :: endedGrants grant page

/-- The pages are allocated, and the grant of this one is the first that fails. -/
structure OffererEnv.FirstFails (env : OffererEnv) (page : Nat) : Prop where
  /-- The pages to be granted are allocated. -/
  alloc : env.alloc ≠ 0
  /-- The grant of this page is refused. -/
  fails : env.grant page < 0
  /-- The grants of the pages before it are made. -/
  before : ∀ i < page, 0 ≤ env.grant i

/-- INIT_OFFERER succeeds only with a grant for every page, which the header lists, and undoes
exactly what it did when one is refused. -/
structure GrantsAll (d : Instance) (arg : OffererArg) (env : OffererEnv) : Prop where
  /-- All grants were made and are listed. -/
  granted : (initOfferer d arg env).result.value = 0 → ∀ page ≤ arg.pagesCount,
    0 ≤ env.grant page ∧ (initOfferer d arg env).header.grantRefs page = .ofInt (env.grant page)
  /-- The first failure is returned, the grants before are ended and the pages are freed. -/
  undone : ∀ page ≤ arg.pagesCount, env.FirstFails page →
    (initOfferer d arg env).result.value = env.grant page ∧
      (initOfferer d arg env).events =
        .acquire (.pages env.alloc (allocOrder (arg.pagesCount + 1))) ::
          madeGrants env.grant page ++ endedGrants env.grant page ++
            [.release (.pages env.alloc (allocOrder (arg.pagesCount + 1)))]

section Grants

variable {d : Instance} {arg : OffererArg} {env : OffererEnv} {page : Nat}

/-- To make grants ends none. -/
theorem countP_madeGrants (grant : Nat → Int) (page : Nat) :
    (madeGrants grant page).countP Event.endsGrant = 0 := by
  induction page with
  | zero => rfl
  | succ page ih => simp [madeGrants, ih, Event.endsGrant]

/-- To end so many grants ends as many grants. -/
theorem countP_endedGrants (grant : Nat → Int) (page : Nat) :
    (endedGrants grant page).countP Event.endsGrant = page := by
  induction page with
  | zero => rfl
  | succ page ih => rw [endedGrants, List.countP_cons_of_pos rfl, ih]

/-- The undo path ends one grant for each page below the one it begins with. -/
theorem countP_undoGrants (h : Header) (page : Nat) :
    (undoGrants h page).countP Event.endsGrant = page := by
  induction page with
  | zero => rfl
  | succ page ih => rw [undoGrants, List.countP_cons_of_pos rfl, ih]

/-- The whole undo path of INIT_OFFERER ends at least the grants of the pages it begins with. -/
theorem le_countP_undoOfferer (d : Instance) (h : Header) (arg : OffererArg) (e : Errno)
    (page : Nat) (events : List Event) :
    page ≤ (undoOfferer d h arg e page events).events.countP Event.endsGrant := by
  simp only [undoOfferer, List.countP_append, countP_undoGrants]
  omega

/-- When a grant is refused, there is a first page whose grant is refused. -/
theorem OffererEnv.exists_firstFails (halloc : env.alloc ≠ 0) (hfails : env.grant page < 0) :
    ∃ first ≤ page, env.FirstFails first := by
  have hex : ∃ i, env.grant i < 0 := ⟨page, hfails⟩
  refine ⟨Nat.find hex, Nat.find_min' hex hfails, halloc, Nat.find_spec hex, fun i hi => ?_⟩
  exact not_lt.mp (Nat.find_min hex hi)

/-- The event channel alone decides about the grants that were made: they are kept, or as many are
ended as there are pages. -/
theorem connectOfferer_outcome (d : Instance) (h : Header) (arg : OffererArg) (env : OffererEnv)
    (events : List Event) :
    (connectOfferer d h arg env events).result = .ok ∧
        (connectOfferer d h arg env events).header.grantRefs = h.grantRefs ∨
      (connectOfferer d h arg env events).result.value ≠ 0 ∧
        d.pagesCount ≤ (connectOfferer d h arg env events).events.countP Event.endsGrant := by
  unfold connectOfferer openEc
  cases env.channel with
  | none =>
    exact .inr ⟨show (-5 : Int) ≠ 0 by decide, le_countP_undoOfferer ..⟩
  | some port =>
    by_cases hirq : env.irq ≤ 0
    · simp only [if_pos hirq]
      exact .inr ⟨show (-5 : Int) ≠ 0 by decide, le_countP_undoOfferer ..⟩
    · simp only [if_neg hirq]
      exact .inl ⟨trivial, trivial⟩

/-- Once there are pages, no failure of a grant is noticed. -/
theorem initOfferer_outcome (hd : d.state = .opened) (hpages : badPagesCount arg.pagesCount = false)
    (halloc : env.alloc ≠ 0) :
    (initOfferer d arg env).result = .ok ∧ (∀ page ≤ arg.pagesCount,
        (initOfferer d arg env).header.grantRefs page = .ofInt (env.grant page)) ∨
      (initOfferer d arg env).result.value ≠ 0 ∧
        arg.pagesCount < (initOfferer d arg env).events.countP Event.endsGrant := by
  simp only [initOfferer, hd, ne_eq, not_true_eq_false, if_false, hpages, Bool.false_eq_true,
    allocateOfferer, if_neg halloc, grantPages_failed]
  rcases connectOfferer_outcome _ _ _ env _ with ⟨hok, hrefs⟩ | ⟨hfail, hended⟩
  · refine .inl ⟨hok, fun page hpage => ?_⟩
    rw [hrefs]
    exact grantRefs_eq (Nat.zero_le page) (by omega)
  · exact .inr ⟨hfail, Nat.lt_of_succ_le hended⟩

end Grants

/-- Every page of a successful INIT_OFFERER is granted, and a refused grant is reported and
undone, exactly when no grant is refused or there are no pages to be granted. -/
theorem grants_all_iff (d : Instance) (hd : d.state = .opened) (arg : OffererArg)
    (hpages : badPagesCount arg.pagesCount = false) (env : OffererEnv) :
    GrantsAll d arg env ↔ env.alloc = 0 ∨ ∀ page ≤ arg.pagesCount, 0 ≤ env.grant page := by
  constructor
  · intro h
    by_contra hbad
    obtain ⟨halloc, hrefused⟩ := not_or.mp hbad
    simp only [not_forall, not_le] at hrefused
    obtain ⟨page, hpage, hfails⟩ := hrefused
    rcases initOfferer_outcome hd hpages halloc with ⟨hok, -⟩ | ⟨-, hended⟩
    · exact absurd (h.granted (by rw [hok]; rfl) page hpage).1 (not_le.mpr hfails)
    · -- the first refused page is one of the pages whose grants are ended
      obtain ⟨first, hfirst, hff⟩ := OffererEnv.exists_firstFails halloc hfails
      have hevents := (h.undone first (hfirst.trans hpage) hff).2
      have hcount : (initOfferer d arg env).events.countP Event.endsGrant = first := by
        rw [hevents]
        simp [countP_madeGrants, countP_endedGrants, Event.endsGrant]
      omega
  · intro h
    constructor
    · intro hok page hpage
      rcases h with halloc | hgrants
      · simp [initOfferer, hd, hpages, allocateOfferer, halloc, Result.value, Errno.value] at hok
      · refine ⟨hgrants page hpage, ?_⟩
        by_cases halloc : env.alloc = 0
        · simp [initOfferer, hd, hpages, allocateOfferer, halloc, Result.value, Errno.value] at hok
        · rcases initOfferer_outcome hd hpages halloc with ⟨-, hrefs⟩ | ⟨hfail, -⟩
          · exact hrefs page hpage
          · exact absurd hok hfail
    · intro page hpage hff
      rcases h with halloc | hgrants
      · exact absurd halloc hff.alloc
      · exact absurd (hgrants page hpage) (not_le.mpr hff.fails)

/-- One data page is granted by references from 8 on, and INIT_OFFERER succeeds. -/
theorem grants_all_onePage : GrantsAll .fresh .onePage (.granting fun page => 8 + page) :=
  (grants_all_iff .fresh rfl .onePage rfl (.granting fun page => 8 + page)).mpr
    (.inr (by decide))

/-- The grant table is full after the header page. INIT_OFFERER succeeds all the same. -/
theorem not_grants_all : badPagesCount OffererArg.onePage.pagesCount = false ∧
    (initOfferer .fresh .onePage (.granting fun page => if page = 0 then 8 else -28)).result = .ok ∧
    ¬ GrantsAll .fresh .onePage (.granting fun page => if page = 0 then 8 else -28) :=
  ⟨by decide, by decide, fun h => absurd (h.granted (by decide) 1 (by decide)).1 (by decide)⟩

end XenShm.Kernel
