import XenShm.Kernel.Init

/-!
# What a successful INIT leaves behind

The instance of an offerer owns the pages and lists their grants in the header page. That of a
receiver owns the vm area in which it has mapped a header page with the same page count.
-/

namespace XenShm.Kernel

/-- All that a successful INIT_OFFERER leaves behind, as those who look at it later need it. -/
structure OffererReady (arg : OffererArg) (env : OffererEnv) (o : Outcome OffererArg) : Prop where
  /-- The page count of the argument was accepted. -/
  accepted : badPagesCount arg.pagesCount = false
  alloc : env.alloc ≠ 0
  state : o.data.state = .offerer
  /-- The count of the instance includes the header page. -/
  pagesCount : o.data.pagesCount = arg.pagesCount + 1
  /-- The shared memory is the one that was allocated. -/
  sharedMemory : o.data.sharedMemory = env.alloc
  /-- The receiver finds the same page count. -/
  headerPages : o.header.pagesCount = arg.pagesCount + 1
  /-- The results of the grants are listed. -/
  grantRefs : ∀ page ≤ arg.pagesCount, o.header.grantRefs page = .ofInt (env.grant page)
  /-- The user gets the grant of the first page. -/
  grant : o.arg.grant = o.header.grantRefs 0

/-- All that a successful INIT_RECEIVER leaves behind, as those who look at it later need it. -/
structure ReceiverReady (d : Instance) (arg : ReceiverArg) (env : ReceiverEnv)
    (o : Outcome ReceiverArg) : Prop where
  /-- The page count of the argument was accepted. -/
  accepted : badPagesCount arg.pagesCount = false
  state : o.data.state = .receiver
  /-- The count of the instance includes the header page. -/
  pagesCount : o.data.pagesCount = arg.pagesCount + 1
  /-- The header page contains the same count. -/
  headerPages : env.page.pagesCount = arg.pagesCount + 1
  /-- The header page is mapped in the vm area. -/
  area : o.data.unmappedArea.isSome = true
  /-- The grants are left as they are. -/
  grantRefs : o.header.grantRefs = env.page.grantRefs
  /-- Page table entries are used as before. -/
  usePtemod : o.data.usePtemod = d.usePtemod

section Ready

variable {d : Instance}

/-- The loop writes nothing but the grants into the header page. -/
theorem grantPages_pagesCount (grant : Nat → Int) (left page : Nat) (h : Header) :
    (grantPages grant left page h).header.pagesCount = h.pagesCount := by
  induction left generalizing page h with
  | zero => rfl
  | succ left ih =>
    simp only [grantPages, GrantRef.isNegative_eq, Bool.false_eq_true, if_false]
    exact ih (page + 1) _

/-- The last part of INIT_OFFERER succeeds only with a port and an interrupt, which it stores. -/
theorem connectOfferer_ready {h : Header} {arg : OffererArg} {env : OffererEnv}
    {events : List Event} (hok : (connectOfferer d h arg env events).result = .ok) :
    ∃ port irq ev, connectOfferer d h arg env events =
      ⟨.ok, { d with localEcPort := port, ecIrq := irq, state := .offerer },
        { h with offererEcPort := port, offererState := .opened }, arg, ev⟩ := by
  unfold connectOfferer at hok ⊢
  rcases openEc_cases d env.channel env.irq with ⟨e, ev, heq, -⟩ | ⟨port, -, -, heq⟩
  · rw [heq] at hok
    cases hok
  · rw [heq]
    exact ⟨port, env.irq, _, rfl⟩

/-- When INIT_OFFERER succeeds on an opened instance, it leaves all this behind. -/
theorem initOfferer_ready {arg : OffererArg} {env : OffererEnv} (hd : d.state = .opened)
    (hok : (initOfferer d arg env).result = .ok) :
    OffererReady arg env (initOfferer d arg env) := by
  unfold initOfferer at hok ⊢
  rw [if_neg (not_not_intro hd)] at hok ⊢
  by_cases hbad : badPagesCount arg.pagesCount = true
  · rw [if_pos hbad] at hok
    cases hok
  rw [if_neg hbad, allocateOfferer] at hok ⊢
  by_cases halloc : env.alloc = 0
  · rw [if_pos halloc] at hok
    cases hok
  rw [if_neg halloc] at hok ⊢
  simp only [grantPages_failed] at hok ⊢
  obtain ⟨port, irq, ev, heq⟩ := connectOfferer_ready hok
  rw [heq]
  refine ⟨Bool.not_eq_true _ ▸ hbad, halloc, rfl, rfl, rfl, ?_, fun page hpage => ?_, rfl⟩
  · exact grantPages_pagesCount ..
  · exact grantRefs_eq (Nat.zero_le page) (by omega)

/-- When INIT_RECEIVER succeeds on an opened instance, it leaves all this behind. -/
theorem initReceiver_ready {arg : ReceiverArg} {env : ReceiverEnv} (hd : d.state = .opened)
    (hok : (initReceiver d arg env).result = .ok) :
    ReceiverReady d arg env (initReceiver d arg env) := by
  unfold initReceiver at hok ⊢
  rw [if_neg (not_not_intro hd)] at hok ⊢
  by_cases hbad : badPagesCount arg.pagesCount = true
  · rw [if_pos hbad] at hok
    cases hok
  rw [if_neg hbad] at hok ⊢
  cases harea : env.area with
  | none =>
    simp only [harea] at hok
    cases hok
  | some addr =>
    simp only [harea, mapReceiver] at hok ⊢
    by_cases hcall : env.mapCall = 0
    swap
    · rw [if_pos hcall] at hok
      cases hok
    rw [if_neg (not_not_intro hcall)] at hok ⊢
    by_cases hstatus : env.mapStatus < 0
    · rw [if_pos hstatus] at hok
      cases hok
    rw [if_neg hstatus] at hok ⊢
    by_cases hpages : arg.pagesCount + 1 = env.page.pagesCount
    swap
    · rw [if_pos hpages] at hok
      cases hok
    rw [if_neg (not_not_intro hpages), connectReceiver] at hok ⊢
    rcases openEc_cases _ env.channel env.irq with ⟨e, ev, heq, -⟩ | ⟨port, -, -, heq⟩
    · rw [heq] at hok
      cases hok
    · rw [heq]
      exact ⟨Bool.not_eq_true _ ▸ hbad, rfl, rfl, hpages.symm, rfl, rfl, rfl⟩

end Ready

end XenShm.Kernel
