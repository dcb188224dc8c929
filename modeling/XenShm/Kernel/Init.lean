import XenShm.Kernel.Instance

/-!
# The two INIT ioctls

`__xen_shm_ioctl_init_offerer` and `__xen_shm_ioctl_init_receiver` obtain several
resources one after the other and give them back when a later step fails. The
wrapper `xen_shm_ioctl` copies the argument in before and out afterwards, when the
helper has already changed the state of the instance.
-/

namespace XenShm.Kernel

/-- `struct xen_shm_ioctlarg_offerer`, with which INIT_OFFERER is asked and answered. -/
structure OffererArg where
  /-- The number of data pages to share, without the header page. -/
  pagesCount : Nat
  distDomid : Nat
  /-- The answer: the grant of the header page, to be told to the receiver. -/
  grant : GrantRef
  /-- The answer: the domain the offerer runs in. -/
  localDomid : Nat
  deriving DecidableEq, Repr

/-- `struct xen_shm_ioctlarg_receiver`, with which INIT_RECEIVER is asked. -/
structure ReceiverArg where
  /-- The number of data pages that the offerer is expected to share. -/
  pagesCount : Nat
  distDomid : Nat
  grant : GrantRef
  deriving DecidableEq, Repr

/-- What the helper of an INIT ioctl leaves behind when it returns. -/
structure Outcome (α : Type) where
  result : Result
  data : Instance
  /-- The header page, as far as it is still mapped. -/
  header : Header
  /-- The argument to be copied to the user. -/
  arg : α
  /-- What the helper has obtained and given back, in this order. -/
  events : List Event

/-- `DOMID_SELF` in an argument stands for the domain of the instance itself. -/
def Instance.resolveDomid (d : Instance) (dom : Nat) : Nat :=
  if dom = domidSelf then d.localDomid else dom

/-- The page counts that both INIT ioctls refuse: none, and more than the arrays have places for. -/
def badPagesCount (n : Nat) : Bool := n = 0 ∨ maxSharedPages < n

/-- The order computed by `__xen_shm_allocate_shared_memory_offerer`: the number of bits of the
page count. The loop leaves 0 in the variable that is compared with the power of two. -/
def allocOrder (pagesCount : Nat) : Nat :=
  let order := if pagesCount = 0 then 0 else Nat.log2 pagesCount + 1
  if 0 = 1 <<< (order - 1) then order - 1 else order

/-- `__xen_shm_open_ec`: `port` is the port allocated or bound, `irq` what binding the handler
returned. -/
def openEc (d : Instance) (port : Option Nat) (irq : Int) : Result × Instance × List Event :=
  match port with
  | none => (.error .eio, d, [])
  | some port =>
    let d := { d with localEcPort := port }
    if irq ≤ 0 then (.error .eio, d, [.acquire (.channel port), .release (.channel port)])
    else (.ok, { d with ecIrq := irq }, [.acquire (.channel port), .acquire (.handler irq)])

/-- `__xen_shm_free_shared_memory_offerer`, which gives the allocated pages back. -/
def freeSharedMemoryOfferer (d : Instance) : List Event :=
  if d.sharedMemory ≠ 0 then [.release (.pages d.sharedMemory d.offererAllocOrder)] else []

/-- `__xen_shm_free_shared_memory_receiver`, which gives the vm area back. -/
def freeSharedMemoryReceiver (d : Instance) : List Event :=
  match d.unmappedArea with
  | none => []
  | some addr => [.release (.vmArea addr)]

/-- What the calls made by INIT_OFFERER return, in the order in which they are made. -/
structure OffererEnv where
  /-- The address that `__get_free_pages` returns, 0 if it fails. -/
  alloc : Nat
  /-- What the first of the pages contains before it is filled. -/
  page : Header
  /-- What `gnttab_grant_foreign_access` returns for each page. -/
  grant : Nat → Int
  /-- The port allocated by the hypervisor, if there is one. -/
  channel : Option Nat
  /-- What `bind_evtchn_to_irqhandler` returns, the interrupt or an error. -/
  irq : Int

/-- The loop that grants the pages: the header it fills, its events, and the page at which it
stopped with an error. -/
structure Grants where
  /-- The header page with the references filled in. -/
  header : Header
  /-- The grants made, in the order of the pages. -/
  events : List Event
  /-- The page at which the loop has stopped, if it has. -/
  failed : Option Nat

/-- Grant `left` pages from `page` on to the peer, and write the references into the header page. -/
def grantPages (grant : Nat → Int) : (left page : Nat) → Header → Grants
  | 0, _, h => ⟨h, [], none⟩
  | left + 1, page, h =>
    let ref := GrantRef.ofInt (grant page)
    let h := { h with grantRefs := Function.update h.grantRefs page ref }
    let made := if 0 ≤ grant page then [Event.acquire (.grant ref)] else []
    -- the error code was stored in an unsigned field before it is tested
    if ref.isNegative then ⟨h, made, some page⟩
    else
      let rest := grantPages grant left (page + 1) h
      ⟨rest.header, made ++ rest.events, rest.failed⟩

/-- `undo_grant`: end the grants of the pages before `page`, the last one first. -/
def undoGrants (h : Header) : (page : Nat) → List Event
  | 0 => []
  | page + 1 => .release (.grant (h.grantRefs page)) :: undoGrants h page

/-- The undo path of INIT_OFFERER, which ends the grants of the pages below `page` and frees them
all. -/
def undoOfferer (d : Instance) (h : Header) (arg : OffererArg) (e : Errno) (page : Nat)
    (events : List Event) : Outcome OffererArg :=
  ⟨.error e, d, h, arg, events ++ undoGrants h page ++ freeSharedMemoryOfferer d⟩

/-- INIT_OFFERER from the opening of the event channel on. -/
def connectOfferer (d : Instance) (h : Header) (arg : OffererArg) (env : OffererEnv)
    (events : List Event) : Outcome OffererArg :=
  match openEc d env.channel env.irq with
  | (.error e, d, ev) => undoOfferer d h arg e d.pagesCount (events ++ ev)
  | (.ok, d, ev) =>
    ⟨.ok, { d with state := .offerer },
      { h with offererEcPort := d.localEcPort, offererState := .opened }, arg, events ++ ev⟩

/-- INIT_OFFERER from the allocation of the pages on. -/
def allocateOfferer (d : Instance) (arg : OffererArg) (env : OffererEnv) : Outcome OffererArg :=
  if env.alloc = 0 then ⟨.error .enomem, d, env.page, arg, []⟩
  else
    let d := { d with offererAllocOrder := allocOrder d.pagesCount, sharedMemory := env.alloc }
    let h := { env.page with
      offererState := .none, receiverState := .none, ecMutexCount := 1, pagesCount := d.pagesCount }
    let got := .acquire (.pages env.alloc d.offererAllocOrder)
    let g := grantPages env.grant d.pagesCount 0 h
    match g.failed with
    | some page =>
      undoOfferer d g.header arg (.code (g.header.grantRefs page).toInt) page (got :: g.events)
    | none =>
      connectOfferer { d with firstPageGrant := g.header.grantRefs 0 } g.header
        { arg with grant := g.header.grantRefs 0, localDomid := d.localDomid } env (got :: g.events)

/-- `__xen_shm_ioctl_init_offerer`, the checks first, then the allocation, the grants and the
channel. -/
def initOfferer (d : Instance) (arg : OffererArg) (env : OffererEnv) : Outcome OffererArg :=
  if d.state ≠ .opened then ⟨.error .enotty, d, env.page, arg, []⟩
  else if badPagesCount arg.pagesCount then ⟨.error .einval, d, env.page, arg, []⟩
  else
    allocateOfferer
      { d with
        distantDomid := d.resolveDomid arg.distDomid
        pagesCount := arg.pagesCount + 1 } arg env

/-- What the calls made by INIT_RECEIVER return, in the order in which they are made. -/
structure ReceiverEnv where
  /-- The address of the area that `alloc_vm_area` returns, if it succeeds. -/
  area : Option Nat
  /-- `HYPERVISOR_grant_table_op`, which maps the header page. -/
  mapCall : Int
  /-- `map_op.status`, negative when the header page was not mapped. -/
  mapStatus : Int
  /-- `map_op.handle`, by which the mapping of the header page is undone. -/
  mapHandle : Int
  /-- What the header page contains when the receiver has mapped it. -/
  page : Header
  /-- The port bound by the hypervisor, if there is one. -/
  channel : Option Nat
  /-- What `bind_evtchn_to_irqhandler` returns, the interrupt or an error. -/
  irq : Int

/-- The label `undo_alloc` of INIT_RECEIVER, where the vm area is given back. -/
def undoAlloc (d : Instance) (h : Header) (arg : ReceiverArg) (e : Errno) (events : List Event) :
    Outcome ReceiverArg :=
  ⟨.error e, d, h, arg, events ++ freeSharedMemoryReceiver d⟩

/-- The label `undo_map` of INIT_RECEIVER, where the header page is unmapped first. -/
def undoMap (d : Instance) (h : Header) (arg : ReceiverArg) (e : Errno) (events : List Event) :
    Outcome ReceiverArg :=
  undoAlloc d h arg e (events ++ [.release (.headerMap d.headerHandle)])

/-- INIT_RECEIVER from the opening of the event channel on. -/
def connectReceiver (d : Instance) (arg : ReceiverArg) (env : ReceiverEnv) (events : List Event) :
    Outcome ReceiverArg :=
  match openEc { d with distEcPort := env.page.offererEcPort } env.channel env.irq with
  | (.error e, d, ev) => undoMap d env.page arg e (events ++ ev)
  | (.ok, d, ev) =>
    ⟨.ok, { d with state := .receiver }, { env.page with receiverState := .opened }, arg,
      events ++ ev ++ [.notify d.localEcPort]⟩

/-- INIT_RECEIVER from the mapping of the header page on. -/
def mapReceiver (d : Instance) (arg : ReceiverArg) (env : ReceiverEnv) (events : List Event) :
    Outcome ReceiverArg :=
  if env.mapCall ≠ 0 then undoAlloc d env.page arg .efault events
  else if env.mapStatus < 0 then undoAlloc d env.page arg .einval events
  else
    let d := { d with headerHandle := env.mapHandle }
    let events := events ++ [.acquire (.headerMap env.mapHandle)]
    if d.pagesCount ≠ env.page.pagesCount then undoMap d env.page arg .einval events
    else connectReceiver d arg env events

/-- `__xen_shm_ioctl_init_receiver`: the checks, the mapping of the header page and the channel. -/
def initReceiver (d : Instance) (arg : ReceiverArg) (env : ReceiverEnv) : Outcome ReceiverArg :=
  if d.state ≠ .opened then ⟨.error .enotty, d, env.page, arg, []⟩
  else if badPagesCount arg.pagesCount then ⟨.error .einval, d, env.page, arg, []⟩
  else
    let d := { d with
      distantDomid := d.resolveDomid arg.distDomid
      firstPageGrant := arg.grant
      pagesCount := arg.pagesCount + 1
      unmappedArea := env.area }
    match env.area with
    | none => ⟨.error .enomem, d, env.page, arg, []⟩
    | some addr => mapReceiver { d with sharedMemory := addr } arg env [.acquire (.vmArea addr)]

/-- One of the two INIT commands with its argument. -/
inductive InitCmd where
  | offerer (arg : OffererArg) (env : OffererEnv)
  | receiver (arg : ReceiverArg) (env : ReceiverEnv)

/-- What the checks and copies of `xen_shm_ioctl` find. -/
structure UserAccess where
  /-- Whether `access_ok` finds the argument in the memory of the process. -/
  access : Bool
  /-- Whether `copy_from_user` copies the whole argument. -/
  copyFrom : Bool
  /-- Whether `copy_to_user` copies the whole answer. -/
  copyTo : Bool
  deriving DecidableEq, Repr

/-- The wrapper around a helper: check the address, copy in, call, copy out. -/
def wrapInit {α : Type} (d : Instance) (h : Header) (arg : α) (u : UserAccess)
    (helper : Outcome α) : Outcome α :=
  if ¬ u.access then ⟨.error .efault, d, h, arg, []⟩
  else if ¬ u.copyFrom then ⟨.error .efault, d, h, arg, []⟩
  else if helper.result ≠ .ok then helper
  else if ¬ u.copyTo then { helper with result := .error .efault }
  else helper

/-- `xen_shm_ioctl` for the INIT commands: the value it returns, the instance and the events. -/
def ioctlInit (d : Instance) (cmd : InitCmd) (u : UserAccess) : Result × Instance × List Event :=
  match cmd with
  | .offerer arg env =>
    let o := wrapInit d env.page arg u (initOfferer d arg env)
    (o.result, o.data, o.events)
  | .receiver arg env =>
    let o := wrapInit d env.page arg u (initReceiver d arg env)
    (o.result, o.data, o.events)

/-- Whatever a failed call obtained it has given back, exactly once, except that an end of access
may also be asked for a grant that was not made. -/
structure Undone (events : List Event) : Prop where
  /-- A grant that was made is given back, and possibly more than once. -/
  grants : ∀ ref, GivenBack events (.grant ref)
  /-- Every other resource is given back as often as it was obtained. -/
  others : ∀ r, (∀ ref, r ≠ .grant ref) → Balanced events r

/-- A failed INIT leaves an instance that can be initialised again. -/
structure Restored (d : Instance) (events : List Event) : Prop where
  /-- The state is the one before any INIT. -/
  state : d.state = .opened
  /-- Nothing that was obtained is still held. -/
  undone : Undone events
  /-- There is an INIT, with results of its calls, that still succeeds. -/
  retry : ∃ cmd u, (ioctlInit d cmd u).1 = .ok

section Grants

variable {grant : Nat → Int} {left page i : Nat} {h : Header} {ref : GrantRef} {e : Event}

/-- The loop never stops: no value of the unsigned field is negative. -/
@[simp] theorem grantPages_failed : (grantPages grant left page h).failed = none := by
  induction left generalizing page h with
  | zero => rfl
  | succ left ih => simp [grantPages, ih]

/-- The loop leaves the references of the pages before its first one alone. -/
theorem grantRefs_of_lt (hi : i < page) :
    (grantPages grant left page h).header.grantRefs i = h.grantRefs i := by
  induction left generalizing page h with
  | zero => rfl
  | succ left ih =>
    simp only [grantPages, GrantRef.isNegative_eq, Bool.false_eq_true, if_false]
    rw [ih (by omega)]
    simp [Function.update, show i ≠ page by omega]

/-- The header lists what the grants returned, errors included. -/
theorem grantRefs_eq (hlo : page ≤ i) (hhi : i < page + left) :
    (grantPages grant left page h).header.grantRefs i = .ofInt (grant i) := by
  induction left generalizing page h with
  | zero => omega
  | succ left ih =>
    simp only [grantPages, GrantRef.isNegative_eq, Bool.false_eq_true, if_false]
    by_cases heq : i = page
    · rw [grantRefs_of_lt (by omega), heq]
      simp
    · exact ih (by omega) (by omega)

/-- The loop does nothing but make grants. -/
theorem mem_grantPages (he : e ∈ (grantPages grant left page h).events) :
    ∃ ref, e = .acquire (.grant ref) := by
  induction left generalizing page h with
  | zero => simp [grantPages] at he
  | succ left ih =>
    simp only [grantPages, GrantRef.isNegative_eq, Bool.false_eq_true, if_false,
      List.mem_append] at he
    rcases he with he | he
    · split at he
      · exact ⟨_, List.mem_singleton.mp he⟩
      · simp at he
    · exact ih he

/-- The undo path of the grants does nothing but end grants. -/
theorem mem_undoGrants (he : e ∈ undoGrants h page) : ∃ ref, e = .release (.grant ref) := by
  induction page with
  | zero => simp [undoGrants] at he
  | succ page ih =>
    rcases List.mem_cons.mp he with rfl | he
    · exact ⟨_, rfl⟩
    · exact ih he

/-- Every grant made by the loop is ended by `undo_grant`. -/
theorem count_grantPages_le (h' : Header)
    (hrefs : ∀ i, page ≤ i → i < page + left → h'.grantRefs i = .ofInt (grant i)) :
    (grantPages grant left page h).events.count (.acquire (.grant ref)) +
        (undoGrants h' page).count (.release (.grant ref)) ≤
      (undoGrants h' (page + left)).count (.release (.grant ref)) := by
  induction left generalizing page h with
  | zero => simp [grantPages]
  | succ left ih =>
    have hnext := @ih (page + 1)
      { h with grantRefs := Function.update h.grantRefs page (.ofInt (grant page)) }
      fun i hlo hhi => hrefs i (by omega) (by omega)
    simp only [grantPages, GrantRef.isNegative_eq, Bool.false_eq_true, if_false, List.count_append]
    rw [show page + (left + 1) = page + 1 + left by omega]
    simp only [undoGrants, List.count_cons, hrefs page le_rfl (by omega)] at hnext
    split <;> simp only [List.count_cons, List.count_nil] <;> split at hnext <;> simp_all <;> omega

end Grants

/-- The steps of INIT_OFFERER that can fail all succeed. A grant that fails is not among them. -/
def offererSucceeds (arg : OffererArg) (env : OffererEnv) : Bool :=
  ¬ badPagesCount arg.pagesCount ∧ env.alloc ≠ 0 ∧ env.channel.isSome ∧ 0 < env.irq

/-- The steps of INIT_RECEIVER that can fail all succeed. -/
def receiverSucceeds (arg : ReceiverArg) (env : ReceiverEnv) : Bool :=
  ¬ badPagesCount arg.pagesCount ∧ env.area.isSome ∧ env.mapCall = 0 ∧ 0 ≤ env.mapStatus ∧
    env.page.pagesCount = arg.pagesCount + 1 ∧ env.channel.isSome ∧ 0 < env.irq

section Undo

variable {d : Instance} {h : Header} {events ev : List Event}

/-- What the event channel leaves behind: a failed opening has closed its port. -/
theorem openEc_cases (d : Instance) (port : Option Nat) (irq : Int) :
    (∃ e ev, openEc d port irq = (.error e, { d with localEcPort := port.getD d.localEcPort }, ev) ∧
      (port.isSome ∧ 0 < irq → False) ∧ (∀ r, ev.count (.release r) = ev.count (.acquire r))) ∨
    ∃ p, port = some p ∧ 0 < irq ∧ openEc d port irq =
      (.ok, { d with localEcPort := p, ecIrq := irq },
      [.acquire (.channel p), .acquire (.handler irq)]) := by
  cases port with
  | none => exact .inl ⟨.eio, [], rfl, by simp, fun r => rfl⟩
  | some p =>
    by_cases hirq : irq ≤ 0
    · refine .inl ⟨.eio, _, by simp only [openEc, if_pos hirq]; rfl, by simp [hirq], fun r => ?_⟩
      simp [List.count_cons]
    · exact .inr ⟨p, rfl, by omega, by simp [openEc, hirq]⟩

/-- The loop that makes grants has no other event. -/
private theorem count_made {grant : Nat → Int} {left page : Nat} {e : Event}
    (he : ∀ ref, e ≠ .acquire (.grant ref)) :
    (grantPages grant left page h).events.count e = 0 := by
  refine List.count_eq_zero.mpr fun hmem => ?_
  obtain ⟨ref, rfl⟩ := mem_grantPages hmem
  exact he ref rfl

/-- The undo path of the grants has no other event. -/
private theorem count_undo {page : Nat} {e : Event} (he : ∀ ref, e ≠ .release (.grant ref)) :
    (undoGrants h page).count e = 0 := by
  refine List.count_eq_zero.mpr fun hmem => ?_
  obtain ⟨ref, rfl⟩ := mem_undoGrants hmem
  exact he ref rfl

/-- The undo path of INIT_OFFERER behind a failed event channel. -/
private theorem undone_offerer {addr order n : Nat} {grant : Nat → Int}
    (hev : ∀ r, ev.count (.release r) = ev.count (.acquire r)) :
    Undone (.acquire (.pages addr order) :: (grantPages grant n 0 h).events ++ ev ++
      undoGrants (grantPages grant n 0 h).header n ++ [.release (.pages addr order)]) := by
  have hle : ∀ ref, (grantPages grant n 0 h).events.count (.acquire (.grant ref)) ≤
      (undoGrants (grantPages grant n 0 h).header n).count (.release (.grant ref)) := by
    intro ref
    have hrefs := @count_grantPages_le grant n 0 h ref (grantPages grant n 0 h).header
      fun i hlo hhi => grantRefs_eq hlo hhi
    simpa [undoGrants] using hrefs
  constructor
  · intro ref
    have hgrant := hle ref
    have hbal := hev (.grant ref)
    simp only [GivenBack, List.count_append, List.count_cons, List.count_nil,
      count_made (h := h) (e := .release (.grant ref)) (by simp),
      count_undo (e := .acquire (.grant ref)) (by simp)]
    simp
    omega
  · intro r hr
    have hbal := hev r
    simp only [Balanced, List.count_append, List.count_cons, List.count_nil,
      count_made (h := h) (e := .release r) (by simp),
      count_made (h := h) (e := .acquire r) (by simpa using hr),
      count_undo (e := .acquire r) (by simp),
      count_undo (e := .release r) (by simpa using hr)]
    simp
    omega

/-- The undo path of INIT_RECEIVER behind the mapping of the header page. -/
private theorem undone_receiver {addr : Nat} {handle : Int}
    (hev : ∀ r, ev.count (.release r) = ev.count (.acquire r)) :
    Undone ([.acquire (.vmArea addr)] ++ [.acquire (.headerMap handle)] ++ ev ++
      [.release (.headerMap handle)] ++ [.release (.vmArea addr)]) := by
  constructor
  · intro ref
    have hbal := hev (.grant ref)
    simp [GivenBack, List.count_append]
    omega
  · intro r hr
    have hbal := hev r
    simp [Balanced, List.count_append, List.count_cons]
    omega

/-- When nothing was obtained, nothing is left to give back. -/
private theorem undone_nil : Undone [] := ⟨fun _ => le_rfl, fun _ _ => rfl⟩

/-- A vm area that was obtained and given back is no longer held. -/
private theorem undone_vmArea (addr : Nat) :
    Undone ([.acquire (.vmArea addr)] ++ [.release (.vmArea addr)]) :=
  ⟨fun ref => by simp [GivenBack], fun r hr => by simp [Balanced, List.count_cons]⟩

/-- When the channel is allocated and its handler bound, INIT_OFFERER succeeds. -/
private theorem connectOfferer_ok {arg : OffererArg} {env : OffererEnv}
    (hec : env.channel.isSome ∧ 0 < env.irq) :
    (connectOfferer d h arg env events).result = .ok ∧
      (connectOfferer d h arg env events).data.state = .offerer := by
  unfold connectOfferer
  rcases openEc_cases d env.channel env.irq with ⟨e, ev, heq, hfail, hev⟩ | ⟨p, hp, hirq, heq⟩
  · exact absurd hec hfail
  · rw [heq]
    exact ⟨rfl, rfl⟩

/-- The opening of the event channel fails, after the pages were allocated and granted. -/
private theorem connectOfferer_undone {arg : OffererArg} {env : OffererEnv} {grant : Nat → Int}
    (hec : ¬ (env.channel.isSome ∧ 0 < env.irq)) (hd : d.state = .opened)
    (hmem : d.sharedMemory ≠ 0) :
    let o := connectOfferer d (grantPages grant d.pagesCount 0 h).header arg env
      (.acquire (.pages d.sharedMemory d.offererAllocOrder) ::
        (grantPages grant d.pagesCount 0 h).events)
    o.result ≠ .ok ∧ o.data.state = .opened ∧ Undone o.events := by
  unfold connectOfferer
  rcases openEc_cases d env.channel env.irq with ⟨e, ev, heq, hfail, hev⟩ | ⟨p, hp, hirq, heq⟩
  · rw [heq]
    refine ⟨by simp [undoOfferer], hd, ?_⟩
    simp only [undoOfferer, freeSharedMemoryOfferer, if_pos hmem]
    exact undone_offerer hev
  · exact absurd ⟨by simp [hp], hirq⟩ hec

/-- When the channel and its handler are bound, INIT_RECEIVER succeeds. -/
private theorem connectReceiver_ok {arg : ReceiverArg} {env : ReceiverEnv}
    (hec : env.channel.isSome ∧ 0 < env.irq) :
    (connectReceiver d arg env events).result = .ok ∧
      (connectReceiver d arg env events).data.state = .receiver := by
  unfold connectReceiver
  rcases openEc_cases { d with distEcPort := env.page.offererEcPort } env.channel env.irq with
    ⟨e, ev, heq, hfail, hev⟩ | ⟨p, hp, hirq, heq⟩
  · exact absurd hec hfail
  · rw [heq]
    exact ⟨rfl, rfl⟩

/-- The binding of the event channel fails, after the header page was mapped. -/
private theorem connectReceiver_undone {arg : ReceiverArg} {env : ReceiverEnv} {addr : Nat}
    (hec : ¬ (env.channel.isSome ∧ 0 < env.irq)) (hd : d.state = .opened)
    (harea : d.unmappedArea = some addr) :
    let o := connectReceiver d arg env
      ([.acquire (.vmArea addr)] ++ [.acquire (.headerMap d.headerHandle)])
    o.result ≠ .ok ∧ o.data.state = .opened ∧ Undone o.events := by
  unfold connectReceiver
  rcases openEc_cases { d with distEcPort := env.page.offererEcPort } env.channel env.irq with
    ⟨e, ev, heq, hfail, hev⟩ | ⟨p, hp, hirq, heq⟩
  · rw [heq]
    refine ⟨by simp [undoMap, undoAlloc], hd, ?_⟩
    simp only [undoMap, undoAlloc, freeSharedMemoryReceiver, harea]
    exact undone_receiver hev
  · exact absurd ⟨by simp [hp], hirq⟩ hec

/-- INIT_OFFERER either commits the new state or leaves nothing behind. -/
theorem initOfferer_cases (hd : d.state = .opened) (arg : OffererArg) (env : OffererEnv) :
    offererSucceeds arg env = true ∧ (initOfferer d arg env).result = .ok ∧
        (initOfferer d arg env).data.state = .offerer ∨
      offererSucceeds arg env = false ∧ (initOfferer d arg env).result ≠ .ok ∧
        (initOfferer d arg env).data.state = .opened ∧ Undone (initOfferer d arg env).events := by
  unfold initOfferer allocateOfferer
  rw [if_neg (not_not_intro hd)]
  by_cases hbad : badPagesCount arg.pagesCount = true
  · rw [if_pos hbad]
    exact .inr ⟨by simp [offererSucceeds, hbad], by simp, hd, undone_nil⟩
  rw [if_neg hbad]
  by_cases halloc : env.alloc = 0
  · rw [if_pos halloc]
    exact .inr ⟨by simp [offererSucceeds, halloc], by simp, hd, undone_nil⟩
  rw [if_neg halloc]
  simp only [grantPages_failed]
  by_cases hec : env.channel.isSome ∧ 0 < env.irq
  · exact .inl ⟨by simp [offererSucceeds, hbad, halloc, hec], connectOfferer_ok hec⟩
  · refine .inr ⟨?_, connectOfferer_undone hec hd halloc⟩
    simp only [offererSucceeds, decide_eq_false_iff_not]
    exact fun hs => hec hs.2.2

/-- INIT_RECEIVER either commits the new state or leaves nothing behind. -/
theorem initReceiver_cases (hd : d.state = .opened) (arg : ReceiverArg) (env : ReceiverEnv) :
    receiverSucceeds arg env = true ∧ (initReceiver d arg env).result = .ok ∧
        (initReceiver d arg env).data.state = .receiver ∨
      receiverSucceeds arg env = false ∧ (initReceiver d arg env).result ≠ .ok ∧
        (initReceiver d arg env).data.state = .opened ∧ Undone (initReceiver d arg env).events := by
  unfold initReceiver
  rw [if_neg (not_not_intro hd)]
  by_cases hbad : badPagesCount arg.pagesCount = true
  · rw [if_pos hbad]
    exact .inr ⟨by simp [receiverSucceeds, hbad], by simp, hd, undone_nil⟩
  rw [if_neg hbad]
  cases harea : env.area with
  | none => exact .inr ⟨by simp [receiverSucceeds, harea], by simp, hd, undone_nil⟩
  | some addr =>
    simp only [mapReceiver]
    by_cases hcall : env.mapCall = 0
    swap
    · rw [if_pos hcall]
      exact .inr ⟨by simp [receiverSucceeds, hcall], by simp [undoAlloc], hd, undone_vmArea addr⟩
    rw [if_neg (not_not_intro hcall)]
    by_cases hstatus : env.mapStatus < 0
    · rw [if_pos hstatus]
      exact .inr ⟨by simp [receiverSucceeds, hstatus], by simp [undoAlloc], hd, undone_vmArea addr⟩
    rw [if_neg hstatus]
    by_cases hpages : arg.pagesCount + 1 = env.page.pagesCount
    swap
    · rw [if_pos hpages]
      refine .inr ⟨by simp [receiverSucceeds, Ne.symm hpages], by simp [undoMap, undoAlloc], hd, ?_⟩
      have hnone : ∀ r, ([] : List Event).count (.release r) =
          ([] : List Event).count (.acquire r) := fun r => rfl
      exact undone_receiver hnone
    rw [if_neg (not_not_intro hpages)]
    by_cases hec : env.channel.isSome ∧ 0 < env.irq
    · refine .inl ⟨?_, connectReceiver_ok hec⟩
      simp [receiverSucceeds, hbad, harea, hcall, not_lt.mp hstatus, hpages, hec]
    · refine .inr ⟨?_, connectReceiver_undone hec hd rfl⟩
      simp only [receiverSucceeds, decide_eq_false_iff_not]
      exact fun hs => hec hs.2.2.2.2.2

end Undo

/-- The steps of the helper that can fail all succeed. -/
def InitCmd.succeeds : InitCmd → Bool
  | .offerer arg env => offererSucceeds arg env
  | .receiver arg env => receiverSucceeds arg env

/-- The copy to the user fails when the helper has already changed the state. -/
def CommittedTooEarly (cmd : InitCmd) (u : UserAccess) : Prop :=
  u.access ∧ u.copyFrom ∧ cmd.succeeds ∧ ¬ u.copyTo

/-- INIT_OFFERER for one page of data behind the header page. -/
def OffererArg.onePage : OffererArg := ⟨1, 2, 0, 0⟩

/-- The pages are allocated and the event channel is opened, and the grants are as given. -/
def OffererEnv.granting (grant : Nat → Int) : OffererEnv := ⟨pageSize, .zero, grant, some 5, 9⟩

section Wrapper

variable {d : Instance} {cmd : InitCmd} {u : UserAccess}

/-- An opened instance can be initialised, whatever happened to it before. -/
theorem exists_init_ok (hd : d.state = .opened) : ∃ cmd u, (ioctlInit d cmd u).1 = .ok := by
  refine ⟨.offerer .onePage (.granting fun page => 8 + page), ⟨true, true, true⟩, ?_⟩
  rcases initOfferer_cases hd .onePage (.granting fun page => 8 + page) with
    ⟨-, hok, -⟩ | ⟨hfail, -⟩
  · simp [ioctlInit, wrapInit, hok]
  · exact absurd hfail (by decide)

/-- An INIT that has succeeded leaves a state different from that of one that was undone. -/
private theorem differs {succeeds : Bool} {r : Result} {s s' : State} {undone : Prop}
    (hs : s' ≠ .opened)
    (hcases : succeeds = true ∧ r = .ok ∧ s = s' ∨
      succeeds = false ∧ r ≠ .ok ∧ s = .opened ∧ undone) :
    succeeds = true ∧ r = .ok ∧ s ≠ .opened ∨
      succeeds = false ∧ r ≠ .ok ∧ s = .opened ∧ undone :=
  hcases.imp_left fun ⟨hok, hr, heq⟩ => ⟨hok, hr, heq ▸ hs⟩

/-- What the wrapper makes of a helper that commits or leaves nothing behind. -/
private theorem wrapInit_cases {α : Type} {o : Outcome α} {succeeds : Bool} (h : Header)
    (u : UserAccess) (arg : α) (hd : d.state = .opened)
    (hcases : succeeds = true ∧ o.result = .ok ∧ o.data.state ≠ .opened ∨
      succeeds = false ∧ o.result ≠ .ok ∧ o.data.state = .opened ∧ Undone o.events) :
    let w := wrapInit d h arg u o
    u.access ∧ u.copyFrom ∧ succeeds = true ∧ ¬ u.copyTo ∧
        w.result ≠ .ok ∧ w.data.state ≠ .opened ∨
      ¬ (u.access ∧ u.copyFrom ∧ succeeds = true ∧ ¬ u.copyTo) ∧
        (w.result ≠ .ok → w.data.state = .opened ∧ Undone w.events) := by
  unfold wrapInit
  by_cases haccess : u.access = true
  swap
  · rw [if_pos haccess]
    exact .inr ⟨fun h => haccess h.1, fun _ => ⟨hd, undone_nil⟩⟩
  rw [if_neg (not_not_intro haccess)]
  by_cases hfrom : u.copyFrom = true
  swap
  · rw [if_pos hfrom]
    exact .inr ⟨fun h => hfrom h.2.1, fun _ => ⟨hd, undone_nil⟩⟩
  rw [if_neg (not_not_intro hfrom)]
  rcases hcases with ⟨hs, hok, hstate⟩ | ⟨hs, hok, hstate, hundone⟩
  · rw [if_neg (not_not_intro hok)]
    by_cases hto : u.copyTo = true
    · rw [if_neg (not_not_intro hto)]
      exact .inr ⟨fun h => h.2.2.2 hto, fun hne => absurd hok hne⟩
    · rw [if_pos hto]
      exact .inl ⟨haccess, hfrom, hs, hto, by simp, hstate⟩
  · rw [if_pos hok]
    exact .inr ⟨fun h => by simp [hs] at h, fun _ => ⟨hstate, hundone⟩⟩

/-- Either the state was committed and the error comes too late, or an error leaves nothing
behind. -/
theorem ioctlInit_cases (hd : d.state = .opened) (cmd : InitCmd) (u : UserAccess) :
    CommittedTooEarly cmd u ∧ (ioctlInit d cmd u).1 ≠ .ok ∧
        (ioctlInit d cmd u).2.1.state ≠ .opened ∨
      ¬ CommittedTooEarly cmd u ∧ ((ioctlInit d cmd u).1 ≠ .ok →
        (ioctlInit d cmd u).2.1.state = .opened ∧ Undone (ioctlInit d cmd u).2.2) := by
  cases cmd with
  | offerer arg env =>
    rcases wrapInit_cases env.page u arg hd (differs (by simp)
      (initOfferer_cases hd arg env)) with ⟨h₁, h₂, h₃, h₄, hne, hstate⟩ | ⟨hn, hret⟩
    · exact .inl ⟨⟨h₁, h₂, h₃, h₄⟩, hne, hstate⟩
    · exact .inr ⟨hn, hret⟩
  | receiver arg env =>
    rcases wrapInit_cases env.page u arg hd (differs (by simp)
      (initReceiver_cases hd arg env)) with ⟨h₁, h₂, h₃, h₄, hne, hstate⟩ | ⟨hn, hret⟩
    · exact .inl ⟨⟨h₁, h₂, h₃, h₄⟩, hne, hstate⟩
    · exact .inr ⟨hn, hret⟩

end Wrapper

/-- A failed INIT leaves the instance as it was exactly when it did not fail in the copy to the
user. -/
theorem failed_init_restores_iff (d : Instance) (hd : d.state = .opened) (cmd : InitCmd)
    (u : UserAccess) :
    ((ioctlInit d cmd u).1 ≠ .ok → Restored (ioctlInit d cmd u).2.1 (ioctlInit d cmd u).2.2) ↔
      ¬ CommittedTooEarly cmd u := by
  rcases ioctlInit_cases hd cmd u with ⟨hearly, hne, hstate⟩ | ⟨hearly, hret⟩
  · exact iff_of_false (fun h => hstate (h hne).state) (not_not_intro hearly)
  · refine iff_of_true (fun hne => ?_) hearly
    obtain ⟨hstate, hundone⟩ := hret hne
    exact ⟨hstate, hundone, exists_init_ok hstate⟩

/-- An offerer of one page whose event channel cannot be opened. -/
theorem failed_init_restores_noChannel :
    let ret := ioctlInit .fresh (.offerer ⟨1, 2, 0, 0⟩ ⟨pageSize, .zero, fun _ => 8, none, 0⟩)
      ⟨true, true, true⟩
    Restored ret.2.1 ret.2.2 :=
  (failed_init_restores_iff .fresh rfl _ _).mpr (by simp [CommittedTooEarly]) (by decide)

/-- An offerer whose argument cannot be copied back gets an error and stays an offerer. -/
theorem not_failed_init_restores : ¬ ∀ (d : Instance) (cmd : InitCmd) (u : UserAccess),
    d.state = .opened → (ioctlInit d cmd u).1 ≠ .ok →
      Restored (ioctlInit d cmd u).2.1 (ioctlInit d cmd u).2.2 := by
  intro h
  have hrestored := h .fresh
    (.offerer ⟨1, 2, 0, 0⟩ ⟨pageSize, .zero, fun i => 8 + i, some 5, 9⟩) ⟨true, true, false⟩ rfl
    (by decide)
  exact absurd hrestored.state (by decide)

end XenShm.Kernel
