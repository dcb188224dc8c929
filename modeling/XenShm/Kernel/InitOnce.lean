import XenShm.Kernel.Init
import XenShm.Library.Run

/-!
# INIT ioctls on one descriptor

Any number of INIT ioctls on one instance, cut into their reads and writes of the instance
and of the header page. They check the state of the instance first and set it last, and no
lock is held in between.
-/

namespace XenShm.Kernel

open Library

/-- Where an INIT ioctl is, named by what it does next. -/
inductive TaskPc where
  /-- Test the state and check the argument. -/
  | check
  /-- Store the domain of the peer, `distant_domid`. -/
  | domain
  /-- A receiver stores the grant it was given, `first_page_grant`. -/
  | keepGrant
  /-- Store the number of pages with the header page, `pages_count`. -/
  | count
  /-- Offerer: read `pages_count` and allocate the pages. -/
  | alloc
  /-- An offerer stores the order of its allocation, `offerer_alloc_order`. -/
  | storeOrder
  /-- An offerer stores the address of its pages, `shared_memory`. -/
  | storeMemory
  /-- Receiver: allocate the vm area and store it in `unmapped_area`. -/
  | area
  /-- A receiver tests the `unmapped_area` it has just stored. -/
  | testArea
  /-- A receiver stores the address of the vm area, `shared_memory`. -/
  | base
  /-- A receiver maps the header page. -/
  | map
  /-- A receiver stores the handle of the mapping, `grant_map_handles[0]`. -/
  | storeHandle
  /-- Read `shared_memory` to find the header page. -/
  | findPage
  /-- An offerer fills the header page. -/
  | fill
  /-- Offerer: grant the next page, if there is one. -/
  | grant
  /-- An offerer stores the grant of the header page, `first_page_grant`. -/
  | firstGrant
  /-- A receiver compares its page count with that of the header page. -/
  | compare
  /-- A receiver stores the port of the offerer, `dist_ec_port`. -/
  | distPort
  /-- Allocate a port, or bind that of the offerer. -/
  | channel
  /-- Store the port it has got, `local_ec_port`. -/
  | storePort
  /-- Bind the handler to the port. -/
  | bind
  /-- Store the interrupt it has got, `ec_irq`. -/
  | storeIrq
  /-- Offerer: write the port to the header page. -/
  | showPort
  /-- Store `state`, by which the instance is initialised. -/
  | commit
  /-- Set the own state in the header page. -/
  | announce
  /-- A receiver sends the initial signal. -/
  | greet
  /-- Offerer: end the access to the next page, if there is one. -/
  | endGrant (e : Errno)
  /-- A receiver unmaps the header page and fails. -/
  | unmap (e : Errno)
  /-- Free the pages or the vm area. -/
  | free (e : Errno)
  /-- The ioctl has returned with this result. -/
  | done (r : Result)
  deriving DecidableEq, Repr

/-- The argument of an INIT ioctl, which also tells which of the two it is. -/
inductive InitArg where
  | offerer (arg : OffererArg)
  | receiver (arg : ReceiverArg)
  deriving DecidableEq, Repr

/-- The number of data pages that the argument asks for. -/
def InitArg.pagesCount : InitArg → Nat
  | .offerer arg => arg.pagesCount
  | .receiver arg => arg.pagesCount

/-- The domain of the peer that the argument names. -/
def InitArg.distDomid : InitArg → Nat
  | .offerer arg => arg.distDomid
  | .receiver arg => arg.distDomid

/-- The state that the ioctl sets when it succeeds. -/
def InitArg.state : InitArg → State
  | .offerer _ => .offerer
  | .receiver _ => .receiver

/-- An INIT ioctl that is in progress, with its local variables. -/
structure InitTask where
  arg : InitArg
  pc : TaskPc
  /-- Of an offerer, the order of the allocation. -/
  order : Nat
  /-- The pages or the vm area it has allocated. -/
  memory : Nat
  /-- `meta_page_p`, the address of the header page as the ioctl knows it. -/
  metaPage : Nat
  /-- `page`, the next page to be granted, or the one whose grant is ended next. -/
  page : Nat
  /-- Of a receiver, `map_op.handle`. -/
  handle : Int
  /-- The port that was allocated or bound for it. -/
  port : Nat
  /-- Of a receiver, the handle that the hypercall has set in `map_op`. -/
  irq : Int
  deriving DecidableEq, Repr

/-- An ioctl that has made no access yet, with its local variables unassigned. -/
def InitTask.enter (arg : InitArg) : InitTask := ⟨arg, .check, 0, 0, 0, 0, 0, 0, 0⟩

/-- What the kernel and the hypervisor answer to a call that a step makes. -/
structure Answer where
  /-- The address that `__get_free_pages` returns, 0 if it fails. -/
  alloc : Nat
  /-- What `gnttab_grant_foreign_access` returns for the page. -/
  grant : Int
  /-- The address of the area that `alloc_vm_area` returns. -/
  area : Option Nat
  /-- `HYPERVISOR_grant_table_op`, which maps the header page. -/
  mapCall : Int
  mapStatus : Int
  mapHandle : Int
  /-- The port allocated or bound by the hypervisor. -/
  port : Option Nat
  /-- What `bind_evtchn_to_irqhandler` returns. -/
  irq : Int
  deriving DecidableEq, Repr

/-- What the ioctls on one descriptor share: the instance and the memory of the kernel. -/
structure InitShared where
  data : Instance
  /-- What is found at an address that one of them takes for its header page. -/
  pages : Nat → Header

/-- Change what is found at this address. -/
def InitShared.setPage (s : InitShared) (addr : Nat) (f : Header → Header) : InitShared :=
  { s with pages := Function.update s.pages addr (f (s.pages addr)) }

/-- Replace the instance by what an access has made of it. -/
def InitShared.set (s : InitShared) (d : Instance) : InitShared := { s with data := d }

/-- What one step of an ioctl does to the shared state, to itself and outside. -/
abbrev TaskStep := Option (InitShared × InitTask × List Event)

/-- Where this ioctl goes when a call has failed with the error. -/
def InitTask.undo (t : InitTask) (e : Errno) : InitTask :=
  match t.arg with
  | .offerer _ => { t with pc := .endGrant e }
  | .receiver _ => { t with pc := .unmap e }

/-- One step of the parts that both ioctls have. -/
def InitTask.common (s : InitShared) (t : InitTask) (a : Answer) : TaskStep :=
  let d := s.data
  match t.pc with
  | .check =>
    if d.state ≠ .opened then some (s, { t with pc := .done (.error .enotty) }, [])
    else if badPagesCount t.arg.pagesCount then
      some (s, { t with pc := .done (.error .einval) }, [])
    else some (s, { t with pc := .domain }, [])
  | .findPage =>
    let pc := match t.arg with
      | .offerer _ => .fill
      | .receiver _ => .compare
    some (s, { t with metaPage := d.sharedMemory, pc := pc }, [])
  | .channel =>
    match a.port with
    | none => some (s, t.undo .eio, [])
    | some port => some (s, { t with port := port, pc := .storePort }, [.acquire (.channel port)])
  | .storePort => some (s.set { d with localEcPort := t.port }, { t with pc := .bind }, [])
  | .bind =>
    if a.irq ≤ 0 then some (s, t.undo .eio, [.release (.channel d.localEcPort)])
    else some (s, { t with irq := a.irq, pc := .storeIrq }, [.acquire (.handler a.irq)])
  | _ => none

/-- One access of `__xen_shm_ioctl_init_offerer`, or one call that it makes. -/
def InitTask.offererStep (s : InitShared) (t : InitTask) (arg : OffererArg) (a : Answer) :
    TaskStep :=
  let d := s.data
  match t.pc with
  | .domain =>
    some (s.set { d with distantDomid := d.resolveDomid arg.distDomid },
      { t with pc := .count }, [])
  | .count => some (s.set { d with pagesCount := arg.pagesCount + 1 }, { t with pc := .alloc }, [])
  | .alloc =>
    if a.alloc = 0 then some (s, { t with pc := .done (.error .enomem) }, [])
    else
      let order := allocOrder d.pagesCount
      some (s, { t with order := order, memory := a.alloc, pc := .storeOrder },
        [.acquire (.pages a.alloc order)])
  | .storeOrder =>
    some (s.set { d with offererAllocOrder := t.order }, { t with pc := .storeMemory }, [])
  | .storeMemory => some (s.set { d with sharedMemory := t.memory }, { t with pc := .findPage }, [])
  | .fill =>
    some (s.setPage t.metaPage fun h => { h with
        offererState := .none, receiverState := .none, ecMutexCount := 1
        pagesCount := d.pagesCount },
      { t with page := 0, pc := .grant }, [])
  | .grant =>
    if t.page < d.pagesCount then
      let ref := GrantRef.ofInt a.grant
      some (s.setPage t.metaPage fun h => { h with
          grantRefs := Function.update h.grantRefs t.page ref },
        -- the error code was stored in an unsigned field before it is tested
        if ref.isNegative then { t with pc := .endGrant (.code ref.toInt) }
        else { t with page := t.page + 1 },
        if 0 ≤ a.grant then [.acquire (.grant ref)] else [])
    else some (s, { t with pc := .firstGrant }, [])
  | .firstGrant =>
    some (s.set { d with firstPageGrant := (s.pages t.metaPage).grantRefs 0 },
      { t with pc := .channel }, [])
  | .storeIrq => some (s.set { d with ecIrq := t.irq }, { t with pc := .showPort }, [])
  | .showPort =>
    some (s.setPage t.metaPage fun h => { h with offererEcPort := d.localEcPort },
      { t with pc := .commit }, [])
  | .commit => some (s.set { d with state := .offerer }, { t with pc := .announce }, [])
  | .announce =>
    some (s.setPage t.metaPage fun h => { h with offererState := .opened },
      { t with pc := .done .ok }, [])
  | .endGrant e =>
    match t.page with
    | 0 => some (s, { t with pc := .free e }, [])
    | page + 1 =>
      some (s, { t with page := page }, [.release (.grant ((s.pages t.metaPage).grantRefs page))])
  | .free e => some (s, { t with pc := .done (.error e) }, freeSharedMemoryOfferer d)
  | _ => t.common s a

/-- One access of `__xen_shm_ioctl_init_receiver`, or one call that it makes. -/
def InitTask.receiverStep (s : InitShared) (t : InitTask) (arg : ReceiverArg) (a : Answer) :
    TaskStep :=
  let d := s.data
  match t.pc with
  | .domain =>
    some (s.set { d with distantDomid := d.resolveDomid arg.distDomid },
      { t with pc := .keepGrant }, [])
  | .keepGrant => some (s.set { d with firstPageGrant := arg.grant }, { t with pc := .count }, [])
  | .count => some (s.set { d with pagesCount := arg.pagesCount + 1 }, { t with pc := .area }, [])
  | .area =>
    some (s.set { d with unmappedArea := a.area },
      { t with memory := a.area.getD 0, pc := .testArea },
      a.area.toList.map fun addr => .acquire (.vmArea addr))
  | .testArea =>
    some (s, { t with pc := if d.unmappedArea = none then .done (.error .enomem) else .base }, [])
  | .base => do
    -- there is no step when another ioctl has stored NULL here
    let addr ← d.unmappedArea
    some (s.set { d with sharedMemory := addr }, { t with pc := .map }, [])
  | .map =>
    if a.mapCall ≠ 0 then some (s, { t with pc := .free .efault }, [])
    else if a.mapStatus < 0 then some (s, { t with pc := .free .einval }, [])
    else some (s, { t with handle := a.mapHandle, pc := .storeHandle },
      [.acquire (.headerMap a.mapHandle)])
  | .storeHandle => some (s.set { d with headerHandle := t.handle }, { t with pc := .findPage }, [])
  | .compare =>
    let pc := if d.pagesCount ≠ (s.pages t.metaPage).pagesCount then .unmap .einval else .distPort
    some (s, { t with pc := pc }, [])
  | .distPort =>
    some (s.set { d with distEcPort := (s.pages d.sharedMemory).offererEcPort },
      { t with pc := .channel }, [])
  | .storeIrq => some (s.set { d with ecIrq := t.irq }, { t with pc := .commit }, [])
  | .commit => some (s.set { d with state := .receiver }, { t with pc := .announce }, [])
  | .announce =>
    some (s.setPage t.metaPage fun h => { h with receiverState := .opened },
      { t with pc := .greet }, [])
  | .greet => some (s, { t with pc := .done .ok }, [.notify d.localEcPort])
  | .unmap e => some (s, { t with pc := .free e }, [.release (.headerMap d.headerHandle)])
  | .free e => some (s, { t with pc := .done (.error e) }, freeSharedMemoryReceiver d)
  | _ => t.common s a

/-- One step of an INIT ioctl, whichever of the two it is. -/
def InitTask.step (s : InitShared) (t : InitTask) (a : Answer) : TaskStep :=
  match t.arg with
  | .offerer arg => t.offererStep s arg a
  | .receiver arg => t.receiverStep s arg a

/-- A descriptor on which INIT ioctls are made. -/
structure Descriptor where
  /-- The instance and the header pages. -/
  shared : InitShared
  /-- The ioctls in the order in which they were made. -/
  tasks : List InitTask
  /-- What was obtained and given back, and by which ioctl. -/
  trace : List (Nat × Event)

/-- A descriptor on which no ioctl was made yet. -/
def Descriptor.initial (d : Instance) (pages : Nat → Header) : Descriptor := ⟨⟨d, pages⟩, [], []⟩

/-- What happens next at the descriptor, in any order. -/
inductive Descriptor.Input where
  /-- A process makes an INIT ioctl, while others may still be in progress. -/
  | init (arg : InitArg)
  /-- The ioctl with this number goes on. -/
  | task (k : Nat) (a : Answer)
  /-- The peer writes to a header page. -/
  | peer (addr : Nat) (h : Header)

/-- A step of the descriptor: a new ioctl, or one step of an old one. -/
def Descriptor.step (s : Descriptor) : Input → Option Descriptor
  | .init arg => some { s with tasks := s.tasks ++ [.enter arg] }
  | .task k a => do
    let t ← s.tasks[k]?
    let (shared, t, events) ← t.step s.shared a
    some ⟨shared, s.tasks.set k t, s.trace ++ events.map fun e => (k, e)⟩
  | .peer addr h => some { s with shared := s.shared.setPage addr fun _ => h }

/-- The ioctl has passed its check and has not returned. -/
def InitTask.active (t : InitTask) : Bool :=
  match t.pc with
  | .check | .done _ => false
  | _ => true

/-- The ioctl is at work or has succeeded. -/
def InitTask.busy (t : InitTask) : Bool := t.active || t.pc = .done .ok

/-- An ioctl passes its check only when no other one is at work. -/
def Descriptor.alone (s : Descriptor) : Input → Bool
  | .task k _ =>
    s.tasks[k]?.all fun t =>
      t.pc ≠ .check || s.shared.data.state ≠ .opened || badPagesCount t.arg.pagesCount ||
        s.tasks.all fun t => !t.active
  | _ => true

/-- How far the fields of the instance come from the ioctl. -/
def TaskPc.stage : TaskPc → Nat
  | .check | .endGrant _ | .unmap _ | .free _ | .done (.error _) => 0
  | .domain | .keepGrant | .count => 1
  | .alloc | .storeOrder | .storeMemory | .area | .testArea => 2
  | .base => 3
  | .map | .storeHandle | .findPage | .fill | .grant | .firstGrant | .compare | .distPort
  | .channel | .storePort => 4
  | .bind | .storeIrq => 5
  | .showPort | .commit => 6
  | .announce | .greet | .done .ok => 7

/-- The instance has in it what the ioctl has stored up to the place where it is. -/
structure InitTask.Holds (t : InitTask) (d : Instance) : Prop where
  count : 2 ≤ t.pc.stage → d.pagesCount = t.arg.pagesCount + 1
  /-- `unmapped_area`, right after the ioctl has stored it. -/
  tested : t.pc = .testArea → d.unmappedArea = none ∨ d.unmappedArea = some t.memory
  area : t.arg.state = .receiver → 3 ≤ t.pc.stage → d.unmappedArea = some t.memory
  memory : 4 ≤ t.pc.stage → d.sharedMemory = t.memory
  port : 5 ≤ t.pc.stage → d.localEcPort = t.port
  irq : 6 ≤ t.pc.stage → d.ecIrq = t.irq
  state : 7 ≤ t.pc.stage → d.state = t.arg.state

/-- What one step of an ioctl leaves as it was, and what it makes of the instance. -/
structure InitTask.Stepped (s s' : InitShared) (t t' : InitTask) (events : List Event) : Prop where
  /-- The argument of the ioctl stays. -/
  arg : t'.arg = t.arg
  /-- The check only looks at the state and the argument. -/
  check : t.pc = .check → s' = s ∧ events = [] ∧
    (t'.busy = true → s.data.state = .opened ∧ badPagesCount t.arg.pagesCount = false)
  /-- The check is made once. -/
  checked : t'.pc ≠ .check
  /-- An ioctl that has returned makes no step. -/
  working : t.pc = .check ∨ t.active = true
  /-- The fields that were set stay, and one more may be set. -/
  holds : t.Holds s.data → t'.Holds s'.data

/-- The steps common to both ioctls do to the instance what a step may do. -/
theorem InitTask.step_common {s s' : InitShared} {t t' : InitTask} {a : Answer}
    {events : List Event} (h : t.common s a = some (s', t', events)) :
    Stepped s s' t t' events := by
  unfold common undo at h
  cases hpc : t.pc <;> simp only [hpc, reduceCtorEq] at h
  all_goals
    (repeat' split at h) <;> simp only [Option.some.injEq, Prod.mk.injEq] at h
    all_goals
      obtain ⟨rfl, rfl, rfl⟩ := h
      refine ⟨rfl, ?_, ?_, ?_, fun ⟨hcount, htested, harea, hmemory, hport, hirq, hstate⟩ => ?_⟩
      · simp_all [busy, active]
      · simp
      · simp [active, hpc]
      · simp only [hpc, TaskPc.stage, Nat.reduceLeDiff, forall_const, false_imp_iff,
          reduceCtorEq] at hcount htested harea hmemory hport hirq hstate
        constructor <;> simp_all [TaskPc.stage, InitShared.set]

/-- The steps of INIT_OFFERER do to the instance what a step may do. -/
theorem InitTask.step_offerer {s s' : InitShared} {t t' : InitTask} {arg : OffererArg} {a : Answer}
    {events : List Event} (harg : t.arg = .offerer arg)
    (h : t.offererStep s arg a = some (s', t', events)) : Stepped s s' t t' events := by
  unfold offererStep at h
  cases hpc : t.pc <;> simp only [hpc] at h
  all_goals try exact step_common h
  all_goals
    (repeat' split at h) <;> simp only [Option.some.injEq, Prod.mk.injEq] at h
    all_goals
      obtain ⟨rfl, rfl, rfl⟩ := h
      refine ⟨by simp_all, by simp [hpc], by simp, by simp [active, hpc],
        fun ⟨hcount, htested, harea, hmemory, hport, hirq, hstate⟩ => ?_⟩
      simp only [hpc, TaskPc.stage, Nat.reduceLeDiff, forall_const, false_imp_iff,
        reduceCtorEq] at hcount htested harea hmemory hport hirq hstate
      constructor <;> simp_all [TaskPc.stage, InitShared.set, InitShared.setPage, InitArg.state,
        InitArg.pagesCount]

/-- The steps of INIT_RECEIVER do to the instance what a step may do. -/
theorem InitTask.step_receiver {s s' : InitShared} {t t' : InitTask} {arg : ReceiverArg}
    {a : Answer} {events : List Event} (harg : t.arg = .receiver arg)
    (h : t.receiverStep s arg a = some (s', t', events)) : Stepped s s' t t' events := by
  unfold receiverStep at h
  cases hpc : t.pc <;> simp only [hpc] at h
  all_goals try exact step_common h
  case base =>
    obtain ⟨addr, haddr, h⟩ := Option.bind_eq_some_iff.mp h
    simp only [Option.some.injEq, Prod.mk.injEq] at h
    obtain ⟨rfl, rfl, rfl⟩ := h
    refine ⟨rfl, by simp [hpc], by simp, by simp [active, hpc],
      fun ⟨hcount, htested, harea, hmemory, hport, hirq, hstate⟩ => ?_⟩
    simp only [hpc, TaskPc.stage, Nat.reduceLeDiff, forall_const, false_imp_iff,
      reduceCtorEq] at hcount htested harea hmemory hport hirq hstate
    constructor <;> simp_all [TaskPc.stage, InitShared.set, InitArg.state]
  case area =>
    simp only [Option.some.injEq, Prod.mk.injEq] at h
    obtain ⟨rfl, rfl, rfl⟩ := h
    refine ⟨rfl, by simp [hpc], by simp, by simp [active, hpc],
      fun ⟨hcount, htested, harea, hmemory, hport, hirq, hstate⟩ => ?_⟩
    simp only [hpc, TaskPc.stage, Nat.reduceLeDiff, forall_const, false_imp_iff,
      reduceCtorEq] at hcount htested harea hmemory hport hirq hstate
    constructor <;> simp_all [TaskPc.stage, InitShared.set, InitArg.state]
    cases a.area <;> simp
  all_goals
    (repeat' split at h) <;> simp only [Option.some.injEq, Prod.mk.injEq] at h
    all_goals
      obtain ⟨rfl, rfl, rfl⟩ := h
      refine ⟨by simp_all, by simp [hpc], by simp, by simp [active, hpc],
        fun ⟨hcount, htested, harea, hmemory, hport, hirq, hstate⟩ => ?_⟩
      simp only [hpc, TaskPc.stage, Nat.reduceLeDiff, forall_const, false_imp_iff,
        reduceCtorEq] at hcount htested harea hmemory hport hirq hstate
      constructor <;> simp_all [TaskPc.stage, InitShared.set, InitShared.setPage, InitArg.state,
        InitArg.pagesCount]

/-- Every step of an ioctl stores into the instance what its place says, and nothing else. -/
theorem InitTask.step_stepped {s s' : InitShared} {t t' : InitTask} {a : Answer}
    {events : List Event} (h : t.step s a = some (s', t', events)) : Stepped s s' t t' events := by
  unfold step at h
  cases harg : t.arg with
  | offerer arg => exact step_offerer harg (by simpa only [harg] using h)
  | receiver arg => exact step_receiver harg (by simpa only [harg] using h)

/-- An ioctl that has succeeded has set the state. -/
theorem InitTask.Holds.not_opened {t : InitTask} {d : Instance} (h : t.Holds d)
    (hdone : t.pc = .done .ok) : d.state ≠ .opened := by
  rw [h.state (by simp [hdone, TaskPc.stage])]
  cases t.arg <;> simp [InitArg.state]

/-- All events of the ioctl come after those of the others. -/
def LastIn (trace : List (Nat × Event)) (i : Nat) : Prop :=
  ∃ before own, trace = before ++ own ∧ (∀ e ∈ before, e.1 ≠ i) ∧ ∀ e ∈ own, e.1 = i

/-- Further events of the same ioctl are the last ones again. -/
theorem LastIn.append {trace : List (Nat × Event)} {k : Nat} (h : LastIn trace k)
    (events : List Event) : LastIn (trace ++ events.map fun e => (k, e)) k := by
  obtain ⟨before, own, rfl, hbefore, hown⟩ := h
  refine ⟨before, own ++ events.map fun e => (k, e), List.append_assoc .., hbefore, fun e he => ?_⟩
  rcases List.mem_append.mp he with he | he
  · exact hown e he
  · obtain ⟨_, -, rfl⟩ := List.mem_map.mp he
    rfl

/-- The invariant of a run in which the ioctls are at work one after the other. -/
structure Descriptor.Serial (s : Descriptor) : Prop where
  /-- One of them is at work or has succeeded. -/
  one : ∀ (i j : Nat) (t u : InitTask), s.tasks[i]? = some t → s.tasks[j]? = some u →
    t.busy = true → u.busy = true → i = j
  /-- The instance is as this one has left it. -/
  holds : ∀ t ∈ s.tasks, t.busy = true → t.Holds s.shared.data
  /-- An ioctl in progress has the last events in the trace. -/
  last : ∀ (i : Nat) (t : InitTask), s.tasks[i]? = some t → t.busy = true → LastIn s.trace i
  /-- An ioctl that has not begun has no events. -/
  unbegun : ∀ (i : Nat) (t : InitTask), s.tasks[i]? = some t → t.pc = .check →
    ∀ e ∈ s.trace, e.1 ≠ i
  /-- Events come from ioctls that were made. -/
  known : ∀ e ∈ s.trace, e.1 < s.tasks.length

namespace Descriptor

variable {s t : Descriptor}

/-- An ioctl that is made has stored nothing yet, so the others stay in order. -/
theorem Serial.init (h : s.Serial) (arg : InitArg) :
    Serial { s with tasks := s.tasks ++ [.enter arg] } := by
  have hold : ∀ {i : Nat} {t : InitTask}, (s.tasks ++ [InitTask.enter arg])[i]? = some t →
      t.busy = true → s.tasks[i]? = some t := by
    intro i t hi hb
    rcases Nat.lt_or_ge i s.tasks.length with hlt | hge
    · rwa [List.getElem?_append_left hlt] at hi
    · rw [List.getElem?_append_right hge, List.getElem?_singleton,
        Option.ite_none_right_eq_some] at hi
      rw [← Option.some.inj hi.2] at hb
      simp [InitTask.busy, InitTask.active, InitTask.enter] at hb
  refine ⟨fun i j t u hi hj ht hu => h.one i j t u (hold hi ht) (hold hj hu) ht hu,
    fun t ht hb => ?_, fun i t hi hb => h.last i t (hold hi hb) hb, fun i t hi hc e he => ?_,
    fun e he => ?_⟩
  · obtain ⟨i, hi⟩ := List.getElem?_of_mem ht
    exact h.holds t (List.mem_of_getElem? (hold hi hb)) hb
  · rcases Nat.lt_or_ge i s.tasks.length with hlt | hge
    · rw [List.getElem?_append_left hlt] at hi
      exact h.unbegun i t hi hc e he
    · exact Nat.ne_of_lt (Nat.lt_of_lt_of_le (h.known e he) hge)
  · rw [List.length_append]
    exact Nat.lt_of_lt_of_le (h.known e he) (Nat.le_add_right ..)

/-- An ioctl that goes on, being the only one in progress, keeps the invariant. -/
theorem Serial.task (h : s.Serial) {k : Nat} {u u' : InitTask} {shared : InitShared}
    {events : List Event} (hk : s.tasks[k]? = some u)
    (hstep : InitTask.Stepped s.shared shared u u' events)
    (halone : u.pc = .check → u'.busy = true → ∀ t ∈ s.tasks, t.busy = false) :
    Serial ⟨shared, s.tasks.set k u', s.trace ++ events.map fun e => (k, e)⟩ := by
  have hlt : k < s.tasks.length := (List.getElem?_eq_some_iff.mp hk).1
  have hself : (s.tasks.set k u')[k]? = some u' := List.getElem?_set_self hlt
  have hother : ∀ {i : Nat}, i ≠ k → (s.tasks.set k u')[i]? = s.tasks[i]? := fun hi =>
    List.getElem?_set_ne (Ne.symm hi)
  -- Either this ioctl was the one at work, or it has only made its check.
  have hcases : u.busy = true ∨ u.pc = .check ∧ shared = s.shared ∧ events = [] := by
    rcases hstep.working with hc | ha
    · exact .inr ⟨hc, (hstep.check hc).1, (hstep.check hc).2.1⟩
    · exact .inl (by simp [InitTask.busy, ha])
  have hidle : ∀ {i : Nat} {t : InitTask}, i ≠ k → s.tasks[i]? = some t → t.busy = true →
      u.pc = .check ∧ shared = s.shared ∧ events = [] ∧ u'.busy = false := by
    intro i t hik hi ht
    rcases hcases with hb | ⟨hc, hs, he⟩
    · exact absurd (h.one i k t u hi hk ht hb) hik
    · refine ⟨hc, hs, he, Bool.eq_false_iff.mpr fun hb => ?_⟩
      simp [halone hc hb t (List.mem_of_getElem? hi)] at ht
  refine ⟨fun i j t v hi hj ht hv => ?_, fun t ht hb => ?_, fun i t hi hb => ?_,
    fun i t hi hc e he => ?_, fun e he => ?_⟩
  · by_cases hik : i = k <;> by_cases hjk : j = k
    · rw [hik, hjk]
    · rw [hik, hself, Option.some.injEq] at hi
      rw [hother hjk] at hj
      simp [← hi, (hidle hjk hj hv).2.2.2] at ht
    · rw [hjk, hself, Option.some.injEq] at hj
      rw [hother hik] at hi
      simp [← hj, (hidle hik hi ht).2.2.2] at hv
    · rw [hother hik] at hi
      rw [hother hjk] at hj
      exact h.one i j t v hi hj ht hv
  · obtain ⟨i, hi⟩ := List.getElem?_of_mem ht
    by_cases hik : i = k
    · rw [hik, hself, Option.some.injEq] at hi
      subst hi
      refine hstep.holds ?_
      rcases hcases with hu | ⟨hc, -, -⟩
      · exact h.holds u (List.mem_of_getElem? hk) hu
      · constructor <;> simp [hc, TaskPc.stage]
    · rw [hother hik] at hi
      rw [(hidle hik hi hb).2.1]
      exact h.holds t (List.mem_of_getElem? hi) hb
  · by_cases hik : i = k
    · rw [hik, hself, Option.some.injEq] at hi
      subst hik hi
      rcases hcases with hu | ⟨hc, -, he⟩
      · exact (h.last i u hk hu).append events
      · subst he
        exact ⟨s.trace, [], by simp, h.unbegun i u hk hc, by simp⟩
    · rw [hother hik] at hi
      simpa [(hidle hik hi hb).2.2.1] using h.last i t hi hb
  · have hik : i ≠ k := fun hik => by
      rw [hik, hself, Option.some.injEq] at hi
      exact hstep.checked (hi ▸ hc)
    rw [hother hik] at hi
    rcases List.mem_append.mp he with he | he
    · exact h.unbegun i t hi hc e he
    · obtain ⟨_, -, rfl⟩ := List.mem_map.mp he
      exact Ne.symm hik
  · rw [List.length_set]
    rcases List.mem_append.mp he with he | he
    · exact h.known e he
    · obtain ⟨_, -, rfl⟩ := List.mem_map.mp he
      exact hlt

/-- A step keeps the invariant if no ioctl passes its check beside another one. -/
theorem Serial.step {i : Descriptor.Input} (h : s.Serial) (hfine : s.alone i = true)
    (hi : s.step i = some t) : t.Serial := by
  cases i with
  | init arg => exact Option.some.inj hi ▸ h.init arg
  | peer addr page =>
    rw [← Option.some.inj hi]
    exact ⟨h.one, h.holds, h.last, h.unbegun, h.known⟩
  | task k a =>
    obtain ⟨u, hk, hi⟩ := Option.bind_eq_some_iff.mp hi
    obtain ⟨⟨shared, u', events⟩, hu, hi⟩ := Option.bind_eq_some_iff.mp hi
    have hstep := InitTask.step_stepped hu
    rw [← Option.some.inj hi]
    refine h.task hk hstep fun hc hb v hv => ?_
    obtain ⟨hopened, hgood⟩ := (hstep.check hc).2.2 hb
    simp only [alone, hk, Option.all_some, hc, hopened, hgood, ne_eq, not_true_eq_false,
      decide_false, Bool.or_self, Bool.false_or, List.all_eq_true] at hfine
    rw [InitTask.busy, Bool.or_eq_false_iff]
    refine ⟨by simpa using hfine v hv, decide_eq_false fun hdone => ?_⟩
    exact (h.holds v hv (by simp [InitTask.busy, hdone])).not_opened hdone hopened

theorem Serial.initial (d : Instance) (pages : Nat → Header) :
    (Descriptor.initial d pages).Serial := by
  constructor <;> simp [Descriptor.initial]

/-- In every run in which an ioctl passes its check only alone, the invariant holds. -/
theorem Serial.reaches {d : Instance} {pages : Nat → Header}
    (h : Reaches Descriptor.step alone (.initial d pages) s) : s.Serial :=
  Reaches.invariant h (Serial.initial d pages) fun _ _ _ hs hg hi => hs.step hg hi

end Descriptor

/-- The instance is as this ioctl has made it. The vm area is there for receivers only. -/
structure InitTask.Owns (t : InitTask) (d : Instance) : Prop where
  /-- The state is the one that this ioctl sets. -/
  state : d.state = t.arg.state
  /-- The pages counted are those of its argument and the header page. -/
  count : d.pagesCount = t.arg.pagesCount + 1
  /-- The shared memory is the one that this ioctl has obtained. -/
  memory : d.sharedMemory = t.memory
  /-- The vm area of a receiver is the one that this ioctl has obtained. -/
  area : t.arg.state = .receiver → d.unmappedArea = some t.memory
  /-- The port is the one that this ioctl has obtained. -/
  port : d.localEcPort = t.port
  /-- The interrupt is the one that this ioctl has bound. -/
  irq : d.ecIrq = t.irq

/-- **An instance is initialised at most once** as long as no INIT ioctl passes its check while
another one is at work: at most one of them succeeds, and when one has, the instance is as it has
left it and everything the others have obtained or given back came before. -/
theorem init_once {d : Instance} {pages : Nat → Header} {s : Descriptor}
    (h : Reaches Descriptor.step Descriptor.alone (.initial d pages) s) :
    (∀ (i j : Nat) (t u : InitTask), s.tasks[i]? = some t → s.tasks[j]? = some u →
      t.pc = .done .ok → u.pc = .done .ok → i = j) ∧
      ∀ (i : Nat) (t : InitTask), s.tasks[i]? = some t → t.pc = .done .ok →
        t.Owns s.shared.data ∧ LastIn s.trace i := by
  have hs := Descriptor.Serial.reaches h
  have hbusy : ∀ {t : InitTask}, t.pc = .done .ok → t.busy = true := fun ht => by
    simp [InitTask.busy, ht]
  refine ⟨fun i j t u hi hj ht hu => hs.one i j t u hi hj (hbusy ht) (hbusy hu),
    fun i t hi ht => ⟨?_, hs.last i t hi (hbusy ht)⟩⟩
  have hholds := hs.holds t (List.mem_of_getElem? hi) (hbusy ht)
  have hstage : t.pc.stage = 7 := by rw [ht]; rfl
  exact ⟨hholds.state (by omega), hholds.count (by omega), hholds.memory (by omega),
    fun hr => hholds.area hr (by omega), hholds.port (by omega), hholds.irq (by omega)⟩

/-- Everything succeeds: pages at this address, and this port and interrupt. -/
def Answer.good (addr port : Nat) (irq : Int) : Answer :=
  ⟨addr, 1, some addr, 0, 0, 1, some port, irq⟩

/-- One INIT_OFFERER alone succeeds, and the instance is as it has made it. -/
theorem init_once_alone :
    ∃ s, Reaches Descriptor.step Descriptor.alone (.initial .fresh fun _ => .zero) s ∧
      ∃ t, s.tasks[0]? = some t ∧ t.pc = .done .ok ∧ t.Owns s.shared.data := by
  have hrun : (run Descriptor.step Descriptor.alone (.initial .fresh fun _ => .zero)
      (.init (.offerer .onePage) :: .init (.offerer .onePage) ::
        List.replicate 19 (.task 0 (.good 4096 3 5)) ++
        [.task 1 (.good 8192 4 6)])).any (fun s =>
          s.tasks[0]?.any fun t => t.pc = .done .ok) = true := by decide +kernel
  obtain ⟨s, hs, htest⟩ := exists_reaches_of_run hrun
  obtain ⟨t, ht, hdone⟩ := (Option.any_eq_true _ _).mp htest
  have hdone := of_decide_eq_true hdone
  exact ⟨s, hs, t, ht, hdone, ((init_once hs).2 0 t ht hdone).1⟩

/-- Two ioctls pass the check before either of them sets the state, and both succeed. The
instance has the pages of the second one and the port of the first one. -/
theorem not_init_once :
    ∃ s, Reaches Descriptor.step (fun _ _ => true) (.initial .fresh fun _ => .zero) s ∧
      s.tasks.map InitTask.pc = [.done .ok, .done .ok] ∧
      (s.tasks.map fun t => (t.memory, t.port)) = [(4096, 3), (8192, 4)] ∧
      s.shared.data.sharedMemory = 8192 ∧ s.shared.data.localEcPort = 3 := by
  have hrun : (run Descriptor.step (fun _ _ => true) (.initial .fresh fun _ => .zero)
      (.init (.offerer .onePage) :: .init (.offerer .onePage) ::
        .task 0 (.good 4096 3 5) :: .task 1 (.good 8192 4 6) ::
        List.replicate 12 (.task 0 (.good 4096 3 5)) ++
        List.replicate 18 (.task 1 (.good 8192 4 6)) ++
        List.replicate 6 (.task 0 (.good 4096 3 5)))).any (fun s =>
      s.tasks.map InitTask.pc = [.done .ok, .done .ok] ∧
      (s.tasks.map fun t => (t.memory, t.port)) = [(4096, 3), (8192, 4)] ∧
      s.shared.data.sharedMemory = 8192 ∧ s.shared.data.localEcPort = 3) = true := by
    decide +kernel
  obtain ⟨s, hs, htest⟩ := exists_reaches_of_run hrun
  exact ⟨s, hs, of_decide_eq_true htest⟩

end XenShm.Kernel
