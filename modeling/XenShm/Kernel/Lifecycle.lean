import XenShm.Kernel.Await
import XenShm.Kernel.Device
import XenShm.Kernel.SameBytes
import XenShm.Kernel.Teardown
import XenShm.Library.Run

/-!
# A descriptor between open and release

`xen_shm_ioctl` takes its command apart, checks the address and leaves the rest to the helpers.
The calls on one descriptor are made one after the other here. What the first INIT that gets
through has decided about an instance then stays until the release, whatever is asked for.
-/

namespace XenShm.Kernel

open Library

/-- `XEN_SHM_MAGIC_NUMBER`, by which the commands of this device are told from others. -/
def magicNumber : Nat := 83

/-- `_IOC` with the direction `dir`, for the magic number of the device. -/
def ioc (dir nr size : Nat) : BitVec 32 :=
  .ofNat 32 (dir * 2 ^ 30 + size * 2 ^ 16 + magicNumber * 2 ^ 8 + nr)

/-- `_IOC_TYPE`, the bits of a command that name the device. -/
def iocType (cmd : BitVec 32) : Nat := cmd.toNat / 2 ^ 8 % 2 ^ 8

/-- `_IOC_DIR(cmd) & _IOC_READ`: the user reads, so the kernel writes. -/
def iocReads (cmd : BitVec 32) : Bool := cmd.toNat.testBit 31

/-- `_IOC_DIR(cmd) & _IOC_WRITE`, a command whose argument the device reads. -/
def iocWrites (cmd : BitVec 32) : Bool := cmd.toNat.testBit 30

/-- The commands of the device, as the header file names them. -/
inductive Command where
  | initOfferer
  | initReceiver
  | wait
  | await
  | ssig
  | getDomid
  deriving DecidableEq, Repr

/-- `XEN_SHM_IOCTL_INIT_OFFERER` and so on, with the sizes of the structures on a 64-bit
machine. -/
def Command.word : Command → BitVec 32
  | .initOfferer => ioc 3 1 12
  | .initReceiver => ioc 1 2 8
  | .wait => ioc 0 3 0
  | .await => ioc 3 4 24
  | .ssig => ioc 0 5 0
  | .getDomid => ioc 2 6 2

/-- The labels of the `switch` in their order. -/
def Command.all : List Command := [.initOfferer, .initReceiver, .wait, .await, .ssig, .getDomid]

/-- The case of the `switch` that a command word leads to, if there is one. -/
def Command.ofWord (cmd : BitVec 32) : Option Command := Command.all.find? fun c => c.word = cmd

/-- What a call of `xen_shm_ioctl` finds in the memory of the process and from the kernel. -/
structure IoctlEnv where
  /-- Whether `access_ok(VERIFY_WRITE, ...)` holds for the argument. -/
  writable : Bool
  /-- Whether `access_ok(VERIFY_READ, ...)` holds for the argument. -/
  readable : Bool
  /-- Whether `copy_from_user` copies the whole argument. -/
  copyFrom : Bool
  /-- Whether `copy_to_user` copies the whole answer. -/
  copyTo : Bool
  /-- The argument that INIT_OFFERER finds. -/
  offererArg : OffererArg
  /-- The results of the calls that INIT_OFFERER makes. -/
  offerer : OffererEnv
  /-- The argument that INIT_RECEIVER finds. -/
  receiverArg : ReceiverArg
  /-- The results of the calls that INIT_RECEIVER makes. -/
  receiver : ReceiverEnv
  /-- What the header page contains when the ioctl looks at it. -/
  header : Header
  /-- What AWAIT on an initialised instance returns. -/
  awaited : Result
  /-- What it and the handler leave in the instance meanwhile. -/
  signals : Signals

/-- The test of the address before the `switch`. -/
def IoctlEnv.accessOk (env : IoctlEnv) (cmd : BitVec 32) : Bool :=
  if iocReads cmd then env.writable else if iocWrites cmd then env.readable else true

/-- `__xen_shm_ioctl_await` from the outside: it looks at the state first, and touches only the
signals of the instance. -/
def ioctlAwaited (d : Instance) (env : IoctlEnv) : Result × Instance × List Event :=
  if d.state = .opened then (.error .enotty, d, [])
  else (env.awaited, { d with signals := env.signals }, [])

/-- No call of AWAIT changes the state, with whatever runs in between. -/
theorem Call.step_state {s s' : Shared} {c c' : Call} {choice : Choice}
    (h : c.step s choice = some (s', c')) : s'.state = s.state := by
  cases choice with
  | interrupt | timeout | ends =>
    simp only [step, Option.ite_none_right_eq_some, Option.some.injEq, Prod.mk.injEq] at h
    rw [← h.2.1]
  | proceed =>
    simp only [step, proceed] at h
    cases hpc : c.pc <;> simp only [hpc, reduceCtorEq] at h
    case checkUser | checkInit | checkLatent | checkBroken => rw [(test_cases h).1]
    all_goals
      (repeat' split at h) <;> cases h
      all_goals rfl

/-- `__xen_shm_ioctl_ssig`, which sends an event to the peer if the pipe is not broken. -/
def ioctlSsig (d : Instance) (h : Header) : Result × Instance × List Event :=
  if d.state = .opened then (.error .enotty, d, [])
  else if h.isBrokenPipe then (.error .epipe, d, [])
  else (.ok, d, [.notify d.localEcPort])

/-- `xen_shm_ioctl`: the tests of the command word, the access check and the command itself. -/
def ioctl (d : Instance) (cmd : BitVec 32) (env : IoctlEnv) : Result × Instance × List Event :=
  if iocType cmd ≠ magicNumber then (.error .enotty, d, [])
  else if ¬ env.accessOk cmd then (.error .efault, d, [])
  else
    match Command.ofWord cmd with
    | some .initOfferer =>
      ioctlInit d (.offerer env.offererArg env.offerer) ⟨true, env.copyFrom, env.copyTo⟩
    | some .initReceiver =>
      ioctlInit d (.receiver env.receiverArg env.receiver) ⟨true, env.copyFrom, env.copyTo⟩
    | some .wait => ioctlAwaited d env
    | some .await =>
      if ¬ env.copyFrom then (.error .efault, d, [])
      else
        let (result, d, events) := ioctlAwaited d env
        if result = .ok ∧ ¬ env.copyTo then (.error .efault, d, events) else (result, d, events)
    | some .ssig => ioctlSsig d env.header
    | some .getDomid => (if env.copyTo then .ok else .error .efault, d, [])
    | none => (.error .enotty, d, [])

/-- What can be asked of a descriptor, and what can happen to its instance in between. -/
inductive FileOp where
  /-- The process makes an ioctl, `xen_shm_ioctl`. -/
  | ioctl (cmd : BitVec 32) (env : IoctlEnv)
  /-- The process maps the memory, `xen_shm_mmap`. -/
  | mmap (vma : Vma) (env : MmapEnv)
  /-- The mmu notifier is told that a range is given up. -/
  | invalidate (start stop : Nat)
  /-- The notifier is told that the address space is given up. -/
  | exit
  /-- The event handler has run and leaves these signals. -/
  | event (signals : Signals)

/-- The instance behind the descriptor when the operation is over. -/
def FileOp.serve (d : Instance) : FileOp → Instance
  | .ioctl cmd env => (Kernel.ioctl d cmd env).2.1
  | .mmap vma env => (Kernel.mmap d vma env).2.1
  | .invalidate start stop => (mnInvlRangeStart d start stop).1
  | .exit => (mnRelease d).1
  | .event signals => { d with signals := signals }

/-- The operations are made one after the other, and each of them ends. -/
def FileOp.step (d : Instance) (op : FileOp) : Option Instance := some (op.serve d)

/-- The guard under which every operation may be asked for. -/
def anyOp (_ : Instance) (_ : FileOp) : Bool := true

/-- The steps of `xen_shm_state_t`: an opened instance becomes an offerer or a receiver, which
maps. -/
inductive State.Moves : State → State → Prop where
  | offers : Moves .opened .offerer
  | receives : Moves .opened .receiver
  | maps : Moves .receiver .receiverMapped

/-- Two instances with everything that INIT decides in common. -/
structure Instance.SameSetup (d d' : Instance) : Prop where
  pagesCount : d'.pagesCount = d.pagesCount
  sharedMemory : d'.sharedMemory = d.sharedMemory
  distantDomid : d'.distantDomid = d.distantDomid
  /-- The port of the event channel. -/
  localEcPort : d'.localEcPort = d.localEcPort
  /-- The port at the other end of the event channel. -/
  distEcPort : d'.distEcPort = d.distEcPort
  /-- The interrupt of the event channel. -/
  ecIrq : d'.ecIrq = d.ecIrq
  /-- The grant of the header page. -/
  firstPageGrant : d'.firstPageGrant = d.firstPageGrant
  /-- The size of the allocation. -/
  offererAllocOrder : d'.offererAllocOrder = d.offererAllocOrder
  /-- The vm area of a receiver. -/
  unmappedArea : d'.unmappedArea = d.unmappedArea
  headerHandle : d'.headerHandle = d.headerHandle

/-- What holds of an instance between open and release. -/
structure Instance.Laid (d : Instance) : Prop where
  /-- An initialised instance has a data page, and every page has a place in the arrays. -/
  pages : d.state ≠ .opened → 2 ≤ d.pagesCount ∧ d.pagesCount ≤ allocAlignedPages
  /-- The pages of an offerer fill at least half of the allocation, and do not fill it. -/
  order : d.state = .offerer →
    2 ^ (d.offererAllocOrder - 1) ≤ d.pagesCount ∧ d.pagesCount < 2 ^ d.offererAllocOrder
  /-- The pages of an offerer exist. -/
  memory : d.state = .offerer → d.sharedMemory ≠ 0
  /-- A receiver has the header page in its vm area. -/
  area : d.state = .receiver ∨ d.state = .receiverMapped → d.unmappedArea = some d.sharedMemory
  /-- An instance knows the mapping of the user exactly when it has mapped its data pages. -/
  mapping : d.userMem.isSome = true ↔ d.state = .receiverMapped
  /-- The mapping of the user has a place for each data page. -/
  size : ∀ vma ∈ d.userMem, (vma.stop - vma.start) / pageSize = d.dataPages

namespace Instance.SameSetup

variable {d d' d'' : Instance}

theorem refl (d : Instance) : d.SameSetup d := ⟨rfl, rfl, rfl, rfl, rfl, rfl, rfl, rfl, rfl, rfl⟩

/-- What INIT has decided stays over two steps if it stays over each of them. -/
theorem trans (h : d.SameSetup d') (h' : d'.SameSetup d'') : d.SameSetup d'' where
  pagesCount := h'.pagesCount.trans h.pagesCount
  sharedMemory := h'.sharedMemory.trans h.sharedMemory
  distantDomid := h'.distantDomid.trans h.distantDomid
  localEcPort := h'.localEcPort.trans h.localEcPort
  distEcPort := h'.distEcPort.trans h.distEcPort
  ecIrq := h'.ecIrq.trans h.ecIrq
  firstPageGrant := h'.firstPageGrant.trans h.firstPageGrant
  offererAllocOrder := h'.offererAllocOrder.trans h.offererAllocOrder
  unmappedArea := h'.unmappedArea.trans h.unmappedArea
  headerHandle := h'.headerHandle.trans h.headerHandle

end Instance.SameSetup

/-- What a call made for the mapping of a receiver may leave behind: the setup stands, and either
the state too, with the mapping of the user as it was or forgotten by a receiver, or a receiver
has mapped its data pages. -/
structure Instance.Served (d d' : Instance) : Prop where
  /-- What INIT has decided stays. -/
  setup : d.SameSetup d'
  /-- The mapping of the user stays or is forgotten, or it is made by a receiver. -/
  mapping : d'.state = d.state ∧ d'.userMem = d.userMem ∨
    d.state = .receiver ∧ d'.state = .receiver ∧ d'.userMem = none ∨
    d.state = .receiver ∧ d'.state = .receiverMapped ∧
      ∃ vma, d'.userMem = some vma ∧ (vma.stop - vma.start) / pageSize = d.dataPages

section Mmap

variable {d d' : Instance} {vma : Vma} {env : MmapEnv} {events : List Event}

theorem Instance.Served.refl (d : Instance) : d.Served d := ⟨.refl d, .inl ⟨rfl, rfl⟩⟩

/-- A failed mmap has prepared operations at most, and forgets the mapping. -/
theorem served_forgotten (hd : d.state = .receiver) {pages : Nat → Nat} {ops kops : Nat → MapOp}
    {unmaps : Nat → UnmapOp} : d.Served { d with
      userPages := pages, userMem := none, mapOps := ops, unmapOps := unmaps, kmapOps := kops } :=
  ⟨⟨rfl, rfl, rfl, rfl, rfl, rfl, rfl, rfl, rfl, rfl⟩, .inr (.inl ⟨hd, hd, rfl⟩)⟩

/-- A failed mmap of a receiver cleans up to an instance that knows no mapping. -/
theorem served_clean (hd : d.state = .receiver) {mem : Option Vma} {pages : Nat → Nat}
    {ops kops : Nat → MapOp} {unmaps : Nat → UnmapOp} : d.Served (clean { d with
      userPages := pages, userMem := mem, mapOps := ops, unmapOps := unmaps, kmapOps := kops }
        events).2.1 := by
  rw [clean, cleanUnmap_eq]
  exact served_forgotten hd

/-- The mmap of a receiver maps all data pages or leaves the state as it was. -/
theorem served_mmapReceiver (hd : d.state = .receiver) (hfits : vma.fits d) :
    d.Served (mmapReceiver d vma env).2.1 := by
  obtain ⟨ops, unmaps, kops, hprep⟩ := prepare_shape d vma env
  rcases mmapReceiver_cases d vma env with ⟨-, heq⟩ | ⟨-, -, -, heq⟩ | ⟨-, -, heq⟩
  · rw [heq]
    exact served_forgotten hd
  · rw [heq, applyToPageRange_eq]
    exact served_forgotten hd
  · rw [heq]
    rcases mapEverything_cases (d.prepare vma env) vma env [.acquire (.balloon d.dataPages)] with
      ⟨-, heq⟩ | ⟨-, -, heq⟩ | ⟨-, -, _, -, heq⟩
    · rw [heq, hprep]
      exact ⟨⟨rfl, rfl, rfl, rfl, rfl, rfl, rfl, rfl, rfl, rfl⟩,
        .inr (.inr ⟨hd, rfl, vma, rfl, hfits.1⟩)⟩
    · rw [heq, hprep]
      exact served_clean hd
    · rw [heq, hprep]
      exact served_clean hd

/-- An mmap keeps what INIT has decided, whatever the calls it makes return. -/
theorem served_mmap (d : Instance) (vma : Vma) (env : MmapEnv) :
    d.Served (mmap d vma env).2.1 := by
  by_cases hreceiver : d.state = .receiver ∧ vma.fits d
  · rw [mmap_of_fits hreceiver.1 hreceiver.2]
    exact served_mmapReceiver hreceiver.1 hreceiver.2
  · rw [mmap_refused hreceiver]
    exact .refl d

/-- The notifier only changes the unmap operations, which are no part of the layout. -/
theorem served_withOps (d : Instance) (ops : Nat → UnmapOp) : d.Served (d.withOps ops) :=
  ⟨⟨rfl, rfl, rfl, rfl, rfl, rfl, rfl, rfl, rfl, rfl⟩, .inl ⟨rfl, rfl⟩⟩

/-- An invalidation keeps what INIT has decided. -/
theorem served_invalidate (d : Instance) (start stop : Nat) :
    d.Served (mnInvlRangeStart d start stop).1 := by
  obtain ⟨ops, heq⟩ := mnInvlRangeStart_withOps d start stop
  rw [heq]
  exact served_withOps d ops

/-- The end of the address space keeps what INIT has decided. -/
theorem served_mnRelease (d : Instance) : d.Served (mnRelease d).1 := by
  unfold mnRelease
  split
  · exact .refl d
  · exact served_withOps d _

end Mmap

section Init

variable {d : Instance} {n : Nat}

/-- No smaller allocation of a power of two would do. -/
theorem two_pow_allocOrder_le (hn : n ≠ 0) : 2 ^ (allocOrder n - 1) ≤ n := by
  have horder : allocOrder n = Nat.log2 n + 1 := by
    rw [allocOrder, if_neg hn, Nat.one_shiftLeft]
    exact if_neg (Nat.two_pow_pos _).ne
  rw [horder]
  exact Nat.log2_self_le hn

/-- A page count that passes the check leaves a place for the header page. -/
theorem pages_of_accepted (h : badPagesCount n = false) :
    2 ≤ n + 1 ∧ n + 1 ≤ allocAlignedPages := by
  have hbounds : ¬ (n = 0 ∨ maxSharedPages < n) := of_decide_eq_false h
  simp only [maxSharedPages, allocAlignedPages] at hbounds ⊢
  omega

/-- Where the state is not changed nothing is asked of an opened instance. -/
theorem laid_opened (hd : d.state = .opened) (hmem : d.userMem = none) : d.Laid where
  pages hn := absurd hd hn
  order ho := by simp [hd] at ho
  memory ho := by simp [hd] at ho
  area hr := by simp [hd] at hr
  mapping := by simp [hd, hmem]
  size := by simp [hmem]

/-- The event channel is no concern of the pages. -/
theorem connectOfferer_frame (d : Instance) (h : Header) (arg : OffererArg) (env : OffererEnv)
    (events : List Event) :
    let d' := (connectOfferer d h arg env events).data
    d'.userMem = d.userMem ∧ d'.pagesCount = d.pagesCount ∧
      d'.offererAllocOrder = d.offererAllocOrder := by
  unfold connectOfferer
  rcases openEc_cases d env.channel env.irq with ⟨e, ev, heq, -⟩ | ⟨port, -, -, heq⟩
  · rw [heq]
    exact ⟨rfl, rfl, rfl⟩
  · rw [heq]
    exact ⟨rfl, rfl, rfl⟩

/-- INIT_OFFERER stores the state with the count of the pages that it has allocated, or neither. -/
theorem initOfferer_frame (d : Instance) (arg : OffererArg) (env : OffererEnv) :
    let d' := (initOfferer d arg env).data
    d'.userMem = d.userMem ∧
      (d.state = .opened → d'.state = .offerer →
        d'.offererAllocOrder = allocOrder d'.pagesCount) := by
  unfold initOfferer
  by_cases hd : d.state = .opened
  swap
  · rw [if_pos hd]
    exact ⟨rfl, fun h => absurd h hd⟩
  rw [if_neg (not_not_intro hd)]
  by_cases hbad : badPagesCount arg.pagesCount = true
  · rw [if_pos hbad]
    exact ⟨rfl, fun _ h => by simp [hd] at h⟩
  rw [if_neg hbad, allocateOfferer]
  by_cases halloc : env.alloc = 0
  · rw [if_pos halloc]
    exact ⟨rfl, fun _ h => by simp [hd] at h⟩
  rw [if_neg halloc]
  simp only [grantPages_failed]
  obtain ⟨hmem, hpages, horder⟩ := connectOfferer_frame _ _ _ env _
  refine ⟨hmem, fun _ _ => ?_⟩
  rw [horder, hpages]

/-- INIT_RECEIVER has no mapping of the user, and what it is mapped at is its vm area. -/
theorem initReceiver_frame (d : Instance) (arg : ReceiverArg) (env : ReceiverEnv) :
    let d' := (initReceiver d arg env).data
    d'.userMem = d.userMem ∧
      (d.state = .opened → d'.state = .receiver → d'.unmappedArea = some d'.sharedMemory) := by
  unfold initReceiver
  by_cases hd : d.state = .opened
  swap
  · rw [if_pos hd]
    exact ⟨rfl, fun h => absurd h hd⟩
  rw [if_neg (not_not_intro hd)]
  by_cases hbad : badPagesCount arg.pagesCount = true
  · rw [if_pos hbad]
    exact ⟨rfl, fun _ h => by simp [hd] at h⟩
  rw [if_neg hbad]
  cases harea : env.area with
  | none => exact ⟨rfl, fun _ h => by simp [hd] at h⟩
  | some addr =>
    simp only [mapReceiver]
    split_ifs
    · exact ⟨rfl, fun _ _ => rfl⟩
    · exact ⟨rfl, fun _ _ => rfl⟩
    · exact ⟨rfl, fun _ _ => rfl⟩
    · unfold connectReceiver
      rcases openEc_cases _ env.channel env.irq with ⟨e, ev, heq, -⟩ | ⟨port, -, -, heq⟩
      · rw [heq]
        exact ⟨rfl, fun _ _ => rfl⟩
      · rw [heq]
        exact ⟨rfl, fun _ _ => rfl⟩

/-- INIT_OFFERER leads from an opened instance to one that is laid out. -/
theorem initOfferer_laid (hd : d.state = .opened) (hmem : d.userMem = none) (arg : OffererArg)
    (env : OffererEnv) :
    let d' := (initOfferer d arg env).data
    Relation.ReflTransGen State.Moves d.state d'.state ∧ d'.Laid := by
  obtain ⟨hmem', horder⟩ := initOfferer_frame d arg env
  rcases initOfferer_cases hd arg env with ⟨-, hok, hstate⟩ | ⟨-, -, hstate, -⟩
  swap
  · exact ⟨by rw [hd, hstate], laid_opened hstate (hmem'.trans hmem)⟩
  have hready := initOfferer_ready hd hok
  have hpages := pages_of_accepted hready.accepted
  rw [← hready.pagesCount] at hpages
  refine ⟨by rw [hd, hstate]; exact .single .offers, fun _ => hpages, fun _ => ?_, fun _ => ?_, ?_,
    ?_, ?_⟩
  · rw [horder hd hstate]
    exact ⟨two_pow_allocOrder_le (by omega), lt_two_pow_allocOrder _⟩
  · exact hready.sharedMemory ▸ hready.alloc
  · simp [hstate]
  · simp [hstate, hmem', hmem]
  · simp [hmem', hmem]

/-- INIT_RECEIVER leads from an opened instance to one that is laid out. -/
theorem initReceiver_laid (hd : d.state = .opened) (hmem : d.userMem = none) (arg : ReceiverArg)
    (env : ReceiverEnv) :
    let d' := (initReceiver d arg env).data
    Relation.ReflTransGen State.Moves d.state d'.state ∧ d'.Laid := by
  obtain ⟨hmem', harea⟩ := initReceiver_frame d arg env
  rcases initReceiver_cases hd arg env with ⟨-, hok, hstate⟩ | ⟨-, -, hstate, -⟩
  swap
  · exact ⟨by rw [hd, hstate], laid_opened hstate (hmem'.trans hmem)⟩
  have hready := initReceiver_ready hd hok
  have hpages := pages_of_accepted hready.accepted
  rw [← hready.pagesCount] at hpages
  refine ⟨by rw [hd, hstate]; exact .single .receives, fun _ => hpages, ?_, ?_, fun _ => ?_, ?_, ?_⟩
  · simp [hstate]
  · simp [hstate]
  · exact harea hd hstate
  · simp [hstate, hmem', hmem]
  · simp [hmem', hmem]

end Init

/-- What one operation does to an instance that is laid out. -/
structure Instance.Advances (d d' : Instance) : Prop where
  /-- The state goes on along `xen_shm_state_t`, or it stays. -/
  moves : Relation.ReflTransGen State.Moves d.state d'.state
  /-- What INIT has decided stays when it is decided. -/
  setup : d.state ≠ .opened → d.SameSetup d'
  /-- The new instance is laid out too. -/
  laid : d'.Laid

section Steps

variable {d d' : Instance}

/-- The mapping of a receiver is made, undone or left alone. -/
theorem Instance.Laid.served (h : d.Laid) (hserved : d.Served d') : d.Advances d' := by
  have hdata : d'.dataPages = d.dataPages := by
    rw [Instance.dataPages, hserved.setup.pagesCount, Instance.dataPages]
  have hset := hserved.setup
  rcases hserved.mapping with ⟨hstate, hmem⟩ | ⟨hd, hstate, hmem⟩ | ⟨hd, hstate, vma, hmem, hsize⟩
  · refine ⟨by rw [hstate], fun _ => hset, ?_⟩
    constructor
    · rw [hstate, hset.pagesCount]
      exact h.pages
    · rw [hstate, hset.pagesCount, hset.offererAllocOrder]
      exact h.order
    · rw [hstate, hset.sharedMemory]
      exact h.memory
    · rw [hstate, hset.unmappedArea, hset.sharedMemory]
      exact h.area
    · rw [hstate, hmem]
      exact h.mapping
    · rw [hmem, hdata]
      exact h.size
  · refine ⟨by rw [hd, hstate], fun _ => hset, ?_⟩
    constructor
    · rw [hset.pagesCount]
      exact fun _ => h.pages (by simp [hd])
    · simp [hstate]
    · simp [hstate]
    · rw [hset.unmappedArea, hset.sharedMemory]
      exact fun _ => h.area (.inl hd)
    · simp [hstate, hmem]
    · simp [hmem]
  · refine ⟨by rw [hd, hstate]; exact .single .maps, fun _ => hset, ?_⟩
    constructor
    · rw [hset.pagesCount]
      exact fun _ => h.pages (by simp [hd])
    · simp [hstate]
    · simp [hstate]
    · rw [hset.unmappedArea, hset.sharedMemory]
      exact fun _ => h.area (.inl hd)
    · simp [hstate, hmem]
    · simp [hmem, hdata, hsize]

theorem Instance.Laid.refl (h : d.Laid) : d.Advances d := ⟨.refl, fun _ => .refl d, h⟩

/-- The signals are no part of the layout, so the event handler keeps it. -/
theorem Instance.Laid.signals (h : d.Laid) (signals : Signals) :
    d.Advances { d with signals := signals } :=
  h.served ⟨⟨rfl, rfl, rfl, rfl, rfl, rfl, rfl, rfl, rfl, rfl⟩, .inl ⟨rfl, rfl⟩⟩

/-- The wrapper adds nothing to what the helper leaves. -/
theorem wrapInit_data {α : Type} (d : Instance) (h : Header) (arg : α) (u : UserAccess)
    (o : Outcome α) : (wrapInit d h arg u o).data = d ∨ (wrapInit d h arg u o).data = o.data := by
  unfold wrapInit
  split
  · exact .inl rfl
  split
  · exact .inl rfl
  split
  · exact .inr rfl
  split
  · exact .inr rfl
  · exact .inr rfl

/-- A wrapped INIT succeeds only if its helper does. -/
theorem wrapInit_ok {α : Type} {d : Instance} {h : Header} {arg : α} {u : UserAccess}
    {o : Outcome α} (hok : (wrapInit d h arg u o).result = .ok) :
    o.result = .ok ∧ wrapInit d h arg u o = o := by
  unfold wrapInit at hok ⊢
  split_ifs at hok ⊢ with haccess hfrom hhelper hto
  · exact absurd hok hhelper
  · exact ⟨hok, rfl⟩

/-- A second INIT is refused and leaves the instance alone. -/
theorem ioctlInit_refused (hd : d.state ≠ .opened) (cmd : InitCmd) (u : UserAccess) :
    (ioctlInit d cmd u).1 ≠ .ok ∧ (ioctlInit d cmd u).2 = (d, []) := by
  cases cmd with
  | offerer arg env =>
    simp only [ioctlInit, wrapInit, initOfferer, if_pos hd]
    split_ifs <;> simp
  | receiver arg env =>
    simp only [ioctlInit, wrapInit, initReceiver, if_pos hd]
    split_ifs <;> simp

/-- INIT makes something of an opened instance only. -/
theorem Instance.Laid.init (h : d.Laid) (cmd : InitCmd) (u : UserAccess) :
    d.Advances (ioctlInit d cmd u).2.1 := by
  by_cases hd : d.state = .opened
  swap
  · rw [(ioctlInit_refused hd cmd u).2]
    exact h.refl
  have hmem : d.userMem = none := by simpa [hd] using h.mapping
  cases cmd with
  | offerer arg env =>
    obtain ⟨hmoves, hlaid⟩ := initOfferer_laid hd hmem arg env
    change d.Advances (wrapInit d env.page arg u (initOfferer d arg env)).data
    rcases wrapInit_data d env.page arg u (initOfferer d arg env) with heq | heq
    · rw [heq]
      exact h.refl
    · rw [heq]
      exact ⟨hmoves, fun hn => absurd hd hn, hlaid⟩
  | receiver arg env =>
    obtain ⟨hmoves, hlaid⟩ := initReceiver_laid hd hmem arg env
    change d.Advances (wrapInit d env.page arg u (initReceiver d arg env)).data
    rcases wrapInit_data d env.page arg u (initReceiver d arg env) with heq | heq
    · rw [heq]
      exact h.refl
    · rw [heq]
      exact ⟨hmoves, fun hn => absurd hd hn, hlaid⟩

/-- A wait that is over has changed nothing but the signals. -/
theorem Instance.Laid.awaited (h : d.Laid) (env : IoctlEnv) :
    d.Advances (ioctlAwaited d env).2.1 := by
  unfold ioctlAwaited
  split_ifs
  · exact h.refl
  · exact h.signals env.signals

/-- One ioctl, whatever its command word, leads on along the states and keeps the layout. -/
theorem Instance.Laid.ioctl (h : d.Laid) (cmd : BitVec 32) (env : IoctlEnv) :
    d.Advances (Kernel.ioctl d cmd env).2.1 := by
  unfold Kernel.ioctl
  split
  · exact h.refl
  split
  · exact h.refl
  split
  · exact h.init _ _
  · exact h.init _ _
  · exact h.awaited env
  · split
    · exact h.refl
    dsimp only
    split
    · exact h.awaited env
    · exact h.awaited env
  · unfold ioctlSsig
    split
    · exact h.refl
    split
    · exact h.refl
    · exact h.refl
  · exact h.refl
  · exact h.refl

/-- Every operation goes on from a layout to a layout. -/
theorem Instance.Laid.serve (h : d.Laid) (op : FileOp) : d.Advances (op.serve d) := by
  cases op with
  | ioctl cmd env => exact h.ioctl cmd env
  | mmap vma env => exact h.served (served_mmap d vma env)
  | invalidate start stop => exact h.served (served_invalidate d start stop)
  | exit => exact h.served (served_mnRelease d)
  | event signals => exact h.signals signals

/-- No sequence of operations goes back to an opened instance. -/
theorem State.ne_opened {s t : State} (h : Relation.ReflTransGen State.Moves s t)
    (hs : s ≠ .opened) : t ≠ .opened := by
  induction h with
  | refl => exact hs
  | tail _ hmove _ => cases hmove <;> simp

/-- What an operation keeps is kept by two of them. -/
theorem Instance.Advances.trans {d'' : Instance} (h : d.Advances d') (h' : d'.Advances d'') :
    d.Advances d'' where
  moves := h.moves.trans h'.moves
  setup hd := (h.setup hd).trans (h'.setup (State.ne_opened h.moves hd))
  laid := h'.laid

/-- Any sequence of operations leads on along the states and keeps the layout. -/
theorem Instance.Laid.reaches (h : d.Laid) (hreach : Reaches FileOp.step anyOp d d') :
    d.Advances d' := by
  refine hreach.invariant h.refl ?_
  rintro now op next hnow - hstep
  obtain rfl := Option.some.inj hstep
  exact hnow.trans (hnow.laid.serve op)

end Steps

/-- The state that a successful INIT leads to. -/
def InitCmd.role : InitCmd → State
  | .offerer _ _ => .offerer
  | .receiver _ _ => .receiver

/-- The page count in the argument of INIT. -/
def InitCmd.pagesCount : InitCmd → Nat
  | .offerer arg _ => arg.pagesCount
  | .receiver arg _ => arg.pagesCount

/-- What a call of INIT makes of an instance, by its result. -/
structure Inits (d : Instance) (cmd : InitCmd) (r : Result) (d' : Instance) : Prop where
  /-- The instance goes on along the states and keeps its layout. -/
  advances : d.Advances d'
  /-- One that was initialised is left alone. -/
  refused : d.state ≠ .opened → r ≠ .ok ∧ d' = d
  /-- Another one gets the state of the command at most. -/
  role : d.state = .opened → d'.state = .opened ∨ d'.state = cmd.role
  /-- With success it has that state and the pages. -/
  ok : r = .ok → d'.state = cmd.role ∧ d'.pagesCount = cmd.pagesCount + 1

section Inits

variable {d : Instance} {cmd : InitCmd} {u : UserAccess}

/-- What the wrapper makes of a helper that gets to a state or leaves the instance opened. -/
private theorem wrapInit_role {α : Type} {o : Outcome α} {role : State} {n : Nat} (h : Header)
    (arg : α) (u : UserAccess) (hd : d.state = .opened)
    (hcases : o.result = .ok ∧ o.data.state = role ∧ o.data.pagesCount = n ∨
      o.result ≠ .ok ∧ o.data.state = .opened) :
    let w := wrapInit d h arg u o
    (w.data.state = .opened ∨ w.data.state = role) ∧
      (w.result = .ok → w.data.state = role ∧ w.data.pagesCount = n) := by
  refine ⟨?_, fun hok => ?_⟩
  · rcases wrapInit_data d h arg u o with heq | heq
    · exact .inl (by rw [heq, hd])
    · rw [heq]
      exact hcases.symm.imp And.right fun h => h.2.1
  · obtain ⟨hhelper, heq⟩ := wrapInit_ok hok
    rw [heq]
    exact (hcases.resolve_right fun h => h.1 hhelper).2

/-- INIT of either kind succeeds on an opened instance only, and then the state is its own. -/
theorem Instance.Laid.inits (h : d.Laid) (cmd : InitCmd) (u : UserAccess) :
    Inits d cmd (ioctlInit d cmd u).1 (ioctlInit d cmd u).2.1 := by
  have hrefused : d.state ≠ .opened → (ioctlInit d cmd u).1 ≠ .ok ∧ (ioctlInit d cmd u).2.1 = d :=
    fun hd => ⟨(ioctlInit_refused hd cmd u).1, by rw [(ioctlInit_refused hd cmd u).2]⟩
  have hopened : d.state = .opened → ((ioctlInit d cmd u).2.1.state = .opened ∨
      (ioctlInit d cmd u).2.1.state = cmd.role) ∧ ((ioctlInit d cmd u).1 = .ok →
        (ioctlInit d cmd u).2.1.state = cmd.role ∧
          (ioctlInit d cmd u).2.1.pagesCount = cmd.pagesCount + 1) := by
    intro hd
    cases cmd with
    | offerer arg env =>
      refine wrapInit_role env.page arg u hd ?_
      rcases initOfferer_cases hd arg env with ⟨-, hok, hstate⟩ | ⟨-, hfail, hstate, -⟩
      · exact .inl ⟨hok, hstate, (initOfferer_ready hd hok).pagesCount⟩
      · exact .inr ⟨hfail, hstate⟩
    | receiver arg env =>
      refine wrapInit_role env.page arg u hd ?_
      rcases initReceiver_cases hd arg env with ⟨-, hok, hstate⟩ | ⟨-, hfail, hstate, -⟩
      · exact .inl ⟨hok, hstate, (initReceiver_ready hd hok).pagesCount⟩
      · exact .inr ⟨hfail, hstate⟩
  refine ⟨h.init cmd u, hrefused, fun hd => (hopened hd).1, fun hok => ?_⟩
  by_cases hd : d.state = .opened
  · exact (hopened hd).2 hok
  · exact absurd hok (hrefused hd).1

end Inits

/-- An instance that was just opened is laid out, whatever its memory held before. -/
theorem laid_init (raw : Instance) (domid : Nat) (pvDomain : Bool) :
    (raw.init domid pvDomain).Laid := laid_opened rfl rfl

/-- Between open and release the state goes on at most, an instance that was initialised keeps
what INIT has decided and refuses every other INIT, and its pages and mappings always fit. -/
theorem initialised_stays (raw d d' : Instance) (domid : Nat) (pvDomain : Bool)
    (h : Reaches FileOp.step anyOp (raw.init domid pvDomain) d)
    (h' : Reaches FileOp.step anyOp d d') :
    Relation.ReflTransGen State.Moves d.state d'.state ∧ d'.Laid ∧
      (d.state ≠ .opened → d.SameSetup d' ∧
        ∀ cmd u, (ioctlInit d' cmd u).1 ≠ .ok ∧ (ioctlInit d' cmd u).2 = (d', [])) := by
  have hadv := ((laid_init raw domid pvDomain).reaches h).laid.reaches h'
  refine ⟨hadv.moves, hadv.laid, fun hd => ⟨hadv.setup hd, fun cmd u => ?_⟩⟩
  exact ioctlInit_refused (State.ne_opened hadv.moves hd) cmd u

/-- A request of INIT_OFFERER for one data page, whose calls succeed. -/
def IoctlEnv.onePage : IoctlEnv where
  writable := true
  readable := true
  copyFrom := true
  copyTo := true
  offererArg := .onePage
  offerer := .granting fun page => 8 + page
  receiverArg := ⟨1, 1, 8⟩
  receiver := .plain
  header := .zero
  awaited := .ok
  signals := ⟨false, false, false⟩

/-- An instance offers one page and hears of the receiver. -/
theorem initialised_stays_onePage :
    let d := (Kernel.ioctl (Instance.fresh.init 1 false) Command.initOfferer.word .onePage).2.1
    let d' := { d with signals := ⟨true, false, false⟩ }
    Relation.ReflTransGen State.Moves d.state d'.state ∧ d'.Laid ∧
      (d.state ≠ .opened → d.SameSetup d' ∧
        ∀ cmd u, (ioctlInit d' cmd u).1 ≠ .ok ∧ (ioctlInit d' cmd u).2 = (d', [])) :=
  initialised_stays .fresh _ _ 1 false
    (.single ⟨.ioctl Command.initOfferer.word .onePage, rfl, rfl⟩)
    (.single ⟨.event ⟨true, false, false⟩, rfl, rfl⟩)

end XenShm.Kernel
