import XenShm.Kernel.Lifecycle
import XenShm.Kernel.MmapUndo
import XenShm.Pipe.Shared

/-!
# The handle of a pipe

`xen_shm_pipe_init` opens the device, `xen_shm_pipe_offers` and `xen_shm_pipe_connect` initialise
the instance and map its data pages, and `xen_shm_pipe_free` unmaps them and closes the
descriptor. One process makes its calls on one handle one after the other, and the kernel may
fail any of them. What the two ends do with the mapped pages is the subject of `Pipe.System`.
-/

namespace XenShm.Pipe

open Library
open Kernel (Vma MmapEnv IoctlEnv FreeEnv Instance Command Signals Result)

/-- What `errno` tells of a failed call on a handle. -/
inductive HandleErrno where
  /-- The value `EMEDIUMTYPE`, for a call on a handle of the wrong kind or state. -/
  | mediumType
  /-- The error of `mmap` when it finds no place for the mapping. -/
  | noPlace
  /-- An error that the device has returned. -/
  | device (e : Kernel.Errno)
  /-- The value `ETIME`, for a wait that was too long. -/
  | time
  deriving DecidableEq, Repr

/-- `struct xen_shm_pipe_priv`, with the instance behind the descriptor and the mappings that the
process has made of it. -/
structure Priv where
  /-- The field `mod`, which end of the pipe the handle drives. -/
  mod : Mod
  /-- The field `conv`, which end shares its memory. -/
  conv : Conv
  /-- The instance behind the descriptor `fd`. -/
  data : Instance
  /-- `shared`, and how far the area goes. -/
  shared : Option Vma
  /-- The field `buffer_size`, the size of the ring. -/
  bufferSize : Nat
  /-- The field `wait_check_interval`, how many bytes go between two looks at the peer. -/
  waitCheckInterval : Nat
  /-- The contents of the area, as far as it is mapped. -/
  memory : Shared
  /-- The mappings of the process on the descriptor. -/
  mappings : List Vma
  /-- How often the descriptor `fd` was closed. -/
  closes : Nat
  /-- Whether the instance was released. -/
  released : Bool
  /-- Whether the handle was freed. -/
  freed : Bool

/-- `xen_shm_pipe_init`, when the device was opened with this instance. -/
def Priv.opened (mod : Mod) (conv : Conv) (data : Instance) (memory : Shared) : Priv :=
  ⟨mod, conv, data, none, 0, 0, memory, [], 0, false, false⟩

/-- `__xen_shm_pipe_is_offerer` for this handle. -/
def Priv.isOfferer (h : Priv) : Bool := Pipe.isOfferer h.mod h.conv

/-- What the kernel does during a call on a handle. -/
structure CallEnv where
  /-- What the ioctl of the call meets in the kernel. -/
  ioctl : IoctlEnv
  /-- The number of the page that `mmap` maps at. -/
  place : Option Nat
  /-- What the mmap of the device meets. -/
  mmap : MmapEnv
  /-- The contents of the area when it is mapped. -/
  memory : Shared

/-- `__xen_shm_pipe_map_shared_memory`, with the place that the kernel finds for the mapping. -/
def Priv.mapSharedMemory (h : Priv) (pageCount : Nat) (env : CallEnv) :
    Except HandleErrno Unit × Priv :=
  match env.place with
  | none => (.error .noPlace, h)
  | some place =>
    if pageCount = 0 then (.error .noPlace, h)
    else
      let vma : Vma :=
        ⟨place * pageSize, place * pageSize + pageCount * pageSize, true, true⟩
      let (result, d, _) := Kernel.mmap h.data vma env.mmap
      match result with
      | .error e => (.error (.device e), { h with data := d })
      | .ok => (.ok (), { h with
          data := d, shared := some vma, mappings := vma :: h.mappings, memory := env.memory })

/-- The fields that tell of the ring, computed from the page count. -/
def Priv.setSizes (h : Priv) (pageCount : Nat) : Priv :=
  { h with
    bufferSize := pageCount * pageSize - sharedHeaderSize
    waitCheckInterval := (pageCount * pageSize - sharedHeaderSize) / waitCheckPerRound }

/-- The statement `*myflags |= b` on the mapped area. -/
def Priv.addFlag (h : Priv) (b : Flag) : Priv :=
  { h with memory := h.memory.setFlags h.mod (setFlag (h.memory.flags h.mod) b) }

/-- `xen_shm_pipe_getdomid`, which asks the device for the own domain. -/
def Priv.getdomid (h : Priv) (env : IoctlEnv) : Except HandleErrno Nat × Priv :=
  if h.isOfferer then (.error .mediumType, h)
  else
    match Kernel.ioctl h.data Command.getDomid.word env with
    | (.error e, d, _) => (.error (.device e), { h with data := d })
    | (.ok, d, _) => (.ok d.localDomid, { h with data := d })

/-- The argument of INIT_OFFERER. The domain is cut to a `domid_t`. -/
def offererArg (pageCount : BitVec 8) (receiverDomid : BitVec 32) : Kernel.OffererArg :=
  ⟨pageCount.toNat, (receiverDomid.setWidth 16).toNat, 0, 0⟩

/-- `xen_shm_pipe_offers`: the domain and the grant that the peer has to know. -/
def Priv.offers (h : Priv) (pageCount : BitVec 8) (receiverDomid : BitVec 32) (env : CallEnv) :
    Except HandleErrno (Nat × Kernel.GrantRef) × Priv :=
  if ¬ h.isOfferer then (.error .mediumType, h)
  else
    let arg := offererArg pageCount receiverDomid
    match Kernel.ioctl h.data Command.initOfferer.word { env.ioctl with offererArg := arg } with
    | (.error e, d, _) => (.error (.device e), { h with data := d })
    | (.ok, d, _) =>
      let out := (Kernel.initOfferer h.data arg env.ioctl.offerer).arg
      match Priv.mapSharedMemory { h with data := d } pageCount.toNat env with
      | (.error e, h) => (.error e, h)
      | (.ok (), h) => (.ok (out.localDomid, out.grant),
          { h.setSizes pageCount.toNat with memory := .offered h.conv h.memory.buffer })

/-- The argument of INIT_RECEIVER that `xen_shm_pipe_connect` passes. -/
def receiverArg (pageCount : BitVec 8) (offererDomid : BitVec 32) (grant : Kernel.GrantRef) :
    Kernel.ReceiverArg :=
  ⟨pageCount.toNat, (offererDomid.setWidth 16).toNat, grant⟩

/-- `xen_shm_pipe_connect`: the check of the handle, the ioctl and the mapping. -/
def Priv.connect (h : Priv) (pageCount : BitVec 8) (offererDomid : BitVec 32)
    (grant : Kernel.GrantRef) (env : CallEnv) : Except HandleErrno Unit × Priv :=
  if h.isOfferer then (.error .mediumType, h)
  else
    let arg := receiverArg pageCount offererDomid grant
    match Kernel.ioctl h.data Command.initReceiver.word { env.ioctl with receiverArg := arg } with
    | (.error e, d, _) => (.error (.device e), { h with data := d })
    | (.ok, d, _) =>
      match Priv.mapSharedMemory { h with data := d } pageCount.toNat env with
      | (.error e, h) => (.error e, h)
      | (.ok (), h) => (.ok (), (h.setSizes pageCount.toNat).addFlag .opened)

/-- `xen_shm_pipe_wait`, with what the record contains when the ioctl has returned. -/
def Priv.wait (h : Priv) (env : IoctlEnv) (remainingMs : Nat) :
    Except HandleErrno Unit × Priv :=
  if ¬ h.isOfferer ∨ h.shared = none then (.error .mediumType, h)
  else
    match Kernel.ioctl h.data Command.await.word env with
    | (.error e, d, _) => (.error (.device e), { h with data := d })
    | (.ok, d, _) =>
      (if remainingMs = 0 then .error .time else .ok (), { h with data := d })

/-- What `munmap` of a range leaves of a mapping. -/
def without (start stop : Nat) (vma : Vma) : List Vma :=
  (if vma.start < start then [{ vma with stop := min vma.stop start }] else []) ++
    if stop < vma.stop then [{ vma with start := max vma.start stop }] else []

/-- `munmap` of whole pages: the notifier of a paravirtualised domain is told first. -/
def Priv.munmap (h : Priv) (start length : Nat) : Priv :=
  let stop := start + (length + (pageSize - 1)) / pageSize * pageSize
  { h with
    data := if h.data.usePtemod then (Kernel.mnInvlRangeStart h.data start stop).1 else h.data
    mappings := h.mappings.flatMap (without start stop) }

/-- `close`: the instance is released when no mapping refers to the descriptor any more. -/
def Priv.close (h : Priv) (env : FreeEnv) : Priv :=
  if h.mappings = [] then
    { h with
      data := (Kernel.prepareFree h.data env).2.1, closes := h.closes + 1, released := true }
  else { h with closes := h.closes + 1 }

/-- `xen_shm_pipe_free`: the flag, the mapping, the descriptor and the memory. -/
def Priv.free (h : Priv) (env : FreeEnv) : Priv :=
  let h :=
    match h.shared with
    | none => h
    | some vma => (h.addFlag .closed).munmap vma.start (h.bufferSize + sharedHeaderSize)
  { h.close env with freed := true }

/-- The calls on a handle, and what happens to it otherwise. -/
inductive HandleOp where
  /-- The user calls `xen_shm_pipe_getdomid`. -/
  | getdomid (env : IoctlEnv)
  /-- The user calls `xen_shm_pipe_offers` with a page count and a domain. -/
  | offers (pageCount : BitVec 8) (receiverDomid : BitVec 32) (env : CallEnv)
  /-- The user calls `xen_shm_pipe_connect` with what the offerer has told. -/
  | connect (pageCount : BitVec 8) (offererDomid : BitVec 32) (grant : Kernel.GrantRef)
      (env : CallEnv)
  /-- The user calls `xen_shm_pipe_wait`, whose record contains this at first. -/
  | wait (env : IoctlEnv) (remainingMs : Nat)
  /-- The user calls `xen_shm_pipe_free`. -/
  | free (env : FreeEnv)
  /-- The event handler has run and leaves these signals. -/
  | event (signals : Signals)
  /-- An end of the pipe has written into the area. -/
  | store (memory : Shared)

/-- One operation. A freed handle must not be used. -/
def Priv.step (h : Priv) (op : HandleOp) : Option Priv :=
  if h.freed then none
  else
    match op with
    | .getdomid env => some (h.getdomid env).2
    | .offers pageCount receiverDomid env => some (h.offers pageCount receiverDomid env).2
    | .connect pageCount offererDomid grant env =>
      some (h.connect pageCount offererDomid grant env).2
    | .wait env remainingMs => some (h.wait env remainingMs).2
    | .free env => some (h.free env)
    | .event signals => some { h with data := { h.data with signals := signals } }
    | .store memory => some { h with memory := memory }

/-- The guard under which every operation may be made. -/
def Priv.anyOp (_ : Priv) (_ : HandleOp) : Bool := true

/-- The mapping is an area in which the ring of the handle fits. -/
structure Priv.Area (h : Priv) (vma : Vma) : Prop where
  /-- The instance is initialised for this end. -/
  state : h.data.state = if h.isOfferer then .offerer else .receiverMapped
  /-- The area has a page for the ring. -/
  pages : 0 < h.data.dataPages
  /-- The area has the size of the data pages. -/
  size : vma.stop = vma.start + h.data.dataPages * pageSize
  /-- The area begins at a page boundary. -/
  aligned : pageSize ∣ vma.start
  /-- The ring fills the area behind the flags and indices. -/
  ring : h.bufferSize + sharedHeaderSize = h.data.dataPages * pageSize
  /-- The interval is a part of the ring. -/
  interval : h.waitCheckInterval = h.bufferSize / waitCheckPerRound
  /-- The instance of a receiver knows it. -/
  userMem : h.isOfferer = false → h.data.userMem = some vma

/-- The handle is in use, whatever was called on it. -/
structure Priv.Live (h : Priv) : Prop where
  /-- The handle was not freed. -/
  freed : h.freed = false
  /-- The descriptor of the handle is open. -/
  closes : h.closes = 0
  /-- The instance behind the descriptor is laid out. -/
  laid : h.data.Laid
  /-- The instance is an offerer exactly for the end that offers. -/
  role : h.data.state ≠ .opened → (h.data.state = .offerer ↔ h.isOfferer = true)
  /-- The process has no mapping but the area. -/
  mappings : h.mappings = h.shared.toList
  /-- The mapping of the handle is an area for its ring. -/
  area : ∀ vma ∈ h.shared, h.Area vma

/-- The handle was freed, and nothing of it is left. -/
structure Priv.Gone (h : Priv) : Prop where
  /-- The handle must not be used any more. -/
  freed : h.freed = true
  /-- The descriptor was closed once. -/
  closes : h.closes = 1
  /-- Nothing is left mapped in the process. -/
  mappings : h.mappings = []
  /-- The instance was released with the descriptor and the mappings. -/
  released : h.released = true
  /-- The pages of the offerer are unmapped. -/
  unmapped : h.isOfferer = false → ∀ vma ∈ h.shared,
    ∀ page < (vma.stop - vma.start) / pageSize, (h.data.unmapOps page).handle = -1

namespace Priv

section Ioctl

variable {h : Priv} {d : Instance} {env : IoctlEnv}

/-- INIT_OFFERER goes through the address check to its wrapper. -/
theorem ioctl_initOfferer (d : Instance) (env : IoctlEnv) :
    Kernel.ioctl d Command.initOfferer.word env =
      if env.writable then Kernel.ioctlInit d (.offerer env.offererArg env.offerer)
        ⟨true, env.copyFrom, env.copyTo⟩
      else (.error .efault, d, []) := by
  have htype : Kernel.iocType Command.initOfferer.word = Kernel.magicNumber := by decide
  have hreads : Kernel.iocReads Command.initOfferer.word = true := by decide
  have hword : Command.ofWord Command.initOfferer.word = some .initOfferer := by decide
  simp only [Kernel.ioctl, htype, hword, IoctlEnv.accessOk, hreads]
  cases env.writable <;> rfl

/-- INIT_RECEIVER is reached through its command word, if the argument can be read. -/
theorem ioctl_initReceiver (d : Instance) (env : IoctlEnv) :
    Kernel.ioctl d Command.initReceiver.word env =
      if env.readable then Kernel.ioctlInit d (.receiver env.receiverArg env.receiver)
        ⟨true, env.copyFrom, env.copyTo⟩
      else (.error .efault, d, []) := by
  have htype : Kernel.iocType Command.initReceiver.word = Kernel.magicNumber := by decide
  have hreads : Kernel.iocReads Command.initReceiver.word = false := by decide
  have hwrites : Kernel.iocWrites Command.initReceiver.word = true := by decide
  have hword : Command.ofWord Command.initReceiver.word = some .initReceiver := by decide
  simp only [Kernel.ioctl, htype, hword, IoctlEnv.accessOk, hreads, hwrites]
  cases env.readable <;> rfl

/-- AWAIT changes the signals of the instance at most. -/
theorem ioctl_await (d : Instance) (env : IoctlEnv) :
    ∃ signals, (Kernel.ioctl d Command.await.word env).2.1 = { d with signals := signals } := by
  have htype : Kernel.iocType Command.await.word = Kernel.magicNumber := by decide
  have hword : Command.ofWord Command.await.word = some .await := by decide
  simp only [Kernel.ioctl, htype, hword, Kernel.ioctlAwaited]
  split_ifs
  all_goals first | exact ⟨d.signals, rfl⟩ | exact ⟨env.signals, rfl⟩

/-- GET_DOMID changes nothing in the instance. -/
theorem ioctl_getDomid (d : Instance) (env : IoctlEnv) :
    (Kernel.ioctl d Command.getDomid.word env).2.1 = d := by
  have htype : Kernel.iocType Command.getDomid.word = Kernel.magicNumber := by decide
  have hword : Command.ofWord Command.getDomid.word = some .getDomid := by decide
  simp only [Kernel.ioctl, htype, hword]
  split_ifs <;> rfl

/-- The ioctl INIT_OFFERER does to an instance what an INIT may do. -/
theorem inits_offerer (hlaid : d.Laid) (env : IoctlEnv) :
    Kernel.Inits d (.offerer env.offererArg env.offerer)
      (Kernel.ioctl d Command.initOfferer.word env).1
      (Kernel.ioctl d Command.initOfferer.word env).2.1 := by
  rw [ioctl_initOfferer]
  split
  · exact hlaid.inits _ _
  · exact ⟨hlaid.refl, fun _ => ⟨by simp, rfl⟩, .inl, by simp⟩

/-- The ioctl INIT_RECEIVER does to an instance what an INIT may do. -/
theorem inits_receiver (hlaid : d.Laid) (env : IoctlEnv) :
    Kernel.Inits d (.receiver env.receiverArg env.receiver)
      (Kernel.ioctl d Command.initReceiver.word env).1
      (Kernel.ioctl d Command.initReceiver.word env).2.1 := by
  rw [ioctl_initReceiver]
  split
  · exact hlaid.inits _ _
  · exact ⟨hlaid.refl, fun _ => ⟨by simp, rfl⟩, .inl, by simp⟩

end Ioctl

section Live

variable {h : Priv} {d : Instance}

/-- The instance of a handle without an area goes on. -/
theorem Live.goesOn (hlive : h.Live) (hshared : h.shared = none) (hadv : h.data.Advances d)
    (hrole : d.state ≠ .opened → (d.state = .offerer ↔ h.isOfferer = true)) :
    Live { h with data := d } :=
  ⟨hlive.freed, hlive.closes, hadv.laid, hrole, hlive.mappings, by simp [hshared]⟩

/-- The signals of the instance do not touch the area. -/
theorem Live.signals (hlive : h.Live) (signals : Signals) :
    Live { h with data := { h.data with signals := signals } } :=
  ⟨hlive.freed, hlive.closes, (hlive.laid.signals signals).laid, hlive.role, hlive.mappings,
    fun vma hvma =>
      have harea := hlive.area vma hvma
      ⟨harea.state, harea.pages, harea.size, harea.aligned, harea.ring, harea.interval,
        harea.userMem⟩⟩

/-- An area belongs to an instance that was initialised. -/
theorem Live.state_ne (hlive : h.Live) (hshared : h.shared ≠ none) : h.data.state ≠ .opened := by
  obtain ⟨vma, hvma⟩ := Option.ne_none_iff_exists'.mp hshared
  have hstate := (hlive.area vma hvma).state
  split at hstate <;> simp [hstate]

/-- What `__xen_shm_pipe_map_shared_memory` does for an instance that was just initialised. -/
theorem mapSharedMemory_cases (pageCount : Nat) (env : CallEnv) (hlaid : h.data.Laid)
    (hstate : h.data.state = if h.isOfferer then .offerer else .receiver) :
    (∃ e d, h.mapSharedMemory pageCount env = (.error e, { h with data := d }) ∧
      h.data.Advances d ∧ (d.state = .offerer ↔ h.isOfferer = true)) ∨
    ∃ d vma, h.mapSharedMemory pageCount env = (.ok (), { h with
        data := d, shared := some vma, mappings := vma :: h.mappings, memory := env.memory }) ∧
      h.data.Advances d ∧ d.state = (if h.isOfferer then .offerer else .receiverMapped) ∧
      vma.stop = vma.start + pageCount * pageSize ∧ pageSize ∣ vma.start ∧
      d.pagesCount = h.data.pagesCount ∧ (h.isOfferer = false → d.userMem = some vma) := by
  have hkept : h.data.state = .offerer ↔ h.isOfferer = true := by
    rw [hstate]
    split <;> simp_all
  unfold mapSharedMemory
  cases env.place with
  | none => exact .inl ⟨.noPlace, h.data, rfl, hlaid.refl, hkept⟩
  | some place =>
    by_cases hpages : pageCount = 0
    · exact .inl ⟨.noPlace, h.data, by simp [hpages], hlaid.refl, hkept⟩
    simp only [if_neg hpages]
    generalize hvma : (⟨place * pageSize, place * pageSize + pageCount * pageSize, true, true⟩ :
      Vma) = vma
    have hserved := Kernel.served_mmap h.data vma env.mmap
    have hadv := hlaid.served hserved
    rcases hret : Kernel.mmap h.data vma env.mmap with ⟨result, d, events⟩
    rw [hret] at hserved hadv
    cases result with
    | error e =>
      refine .inl ⟨.device e, d, rfl, hadv, ?_⟩
      rcases hserved.mapping with ⟨hd, -⟩ | ⟨hfrom, hd, -⟩ | ⟨hfrom, hd, -⟩
      · rwa [hd]
      · rw [← hkept, hfrom, hd]
      · rw [← hkept, hfrom, hd]
        simp
    | ok =>
      have hok : (Kernel.mmap h.data vma env.mmap).1 = .ok := by rw [hret]
      refine .inr ⟨d, vma, rfl, hadv, ?_, by simp [← hvma], by simp [← hvma],
        hserved.setup.pagesCount, ?_⟩
      · cases hside : h.isOfferer with
        | true =>
          have hoffers : h.data.state = .offerer := hkept.mpr hside
          rcases hserved.mapping with ⟨hd, -⟩ | ⟨hfrom, -⟩ | ⟨hfrom, -⟩
          · rw [hd, hoffers]
            rfl
          · simp [hoffers] at hfrom
          · simp [hoffers] at hfrom
        | false =>
          have hreceives : h.data.state = .receiver := by simpa [hside] using hstate
          have hmapped := (Kernel.mmap_ok hreceives hok).2.2.2.1
          rw [hret] at hmapped
          exact congrArg Instance.state hmapped
      · intro hside
        have hreceives : h.data.state = .receiver := by simpa [hside] using hstate
        have hmapped := (Kernel.mmap_ok hreceives hok).2.2.2.1
        obtain ⟨ops, unmaps, kops, hprep⟩ := Kernel.prepare_shape h.data vma env.mmap
        rw [hret, hprep] at hmapped
        exact congrArg Instance.userMem hmapped

/-- An INIT of its own end, and what is mapped after it. -/
theorem Live.init {cmd : Kernel.InitCmd} {r : Result} (hlive : h.Live) (pageCount : Nat)
    (env : CallEnv) (hinits : Kernel.Inits h.data cmd r d)
    (hrole : cmd.role = if h.isOfferer then .offerer else .receiver)
    (hpages : cmd.pagesCount = pageCount) :
    (r ≠ .ok → Live { h with data := d }) ∧
      (r = .ok → (∃ e g, mapSharedMemory { h with data := d } pageCount env = (.error e, g) ∧
          g.Live) ∨
        ∃ g, mapSharedMemory { h with data := d } pageCount env = (.ok (), g) ∧
          g.mod = h.mod ∧ g.conv = h.conv ∧ ∀ memory,
            Live { g.setSizes pageCount with memory := memory }) := by
  have hafter : d.state ≠ .opened → (d.state = .offerer ↔ h.isOfferer = true) := by
    intro hd
    by_cases hopened : h.data.state = .opened
    · rw [(hinits.role hopened).resolve_left hd, hrole]
      split <;> simp_all
    · rw [(hinits.refused hopened).2]
      exact hlive.role hopened
  refine ⟨fun hfail => ?_, fun hok => ?_⟩
  · by_cases hopened : h.data.state = .opened
    · exact hlive.goesOn (Option.not_isSome_iff_eq_none.mp fun hshared =>
        hlive.state_ne (Option.isSome_iff_ne_none.mp hshared) hopened) hinits.advances hafter
    · rw [(hinits.refused hopened).2]
      exact hlive
  have hopened : h.data.state = .opened := by
    by_contra hopened
    exact (hinits.refused hopened).1 hok
  have hshared : h.shared = none := by
    by_contra hshared
    exact hlive.state_ne hshared hopened
  obtain ⟨hstate, hcount⟩ := hinits.ok hok
  have hlaid := hinits.advances.laid
  rcases mapSharedMemory_cases (h := { h with data := d }) pageCount env hlaid
      (hstate.trans hrole) with ⟨e, d', heq, hadv, hkept⟩ |
    ⟨d', vma, heq, hadv, hstate', hsize, haligned, hcount', hmem⟩
  · exact .inl ⟨e, _, heq, hlive.goesOn hshared (hinits.advances.trans hadv) fun _ => hkept⟩
  refine .inr ⟨_, heq, rfl, rfl, fun memory => ?_⟩
  have htwo : 2 ≤ d.pagesCount := (hlaid.pages (by rw [hstate, hrole]; split <;> simp)).1
  have hdata : d'.dataPages = pageCount := by
    change d'.pagesCount - 1 = pageCount
    rw [hcount', hcount, hpages]
    rfl
  have hfirst : 1 ≤ pageCount := by omega
  refine ⟨hlive.freed, hlive.closes, hadv.laid, fun _ => ?_, ?_, ?_⟩
  · change d'.state = .offerer ↔ h.isOfferer = true
    change d'.state = if h.isOfferer then .offerer else .receiverMapped at hstate'
    rw [hstate']
    split <;> simp_all
  · change vma :: h.mappings = (some vma).toList
    rw [hlive.mappings, hshared]
    rfl
  · intro vma' hvma'
    obtain rfl := Option.some.inj hvma'
    refine ⟨hstate', ?_, ?_, haligned, ?_, rfl, hmem⟩
    · change 0 < d'.dataPages
      rwa [hdata]
    · change vma.stop = vma.start + d'.dataPages * pageSize
      rwa [hdata]
    · change pageCount * pageSize - sharedHeaderSize + sharedHeaderSize = d'.dataPages * pageSize
      rw [hdata, pageSize, sharedHeaderSize]
      omega

/-- A handle that offers stays in use, whether it succeeds or not. -/
theorem Live.offers (hlive : h.Live) (pageCount : BitVec 8) (receiverDomid : BitVec 32)
    (env : CallEnv) : (h.offers pageCount receiverDomid env).2.Live := by
  unfold Priv.offers
  by_cases hside : h.isOfferer = true
  swap
  · rw [if_pos hside]
    exact hlive
  rw [if_neg (not_not_intro hside)]
  have hinits := inits_offerer hlive.laid
    { env.ioctl with offererArg := offererArg pageCount receiverDomid }
  have hinit := hlive.init pageCount.toNat env hinits
    (by rw [if_pos hside]; rfl) rfl
  dsimp only
  rcases hret : Kernel.ioctl h.data Command.initOfferer.word
    { env.ioctl with offererArg := offererArg pageCount receiverDomid } with ⟨r, d, events⟩
  rw [hret] at hinit
  cases r with
  | error e => exact hinit.1 (by simp)
  | ok =>
    rcases hinit.2 rfl with ⟨e, g, heq, hg⟩ | ⟨g, heq, -, -, hg⟩
    · simp only [heq]
      exact hg
    · simp only [heq]
      exact hg _

/-- A handle that connects stays in use, whether it succeeds or not. -/
theorem Live.connect (hlive : h.Live) (pageCount : BitVec 8) (offererDomid : BitVec 32)
    (grant : Kernel.GrantRef) (env : CallEnv) :
    (h.connect pageCount offererDomid grant env).2.Live := by
  unfold Priv.connect
  by_cases hside : h.isOfferer = true
  · rw [if_pos hside]
    exact hlive
  rw [if_neg hside]
  have hinits := inits_receiver hlive.laid
    { env.ioctl with receiverArg := receiverArg pageCount offererDomid grant }
  have hinit := hlive.init pageCount.toNat env hinits
    (by rw [if_neg hside]; rfl) rfl
  dsimp only
  rcases hret : Kernel.ioctl h.data Command.initReceiver.word
    { env.ioctl with receiverArg := receiverArg pageCount offererDomid grant } with ⟨r, d, events⟩
  rw [hret] at hinit
  cases r with
  | error e => exact hinit.1 (by simp)
  | ok =>
    rcases hinit.2 rfl with ⟨e, g, heq, hg⟩ | ⟨g, heq, -, -, hg⟩
    · simp only [heq]
      exact hg
    · simp only [heq]
      exact hg _

/-- A handle that asks for its domain stays in use. -/
theorem Live.getdomid (hlive : h.Live) (env : IoctlEnv) : (h.getdomid env).2.Live := by
  unfold Priv.getdomid
  split
  · exact hlive
  have hsame := ioctl_getDomid h.data env
  rcases hret : Kernel.ioctl h.data Command.getDomid.word env with ⟨r, d, events⟩
  rw [hret] at hsame
  obtain rfl : d = h.data := hsame
  cases r with
  | error e => exact hlive
  | ok => exact hlive

/-- A handle that waits stays in use. -/
theorem Live.wait (hlive : h.Live) (env : IoctlEnv) (remainingMs : Nat) :
    (h.wait env remainingMs).2.Live := by
  unfold Priv.wait
  split
  · exact hlive
  obtain ⟨signals, hsame⟩ := ioctl_await h.data env
  rcases hret : Kernel.ioctl h.data Command.await.word env with ⟨r, d, events⟩
  rw [hret] at hsame
  obtain rfl : d = { h.data with signals := signals } := hsame
  cases r with
  | error e => exact hlive.signals signals
  | ok => exact hlive.signals signals

/-- The whole mapping is unmapped by what begins with it and is as long, rounded up to pages. -/
theorem without_whole (vma : Vma) (start stop : Nat) (hstart : start ≤ vma.start)
    (hstop : vma.stop ≤ stop) : without start stop vma = [] := by
  simp [without, Nat.not_lt.mpr hstart, Nat.not_lt.mpr hstop]

/-- `__xen_shm_prepare_free` changes the operations of no page that is not mapped. -/
theorem prepareFree_unmapOps {d : Instance} (hopened : d.state ≠ .opened)
    (hd : d.state ≠ .offerer) (env : FreeEnv) :
    (Kernel.prepareFree d env).2.1.unmapOps = d.unmapStill.unmapOps := by
  rw [Kernel.prepareFree_eq hopened hd, Kernel.prepareFreeReceiver]
  split <;> rfl

/-- Giving up the whole mapping of a receiver unmaps its pages: the notifier does it, or
`__xen_shm_prepare_free`. -/
theorem prepareFree_unmapped {d : Instance} {vma : Vma} {page : Nat} (env : FreeEnv)
    (hstate : d.state = .receiverMapped) (hmem : d.userMem = some vma)
    (hsize : vma.stop = vma.start + d.dataPages * pageSize) (hpage : page < d.dataPages) :
    ((Kernel.prepareFree (if d.usePtemod then (Kernel.mnInvlRangeStart d vma.start vma.stop).1
      else d) env).2.1.unmapOps page).handle = -1 := by
  -- neither way stops before the last page
  have hall : (Kernel.mappedPages d.unmapOps 0 (d.dataPages - 1 + 1)).take d.dataPages =
      Kernel.mappedPages d.unmapOps 0 d.dataPages := by
    rw [Nat.sub_add_cancel (Nat.one_le_of_lt hpage)]
    exact List.take_of_length_le (Kernel.length_mappedPages_le ..)
  cases hpte : d.usePtemod with
  | false =>
    rw [if_neg (by simp), prepareFree_unmapOps (by simp [hstate]) (by simp [hstate]),
      Instance.unmapStill, Instance.stillMapped, if_pos ⟨hstate, hpte⟩, hall]
    exact Kernel.unmapAll_handle hpage
  | true =>
    have hinvl : (Kernel.mnInvlRangeStart d vma.start vma.stop).1 =
        d.withOps (Kernel.unmapAll d.unmapOps (Kernel.mappedPages d.unmapOps 0 d.dataPages)) := by
      have hlt : ¬ (vma.stop ≤ vma.start ∨ vma.stop ≤ vma.start) := by
        have hpos := Nat.mul_pos (Nat.zero_lt_of_lt hpage) (show 0 < pageSize by decide)
        omega
      have hcount : (vma.stop - vma.start) / Kernel.pageSize = d.dataPages := by
        rw [hsize, Nat.add_sub_cancel_left]
        exact Nat.mul_div_cancel _ (by decide)
      unfold Kernel.mnInvlRangeStart
      rw [hmem]
      simp only [if_neg hlt, max_self, min_self, Nat.sub_self, Nat.zero_div, hcount,
        Kernel.unmapReceiverGrantPages, Kernel.unmapPages_eq, Nat.zero_add, hall]
      rfl
    rw [if_pos rfl, hinvl, prepareFree_unmapOps (by simp [Instance.withOps, hstate])
      (by simp [Instance.withOps, hstate])]
    have hstill : (d.withOps (Kernel.unmapAll d.unmapOps
        (Kernel.mappedPages d.unmapOps 0 d.dataPages))).stillMapped = [] := by
      simp [Instance.stillMapped, Instance.withOps, hpte]
    rw [Instance.unmapStill, hstill, Kernel.unmapAll_nil]
    exact Kernel.unmapAll_handle hpage

/-- A handle in use that is freed leaves nothing behind. -/
theorem Live.free (hlive : h.Live) (env : FreeEnv) : (h.free env).Gone := by
  cases hshared : h.shared with
  | none =>
    have hmappings : h.mappings = [] := by rw [hlive.mappings, hshared]; rfl
    have heq : h.free env = { h with
        data := (Kernel.prepareFree h.data env).2.1, closes := h.closes + 1, released := true
        freed := true } := by
      simp [Priv.free, hshared, close, hmappings]
    rw [heq]
    exact ⟨rfl, by simp [hlive.closes], hmappings, rfl, by simp [hshared]⟩
  | some vma =>
    have harea := hlive.area vma hshared
    have hstop : vma.start + (h.bufferSize + sharedHeaderSize + (pageSize - 1)) / pageSize *
        pageSize = vma.stop := by
      rw [harea.ring, harea.size, Nat.add_comm (_ * _), Nat.add_mul_div_right _ _ (by decide)]
      simp [pageSize]
    have hnone : h.mappings.flatMap (without vma.start vma.stop) = [] := by
      rw [hlive.mappings, hshared]
      simp [without_whole vma vma.start vma.stop le_rfl le_rfl]
    have heq : h.free env = { h.addFlag .closed with
        data := (Kernel.prepareFree (if h.data.usePtemod then
          (Kernel.mnInvlRangeStart h.data vma.start vma.stop).1 else h.data) env).2.1
        mappings := [], closes := h.closes + 1, released := true, freed := true } := by
      simp only [Priv.free, hshared, munmap, addFlag, hstop, hnone, close, if_true]
    rw [heq]
    refine ⟨rfl, by simp [hlive.closes], rfl, rfl, ?_⟩
    intro hside vma' hvma' page hpage
    obtain rfl : vma = vma' := Option.some.inj (hshared.symm.trans hvma')
    change h.isOfferer = false at hside
    have hstate : h.data.state = .receiverMapped := by
      rw [harea.state, hside]
      rfl
    have hcount : (vma.stop - vma.start) / pageSize = h.data.dataPages := by
      rw [harea.size, Nat.add_sub_cancel_left]
      exact Nat.mul_div_cancel _ (by decide)
    exact prepareFree_unmapped env hstate (harea.userMem hside) harea.size (hcount ▸ hpage)

end Live

/-- The handle is in use, or it is gone. -/
def Sound (h : Priv) : Prop := h.Live ∨ h.Gone

/-- Every operation that may be made on a sound handle keeps it sound. -/
theorem Sound.step {h g : Priv} {op : HandleOp} (hs : h.Sound) (hstep : h.step op = some g) :
    g.Sound := by
  unfold Priv.step at hstep
  by_cases hfreed : h.freed = true
  · simp [hfreed] at hstep
  rw [if_neg hfreed] at hstep
  have hlive : h.Live := hs.resolve_right fun hgone => hfreed hgone.freed
  cases op with
  | getdomid env =>
    obtain rfl := Option.some.inj hstep
    exact .inl (hlive.getdomid env)
  | offers pageCount receiverDomid env =>
    obtain rfl := Option.some.inj hstep
    exact .inl (hlive.offers pageCount receiverDomid env)
  | connect pageCount offererDomid grant env =>
    obtain rfl := Option.some.inj hstep
    exact .inl (hlive.connect pageCount offererDomid grant env)
  | wait env remainingMs =>
    obtain rfl := Option.some.inj hstep
    exact .inl (hlive.wait env remainingMs)
  | free env =>
    obtain rfl := Option.some.inj hstep
    exact .inr (hlive.free env)
  | event signals =>
    obtain rfl := Option.some.inj hstep
    exact .inl (hlive.signals signals)
  | store memory =>
    obtain rfl := Option.some.inj hstep
    exact .inl ⟨hlive.freed, hlive.closes, hlive.laid, hlive.role, hlive.mappings,
      fun vma hvma =>
        have harea := hlive.area vma hvma
        ⟨harea.state, harea.pages, harea.size, harea.aligned, harea.ring, harea.interval,
          harea.userMem⟩⟩

section Use

variable {h : Priv}

/-- The sizes of an area are those of a pipe. -/
theorem Live.geometry (hlive : h.Live) {vma : Vma} (hvma : vma ∈ h.shared) :
    ∃ g : Geometry, g.pageCount = h.data.dataPages ∧ g.bufferSize = h.bufferSize ∧
      g.waitCheckInterval = h.waitCheckInterval ∧ ∀ m, g.shared m = vma.start := by
  have harea := hlive.area vma hvma
  have haligned : vma.start % 8 = 0 :=
    Nat.mod_eq_zero_of_dvd ((show 8 ∣ pageSize by decide).trans harea.aligned)
  have hsize : h.data.dataPages * pageSize - sharedHeaderSize = h.bufferSize := by
    rw [← harea.ring, Nat.add_sub_cancel]
  refine ⟨⟨h.data.dataPages, harea.pages, fun _ => vma.start, fun _ => haligned⟩, rfl, hsize, ?_,
    fun _ => rfl⟩
  rw [harea.interval, ← hsize]
  rfl

/-- An instance that was initialised is neither offered nor connected again. -/
theorem Live.refuses (hlive : h.Live) (hd : h.data.state ≠ .opened) :
    (∀ pageCount domid env, (∃ e, (h.offers pageCount domid env).1 = .error e) ∧
      (h.offers pageCount domid env).2 = h) ∧
    ∀ pageCount domid grant env, (∃ e, (h.connect pageCount domid grant env).1 = .error e) ∧
      (h.connect pageCount domid grant env).2 = h := by
  constructor
  · intro pageCount domid env
    unfold Priv.offers
    by_cases hside : h.isOfferer = true
    swap
    · rw [if_pos hside]
      exact ⟨⟨_, rfl⟩, rfl⟩
    rw [if_neg (not_not_intro hside)]
    obtain ⟨hne, hsame⟩ := (inits_offerer hlive.laid
      { env.ioctl with offererArg := offererArg pageCount domid }).refused hd
    dsimp only
    rcases hret : Kernel.ioctl h.data Command.initOfferer.word
      { env.ioctl with offererArg := offererArg pageCount domid } with ⟨r, d, events⟩
    rw [hret] at hne hsame
    obtain rfl : d = h.data := hsame
    cases r with
    | ok => exact absurd rfl hne
    | error e => exact ⟨⟨_, rfl⟩, rfl⟩
  · intro pageCount domid grant env
    unfold Priv.connect
    by_cases hside : h.isOfferer = true
    · rw [if_pos hside]
      exact ⟨⟨_, rfl⟩, rfl⟩
    rw [if_neg hside]
    obtain ⟨hne, hsame⟩ := (inits_receiver hlive.laid
      { env.ioctl with receiverArg := receiverArg pageCount domid grant }).refused hd
    dsimp only
    rcases hret : Kernel.ioctl h.data Command.initReceiver.word
      { env.ioctl with receiverArg := receiverArg pageCount domid grant } with ⟨r, d, events⟩
    rw [hret] at hne hsame
    obtain rfl : d = h.data := hsame
    cases r with
    | ok => exact absurd rfl hne
    | error e => exact ⟨⟨_, rfl⟩, rfl⟩

end Use

end Priv

/-- Whatever is called on a handle and whatever the kernel answers: until it is freed it has one
mapping at most, with the size of the data pages and of the ring, and is offered or connected once
at most; afterwards nothing is mapped, the descriptor was closed once and the instance was
released. -/
theorem handle_sound (mod : Mod) (conv : Conv) (raw : Instance) (domid : Nat) (pvDomain : Bool)
    (memory : Shared) (h : Priv)
    (hreach : Reaches Priv.step Priv.anyOp
      (.opened mod conv (raw.init domid pvDomain) memory) h) :
    h.Sound ∧ (h.freed = false →
      (∀ vma ∈ h.shared, ∃ g : Geometry, g.pageCount = h.data.dataPages ∧
        g.bufferSize = h.bufferSize ∧ g.waitCheckInterval = h.waitCheckInterval ∧
          ∀ m, g.shared m = vma.start) ∧
      (h.data.state ≠ .opened →
        (∀ pageCount domid env, (∃ e, (h.offers pageCount domid env).1 = .error e) ∧
          (h.offers pageCount domid env).2 = h) ∧
        ∀ pageCount domid grant env, (∃ e, (h.connect pageCount domid grant env).1 = .error e) ∧
          (h.connect pageCount domid grant env).2 = h)) := by
  have hopened : (Priv.opened mod conv (raw.init domid pvDomain) memory).Live :=
    ⟨rfl, rfl, Kernel.laid_init raw domid pvDomain, fun hd => absurd rfl hd, rfl, by
      simp [Priv.opened]⟩
  have hs : h.Sound := hreach.invariant (.inl hopened) fun _ _ _ hs _ => hs.step
  refine ⟨hs, fun hfreed => ?_⟩
  have hlive : h.Live := hs.resolve_right fun hgone => by simp [hgone.freed] at hfreed
  exact ⟨fun vma hvma => hlive.geometry hvma, hlive.refuses⟩

/-- What a call meets when the kernel lets nothing fail. -/
def CallEnv.easy : CallEnv :=
  ⟨.onePage, some 16, .easy, ⟨0#32, 0#32, 0, 0, fun _ => 0⟩⟩

/-- A pipe of one page is offered, and its handle is sound and in use. -/
theorem handle_sound_offered :
    let h := ((Priv.opened .read .readerOffers (Instance.fresh.init 1 false)
      ⟨0#32, 0#32, 0, 0, fun _ => 0⟩).offers 1 2 .easy).2
    h.Sound ∧ (h.freed = false →
      (∀ vma ∈ h.shared, ∃ g : Geometry, g.pageCount = h.data.dataPages ∧
        g.bufferSize = h.bufferSize ∧ g.waitCheckInterval = h.waitCheckInterval ∧
          ∀ m, g.shared m = vma.start) ∧
      (h.data.state ≠ .opened →
        (∀ pageCount domid env, (∃ e, (h.offers pageCount domid env).1 = .error e) ∧
          (h.offers pageCount domid env).2 = h) ∧
        ∀ pageCount domid grant env, (∃ e, (h.connect pageCount domid grant env).1 = .error e) ∧
          (h.connect pageCount domid grant env).2 = h)) :=
  handle_sound .read .readerOffers .fresh 1 false _ _ (.single ⟨.offers 1 2 .easy, rfl, rfl⟩)

/-- The offered handle has its area. -/
example : ((Priv.opened .read .readerOffers (Instance.fresh.init 1 false)
    ⟨0#32, 0#32, 0, 0, fun _ => 0⟩).offers 1 2 .easy).2.shared =
      some ⟨65536, 69632, true, true⟩ := by
  decide +kernel

end XenShm.Pipe
