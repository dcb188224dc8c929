import XenShm.Pipe.Transfer

/-!
# The two ends of a pipe

A process is one handle with the local variables of the library call in progress.
Its program counter names the next access to the shared area or the `ioctl` it is
inside; `|=` and `&=` on a flag word are a load and a separate store. Copies are
those of the transfer loop. The functions that differ between reader and writer,
`__xen_shm_pipe_wait_reader` and `__xen_shm_pipe_wait_writer`, have bodies of
their own; the others take the end as a parameter.
-/

namespace XenShm.Pipe

open XenShm.Library

/-- The values of `errno` the library sets or passes on. -/
inductive Errno where
  | epipe
  | eintr
  | emediumtype
  | other
  deriving DecidableEq, Repr

/-- What an `ioctl` returns: zero, or `-1` with `errno`. -/
inductive IoctlResult where
  | ok
  | fail (e : Errno)
  deriving DecidableEq, Repr

/-- Where a process stands, named by the access it makes next. -/
inductive Pc where
  /-- The statement `*myflags |= XSHMP_OPENED` of `xen_shm_pipe_connect`, a load and a store. -/
  | openLoad
  | openStore
  /-- The process is between two calls of the library. -/
  | idle
  /-- `xen_shm_pipe_read` or `xen_shm_pipe_write`: test of the own `XSHMP_CLOSED`. -/
  | callTest
  /-- The statement that raises `XSHMP_ACTIVE`, a load and a store. -/
  | activeLoad
  | activeStore
  /-- `__xen_shm_pipe_wait_writer`: test of the reader's `XSHMP_CLOSED` at entry. -/
  | closedTest
  /-- The load of the own index. -/
  | loadOwn
  /-- The condition of the waiting loop. -/
  | loopTest
  /-- Snapshot of the flags of the peer. -/
  | loadFlags
  /-- The statement that raises `XSHMP_WAITING`, a load and a store. -/
  | waitingLoad
  | waitingStore
  /-- `//Check nothing changed`, and the decisions taken on the snapshot. -/
  | recheck
  /-- The process is inside the `ioctl` of `__xen_shm_pipe_prone_for_epipe`. -/
  | probe
  /-- Inside the `ioctl` that wakes a sleeping peer. -/
  | signal
  /-- The statement that raises `XSHMP_SLEEPING`, a load and a store. -/
  | sleepingLoad
  | sleepingStore
  /-- The process is inside `__xen_shm_pipe_wait_signal`. -/
  | asleep
  /-- The statement that clears `XSHMP_SLEEPING`, a load and a store. -/
  | wakeLoad
  | wakeStore
  /-- `writer_flags &= ~XSHMP_WAITING` after a failed `ioctl`, in both functions. -/
  | interruptedLoad
  | interruptedStore
  /-- The statement that clears `XSHMP_WAITING` behind the loop, a load and a store. -/
  | unwaitLoad
  | unwaitStore
  /-- The process is inside the copying loop. -/
  | avail
  /-- The statement that clears `XSHMP_ACTIVE`, a load and a store. -/
  | inactiveLoad
  | inactiveStore
  /-- The call of `xen_shm_pipe_read` or `xen_shm_pipe_write` has returned. -/
  | ret
  /-- The test of `XSHMP_CLOSED` of the peer in `xen_shm_pipe_flush`. -/
  | flushTest
  /-- The process is inside the `ioctl` of `xen_shm_pipe_flush`. -/
  | flushSignal
  /-- The statement that raises `XSHMP_CLOSED` in `xen_shm_pipe_free`, a load and a store. -/
  | freeLoad
  | freeStore
  /-- The call `close(p->fd)`, the last thing done with the descriptor. -/
  | close
  /-- The handle is gone and must not be used any more. -/
  | freed
  deriving DecidableEq, Repr

/-- A handle and the call in progress on it. -/
structure Proc where
  /-- Where the process stands in the code. -/
  pc : Pc
  /-- Whether `p->shared` is not `NULL`. -/
  mapped : Bool
  /-- Whether the call is `xen_shm_pipe_read_all` or `xen_shm_pipe_write_all`. -/
  all : Bool
  /-- The user buffer of the current read or write. -/
  buffer : Nat
  /-- The length of that buffer. -/
  nbytes : Nat
  /-- The local variable `readd` or `written`, what the parts before have moved. -/
  total : Nat
  /-- The memory of the user. -/
  mem : Nat → UInt8
  /-- The local variable `read_p` or `write_p`. -/
  own : Nat
  /-- `writer_flags` of the reader, `reader_flags` of the writer. -/
  peerFlags : Flags
  /-- The local variable `loop_count`, the turns left of the waiting loop. -/
  loopCount : Nat
  /-- The local variable `active_count`, the turns left beside an active peer. -/
  activeCount : Nat
  /-- The local variable `unset_wait`, whether the own flag was raised. -/
  unsetWait : Bool
  /-- What `__xen_shm_pipe_wait_signal` has returned. -/
  awaitRet : IoctlResult
  /-- The word loaded by a `|=` or `&=` whose store is still to come. -/
  tmp : Flags
  /-- The local variable `saw_epipe` of a reader. -/
  sawEpipe : Bool
  /-- `errno`, if it was assigned since the current read or write began. -/
  errno : Option Errno
  /-- Return value of the current read or write. -/
  retval : Int
  /-- Return value of the last finished library call. -/
  result : Int
  /-- The local variables of the copying loop. -/
  xfer : Transfer

/-- What can happen next in a process, where its code does not decide it. -/
inductive Input where
  /-- The user calls `fn`, or its `_all` form, on `nbytes` bytes at `buf`. -/
  | transfer (fn : Mod) (all : Bool) (buf nbytes : Nat) (mem : Nat → UInt8)
  /-- The user calls `xen_shm_pipe_flush` between two other calls. -/
  | flush
  /-- The user calls `xen_shm_pipe_free` between two other calls. -/
  | free
  /-- The process takes its next step outside an `ioctl`. -/
  | tick
  /-- The `ioctl` in progress returns. -/
  | ioctl (r : IoctlResult)

namespace Proc

/-- The handle after `xen_shm_pipe_init`, standing at this point. -/
def init (pc : Pc) (mapped : Bool) (mem : Nat → UInt8) : Proc where
  pc := pc
  mapped := mapped
  all := false
  buffer := 0
  nbytes := 0
  total := 0
  mem := mem
  own := 0
  peerFlags := 0#32
  loopCount := waitLoopLimit
  activeCount := waitLoopActiveMax
  unsetWait := false
  awaitRet := .ok
  tmp := 0#32
  sawEpipe := false
  errno := none
  retval := 0
  result := 0
  xfer := .start 0 0

/-- Leave the waiting function with a value that ends the call. -/
def leaveWait (p : Proc) (ret : Int) : Proc := { p with retval := ret, pc := .inactiveLoad }

/-- Leave the waiting function with -1, after setting `errno`. -/
def failWait (p : Proc) (e : Errno) : Proc := { p.leaveWait (-1) with errno := some e }

/-- The waiting function has found something to move. -/
def enterAvail (p : Proc) : Proc := { p with xfer := .start p.buffer p.nbytes, pc := .avail }

/-- Leave the waiting loop; the flag is cleared only if it was set. -/
def leaveLoop (p : Proc) : Proc :=
  if p.unsetWait then { p with pc := .unwaitLoad } else p.enterAvail

/-- The tail of a turn of either waiting loop: wake the peer, stay awake with it, or sleep. -/
def turn (p : Proc) : Proc :=
  if hasFlag p.peerFlags .sleeping then { p with pc := .signal }
  else if hasFlag p.peerFlags .waiting then { p with pc := .loopTest }
  else if hasFlag p.peerFlags .active ∧ p.activeCount ≠ 0 then
    { p with activeCount := p.activeCount - 1, pc := .loopTest }
  else { p with pc := .sleepingLoad }

/-- The tail of a turn of the reader, which first tests `saw_epipe`. -/
def readerTurn (p : Proc) : Proc := if p.sawEpipe then p.failWait .epipe else p.turn

/-- `__xen_shm_pipe_wait_reader`, one access to the shared area at a time. -/
def waitReader (p : Proc) (s : Shared) : Option (Proc × Shared) :=
  match p.pc with
  | .loadOwn => some ({ p with own := s.read, pc := .loopTest }, s)
  | .loopTest =>
    if p.own = s.write then some ({ p with pc := .loadFlags }, s)
    else some (p.leaveLoop, s)
  | .loadFlags =>
    some ({ p with
      peerFlags := s.writerFlags, loopCount := p.loopCount - 1, pc := .waitingLoad }, s)
  | .waitingLoad => some ({ p with tmp := s.readerFlags, pc := .waitingStore }, s)
  | .waitingStore =>
    some ({ p with unsetWait := true, pc := .recheck },
      { s with readerFlags := setFlag p.tmp .waiting })
  | .recheck =>
    if p.own ≠ s.write then some (p.leaveLoop, s)
    else if hasFlag p.peerFlags .closed then some (p.leaveWait 0, s)
    else if p.loopCount = 0 then some ({ p with pc := .probe }, s)
    else some (p.readerTurn, s)
  | .sleepingLoad => some ({ p with tmp := s.readerFlags, pc := .sleepingStore }, s)
  | .sleepingStore =>
    some ({ p with pc := .asleep }, { s with readerFlags := setFlag p.tmp .sleeping })
  | .wakeLoad => some ({ p with tmp := s.readerFlags, pc := .wakeStore }, s)
  | .wakeStore =>
    let s := { s with readerFlags := clearFlag p.tmp .sleeping }
    match p.awaitRet with
    | .ok => some ({ p with pc := .loopTest }, s)
    | .fail .epipe => some ({ p with sawEpipe := true, pc := .loopTest }, s)
    | .fail _ => some ({ p with pc := .interruptedLoad }, s)
  -- these two accesses are to the flags of the writer
  | .interruptedLoad => some ({ p with tmp := s.writerFlags, pc := .interruptedStore }, s)
  | .interruptedStore =>
    some (p.leaveWait (-1), { s with writerFlags := clearFlag p.tmp .waiting })
  | .unwaitLoad => some ({ p with tmp := s.readerFlags, pc := .unwaitStore }, s)
  | .unwaitStore =>
    some (p.enterAvail, { s with readerFlags := clearFlag p.tmp .waiting })
  | _ => none

/-- `__xen_shm_pipe_wait_writer`, one access to the shared area at a time. -/
def waitWriter (g : Geometry) (p : Proc) (s : Shared) : Option (Proc × Shared) :=
  match p.pc with
  | .closedTest =>
    if hasFlag s.readerFlags .closed then some (p.leaveWait (-1), s)
    else some ({ p with pc := .loadOwn }, s)
  | .loadOwn =>
    some ({ p with
      own := if s.write + 1 = g.bufferSize then 0 else s.write + 1
      pc := .loopTest }, s)
  | .loopTest =>
    if p.own = s.read then some ({ p with pc := .loadFlags }, s)
    else some (p.leaveLoop, s)
  | .loadFlags =>
    some ({ p with
      peerFlags := s.readerFlags, loopCount := p.loopCount - 1, pc := .waitingLoad }, s)
  | .waitingLoad => some ({ p with tmp := s.writerFlags, pc := .waitingStore }, s)
  | .waitingStore =>
    some ({ p with unsetWait := true, pc := .recheck },
      { s with writerFlags := setFlag p.tmp .waiting })
  | .recheck =>
    if p.own ≠ s.read then some (p.leaveLoop, s)
    else if hasFlag p.peerFlags .closed then some (p.leaveWait (-1), s)
    else if p.loopCount = 0 then some ({ p with pc := .probe }, s)
    else some (p.turn, s)
  | .sleepingLoad => some ({ p with tmp := s.writerFlags, pc := .sleepingStore }, s)
  | .sleepingStore =>
    some ({ p with pc := .asleep }, { s with writerFlags := setFlag p.tmp .sleeping })
  | .wakeLoad => some ({ p with tmp := s.writerFlags, pc := .wakeStore }, s)
  | .wakeStore =>
    let s := { s with writerFlags := clearFlag p.tmp .sleeping }
    match p.awaitRet with
    | .ok => some ({ p with pc := .loopTest }, s)
    | .fail _ => some ({ p with pc := .interruptedLoad }, s)
  | .interruptedLoad => some ({ p with tmp := s.writerFlags, pc := .interruptedStore }, s)
  | .interruptedStore =>
    some (p.leaveWait (-1), { s with writerFlags := clearFlag p.tmp .waiting })
  | .unwaitLoad => some ({ p with tmp := s.writerFlags, pc := .unwaitStore }, s)
  | .unwaitStore =>
    some (p.enterAvail, { s with writerFlags := clearFlag p.tmp .waiting })
  | _ => none

/-- Begin one `xen_shm_pipe_read` or `xen_shm_pipe_write` on the rest of the user buffer. `fn` is
the function called on the handle of the end `m`. -/
def beginCall (m fn : Mod) (p : Proc) : Proc :=
  if fn ≠ m ∨ ¬ p.mapped then
    { p with errno := some .emediumtype, retval := -1, pc := .ret }
  else { p with errno := none, pc := .callTest }

/-- The call refuses an end that was closed. -/
def refuse (m : Mod) (p : Proc) : Proc :=
  match m with
  | .read => { p with retval := 0, pc := .ret }
  | .write => { p with errno := some .epipe, retval := -1, pc := .ret }

/-- Account for `k` bytes of an `_all` call. -/
def advanceCall (p : Proc) (k : Nat) : Proc :=
  { p with total := p.total + k, buffer := p.buffer + k, nbytes := p.nbytes - k }

/-- The library call returns this value to the user. -/
def finish (p : Proc) (value : Int) : Proc := { p with result := value, pc := .idle }

/-- The condition `while(nbytes)` of an `_all` call, which asks for the next part or returns. -/
def nextPart (m : Mod) (p : Proc) : Proc :=
  if p.nbytes = 0 then p.finish p.total else p.beginCall m m

/-- What the `_all` loop, or the plain call, does with the value of one read or write. -/
def afterRet (m : Mod) (p : Proc) : Proc :=
  if p.all then
    if p.retval ≤ 0 then p.finish (if p.total ≠ 0 then (p.total : Int) else p.retval)
    else (p.advanceCall p.retval.toNat).nextPart m
  else p.finish p.retval

/-- How many bytes the next step copies. -/
def copies (p : Proc) : Nat := if p.pc = .avail then p.xfer.copies else 0

/-- The bytes that the next step copies, in the order of the stream. -/
def moved (m : Mod) (s : Shared) (p : Proc) : List UInt8 :=
  if p.pc = .avail then p.xfer.moved m s.buffer p.mem else []

/-- Whether the next step stores the own index. -/
def publishes (p : Proc) : Bool := p.pc = .avail ∧ p.xfer.pc = .storeOwn

/-- One step of the copying loop: move the bytes, store the index or return their number. -/
def tickAvail (g : Geometry) (m : Mod) (p : Proc) (s : Shared) : Option (Proc × Shared) :=
  let next := { p with xfer := p.xfer.step g m s }
  match p.xfer.pc with
  | .checkSignal | .lastSignal => none
  | .storeOwn => some (next, s.setIndex m p.xfer.pos)
  | .done =>
    some ({ p with
      retval := ((p.xfer.current - p.xfer.userBuf : Nat) : Int)
      pc := .inactiveLoad }, s)
  | _ =>
    match m with
    | .read => some ({ next with mem := overwrite p.mem p.xfer.current (p.moved m s) }, s)
    | .write => some (next, { s with buffer := overwrite s.buffer p.xfer.pos (p.moved m s) })

/-- One step of a process outside its `ioctl`s. -/
def tick (g : Geometry) (m : Mod) (p : Proc) (s : Shared) : Option (Proc × Shared) :=
  match p.pc with
  | .openLoad => some ({ p with tmp := s.flags m, pc := .openStore }, s)
  | .openStore => some ({ p with pc := .idle }, s.setFlags m (setFlag p.tmp .opened))
  | .callTest =>
    if hasFlag (s.flags m) .closed then some (p.refuse m, s)
    else some ({ p with pc := .activeLoad }, s)
  | .activeLoad => some ({ p with tmp := s.flags m, pc := .activeStore }, s)
  | .activeStore =>
    some ({ p with
      unsetWait := false
      loopCount := waitLoopLimit
      activeCount := waitLoopActiveMax
      pc := match m with
        | .read => .loadOwn
        | .write => .closedTest }, s.setFlags m (setFlag p.tmp .active))
  | .avail => p.tickAvail g m s
  | .inactiveLoad => some ({ p with tmp := s.flags m, pc := .inactiveStore }, s)
  | .inactiveStore => some ({ p with pc := .ret }, s.setFlags m (clearFlag p.tmp .active))
  | .ret => some (p.afterRet m, s)
  | .flushTest =>
    if hasFlag (s.flags m.peer) .closed then
      some ({ p.finish (-1) with errno := some .epipe }, s)
    else some ({ p with pc := .flushSignal }, s)
  | .freeLoad => some ({ p with tmp := s.flags m, pc := .freeStore }, s)
  | .freeStore => some ({ p with pc := .close }, s.setFlags m (setFlag p.tmp .closed))
  | .close => some ({ p with pc := .freed }, s)
  | _ =>
    match m with
    | .read => p.waitReader s
    | .write => p.waitWriter g s

/-- An `ioctl` that has failed has set `errno`. -/
def noteErrno (p : Proc) : IoctlResult → Proc
  | .ok => p
  | .fail e => { p with errno := some e }

/-- The `ioctl` in progress returns. The signals of the transfer and waiting loops ignore what
they get. -/
def ioctlReturn (g : Geometry) (m : Mod) (r : IoctlResult) (p : Proc) (s : Shared) : Option Proc :=
  let p' := p.noteErrno r
  match p.pc with
  | .probe =>
    if r = .fail .epipe then some (p'.failWait .epipe)
    else
      let p' := { p' with loopCount := waitLoopLimit }
      match m with
      | .read => some p'.readerTurn
      | .write => some p'.turn
  | .signal => some { p' with pc := .loopTest }
  | .asleep => some { p' with awaitRet := r, pc := .wakeLoad }
  | .avail =>
    match p.xfer.pc with
    | .checkSignal | .lastSignal => some { p' with xfer := p.xfer.step g m s }
    | _ => none
  | .flushSignal => some (p'.finish (if r = .ok then 0 else -1))
  | _ => none

/-- One step of a process. A call needs a handle between two calls. -/
def step (g : Geometry) (m : Mod) (i : Input) (p : Proc) (s : Shared) : Option (Proc × Shared) :=
  match i with
  | .tick => p.tick g m s
  | .ioctl r => (p.ioctlReturn g m r s).map fun p' => (p', s)
  | .transfer fn all buf nbytes mem =>
    if p.pc = .idle then
      let p := { p with all := all, buffer := buf, nbytes := nbytes, total := 0, mem := mem }
      if all ∧ nbytes = 0 then some (p.finish 0, s) else some (p.beginCall m fn, s)
    else none
  | .flush =>
    if p.pc = .idle then
      if p.mapped then some ({ p with pc := .flushTest }, s)
      else some ({ p.finish (-1) with errno := some .emediumtype }, s)
    else none
  | .free =>
    if p.pc = .idle then some ({ p with pc := if p.mapped then .freeLoad else .close }, s) else none

/-- The waiting function of one end. -/
def wait (g : Geometry) (m : Mod) (p : Proc) (s : Shared) : Option (Proc × Shared) :=
  match m with
  | .read => p.waitReader s
  | .write => p.waitWriter g s

/-- The tail of a turn of either waiting loop. -/
def endTurn (m : Mod) (p : Proc) : Proc :=
  match m with
  | .read => p.readerTurn
  | .write => p.turn

/-- What one access of a waiting function does, for both ends. They differ in the test before the
loop, in what they return when the peer is closed, and in what a reader does with `EPIPE`. -/
inductive Waits (g : Geometry) (m : Mod) (p : Proc) (s : Shared) : Proc → Shared → Prop where
  /-- The reader was closed before the loop. -/
  | refused (hpc : p.pc = .closedTest) (hm : m = .write)
      (hclosed : hasFlag (s.flags m.peer) .closed = true) : Waits g m p s (p.leaveWait (-1)) s
  /-- The peer was found open before the loop, so the loop begins. -/
  | closedTest (hpc : p.pc = .closedTest) (hm : m = .write)
      (hopen : hasFlag (s.flags m.peer) .closed = false) : Waits g m p s { p with pc := .loadOwn } s
  /-- The mark that the index of the peer is compared with. -/
  | loadOwn (own : Nat) (hpc : p.pc = .loadOwn) (hread : m = .read → own = s.read)
      (hwrite : m = .write → own = if s.write + 1 = g.bufferSize then 0 else s.write + 1) :
      Waits g m p s { p with own := own, pc := .loopTest } s
  /-- There is nothing to move, and the loop goes on. -/
  | loopTest (hpc : p.pc = .loopTest) (hown : p.own = s.index m.peer) :
      Waits g m p s { p with pc := .loadFlags } s
  /-- There is something to move, and the loop is left. -/
  | leaves (hpc : p.pc = .loopTest ∨ p.pc = .recheck) (hown : p.own ≠ s.index m.peer) :
      Waits g m p s p.leaveLoop s
  | loadFlags (hpc : p.pc = .loadFlags) : Waits g m p s { p with
      peerFlags := s.flags m.peer, loopCount := p.loopCount - 1, pc := .waitingLoad } s
  | waitingLoad (hpc : p.pc = .waitingLoad) :
      Waits g m p s { p with tmp := s.flags m, pc := .waitingStore } s
  | waitingStore (hpc : p.pc = .waitingStore) :
      Waits g m p s { p with unsetWait := true, pc := .recheck }
        (s.setFlags m (setFlag p.tmp .waiting))
  /-- The peer was closed when its flags were read. -/
  | peerClosed (hpc : p.pc = .recheck) (hown : p.own = s.index m.peer)
      (hclosed : hasFlag p.peerFlags .closed = true) :
      Waits g m p s (p.leaveWait (match m with | .read => 0 | .write => -1)) s
  | probe (hpc : p.pc = .recheck) (hown : p.own = s.index m.peer)
      (hopen : hasFlag p.peerFlags .closed = false) (hcount : p.loopCount = 0) :
      Waits g m p s { p with pc := .probe } s
  | turn (hpc : p.pc = .recheck) (hown : p.own = s.index m.peer)
      (hopen : hasFlag p.peerFlags .closed = false) (hcount : p.loopCount ≠ 0) :
      Waits g m p s (p.endTurn m) s
  | sleepingLoad (hpc : p.pc = .sleepingLoad) :
      Waits g m p s { p with tmp := s.flags m, pc := .sleepingStore } s
  | sleepingStore (hpc : p.pc = .sleepingStore) :
      Waits g m p s { p with pc := .asleep } (s.setFlags m (setFlag p.tmp .sleeping))
  | wakeLoad (hpc : p.pc = .wakeLoad) :
      Waits g m p s { p with tmp := s.flags m, pc := .wakeStore } s
  /-- The `ioctl` has succeeded, and the loop goes on. -/
  | woken (hpc : p.pc = .wakeStore) (hret : p.awaitRet = .ok) :
      Waits g m p s { p with pc := .loopTest } (s.setFlags m (clearFlag p.tmp .sleeping))
  /-- The reader keeps an `EPIPE` in mind. -/
  | sawEpipe (hpc : p.pc = .wakeStore) (hm : m = .read) (hret : p.awaitRet = .fail .epipe) :
      Waits g m p s { p with sawEpipe := true, pc := .loopTest }
        (s.setFlags m (clearFlag p.tmp .sleeping))
  /-- The `ioctl` has failed, and the wait is given up. -/
  | interrupted (e : Errno) (hpc : p.pc = .wakeStore) (hret : p.awaitRet = .fail e)
      (hne : m = .read → e ≠ .epipe) : Waits g m p s { p with pc := .interruptedLoad }
        (s.setFlags m (clearFlag p.tmp .sleeping))
  | interruptedLoad (hpc : p.pc = .interruptedLoad) :
      Waits g m p s { p with tmp := s.flags .write, pc := .interruptedStore } s
  | interruptedStore (hpc : p.pc = .interruptedStore) :
      Waits g m p s (p.leaveWait (-1)) (s.setFlags .write (clearFlag p.tmp .waiting))
  | unwaitLoad (hpc : p.pc = .unwaitLoad) :
      Waits g m p s { p with tmp := s.flags m, pc := .unwaitStore } s
  | unwaitStore (hpc : p.pc = .unwaitStore) :
      Waits g m p s p.enterAvail (s.setFlags m (clearFlag p.tmp .waiting))

section Waits

variable {g : Geometry} {m : Mod} {p p' : Proc} {s s' : Shared}

/-- Every access of `__xen_shm_pipe_wait_reader` is of one of these kinds. -/
private theorem waitReader_waits (h : p.waitReader s = some (p', s')) :
    Waits g .read p s p' s' := by
  cases hpc : p.pc <;> simp only [waitReader, hpc, reduceCtorEq] at h
  case loopTest =>
    split at h <;> cases h
    · exact .loopTest hpc ‹_›
    · exact .leaves (.inl hpc) ‹_›
  case recheck =>
    have hfull : ¬ p.own ≠ s.write → p.own = s.index (Mod.peer .read) := of_not_not
    split_ifs at h with hown hclosed hcount <;> cases h
    · exact .leaves (.inr hpc) hown
    · exact .peerClosed hpc (hfull hown) hclosed
    · exact .probe hpc (hfull hown) (Bool.eq_false_iff.mpr hclosed) hcount
    · exact .turn hpc (hfull hown) (Bool.eq_false_iff.mpr hclosed) hcount
  case wakeStore =>
    split at h <;> cases h
    · exact .woken hpc ‹_›
    · exact .sawEpipe hpc rfl ‹_›
    · rename_i e hne hret
      exact .interrupted e hpc hret fun _ => hne
  all_goals cases h
  case loadOwn => exact .loadOwn _ hpc (fun _ => rfl) fun hm => by cases hm
  case loadFlags => exact .loadFlags hpc
  case waitingLoad => exact .waitingLoad hpc
  case waitingStore => exact .waitingStore hpc
  case sleepingLoad => exact .sleepingLoad hpc
  case sleepingStore => exact .sleepingStore hpc
  case wakeLoad => exact .wakeLoad hpc
  case interruptedLoad => exact .interruptedLoad hpc
  case interruptedStore => exact .interruptedStore hpc
  case unwaitLoad => exact .unwaitLoad hpc
  case unwaitStore => exact .unwaitStore hpc

/-- Every access of `__xen_shm_pipe_wait_writer` is of one of these kinds. -/
private theorem waitWriter_waits (h : p.waitWriter g s = some (p', s')) :
    Waits g .write p s p' s' := by
  cases hpc : p.pc <;> simp only [waitWriter, hpc, reduceCtorEq] at h
  case closedTest =>
    split_ifs at h with hclosed <;> cases h
    · exact .refused hpc rfl hclosed
    · exact .closedTest hpc rfl (Bool.eq_false_iff.mpr hclosed)
  case loopTest =>
    split at h <;> cases h
    · exact .loopTest hpc ‹_›
    · exact .leaves (.inl hpc) ‹_›
  case recheck =>
    have hfull : ¬ p.own ≠ s.read → p.own = s.index (Mod.peer .write) := of_not_not
    split_ifs at h with hown hclosed hcount <;> cases h
    · exact .leaves (.inr hpc) hown
    · exact .peerClosed hpc (hfull hown) hclosed
    · exact .probe hpc (hfull hown) (Bool.eq_false_iff.mpr hclosed) hcount
    · exact .turn hpc (hfull hown) (Bool.eq_false_iff.mpr hclosed) hcount
  case wakeStore =>
    split at h <;> cases h
    · exact .woken hpc ‹_›
    · exact .interrupted _ hpc ‹_› fun hm => by cases hm
  all_goals cases h
  case loadOwn => exact .loadOwn _ hpc (fun hm => by cases hm) fun _ => rfl
  case loadFlags => exact .loadFlags hpc
  case waitingLoad => exact .waitingLoad hpc
  case waitingStore => exact .waitingStore hpc
  case sleepingLoad => exact .sleepingLoad hpc
  case sleepingStore => exact .sleepingStore hpc
  case wakeLoad => exact .wakeLoad hpc
  case interruptedLoad => exact .interruptedLoad hpc
  case interruptedStore => exact .interruptedStore hpc
  case unwaitLoad => exact .unwaitLoad hpc
  case unwaitStore => exact .unwaitStore hpc

/-- Every access of a waiting function is one of these. -/
theorem waits (h : p.wait g m s = some (p', s')) : Waits g m p s p' s' := by
  cases m with
  | read => exact waitReader_waits h
  | write => exact waitWriter_waits h

end Waits

end Proc

end XenShm.Pipe
