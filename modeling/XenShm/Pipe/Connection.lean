import XenShm.Kernel.Await
import XenShm.Pipe.Sleep

/-!
# A pipe with its two kernels

The processes of a pipe with the instances they have opened: each `ioctl` of the library
runs in the kernel of its end, events cross the event channel, and the handlers take
them. An event channel has one pending bit in each direction; an event sent while one is
pending merges with it.
-/

namespace XenShm.Pipe

open XenShm.Library

/-- What the kernel does for a process at the moment. -/
inductive Task where
  /-- The process is in user space. -/
  | idle
  /-- INIT_RECEIVER is about to publish its state. -/
  | initReceiver
  /-- INIT_RECEIVER is about to send the initial event. -/
  | initNotify
  /-- The process is in AWAIT, at this place of the call. -/
  | await (c : Kernel.Call)
  /-- SSIG is about to check the state and the pipe. -/
  | ssig
  /-- SSIG is about to send the event. -/
  | ssigNotify
  /-- An `ioctl` is about to return this result. -/
  | ret (r : Kernel.Result)
  /-- The release of the descriptor is about to send an event. -/
  | closeNotify
  deriving DecidableEq, Repr

/-- The task of a process in AWAIT after a step of its call. -/
def Task.ofCall (call : Kernel.Call) : Task :=
  match call.pc with
  | .done r => .ret r
  | _ => .await call

/-- The kernel of one end, as far as the pipe is concerned. -/
structure KernelEnd where
  /-- The signals that the event handler writes. -/
  signals : Kernel.Signals
  /-- An event is pending towards this end. -/
  pending : Bool
  /-- The run of the event handler, if there is one. -/
  handler : Option Kernel.HandlerPc
  /-- What the kernel does for its process. -/
  task : Task
  deriving DecidableEq, Repr

/-- A pipe, both kernels, and the marks of the flushes: how far an end may move is recorded when
its peer flushes. -/
structure Connection where
  /-- The processes at both ends and the shared area. -/
  sys : System
  /-- The header page, which both kernels read and write. -/
  header : Kernel.Header
  kernel : Mod → KernelEnd
  /-- What the peer of an end could move when the end last called flush. -/
  called : Mod → Nat
  /-- What an end could move when the last event of a flush was sent towards it. -/
  sent : Mod → Nat
  /-- What an end could move when its peer last called a flush that returned 0. -/
  flushed : Mod → Nat

/-- What happens next in one of the processes or kernels, in any order. -/
inductive Connection.Input where
  /-- The user makes a call, or the library goes on. -/
  | user (m : Mod) (i : Pipe.Input)
  /-- The library enters an `ioctl`. -/
  | enter (m : Mod)
  /-- The user calls `xen_shm_pipe_wait` between two calls. Its result is not recorded here. -/
  | wait (m : Mod) (timeoutMs : Nat)
  /-- The kernel goes on with its task. -/
  | kernel (m : Mod) (choice : Kernel.Choice)
  /-- An event that waits is delivered to the kernel of this end. -/
  | deliver (m : Mod)
  /-- The event handler of this end goes on. -/
  | handler (m : Mod)

/-- The request that `__xen_shm_pipe_wait_signal` makes. -/
def latentRequest : Kernel.Request := ⟨false, false, false, true, 0⟩

/-- The request of `__xen_shm_pipe_prone_for_epipe`, and with another timeout of
`xen_shm_pipe_wait`. -/
def probeRequest : Kernel.Request := ⟨false, true, false, false, 1⟩

/-- The `ioctl` the library is about to enter. -/
def Proc.syscall (p : Proc) : Option Task :=
  match p.pc with
  | .probe => some (.await (.enter probeRequest))
  | .asleep => some (.await (.enter latentRequest))
  | .signal | .flushSignal => some .ssig
  | .avail =>
    match p.xfer.pc with
    | .checkSignal | .lastSignal => some .ssig
    | _ => none
  | _ => none

/-- What an `ioctl` with this result returns to the process. -/
def IoctlResult.ofKernel : Kernel.Result → IoctlResult
  | .ok => .ok
  | .error .epipe => .fail .epipe
  | .error .erestartsys => .fail .eintr
  | .error _ => .fail .other

/-- `wake_up_interruptible`, as the call in progress notices it. -/
def KernelEnd.wake (k : KernelEnd) : KernelEnd :=
  match k.task with
  | .await call => { k with task := .await call.wake }
  | _ => k

namespace Connection

variable (g : Geometry) (conv : Conv) (c : Connection)

/-- The state of the instance of one end. -/
def state (m : Mod) : Kernel.State := if isOfferer m conv then .offerer else .receiver

/-- What the calls and the handler of one end see. -/
def seenBy (m : Mod) : Kernel.Shared := ⟨state conv m, (c.kernel m).signals, c.header⟩

/-- Replace the kernel of one end. -/
def setKernel (m : Mod) (k : KernelEnd) : Connection :=
  { c with kernel := Function.update c.kernel m k }

/-- Replace the task of the process at one end. -/
def setTask (m : Mod) (t : Task) : Connection := c.setKernel m { c.kernel m with task := t }

/-- `notify_remote_via_evtchn` towards one end, which loses the event before that end is bound. -/
def notify (m : Mod) : Connection :=
  if (c.kernel m).task = .initReceiver then c
  else c.setKernel m { c.kernel m with pending := true }

/-- The state in the header page that belongs to one end. -/
def setHeaderState (m : Mod) (st : Kernel.MetaState) : Connection :=
  if isOfferer m conv then { c with header := { c.header with offererState := st } }
  else { c with header := { c.header with receiverState := st } }

/-- The effect of a step of the process on its kernel: closing the descriptor begins its
release. -/
def afterUser (m : Mod) (i : Pipe.Input) (sys : System) : Connection :=
  let next := { c with sys := sys }
  if (c.sys.proc m).pc = .close then (next.setHeaderState conv m .closed).setTask m .closeNotify
  else
    match i with
    | .flush => { next with called := Function.update c.called m (bound g m.peer (c.sys.shown m)) }
    | _ => next

/-- The event of an SSIG is sent, and the `ioctl` is about to return. -/
def afterSsig (m : Mod) : Connection :=
  let next := (c.notify m.peer).setTask m (.ret .ok)
  if (c.sys.proc m).pc = .flushSignal then
    { next with sent := Function.update c.sent m.peer (max (c.sent m.peer) (c.called m)) }
  else next

/-- An `ioctl` returns, with its result in the process. -/
def afterRet (m : Mod) (r : Kernel.Result) (sys : System) : Connection :=
  let next := { c with sys := sys }.setTask m .idle
  if (c.sys.proc m).pc = .flushSignal ∧ r = .ok then
    { next with flushed := Function.update c.flushed m.peer (c.called m) }
  else next

/-- A call of AWAIT has made its step on what it shares. -/
def afterAwait (m : Mod) (sh : Kernel.Shared) (call : Kernel.Call) : Connection :=
  { c with header := sh.header }.setKernel m { c.kernel m with
    signals := sh.signals
    task := .ofCall call }

/-- The kernel of one end goes on with its task. -/
def stepTask (m : Mod) (choice : Kernel.Choice) : Option Connection :=
  match (c.kernel m).task with
  | .idle => none
  | .initReceiver => some ((c.setHeaderState conv m .opened).setTask m .initNotify)
  | .initNotify => some ((c.notify m.peer).setTask m .idle)
  | .await call =>
    (call.step (c.seenBy conv m) choice).map fun next => c.afterAwait m next.1 next.2
  | .ssig =>
    some (if c.header.isBrokenPipe then c.setTask m (.ret (.error .epipe))
      else c.setTask m .ssigNotify)
  | .ssigNotify => some (c.afterSsig m)
  | .ret r =>
    if (c.sys.proc m).pc = .idle then some (c.setTask m .idle)
    else (c.sys.step g (m, .ioctl (.ofKernel r))).map fun sys => c.afterRet m r sys
  | .closeNotify => some ((c.notify m.peer).setTask m .idle)

/-- The event handler of one end goes on. -/
def stepHandler (m : Mod) (pc : Kernel.HandlerPc) : Connection :=
  let (sh, next) := pc.step (c.seenBy conv m)
  let k := { c.kernel m with signals := sh.signals, handler := next }
  match pc with
  | .answer => (c.setKernel m k).notify m.peer
  | .wakeUp => c.setKernel m k.wake
  | _ => c.setKernel m k

/-- One step of the connection, `none` where the input does not apply. -/
def step : Connection.Input → Option Connection
  | .user m i =>
    match i with
    | .ioctl _ => none
    | i =>
      if (c.kernel m).task = .idle then
        (c.sys.step g (m, i)).map fun sys => c.afterUser g conv m i sys
      else none
  | .enter m =>
    if (c.kernel m).task = .idle then (c.sys.proc m).syscall.map fun t => c.setTask m t else none
  | .wait m timeoutMs =>
    if (c.kernel m).task = .idle ∧ (c.sys.proc m).pc = .idle ∧ isOfferer m conv then
      some (c.setTask m (.await (.enter { probeRequest with timeoutMs := timeoutMs })))
    else none
  | .kernel m choice => c.stepTask g conv m choice
  | .deliver m =>
    if (c.kernel m).pending ∧ (c.kernel m).handler = none then
      some (c.setKernel m { c.kernel m with pending := false, handler := some .start })
    else none
  | .handler m => (c.kernel m).handler.map fun pc => c.stepHandler conv m pc

/-- The pipe when `xen_shm_pipe_offers` has returned. The other end is inside the `ioctl` of
`xen_shm_pipe_connect`. -/
def offered (buffer memReader memWriter : Nat → UInt8) : Connection where
  sys := .offered conv buffer memReader memWriter
  header := { Kernel.Header.zero with offererState := .opened, ecMutexCount := 1 }
  kernel := fun m =>
    ⟨⟨false, false, false⟩, false, none, if isOfferer m conv then .idle else .initReceiver⟩
  called := fun _ => 0
  sent := fun _ => 0
  flushed := fun _ => 0

variable {g : Geometry} {conv : Conv} {c : Connection}

/-- What one step does, one constructor for each kind of step. -/
inductive Steps (g : Geometry) (conv : Conv) (c : Connection) :
    Connection.Input → Connection → Prop where
  /-- The user makes a call, or the library goes on. -/
  | user (m : Mod) (i : Pipe.Input) (sys : System) (hidle : (c.kernel m).task = .idle)
      (hsys : c.sys.step g (m, i) = some sys) :
      Steps g conv c (.user m i) (c.afterUser g conv m i sys)
  /-- The library enters an `ioctl`, with the task that belongs to it. -/
  | enter (m : Mod) (t : Task) (hidle : (c.kernel m).task = .idle)
      (hcall : (c.sys.proc m).syscall = some t) : Steps g conv c (.enter m) (c.setTask m t)
  /-- The user calls `xen_shm_pipe_wait` between two calls of the library. -/
  | wait (m : Mod) (timeoutMs : Nat) (hidle : (c.kernel m).task = .idle)
      (hpc : (c.sys.proc m).pc = .idle) : Steps g conv c (.wait m timeoutMs)
        (c.setTask m (.await (.enter { probeRequest with timeoutMs := timeoutMs })))
  /-- The kernel goes on with its task. -/
  | kernel (m : Mod) (choice : Kernel.Choice) (d : Connection)
      (htask : c.stepTask g conv m choice = some d) : Steps g conv c (.kernel m choice) d
  /-- An event that waits is delivered, and a run of the handler begins. -/
  | deliver (m : Mod) (hpending : (c.kernel m).pending = true) : Steps g conv c (.deliver m)
      (c.setKernel m { c.kernel m with pending := false, handler := some .start })
  /-- The event handler makes its next access. -/
  | handler (m : Mod) (pc : Kernel.HandlerPc) (hpc : (c.kernel m).handler = some pc) :
      Steps g conv c (.handler m) (c.stepHandler conv m pc)

/-- Every step of the connection is of one of these kinds. -/
theorem steps {i : Connection.Input} {d : Connection} (h : c.step g conv i = some d) :
    Steps g conv c i d := by
  cases i with
  | user m i =>
    have hcases : (c.kernel m).task = .idle ∧
        ∃ sys, c.sys.step g (m, i) = some sys ∧ c.afterUser g conv m i sys = d := by
      cases i <;> simp only [step, reduceCtorEq, Option.ite_none_right_eq_some,
        Option.map_eq_some_iff] at h <;> exact h
    obtain ⟨hidle, sys, hsys, rfl⟩ := hcases
    exact .user m i sys hidle hsys
  | enter m =>
    simp only [step, Option.ite_none_right_eq_some, Option.map_eq_some_iff] at h
    obtain ⟨hidle, t, hcall, rfl⟩ := h
    exact .enter m t hidle hcall
  | wait m timeoutMs =>
    simp only [step, Option.ite_none_right_eq_some, Option.some.injEq] at h
    obtain ⟨⟨hidle, hpc, -⟩, rfl⟩ := h
    exact .wait m timeoutMs hidle hpc
  | kernel m choice => exact .kernel m choice d h
  | deliver m =>
    simp only [step, Option.ite_none_right_eq_some, Option.some.injEq] at h
    obtain ⟨⟨hpending, -⟩, rfl⟩ := h
    exact .deliver m hpending
  | handler m =>
    obtain ⟨pc, hpc, rfl⟩ := Option.map_eq_some_iff.mp h
    exact .handler m pc hpc

end Connection

end XenShm.Pipe
