import XenShm.Kernel.Await
import XenShm.Library.Run

/-!
# The header page and its two ends

One page of an offerer, and any number of receivers that are given its grant one after
the other. The ioctls, the release of a descriptor and the event handlers of all these
instances are cut into their accesses to the header page, to the signals of an instance
and to its event channel. An event channel has one pending bit in each direction.

A receiver is in the same state here before and after its `mmap`. An instance is
initialised by one call at a time. If INIT_OFFERER fails, the page is lost.
-/

namespace XenShm.Kernel

/-- The instances that use the page: one offerer and any number of receivers. -/
inductive Side where
  | offerer
  | receiver (n : Nat)
  deriving DecidableEq, Repr

/-- Where an INIT ioctl is, named by what it does next. -/
inductive InitPc where
  /-- The offerer fills the header page and grants it, a receiver maps it. -/
  | prepare
  /-- Allocate or bind a port and bind the handler. -/
  | bind
  /-- The offerer writes its port to the header page. -/
  | port
  /-- Set the state of the instance to initialised. -/
  | commit
  /-- Set the own state in the header page. -/
  | announce
  /-- Send the initial signal of a receiver. -/
  | greet
  deriving DecidableEq, Repr

/-- Where `xen_shm_release` is, named by what it does next. -/
inductive ReleasePc where
  /-- Set the own state in the header page. -/
  | close
  /-- Send an event to the peer, which may sleep. -/
  | notify
  /-- Wake the calls on the instance itself. -/
  | wakeUp
  /-- Close the event channel, perhaps much later. -/
  | free
  /-- The release is over and nothing is left. -/
  | gone
  deriving DecidableEq, Repr

/-- How far the event that tells of the end of the peer has come. -/
inductive News where
  | none
  /-- The event was sent and waits in the channel. -/
  | sent
  /-- A run of the handler began for it. -/
  | taken
  /-- The run of the handler that took the event has ended. -/
  | handled
  deriving DecidableEq, Repr

/-- One instance, with the operations on it that are in progress. -/
structure End where
  state : State
  /-- The signals that its handler writes. -/
  signals : Signals
  /-- The INIT ioctl, when there is one. -/
  init : Option InitPc
  /-- The run of its handler, when there is one. -/
  handler : Option HandlerPc
  /-- Whether its handler is bound to an event channel. -/
  bound : Bool
  /-- Whether an event waits for the handler. -/
  pending : Bool
  /-- Where its `xen_shm_release` is, once it was called. -/
  release : Option ReleasePc
  /-- The news of the end of the peer. -/
  news : News
  deriving DecidableEq, Repr

/-- An instance that was opened and on which nothing was done yet. -/
def End.fresh : End := ⟨.opened, ⟨false, false, false⟩, none, none, false, false, none, .none⟩

/-- Where `__xen_shm_ioctl_ssig` is, named by what it does next. -/
inductive SsigPc where
  /-- Check the state of the instance and whether the pipe is broken. -/
  | start
  /-- Send an event to the peer. -/
  | notify
  /-- The call has returned the result to the process. -/
  | done (r : Result)
  deriving DecidableEq, Repr

/-- An ioctl other than INIT that is in progress. -/
inductive Ioctl where
  | await (c : Call)
  | ssig (pc : SsigPc)
  deriving DecidableEq, Repr

/-- What the ioctl has returned, if it has returned. -/
def Ioctl.result : Ioctl → Option Result
  | .await c => match c.pc with
    | .done r => some r
    | _ => none
  | .ssig pc => match pc with
    | .done r => some r
    | _ => none

/-- An ioctl of a process on one of the instances. -/
structure Syscall where
  side : Side
  ioctl : Ioctl
  /-- Whether the ioctl was made on an initialised instance after one end of the page was closed. -/
  late : Bool
  deriving DecidableEq, Repr

/-- The page and everything that goes on around it. -/
structure Page where
  /-- The header, which both ends read and write. -/
  header : Header
  /-- Whether the page is allocated and granted. -/
  granted : Bool
  /-- Whether INIT_OFFERER has failed and given the page back. -/
  lost : Bool
  /-- The port of the offerer can be read in the header and can be bound. -/
  portOpen : Bool
  ends : Side → End
  /-- The receiver whose port is bound to that of the offerer. -/
  peer : Option Nat
  /-- The ioctls in the order in which they were made. -/
  calls : List Syscall
  /-- The offerer has set its state to CLOSED. -/
  offererClosed : Bool
  /-- Some receiver has set its state to CLOSED. -/
  receiverClosed : Bool
  /-- How often the handler of the offerer has answered. -/
  acks : Nat

/-- The page before anything was done on the instances. -/
def Page.initial (header : Header) : Page :=
  ⟨header, false, false, false, fun _ => .fresh, none, [], false, false, 0⟩

/-- Replace an instance by what a step has made of it. -/
def Page.put (p : Page) (side : Side) (e : End) : Page :=
  { p with ends := Function.update p.ends side e }

/-- Set the own state in the header page. -/
def Header.setState (h : Header) (side : Side) (s : MetaState) : Header :=
  match side with
  | .offerer => { h with offererState := s }
  | .receiver _ => { h with receiverState := s }

/-- The port that an event sent from this side goes to. -/
def Page.target (p : Page) : Side → Option Side
  | .offerer => p.peer.map .receiver
  | .receiver n => if p.peer = some n then some .offerer else none

/-- `notify_remote_via_evtchn`: the event waits at the instance the port is bound to, if any. -/
def Page.notify (p : Page) (side : Side) : Page :=
  match p.target side with
  | some other => p.put other { p.ends other with pending := true }
  | none => p

/-- `wake_up_interruptible` on the wait queue of an instance, as an ioctl notices it. -/
def Syscall.wake (side : Side) (c : Syscall) : Syscall :=
  if c.side = side then
    match c.ioctl with
    | .await call => { c with ioctl := .await call.wake }
    | .ssig _ => c
  else c

/-- Wake the calls that wait on an instance. -/
def Page.wake (p : Page) (side : Side) : Page := { p with calls := p.calls.map (Syscall.wake side) }

/-- What the calls on an instance share, its own fields and the header page. -/
def Page.shared (p : Page) (side : Side) : Shared :=
  ⟨(p.ends side).state, (p.ends side).signals, p.header⟩

/-- The header page after the offerer has filled it. -/
def Header.prepared (h : Header) : Header :=
  { h with offererState := .none, receiverState := .none, ecMutexCount := 1 }

/-- INIT_OFFERER fails, and the page is given back. -/
def Page.lose (p : Page) (e : End) : Page :=
  { p.put .offerer { e with init := none } with granted := false, lost := true }

/-- One step of INIT_OFFERER, whose call succeeds or fails at the places where it makes one. -/
def Page.initOfferer (p : Page) (ok : Bool) : Option Page :=
  let e := p.ends .offerer
  let goto (p : Page) (e : End) (pc : InitPc) : Page := p.put .offerer { e with init := some pc }
  match e.init with
  | none =>
    if e.release.isSome ∨ p.lost then none
    else if e.state ≠ .opened then some p
    else some (goto p e .prepare)
  | some .prepare =>
    if ok then some (goto { p with header := p.header.prepared, granted := true } e .bind)
    else some (p.lose e)
  | some .bind =>
    if ok then some (goto p { e with bound := true } .port) else some (p.lose e)
  | some .port => some (goto { p with portOpen := true } e .commit)
  | some .commit => some (goto p { e with state := .offerer } .announce)
  | some .announce =>
    some ({ p with header := p.header.setState .offerer .opened }.put .offerer
      { e with init := none })
  | some .greet => none

/-- One step of INIT_RECEIVER, whose call succeeds or fails at the places where it makes one. -/
def Page.initReceiver (p : Page) (n : Nat) (ok : Bool) : Option Page :=
  let e := p.ends (.receiver n)
  let goto (p : Page) (e : End) (pc : Option InitPc) : Page :=
    p.put (.receiver n) { e with init := pc }
  match e.init with
  | none =>
    if e.release.isSome then none
    else if e.state ≠ .opened then some p
    else some (goto p e (some .prepare))
  | some .prepare => some (goto p e (if ok ∧ p.granted then some .bind else none))
  | some .bind =>
    if ok ∧ p.portOpen ∧ p.peer = none then
      some (goto { p with peer := some n } { e with bound := true } (some .commit))
    else some (goto p e none)
  | some .port => none
  | some .commit => some (goto p { e with state := .receiver } (some .announce))
  | some .announce =>
    some (goto { p with header := p.header.setState (.receiver n) .opened } e (some .greet))
  | some .greet => some ((goto p e none).notify (.receiver n))

/-- One step of the INIT ioctl of an instance. -/
def Page.init (p : Page) (side : Side) (ok : Bool) : Option Page :=
  match side with
  | .offerer => p.initOfferer ok
  | .receiver n => p.initReceiver n ok

/-- The news that the peer has ended goes with the event of its release. -/
def Page.tell (p : Page) (side : Side) : Page :=
  match p.target side with
  | some other => p.put other { p.ends other with news := .sent }
  | none => p

/-- The event channel of a released instance is closed. -/
def Page.closeChannel (p : Page) (side : Side) : Page :=
  let e := p.ends side
  let p := p.put side { e with bound := false, release := some .gone }
  match side with
  | .offerer => { p with portOpen := false, peer := none }
  | .receiver n => if p.peer = some n then { p with peer := none } else p

/-- One step of `xen_shm_release`, which is called when no other call is made on the instance. -/
def Page.release (p : Page) (side : Side) : Option Page :=
  let e := p.ends side
  let goto (p : Page) (pc : ReleasePc) : Page := p.put side { p.ends side with release := some pc }
  match e.release with
  | none =>
    if e.init = none ∧ p.calls.all fun c => c.side ≠ side ∨ c.ioctl.result.isSome then
      some (goto p .close)
    else none
  | some .close =>
    if e.state = .opened then some (goto p .free)
    else some (goto { p with
      header := p.header.setState side .closed
      offererClosed := p.offererClosed || side = .offerer
      receiverClosed := p.receiverClosed || side ≠ .offerer } .notify)
  | some .notify => some (goto ((p.notify side).tell side) .wakeUp)
  | some .wakeUp => some (goto (p.wake side) .free)
  | some .free => if e.handler = none then some (p.closeChannel side) else none
  | some .gone => none

/-- A process makes an ioctl on an instance whose descriptor is open. -/
def Page.enter (p : Page) (side : Side) (ioctl : Ioctl) : Option Page :=
  if (p.ends side).release.isSome then none
  else some { p with calls := p.calls ++ [⟨side, ioctl,
    (p.offererClosed || p.receiverClosed) && (p.ends side).state ≠ .opened⟩] }

/-- An ioctl goes on with its next access. -/
def Page.callStep (p : Page) (i : Nat) (choice : Choice) : Option Page := do
  let c ← p.calls[i]?
  let e := p.ends c.side
  match c.ioctl with
  | .await call =>
    let (shared, call) ← call.step (p.shared c.side) choice
    some { p.put c.side { e with signals := shared.signals } with
      header := shared.header
      calls := p.calls.set i { c with ioctl := .await call } }
  | .ssig .start =>
    let pc := if e.state = .opened then .done (.error .enotty)
      else if p.header.isBrokenPipe then .done (.error .epipe) else .notify
    some { p with calls := p.calls.set i { c with ioctl := .ssig pc } }
  | .ssig .notify =>
    some ({ p with calls := p.calls.set i { c with ioctl := .ssig (.done .ok) } }.notify c.side)
  | .ssig (.done _) => none

/-- An event is taken from the channel, and a run of the handler begins. -/
def Page.deliver (p : Page) (side : Side) : Option Page :=
  let e := p.ends side
  if e.pending ∧ e.bound ∧ e.handler = none then
    some (p.put side { e with
      pending := false
      handler := some .start
      news := if e.news = .sent then .taken else e.news })
  else none

/-- The handler goes on with its next access. -/
def Page.handlerStep (p : Page) (side : Side) : Option Page := do
  let e := p.ends side
  let pc ← e.handler
  let (shared, next) := pc.step (p.shared side)
  let e := { e with signals := shared.signals, handler := next }
  match pc with
  | .answer => some { (p.put side e).notify side with
      acks := if side = .offerer then p.acks + 1 else p.acks }
  | .wakeUp => some ((p.put side { e with
      news := if e.news = .taken then .handled else e.news }).wake side)
  | _ => some (p.put side e)

/-- What happens next at the page, in any order. -/
inductive Page.Input where
  /-- INIT begins or goes on, and what it calls succeeds or fails. -/
  | init (side : Side) (ok : Bool)
  /-- A process calls AWAIT on this instance. -/
  | await (side : Side) (req : Request)
  /-- A process calls SSIG on this instance. -/
  | ssig (side : Side)
  /-- The ioctl with this number goes on. -/
  | call (i : Nat) (choice : Choice)
  /-- An event that waits is delivered to the handler. -/
  | deliver (side : Side)
  /-- The handler of this instance goes on. -/
  | handler (side : Side)
  /-- The release of this instance begins or goes on. -/
  | release (side : Side)
  /-- A receiver gets an event that nobody sent. -/
  | stray (n : Nat)
  deriving DecidableEq, Repr

/-- One step of the page, `none` where the input does not apply. -/
def Page.step (p : Page) : Page.Input → Option Page
  | .init side ok => p.init side ok
  | .await side req => p.enter side (.await (.enter req))
  | .ssig side => p.enter side (.ssig .start)
  | .call i choice => p.callStep i choice
  | .deliver side => p.deliver side
  | .handler side => p.handlerStep side
  | .release side => p.release side
  | .stray n => some (p.put (.receiver n) { p.ends (.receiver n) with pending := true })

end XenShm.Kernel
