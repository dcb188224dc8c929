import XenShm.Pipe.Flush

/-!
# The ping handlers

`xen_shm_handler_ping_client` and `xen_shm_handler_ping_server`, each over the two pipes of its
`struct xen_shm_handler_data`. A thread makes one library call after the other; the calls run
on the pipes and in their kernels, where everything else runs in between.
-/

namespace XenShm.Ping

open XenShm.Library XenShm.Pipe

/-- `PING_PACKET_SIZE`, the number of bytes that a ping moves. -/
def pingPacketSize : Nat := 10

/-- `PING_SERIES_LENGTH`, the number of pings between two prints of the client. -/
def pingSeriesLength : Nat := 500

/-- The two programs that exchange packets. -/
inductive Side where
  /-- The program `xen_shm_handler_ping_client`, which sends first. -/
  | client
  /-- The program `xen_shm_handler_ping_server`, which answers. -/
  | server
  deriving DecidableEq, Repr

/-- The program at the other end of both pipes. -/
def Side.peer : Side → Side
  | .client => .server
  | .server => .client

@[simp] theorem Side.peer_peer (s : Side) : s.peer.peer = s := by cases s <;> rfl

@[simp] theorem Side.peer_ne (s : Side) : s.peer ≠ s := by cases s <;> decide

/-- What holds of one side and of its peer holds of both sides. -/
theorem Side.forall_of {P : Side → Prop} (s : Side) (h : P s) (hpeer : P s.peer) (s' : Side) :
    P s' := by
  cases s <;> cases s' <;> assumption

/-- The pipes of `struct xen_shm_handler_data`, as a thread names them. -/
inductive Fd where
  | receive
  | send
  deriving DecidableEq, Repr

/-- The end of its pipe a handle drives. -/
def Fd.mod : Fd → Mod
  | .receive => .read
  | .send => .write

/-- The pipe behind a handle, named after the side that sends through it. -/
def Fd.sender (side : Side) : Fd → Side
  | .receive => side.peer
  | .send => side

/-- The calls of the library in the two loops. -/
inductive LibCall where
  /-- A call of `xen_shm_pipe_write_all` for one packet. -/
  | writeAll (fd : Fd)
  /-- A call of `xen_shm_pipe_flush` behind a transfer. -/
  | readAll (fd : Fd)
  /-- A call of `xen_shm_pipe_flush`. -/
  | flush (fd : Fd)
  deriving DecidableEq, Repr

/-- The handle that the call is made on. -/
def LibCall.fd : LibCall → Fd
  | .writeAll fd | .readAll fd | .flush fd => fd

/-- The four calls of a loop in their order. -/
inductive Stage where
  | first
  | firstFlush
  | second
  | secondFlush
  deriving DecidableEq, Repr

/-- The calls in the loop of `xen_shm_handler_ping_client`. -/
def pingClient : Stage → LibCall
  | .first => .writeAll .send
  | .firstFlush => .flush .receive
  | .second => .readAll .receive
  | .secondFlush => .flush .receive

/-- The calls in the loop of `xen_shm_handler_ping_server`. -/
def pingServer : Stage → LibCall
  | .first => .readAll .receive
  | .firstFlush => .flush .receive
  | .second => .writeAll .send
  | .secondFlush => .flush .send

/-- The calls in the loop of the program of this side. -/
def loop : Side → Stage → LibCall
  | .client => pingClient
  | .server => pingServer

/-- A thread that executes one of the loops, with its memory. -/
structure Thread where
  /-- The call that is next or in progress. -/
  stage : Stage
  /-- Whether that call is in progress. -/
  inCall : Bool
  /-- How often the loop was completed. The counter `i` of the client is the remainder modulo
  the length of a series. -/
  rounds : Nat
  /-- The address of the buffer `noise`. -/
  noise : Nat
  /-- The memory that belongs to the thread. -/
  mem : Nat → UInt8
  /-- The flag `data->stop`, which another thread sets. -/
  stop : Bool
  /-- Whether the thread has returned. -/
  ended : Bool

namespace Thread

variable (t : Thread)

/-- Whether `data->stop` is tested before the next call: by the client between two series, by
the server before each read. -/
def testsStop (side : Side) : Bool :=
  match side with
  | .client => t.stage = .first ∧ t.rounds % pingSeriesLength = 0
  | .server => t.stage = .first

/-- What the library is asked for by the call. -/
def request : LibCall → Pipe.Input
  | .writeAll _ => .transfer .write true t.noise pingPacketSize t.mem
  | .readAll _ => .transfer .read true t.noise pingPacketSize t.mem
  | .flush _ => .flush

/-- Go on with the next call of the loop. -/
def next : Thread :=
  match t.stage with
  | .first => { t with stage := .firstFlush, inCall := false }
  | .firstFlush => { t with stage := .second, inCall := false }
  | .second => { t with stage := .secondFlush, inCall := false }
  | .secondFlush => { t with stage := .first, inCall := false, rounds := t.rounds + 1 }

/-- What a thread does with the value of its call on the handle `p`. -/
def conclude (call : LibCall) (p : Proc) : Thread :=
  match call with
  | .flush _ => t.next
  | _ =>
    if p.result < 0 then { t with inCall := false, mem := p.mem, ended := true }
    else { t with mem := p.mem }.next

end Thread

/-- Both threads with both pipes, the whole of what the ping programs run on. -/
structure Exchange where
  /-- The pipes, each named by the side that sends through it. -/
  pipe : Side → Connection
  thread : Side → Thread

/-- What happens next in the exchange, in any order. -/
inductive Input where
  /-- A thread makes its next call, or takes its value. -/
  | thread (side : Side)
  /-- Something goes on at a pipe: in a process, in a kernel or in the channel. -/
  | pipe (sender : Side) (i : Connection.Input)
  /-- The stop flag of a thread is set. -/
  | stop (side : Side)

/-- An `ioctl` is about to return an error. -/
def failing : Task → Bool
  | .ret r => r ≠ .ok
  | _ => false

/-- What goes on at a pipe without a new call of the user. -/
def internal : Connection.Input → Bool
  | .user _ .tick | .enter _ | .kernel _ _ | .deliver _ | .handler _ => true
  | _ => false

namespace Exchange

variable (g : Side → Geometry) (e : Exchange)

/-- The call a thread makes next or is in. -/
def call (side : Side) : LibCall := loop side (e.thread side).stage

/-- The pipe behind a handle of one side. -/
def connection (side : Side) (fd : Fd) : Connection := e.pipe (fd.sender side)

/-- Replace one pipe by what a step has made of it. -/
def setPipe (sender : Side) (c : Connection) : Exchange :=
  { e with pipe := Function.update e.pipe sender c }

/-- Replace one thread by what a step has made of it. -/
def setThread (side : Side) (t : Thread) : Exchange :=
  { e with thread := Function.update e.thread side t }

/-- A thread makes its next call. The conventions of both pipes are those of `init_pipe`. -/
def begin (side : Side) : Option Exchange :=
  let t := e.thread side
  let fd := (e.call side).fd
  if t.stop ∧ t.testsStop side then some (e.setThread side { t with ended := true })
  else
    ((e.connection side fd).step (g (fd.sender side)) .readerOffers
      (.user fd.mod (t.request (e.call side)))).map fun c =>
        (e.setPipe (fd.sender side) c).setThread side { t with inCall := true }

/-- A thread takes the value of a call that has returned. -/
def conclude (side : Side) : Option Exchange :=
  let fd := (e.call side).fd
  let p := (e.connection side fd).sys.proc fd.mod
  if p.pc = .idle ∧ ((e.connection side fd).kernel fd.mod).task = .idle then
    some (e.setThread side ((e.thread side).conclude (e.call side) p))
  else none

/-- One step of the exchange, `none` where the input does not apply. -/
def step : Input → Option Exchange
  | .thread side =>
    if (e.thread side).ended then none
    else if (e.thread side).inCall then e.conclude side
    else e.begin g side
  | .pipe sender i =>
    if internal i then
      ((e.pipe sender).step (g sender) .readerOffers i).map fun c => e.setPipe sender c
    else none
  | .stop side => some (e.setThread side { e.thread side with stop := true })

/-- Both pipes when `xen_shm_pipe_offers` has returned, and both threads before their loops. -/
def offered (buffer memReader memWriter : Side → Nat → UInt8) (noise : Side → Nat)
    (mem : Side → Nat → UInt8) : Exchange where
  pipe s := .offered .readerOffers (buffer s) (memReader s) (memWriter s)
  thread s := ⟨.first, false, 0, noise s, mem s, false, false⟩

/-- Every end of both pipes was greeted, so the handshakes are over. -/
def Greeted : Prop := ∀ s m, ((e.pipe s).kernel m).signals.initialSignal = true

/-- The handshakes are completed before the threads begin, no call fails and nobody sets a stop
flag. -/
def Smooth : Input → Prop
  | .thread _ => e.Greeted
  | .pipe sender (.kernel m _) => failing ((e.pipe sender).kernel m).task = false
  | .pipe _ _ => True
  | .stop _ => False

/-- A thread is blocked in AWAIT, with no event pending and `latent_user_signal` 0. An event that
the handler has begun to take is still pending. -/
def Blocked (side : Side) : Prop := ∃ fd : Fd,
  let k := (e.connection side fd).kernel fd.mod
  k.task.sleeps = true ∧ k.pending = false ∧ k.handler = none ∧
    k.signals.latentUserSignal = false

/-- A deadlock: both threads are blocked at the same time. -/
def Deadlock : Prop := e.Blocked .client ∧ e.Blocked .server

/-- When the client calls flush behind its write, the server is not about to fall asleep over
what was written: it has not decided to sleep, or an event is on its way to it. -/
def Noticed : Input → Prop
  | .thread .client =>
    (e.thread .client).stage = .firstFlush → (e.thread .client).inCall = false →
      (e.pipe .client).Committed .read → ((e.pipe .client).kernel .read).Token
  | _ => True

instance : Decidable e.Greeted :=
  decidable_of_iff (∀ s ∈ [Side.client, .server], ∀ m ∈ [Mod.write, .read],
    ((e.pipe s).kernel m).signals.initialSignal = true)
    ⟨fun h s m => h s (by cases s <;> simp) m (by cases m <;> simp), fun h s _ m _ => h s m⟩

instance : (i : Input) → Decidable (e.Smooth i)
  | .thread _ => inferInstanceAs (Decidable e.Greeted)
  | .pipe _ (.kernel _ _) => inferInstanceAs (Decidable (_ = _))
  | .pipe _ (.user _ _) | .pipe _ (.enter _) | .pipe _ (.wait _ _) | .pipe _ (.deliver _)
  | .pipe _ (.handler _) => isTrue trivial
  | .stop _ => isFalse not_false

instance : (i : Input) → Decidable (e.Noticed i)
  | .thread .client =>
    have : Decidable ((e.pipe .client).Committed .read) := inferInstanceAs (Decidable (_ ∧ _))
    have : Decidable ((e.pipe .client).kernel .read).Token :=
      inferInstanceAs (Decidable (_ ∨ (_ ∨ _ ∨ _) ∨ _))
    inferInstanceAs (Decidable (_ → _ → _ → _))
  | .thread .server | .pipe _ _ | .stop _ => isTrue trivial

end Exchange

end XenShm.Ping
