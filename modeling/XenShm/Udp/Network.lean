import XenShm.Library.Run
import XenShm.Udp.Client
import XenShm.Udp.Server

/-!
# One server and its clients

Every client has an address of its own and makes one call of `init_pipe`. A datagram that
was sent once can be received any number of times, at any time later and in any order, or
never. Which pipe is behind a grant, and which grant a pipe is connected to, is kept for
the whole system, and for every child the sender of the packet that started it.
-/

namespace XenShm.Udp

open Library

/-- A program that takes part in the handshakes. -/
inductive Party where
  /-- The program that runs the server. -/
  | server
  /-- The client with this address. -/
  | client (a : SockAddr)
  deriving DecidableEq, Repr

/-- A pipe, named by the program that has opened it and by its handle there. -/
abbrev PipeId := Party × Handle

/-- What the system is set up with, and what no step changes. -/
structure Setup where
  /-- The address of the server, which all clients know. -/
  server : SockAddr
  /-- The page count that the server proposes. -/
  serverPages : UInt8
  /-- The page counts that the clients propose. -/
  clientPages : SockAddr → UInt8

/-- State of all programs, of the network and of the pipes. -/
structure Network where
  /-- The state of the server. -/
  server : Server
  /-- The state of each client, by its address. -/
  clients : SockAddr → Client
  /-- The datagrams sent to the server, with their sources. -/
  toServer : List (SockAddr × List UInt8)
  /-- The datagrams sent by the server, with their destinations. -/
  toClient : List (SockAddr × List UInt8)
  /-- The pipe that is behind a grant. -/
  offered : Grant → Option PipeId
  /-- The grant that a pipe is connected to. -/
  attached : PipeId → Option Grant
  /-- The clients to which the server offered its pipes. -/
  answered : List (SockAddr × Handle)
  /-- The pipes of the children, with the sender of the packet that started each of them. -/
  started : List (SockAddr × Option Handle × Handle)

/-- The system before the first packet, with no pipe offered or connected. -/
def Network.initial (setup : Setup) : Network :=
  ⟨.initial setup.serverPages, fun _ => .idle, [], [], fun _ => none, fun _ => none, [], []⟩

/-- The datagram that was sent, with its destination. -/
def Effect.sent : Effect → Option (SockAddr × List UInt8)
  | .sendto dest datagram => some (dest, datagram)
  | _ => none

/-- The pipe that was offered, with its grant. -/
def Effect.offer : Effect → Option (Handle × Grant)
  | .pipeOffers pipe _ _ (some grant) => some (pipe, grant)
  | _ => none

/-- The pipe that was connected, with the grant. -/
def Effect.connection : Effect → Option (Handle × Grant)
  | .pipeConnect pipe _ grant true => some (pipe, grant)
  | _ => none

/-- The pipes of the child that was started. -/
def Effect.child : Effect → Option (Option Handle × Handle)
  | .threadCreate receiveFd sendFd true => some (receiveFd, sendFd)
  | _ => none

/-- The pipes behind the grants after a program offered some more. -/
def Network.offer (party : Party) (offered : Grant → Option PipeId) :
    List (Handle × Grant) → Grant → Option PipeId :=
  List.foldl (fun offered o => Function.update offered o.2 (some (party, o.1))) offered

/-- The grants behind the pipes after a program connected some more. -/
def Network.connect (party : Party) (attached : PipeId → Option Grant) :
    List (Handle × Grant) → PipeId → Option Grant :=
  List.foldl (fun attached c => Function.update attached (party, c.1) (some c.2)) attached

/-- The network when a client has made these calls. -/
def Network.clientCalls (net : Network) (a : SockAddr) (effects : List Effect) : Network :=
  { net with
    toServer := net.toServer ++ (effects.filterMap Effect.sent).map fun m => (a, m.2)
    offered := Network.offer (.client a) net.offered (effects.filterMap Effect.offer)
    attached := Network.connect (.client a) net.attached (effects.filterMap Effect.connection) }

/-- The calls that the server made for a packet from `a`. -/
def Network.serverCalls (net : Network) (a : SockAddr) (effects : List Effect) : Network :=
  { net with
    toClient := net.toClient ++ effects.filterMap Effect.sent
    offered := Network.offer .server net.offered (effects.filterMap Effect.offer)
    attached := Network.connect .server net.attached (effects.filterMap Effect.connection)
    answered := net.answered ++ (effects.filterMap Effect.offer).map fun o => (a, o.1)
    started := net.started ++ (effects.filterMap Effect.child).map fun c => (a, c.1, c.2) }

/-- What happens next in the network, in any order. -/
inductive Input where
  /-- The client with this address calls `init_pipe`. -/
  | greet (a : SockAddr) (env : GreetOutcomes)
  /-- `recv` of a client returns, with an error or with a datagram. -/
  | answer (a : SockAddr) (received : Option (List UInt8)) (env : AnswerOutcomes)
  /-- The function `udp_readable_cb` is called for a datagram of this client. -/
  | deliver (a : SockAddr) (bytes : List UInt8) (stack : Buffer) (env : Outcomes)

/-- The system takes a step. Only what was sent is received. -/
def Network.step (setup : Setup) (net : Network) : Input → Option Network
  | .greet a env =>
    match net.clients a with
    | .idle =>
      let (client, effects) := greet setup.server env
      some ({ net with clients := Function.update net.clients a client }.clientCalls a effects)
    | _ => none
  | .answer a received env =>
    match net.clients a with
    | .waiting buffer =>
      if received.all fun bytes => (a, bytes) ∈ net.toClient then
        let (ok, effects) := answer setup.server (setup.clientPages a) buffer received env
        some ({ net with clients := Function.update net.clients a (.returned ok) }.clientCalls a
          effects)
      else none
    | _ => none
  | .deliver a bytes stack env =>
    if (a, bytes) ∈ net.toServer then do
      let (server, effects) ← udpReadable net.server (.datagram a bytes stack env)
      some ({ net with server := server }.serverCalls a effects)
    else none

/-- The grant that is made when a pipe is offered in this step. -/
def Input.grant : Input → Option Grant
  | .greet _ _ => none
  | .answer _ _ env => env.offers
  | .deliver _ _ _ env => env.offers

/-- The guard under which every offered pipe gets a new grant. -/
def freshGrants (net : Network) (i : Input) : Bool := i.grant.all fun g => (net.offered g).isNone

/-- The pipe is connected to the receive pipe of the client. -/
def Network.SendAgrees (net : Network) (a : SockAddr) (sendFd : Handle) : Prop :=
  ∃ g, net.attached (.server, sendFd) = some g ∧ net.offered g = some (.client a, Client.receiveFd)

/-- The send pipe of the client is connected to the pipe. -/
def Network.ReceiveAgrees (net : Network) (a : SockAddr) (receiveFd : Handle) : Prop :=
  ∃ g, net.attached (.client a, Client.sendFd) = some g ∧ net.offered g = some (.server, receiveFd)

/-- The node is an opening that the server still has for this client, to which it has offered the
pipe. -/
def Network.Opens (net : Network) (a : SockAddr) (i : Id) (pipe : Handle) : Prop :=
  (a, pipe) ∈ net.answered ∧
    ∃ node, net.server.openings i = some node ∧ node.source = a ∧ node.receiveFd = some pipe

/-- The client writes to the pipe of an opening that the server still has for it, and the server has
made no newer opening for this client that is still there. Nodes are numbered in the order of their
allocation. -/
def Network.TakesNewest (net : Network) (a : SockAddr) : Prop :=
  ∃ i pipe, net.Opens a i pipe ∧ net.ReceiveAgrees a pipe ∧ ∀ j q, net.Opens a j q → j ≤ i

end XenShm.Udp
