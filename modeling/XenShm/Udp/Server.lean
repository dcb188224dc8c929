import XenShm.Library.Chain
import XenShm.Udp.Proto

/-!
# The server

`udp_readable_cb` keeps two linked lists: the openings, whose client was sent a grant
and has not answered yet, and the children, whose two pipes are set up. A node or a pipe
is named by the order in which it was obtained, so memory that is used again has a new
name. There is no step that follows a pointer to a node that was freed.
-/

namespace XenShm.Udp

open Library

/-- A list node, by the order of the allocations. -/
abbrev Id := Nat

/-- `struct opening_list`, a half-opened connection. -/
structure Opening where
  /-- The fields `distant_port` and `distant_addr`, by which a client is known. -/
  source : SockAddr
  /-- The receive pipe of the connection, `none` when it was not opened. -/
  receiveFd : Option Handle
  /-- The next opening in the list. -/
  next : Option Id
  deriving DecidableEq, Repr

/-- The opening as `calloc` returns it. -/
def Opening.zero : Opening := ⟨⟨0, 0⟩, none, none⟩

/-- `struct pthread_list`, a child with its pipes. -/
structure Thread where
  /-- The field `child_data.receive_fd`, the pipe the child reads from. -/
  receiveFd : Option Handle
  /-- The field `child_data.send_fd`, the pipe the child writes to. -/
  sendFd : Handle
  /-- The field `child_data.stop`, which tells the child to end. -/
  stop : Bool
  /-- The next child in the list. -/
  next : Option Id
  deriving DecidableEq, Repr

/-- `struct internal_data` and the nodes it leads to. -/
structure Server where
  /-- The field `proposed_page_page_count`, with which every pipe is offered. -/
  pageCount : UInt8
  /-- The openings that were allocated and not freed. -/
  openings : Id → Option Opening
  /-- The field `current`, the head of the list of the openings. -/
  current : Option Id
  /-- How many openings were allocated, and the number of the next one. -/
  nextOpening : Id
  /-- The children that were started, by their numbers. -/
  threads : Id → Option Thread
  /-- The field `childs`, the head of the list of the children. -/
  childs : Option Id
  /-- How many children were started, and the number of the next one. -/
  nextThread : Id
  /-- How many pipes were opened, and the handle of the next one. -/
  nextHandle : Handle

/-- The server before the first packet, with both lists empty. -/
def Server.initial (pageCount : UInt8) : Server :=
  ⟨pageCount, fun _ => none, none, 0, fun _ => none, none, 0, 0⟩

/-- The link stored in an opening, if it is allocated. -/
def Server.link (s : Server) (o : Id) : Option (Option Id) := (s.openings o).map Opening.next

/-- Replace an opening by a node, or by nothing when it is freed. -/
def Server.put (s : Server) (o : Id) (node : Option Opening) : Server :=
  { s with openings := Function.update s.openings o node }

/-- The loop of `find_opening`, which compares the address at each node of the list. -/
def findLoop (openings : Id → Option Opening) (source : SockAddr) :
    (fuel : Nat) → (temp : Option Id) → Option (Option Id)
  | _, none => some none
  | 0, some _ => none
  | fuel + 1, some temp => do
    let node ← openings temp
    if node.source = source then some (some temp) else findLoop openings source fuel node.next

/-- `find_opening`, `none` when it reads a node that does not exist. -/
def findOpening (s : Server) (source : SockAddr) : Option (Option Id) :=
  findLoop s.openings source s.nextOpening s.current

/-- The loop of `free_opening`, which looks for the node in front of the opening. -/
def unlinkLoop (s : Server) (o : Id) : (fuel : Nat) → (temp : Id) → Option Server
  | 0, _ => none
  | fuel + 1, temp => do
    let node ← s.openings temp
    match node.next with
    | none => some s
    | some next =>
      if next = o then
        let removed ← s.openings o
        some (s.put temp (some { node with next := removed.next }))
      else unlinkLoop s o fuel next

/-- `free_opening`, which takes the opening out of the list and frees its node. -/
def freeOpening (s : Server) (o : Id) : Option Server :=
  match s.current with
  | none => some s
  | some head => do
    let s ← unlinkLoop s o s.nextOpening head
    let _ ← s.openings o
    some (s.put o none)

/-- What the calls made while one packet is handled come to. -/
structure Outcomes where
  /-- Whether `calloc` returns memory for an opening or a child. -/
  calloc : Bool
  /-- Whether `xen_shm_pipe_init` succeeds in opening a pipe. -/
  init : Bool
  /-- The grant that `xen_shm_pipe_offers` returns, if it succeeds. -/
  offers : Option Grant
  /-- Whether `xen_shm_pipe_connect` succeeds for the pipe to the client. -/
  connect : Bool
  /-- Whether `pthread_create` succeeds in starting the child. -/
  create : Bool
  deriving DecidableEq, Repr

/-- The label `server_reset`, where the client is sent a reset. -/
def resetClient (source : SockAddr) (buffer : Buffer) : List Effect :=
  [.sendto source ((setMessage buffer Proto.serverReset).dump Proto.headerSize)]

/-- The label `free_o_new`, after what was done before. -/
def freeONew (s : Server) (o : Id) (source : SockAddr) (buffer : Buffer) (before : List Effect) :
    Option (Server × List Effect) := do
  let node ← s.openings o
  let pipe ← node.receiveFd
  let s ← freeOpening s o
  some (s, before ++ .pipeFree pipe :: resetClient source buffer)

/-- The answer to a `CLIENT_HELLO`, written over it. -/
def grantPacket (buffer : Buffer) (grant : Grant) (pageCount : UInt8) : Buffer :=
  setPageCount (setMode (setMessage (setGrant buffer grant) Proto.serverGrant)
    Proto.readerOfferer) pageCount

/-- The case `CLIENT_HELLO`. When no grant can be made the new node is not given back. -/
def onClientHello (s : Server) (source : SockAddr) (len : Nat) (buffer : Buffer) (env : Outcomes) :
    Server × List Effect :=
  if len < Proto.clientHelloSize ∨ env.calloc = false then (s, [])
  else
    let o := s.nextOpening
    let s := { s.put o (some .zero) with nextOpening := o + 1 }
    if env.init = false then (s, .pipeInit .read none :: resetClient source buffer)
    else
      let pipe := s.nextHandle
      let s := { s.put o (some { Opening.zero with receiveFd := some pipe }) with
        nextHandle := pipe + 1 }
      let offers := Effect.pipeOffers pipe s.pageCount (getHelloDomid buffer) env.offers
      match env.offers with
      | none =>
        (s, .pipeInit .read (some pipe) :: offers :: .pipeFree pipe :: resetClient source buffer)
      | some grant =>
        ({ s.put o (some ⟨source, some pipe, s.current⟩) with current := some o },
          [.pipeInit .read (some pipe), offers,
            .sendto source ((grantPacket buffer grant s.pageCount).dump Proto.grantSize)])

/-- The end of the case `CLIENT_GRANT`, when the second pipe is connected. The opening stays
where it is when the child was started. -/
def startChild (s : Server) (o : Id) (sendFd : Handle) (env : Outcomes) (before : List Effect) :
    Option (Server × List Effect) := do
  let node ← s.openings o
  if env.create then
    let t := s.nextThread
    some ({ s with
      threads := Function.update s.threads t (some ⟨node.receiveFd, sendFd, false, s.childs⟩)
      childs := some t
      nextThread := t + 1 }, before ++ [.threadCreate node.receiveFd sendFd true])
  else
    let pipe ← node.receiveFd
    let s ← freeOpening s o
    some (s, before ++ [.threadCreate node.receiveFd sendFd false, .pipeFree pipe,
      .pipeFree sendFd])

/-- The case `CLIENT_GRANT` of the switch over the message. -/
def onClientGrant (s : Server) (source : SockAddr) (len : Nat) (buffer : Buffer) (env : Outcomes) :
    Option (Server × List Effect) := do
  match ← findOpening s source with
  | none => some (s, resetClient source buffer)
  | some o =>
    if len < Proto.grantSize ∨ env.calloc = false ∨ getMode buffer ≠ Proto.readerOfferer then
      freeONew s o source buffer []
    else if env.init = false then freeONew s o source buffer [.pipeInit .write none]
    else
      let pipe := s.nextHandle
      let s := { s with nextHandle := pipe + 1 }
      let before := [Effect.pipeInit .write (some pipe),
        .pipeConnect pipe (getPageCount buffer) (getGrant buffer) env.connect]
      if env.connect = false then freeONew s o source buffer (before ++ [.pipeFree pipe])
      else startChild s o pipe env before

/-- The case `CLIENT_RESET` of the switch over the message. -/
def onClientReset (s : Server) (source : SockAddr) (buffer : Buffer) :
    Option (Server × List Effect) := do
  match ← findOpening s source with
  | none => some (s, [])
  | some o => freeONew s o source buffer []

/-- What `udp_readable_cb` is called for, and what it finds. -/
inductive Wakeup where
  /-- `EV_ERROR` is reported, or there is nothing to read. -/
  | event (failed : Bool)
  /-- The call of `recvfrom` fails. -/
  | unreadable
  /-- A datagram of any length is received over what was on the stack. -/
  | datagram (source : SockAddr) (bytes : List UInt8) (stack : Buffer) (env : Outcomes)

/-- The buffer into which a datagram was received. -/
def received (bytes : List UInt8) (stack : Buffer) : Buffer :=
  Buffer.fill (bytes.take Proto.maxLen) stack

/-- The tests of the header and the switch over the message. -/
def handlePacket (s : Server) (source : SockAddr) (len : Nat) (buffer : Buffer) (env : Outcomes) :
    Option (Server × List Effect) :=
  if len < Proto.headerSize ∨ getVersion buffer ≠ Proto.version then some (s, [])
  else if getMessage buffer = Proto.clientHello then some (onClientHello s source len buffer env)
  else if getMessage buffer = Proto.clientReset then onClientReset s source buffer
  else if getMessage buffer = Proto.clientGrant then onClientGrant s source len buffer env
  else some (s, [])

/-- `udp_readable_cb`, from the event that it is called for to its return. -/
def udpReadable (s : Server) : Wakeup → Option (Server × List Effect)
  | .event failed => some (s, if failed then [.clean] else [])
  | .unreadable => some (s, [])
  | .datagram source bytes stack env =>
    handlePacket s source (min bytes.length Proto.maxLen) (received bytes stack) env

end XenShm.Udp
