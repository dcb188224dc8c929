import XenShm.Udp.Proto

/-!
# The client

`init_pipe` sends a `CLIENT_HELLO`, waits for one datagram and answers it. Its only
blocking call is `recv`, so a call is one step before it and one step after it.
-/

namespace XenShm.Udp

open Library

/-- A call of `init_pipe`, named by where it is. -/
inductive Client where
  /-- The call was not made yet. -/
  | idle
  /-- The call is in `recv`, with its packet in the buffer. -/
  | waiting (buffer : Buffer)
  /-- The call has returned, with 0 or with -1. -/
  | returned (ok : Bool)

/-- `*receive_fd`, the first pipe that `init_pipe` opens. -/
def Client.receiveFd : Handle := 0

/-- `*send_fd`, the second pipe that `init_pipe` opens. -/
def Client.sendFd : Handle := 1

/-- What the calls made before `recv` come to. -/
structure GreetOutcomes where
  /-- Whether `socket` succeeds in opening the socket. -/
  socket : Bool
  /-- Whether `xen_shm_pipe_init` of the receive pipe succeeds. -/
  receiveInit : Bool
  /-- Whether `xen_shm_pipe_init` of the send pipe succeeds. -/
  sendInit : Bool
  /-- The domain that `xen_shm_pipe_getdomid` reports, if it succeeds. -/
  domid : Option (BitVec 32)
  /-- Whether `sendto` sends the whole packet. -/
  sendto : Bool
  deriving DecidableEq, Repr

/-- What the calls made after `recv` come to. -/
structure AnswerOutcomes where
  /-- Whether `xen_shm_pipe_connect` succeeds for the send pipe. -/
  connect : Bool
  /-- The grant that `xen_shm_pipe_offers` returns, if it succeeds. -/
  offers : Option Grant
  /-- Whether `sendto` sends the whole packet. -/
  sendto : Bool
  deriving DecidableEq, Repr

/-- The label `shutdown_socket`, the last of the four labels. -/
def shutdownSocket : List Effect := [.shutdown]

/-- The label `clean_receive_fd`, from which the labels below follow. -/
def cleanReceiveFd : List Effect := .pipeFree Client.receiveFd :: shutdownSocket

/-- The label `clean_send_fd`, from which the labels below follow. -/
def cleanSendFd : List Effect := .pipeFree Client.sendFd :: cleanReceiveFd

/-- The label `cancel_server`, where the server is told and everything is given back. -/
def cancelServer (server : SockAddr) (buffer : Buffer) : List Effect :=
  .sendto server ((setMessage buffer Proto.clientReset).dump Proto.headerSize) :: cleanSendFd

/-- The `CLIENT_HELLO` that a client sends, with its domain in it. -/
def helloPacket (domid : BitVec 32) : Buffer :=
  setHelloDomid (setMessage (setVersion (fun _ => 0) Proto.version) Proto.clientHello) domid

/-- The answer to a `SERVER_GRANT`, written over it. -/
def answerPacket (buffer : Buffer) (grant : Grant) (pageCount : UInt8) : Buffer :=
  setPageCount (setMessage (setGrant buffer grant) Proto.clientGrant) pageCount

/-- The part of `init_pipe` up to `recv`, with its calls. -/
def greet (server : SockAddr) (env : GreetOutcomes) : Client × List Effect :=
  if env.socket = false then (.returned false, [.socket false])
  else if env.receiveInit = false then
    (.returned false, .socket true :: .pipeInit .read none :: shutdownSocket)
  else
    let opened := [Effect.socket true, .pipeInit .read (some Client.receiveFd)]
    if env.sendInit = false then
      (.returned false, opened ++ .pipeInit .write none :: cleanReceiveFd)
    else
      let opened := opened ++
        [.pipeInit .write (some Client.sendFd), .getdomid Client.sendFd env.domid]
      match env.domid with
      | none => (.returned false, opened ++ cleanSendFd)
      | some domid =>
        let hello := (helloPacket domid).dump Proto.clientHelloSize
        if env.sendto = false then
          (.returned false, opened ++ .sendtoFailed server hello ::
            cancelServer server (helloPacket domid))
        else (.waiting (helloPacket domid), opened ++ [.sendto server hello])

/-- The datagram is a `SERVER_GRANT` that `init_pipe` accepts. -/
def acceptable (len : Nat) (buffer : Buffer) : Prop :=
  0 < len ∧ getMessage buffer = Proto.serverGrant ∧ Proto.grantSize ≤ len ∧
    getMode buffer = Proto.readerOfferer

instance (len : Nat) (buffer : Buffer) : Decidable (acceptable len buffer) :=
  inferInstanceAs (Decidable (_ ∧ _))

/-- `init_pipe` after `recv`, which fails or receives a datagram over the `CLIENT_HELLO`. -/
def answer (server : SockAddr) (pageCount : UInt8) (buffer : Buffer)
    (received : Option (List UInt8)) (env : AnswerOutcomes) : Bool × List Effect :=
  match received with
  | none => (false, cancelServer server buffer)
  | some bytes =>
    let buffer := Buffer.fill (bytes.take Proto.maxLen) buffer
    if ¬ acceptable (min bytes.length Proto.maxLen) buffer then (false, cancelServer server buffer)
    else
      let grant := getGrant buffer
      let connect := Effect.pipeConnect Client.sendFd (getPageCount buffer) grant env.connect
      if env.connect = false then (false, connect :: cancelServer server buffer)
      else
        let offers := Effect.pipeOffers Client.receiveFd pageCount grant.domid env.offers
        match env.offers with
        | none => (false, connect :: offers :: cancelServer server buffer)
        | some own =>
          let buffer := answerPacket buffer own pageCount
          let packet := buffer.dump Proto.grantSize
          if env.sendto = false then
            (false, connect :: offers :: .sendtoFailed server packet :: cancelServer server buffer)
          else (true, connect :: offers :: .sendto server packet :: shutdownSocket)

section Answer

variable {server : SockAddr} {pageCount : UInt8} {buffer : Buffer} {bytes : List UInt8}
  {env : AnswerOutcomes}

/-- What is not accepted is answered with a reset. -/
theorem answer_of_not_acceptable (h : ¬ acceptable (min bytes.length Proto.maxLen)
      (Buffer.fill (bytes.take Proto.maxLen) buffer)) :
    answer server pageCount buffer (some bytes) env =
      (false, cancelServer server (Buffer.fill (bytes.take Proto.maxLen) buffer)) := by
  simp only [answer, h, not_false_eq_true, if_true]

/-- The first thing that is done with an accepted grant is to connect to it. -/
theorem answer_of_acceptable (server : SockAddr) (pageCount : UInt8) (env : AnswerOutcomes)
    (h : acceptable (min bytes.length Proto.maxLen)
      (Buffer.fill (bytes.take Proto.maxLen) buffer)) :
    ∃ after, (answer server pageCount buffer (some bytes) env).2 =
      .pipeConnect Client.sendFd (getPageCount (Buffer.fill (bytes.take Proto.maxLen) buffer))
        (getGrant (Buffer.fill (bytes.take Proto.maxLen) buffer)) env.connect :: after := by
  simp only [answer, h, not_true_eq_false, if_false]
  split
  · exact ⟨_, rfl⟩
  split
  · exact ⟨_, rfl⟩
  split <;> exact ⟨_, rfl⟩

end Answer

end XenShm.Udp
