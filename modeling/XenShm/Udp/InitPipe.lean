import XenShm.Udp.Client
import XenShm.Udp.Handled

/-!
# What a call of `init_pipe` leaves behind

The cleanup labels of `init_pipe` give back the pipes that were opened so far, and tell
the server when it may have heard of the client. At the last label, and when everything
has succeeded, the socket is shut down: that ends both directions, but it does not close
the descriptor.
-/

namespace XenShm.Udp

open Library

/-- A whole call of `init_pipe`, with everything that the outside contributes to it. -/
structure InitCall where
  /-- The address of the server that is asked. -/
  server : SockAddr
  /-- `proposed_page_page_count`, with which the receive pipe is offered. -/
  pageCount : UInt8
  /-- What the calls before `recv` come to. -/
  greeting : GreetOutcomes
  /-- The datagram that `recv` returns, if it returns one. -/
  received : Option (List UInt8)
  /-- What the calls after `recv` come to. -/
  answering : AnswerOutcomes

/-- `init_pipe`: whether it returns 0, and the calls it made. -/
def InitCall.result (c : InitCall) : Bool × List Effect :=
  match greet c.server c.greeting with
  | (.waiting buffer, effects) =>
    let (ok, later) := answer c.server c.pageCount buffer c.received c.answering
    (ok, effects ++ later)
  | (.returned ok, effects) => (ok, effects)
  -- a call that is made does not stay idle
  | (.idle, effects) => (false, effects)

/-- What a program does with a socket, as far as its descriptor is concerned. -/
inductive SocketCall where
  /-- A call of `socket`, which succeeds or not. -/
  | socket (ok : Bool)
  /-- A call of `shutdown`, which leaves the descriptor in the table. -/
  | shutdown
  /-- A call of `close`, which takes the descriptor out of the table. -/
  | close
  deriving DecidableEq, Repr

/-- A descriptor in the table of the process. -/
inductive Descriptor where
  /-- The descriptor was never opened. -/
  | unopened
  /-- The descriptor can be used. -/
  | opened
  /-- Nothing can be sent or received, but it is still in the table. -/
  | shutDown
  /-- The descriptor can be given to another file. -/
  | closed
  deriving DecidableEq, Repr

/-- The descriptor after a call for the socket. -/
def Descriptor.after : Descriptor → SocketCall → Descriptor
  | _, .socket true => .opened
  | .opened, .shutdown => .shutDown
  | .opened, .close | .shutDown, .close => .closed
  | d, _ => d

/-- No descriptor is left in the table of the process. -/
def Descriptor.released (d : Descriptor) : Prop := d = .unopened ∨ d = .closed

/-- The call for the socket that an effect stands for. -/
def Effect.socketCall : Effect → Option SocketCall
  | .socket ok => some (.socket ok)
  | .shutdown => some .shutdown
  | _ => none

/-- The descriptor of the socket after some calls. -/
def descriptorAfter (effects : List Effect) : Descriptor :=
  (effects.filterMap Effect.socketCall).foldl Descriptor.after .unopened

/-- The message of a packet that is passed to `sendto` for this address, whether it is sent or
not. -/
def Effect.message (server : SockAddr) : Effect → Option UInt8
  | .sendto dest datagram | .sendtoFailed dest datagram =>
    if dest = server then datagram[1]? else none
  | _ => none

/-- Everything that the server or the device could hold for the client is given back. -/
structure Undone (server : SockAddr) (effects : List Effect) : Prop where
  /-- The pipes passed to `xen_shm_pipe_free` are those that were opened. -/
  freed : (effects.filterMap Effect.freed).Perm (effects.filterMap Effect.opened)
  /-- Each pipe is opened once only. -/
  once : (effects.filterMap Effect.opened).Nodup
  /-- A `CLIENT_RESET` is sent exactly when sending a `CLIENT_HELLO` was tried. -/
  reset : Proto.clientReset ∈ effects.filterMap (Effect.message server) ↔
    Proto.clientHello ∈ effects.filterMap (Effect.message server)

/-- A call that fails is undone, and no call leaves its descriptor open. -/
structure AllOrNothing (c : InitCall) : Prop where
  /-- A call that fails gives the pipes back and tells the server. -/
  undone : c.result.1 = false → Undone c.server c.result.2
  /-- The descriptor of the socket is closed. -/
  closed : (descriptorAfter c.result.2).released

/-- Some calls, by what they mean for the pipes, for the server and for the socket. -/
structure Does (server : SockAddr) (effects : List Effect) (opens frees : List Handle)
    (messages : List UInt8) (calls : List SocketCall) : Prop where
  /-- The first list has the pipes that are opened. -/
  opened : effects.filterMap Effect.opened = opens
  /-- The second list has the pipes that are given back. -/
  freed : effects.filterMap Effect.freed = frees
  /-- The third list has the messages of the packets to the server. -/
  messages : effects.filterMap (Effect.message server) = messages
  /-- The fourth list has the calls for the socket. -/
  calls : effects.filterMap Effect.socketCall = calls

section InitPipe

variable {server : SockAddr} {effects effects' : List Effect}
  {opens opens' frees frees' : List Handle}
  {messages messages' : List UInt8} {calls calls' : List SocketCall} {b buffer : Buffer} {n : Nat}

/-- Some calls and then others do what both of them do. -/
theorem Does.append (h : Does server effects opens frees messages calls)
    (h' : Does server effects' opens' frees' messages' calls') :
    Does server (effects ++ effects') (opens ++ opens') (frees ++ frees')
      (messages ++ messages') (calls ++ calls') := by
  constructor
  · rw [List.filterMap_append, h.opened, h'.opened]
  · rw [List.filterMap_append, h.freed, h'.freed]
  · rw [List.filterMap_append, h.messages, h'.messages]
  · rw [List.filterMap_append, h.calls, h'.calls]

/-- The message of a packet is the second byte of the buffer it is sent from. -/
theorem message_dump (hn : 1 < n) : (b.dump n)[1]? = some (getMessage b) := by
  simp [Buffer.dump, hn, getMessage]

/-- The label `shutdown_socket` shuts the socket down and does nothing else. -/
theorem does_shutdownSocket : Does server shutdownSocket [] [] [] [.shutdown] :=
  ⟨rfl, rfl, rfl, rfl⟩

/-- The label `clean_send_fd` gives both pipes back and shuts the socket down. -/
theorem does_cleanSendFd :
    Does server cleanSendFd [] [Client.sendFd, Client.receiveFd] [] [.shutdown] :=
  ⟨rfl, rfl, rfl, rfl⟩

/-- A packet for the server is sent, or the attempt fails. -/
theorem does_send {e : Effect} (hn : 1 < n)
    (he : e = .sendto server (b.dump n) ∨ e = .sendtoFailed server (b.dump n)) :
    Does server [e] [] [] [getMessage b] [] := by
  have hmessage : e.message server = some (getMessage b) := by
    rcases he with rfl | rfl <;> simp only [Effect.message, if_true, message_dump hn]
  constructor
  · rcases he with rfl | rfl <;> rfl
  · rcases he with rfl | rfl <;> rfl
  · rw [List.filterMap_cons_some hmessage, List.filterMap_nil]
  · rcases he with rfl | rfl <;> rfl

/-- The label `cancel_server` tells the server and gives everything back. -/
theorem does_cancelServer (server : SockAddr) (b : Buffer) : Does server (cancelServer server b) []
    [Client.sendFd, Client.receiveFd] [Proto.clientReset] [.shutdown] := by
  have hreset : Does server
      [.sendto server ((setMessage b Proto.clientReset).dump Proto.headerSize)] [] []
      [getMessage (setMessage b Proto.clientReset)] [] := does_send (by decide) (.inl rfl)
  rw [getMessage_setMessage] at hreset
  exact hreset.append does_cleanSendFd

/-- A call that fails before the server can have heard of the client, or one that tells it. -/
theorem Does.undone (h : Does server effects opens frees messages calls) (hperm : frees.Perm opens)
    (honce : opens.Nodup) (hreset : Proto.clientReset ∈ messages ↔ Proto.clientHello ∈ messages) :
    Undone server effects := by
  constructor
  · rw [h.freed, h.opened]
    exact hperm
  · rw [h.opened]
    exact honce
  · rw [h.messages]
    exact hreset

/-- What is sent as a `CLIENT_HELLO` is one. -/
theorem getMessage_helloPacket (domid : BitVec 32) :
    getMessage (helloPacket domid) = Proto.clientHello := by
  rw [helloPacket, getMessage_setHelloDomid, getMessage_setMessage]

/-- The packet with which a client answers is a `CLIENT_GRANT`. -/
theorem getMessage_answerPacket (grant : Grant) (pageCount : UInt8) :
    getMessage (answerPacket b grant pageCount) = Proto.clientGrant := by
  rw [answerPacket, getMessage_setPageCount, getMessage_setMessage]

/-- Before `recv` the call fails with everything undone, or both pipes are open and the server was
greeted. -/
theorem greet_cases (server : SockAddr) (env : GreetOutcomes) :
    (∃ effects, greet server env = (.returned false, effects) ∧ Undone server effects ∧
      effects.filterMap Effect.socketCall =
        .socket env.socket :: if env.socket then [.shutdown] else []) ∨
    ∃ buffer effects, greet server env = (.waiting buffer, effects) ∧ env.socket = true ∧
      Does server effects [Client.receiveFd, Client.sendFd] [] [Proto.clientHello]
        [.socket true] := by
  have hboth : Does server [.socket true, .pipeInit .read (some Client.receiveFd),
      .pipeInit .write (some Client.sendFd), .getdomid Client.sendFd env.domid]
      [Client.receiveFd, Client.sendFd] [] [] [.socket true] := ⟨rfl, rfl, rfl, rfl⟩
  cases hsocket : env.socket with
  | false =>
    have hdoes : Does server [.socket false] [] [] [] [.socket false] := ⟨rfl, rfl, rfl, rfl⟩
    exact .inl ⟨_, by simp [greet, hsocket], hdoes.undone .nil .nil (by simp), rfl⟩
  | true =>
    cases hreceive : env.receiveInit with
    | false =>
      have hdoes : Does server (.socket true :: .pipeInit .read none :: shutdownSocket) [] [] []
          [.socket true, .shutdown] := ⟨rfl, rfl, rfl, rfl⟩
      exact .inl ⟨_, by simp [greet, hsocket, hreceive], hdoes.undone .nil .nil (by simp), rfl⟩
    | true =>
      cases hsend : env.sendInit with
      | false =>
        have hdoes : Does server ([.socket true, .pipeInit .read (some Client.receiveFd),
            .pipeInit .write none] ++ cleanReceiveFd) [Client.receiveFd] [Client.receiveFd] []
            [.socket true, .shutdown] := ⟨rfl, rfl, rfl, rfl⟩
        exact .inl ⟨_, by simp [greet, hsocket, hreceive, hsend],
          hdoes.undone (.refl _) (by simp) (by simp), hdoes.calls⟩
      | true =>
        cases hdomid : env.domid with
        | none =>
          rw [hdomid] at hboth
          have hdoes := hboth.append does_cleanSendFd
          exact .inl ⟨_, by simp [greet, hsocket, hreceive, hsend, hdomid],
            hdoes.undone (.swap ..) (by decide) (by simp), hdoes.calls⟩
        | some domid =>
          rw [hdomid] at hboth
          have hsent : ∀ {e}, e = .sendto server ((helloPacket domid).dump Proto.clientHelloSize) ∨
              e = .sendtoFailed server ((helloPacket domid).dump Proto.clientHelloSize) →
              Does server [e] [] [] [Proto.clientHello] [] := fun he =>
            getMessage_helloPacket domid ▸ does_send (by decide) he
          cases hsendto : env.sendto with
          | false =>
            have hdoes := (hboth.append (hsent (.inr rfl))).append
              (does_cancelServer server (helloPacket domid))
            exact .inl ⟨_, by simp [greet, hsocket, hreceive, hsend, hdomid, hsendto],
              hdoes.undone (.swap ..) (by decide) (by decide), hdoes.calls⟩
          | true =>
            refine .inr ⟨helloPacket domid, _, ?_, rfl, hboth.append (hsent (.inl rfl))⟩
            simp [greet, hsocket, hreceive, hsend, hdomid, hsendto]

/-- After `recv` the call gives back both pipes and cancels its greeting, or it has sent its
grant. -/
theorem answer_cases (server : SockAddr) (pageCount : UInt8) (buffer : Buffer)
    (received : Option (List UInt8)) (env : AnswerOutcomes) :
    (∃ effects messages, answer server pageCount buffer received env = (false, effects) ∧
      Does server effects [] [Client.sendFd, Client.receiveFd] (messages ++ [Proto.clientReset])
        [.shutdown]) ∨
    ∃ effects messages, answer server pageCount buffer received env = (true, effects) ∧
      Does server effects [] [] messages [.shutdown] := by
  cases received with
  | none => exact .inl ⟨_, [], rfl, does_cancelServer server buffer⟩
  | some bytes =>
    by_cases hbad : ¬ acceptable (min bytes.length Proto.maxLen)
        (Buffer.fill (bytes.take Proto.maxLen) buffer)
    · exact .inl ⟨_, [], answer_of_not_acceptable hbad, does_cancelServer server _⟩
    rw [not_not] at hbad
    set b := Buffer.fill (bytes.take Proto.maxLen) buffer with hb
    have hconnect : Does server
        [.pipeConnect Client.sendFd (getPageCount b) (getGrant b) env.connect]
        [] [] [] [] := ⟨rfl, rfl, rfl, rfl⟩
    have hoffer : Does server [.pipeOffers Client.receiveFd pageCount (getGrant b).domid env.offers]
        [] [] [] [] := ⟨rfl, rfl, rfl, rfl⟩
    cases hconnected : env.connect with
    | false =>
      refine .inl ⟨_, [], ?_, hconnect.append (does_cancelServer server b)⟩
      simp [answer, ← hb, hbad, hconnected]
    | true =>
      cases hoffered : env.offers with
      | none =>
        refine .inl ⟨_, [], ?_, (hconnect.append hoffer).append (does_cancelServer server b)⟩
        simp [answer, ← hb, hbad, hconnected, hoffered]
      | some own =>
        have hsent : ∀ {e},
            e = .sendto server ((answerPacket b own pageCount).dump Proto.grantSize) ∨
            e = .sendtoFailed server ((answerPacket b own pageCount).dump Proto.grantSize) →
            Does server [e] [] [] [Proto.clientGrant] [] := fun he =>
          getMessage_answerPacket (b := b) own pageCount ▸ does_send (by decide) he
        cases hsendto : env.sendto with
        | false =>
          refine .inl ⟨_, [Proto.clientGrant], ?_, ((hconnect.append hoffer).append
            (hsent (.inr rfl))).append (does_cancelServer server (answerPacket b own pageCount))⟩
          simp [answer, ← hb, hbad, hconnected, hoffered, hsendto]
        | true =>
          refine .inr ⟨_, _, ?_, ((hconnect.append hoffer).append (hsent (.inl rfl))).append
            does_shutdownSocket⟩
          simp [answer, ← hb, hbad, hconnected, hoffered, hsendto]

/-- A descriptor that was shut down was not closed. -/
theorem Descriptor.not_released_shutDown : ¬ Descriptor.shutDown.released := by
  rintro (h | h) <;> cases h

/-- The descriptor of a socket that was opened is shut down at the end, and never closed. -/
theorem descriptorAfter_eq {ok : Bool} (h : effects.filterMap Effect.socketCall =
    .socket ok :: if ok then [.shutdown] else []) :
    descriptorAfter effects = if ok then .shutDown else .unopened := by
  rw [descriptorAfter, h]
  cases ok <;> rfl

/-- A whole call is undone when it fails, and makes these calls for the socket. -/
theorem InitCall.result_spec (c : InitCall) :
    (c.result.1 = false → Undone c.server c.result.2) ∧
      c.result.2.filterMap Effect.socketCall =
        .socket c.greeting.socket :: if c.greeting.socket then [.shutdown] else [] := by
  rcases greet_cases c.server c.greeting with
    ⟨effects, hgreet, hundone, hcalls⟩ | ⟨buffer, effects, hgreet, hsocket, hdoes⟩
  · simp only [result, hgreet]
    exact ⟨fun _ => hundone, hcalls⟩
  · rw [hsocket]
    rcases answer_cases c.server c.pageCount buffer c.received c.answering with
      ⟨later, messages, hanswer, hlater⟩ | ⟨later, messages, hanswer, hlater⟩
    · simp only [result, hgreet, hanswer]
      have hall := hdoes.append hlater
      exact ⟨fun _ => hall.undone (.swap ..) (by decide) (by simp), hall.calls⟩
    · simp only [result, hgreet, hanswer]
      exact ⟨fun hfail => absurd hfail.symm Bool.false_ne_true, (hdoes.append hlater).calls⟩

end InitPipe

/-- A call of `init_pipe` that fails gives back the pipes and cancels its greeting. It leaves the
descriptor of its socket open unless there is none. -/
theorem all_or_nothing_iff (c : InitCall) :
    (c.result.1 = false → Undone c.server c.result.2) ∧
      (AllOrNothing c ↔ c.greeting.socket = false) := by
  obtain ⟨hundone, hcalls⟩ := c.result_spec
  have hend := descriptorAfter_eq hcalls
  refine ⟨hundone, ?_⟩
  constructor
  · intro h
    by_contra hsocket
    rw [Bool.not_eq_false] at hsocket
    rw [hsocket, if_pos rfl] at hend
    exact Descriptor.not_released_shutDown (hend ▸ h.closed)
  · intro hsocket
    rw [hsocket, if_neg Bool.false_ne_true] at hend
    exact ⟨hundone, .inl hend⟩

/-- A call of `init_pipe` on a machine on which the device cannot be opened. -/
def noDevice : InitCall where
  server := ⟨4000, 7⟩
  pageCount := 1
  greeting := ⟨true, false, true, some 1, true⟩
  received := none
  answering := ⟨true, none, true⟩

/-- The descriptor of the socket is still in the table when the call has failed. -/
theorem not_all_or_nothing : ¬ AllOrNothing noDevice := by
  intro h
  have hend : descriptorAfter noDevice.result.2 = .shutDown := by decide
  exact Descriptor.not_released_shutDown (hend ▸ h.closed)

end XenShm.Udp
