import XenShm.Udp.Network
import XenShm.Udp.Pointers

/-!
# What the two ends of the handshake agree on

The server knows a half-open connection only by the address of the client, and takes the
newest opening with that address. When a `CLIENT_HELLO` was received twice there are two
of them, and the client may have answered the grant of the older one. The other direction
is agreed on in any case, since the client makes its grant only once.
-/

namespace XenShm.Udp

open Library

/-- A packet that was sent by the server to `a`. -/
inductive FromServer (net : Network) (a : SockAddr) : List UInt8 → Prop where
  /-- A `SERVER_RESET`, whatever the rest of its buffer contains. -/
  | reset (b : Buffer) : FromServer net a ((setMessage b Proto.serverReset).dump Proto.headerSize)
  /-- A `SERVER_GRANT` that answers a `CLIENT_HELLO` with a pipe of the server. -/
  | grant (b : Buffer) (pipe : Handle) (hanswered : (a, pipe) ∈ net.answered)
      (hoffered : net.offered (getGrant b) = some (.server, pipe)) :
      FromServer net a (b.dump Proto.grantSize)

/-- A packet that was sent by the client `a`. -/
inductive FromClient (net : Network) (a : SockAddr) : List UInt8 → Prop where
  /-- A `CLIENT_HELLO` with the domain of the client. -/
  | hello (domid : BitVec 32) : FromClient net a ((helloPacket domid).dump Proto.clientHelloSize)
  /-- A `CLIENT_RESET`, whatever the rest of its buffer contains. -/
  | reset (b : Buffer) : FromClient net a ((setMessage b Proto.clientReset).dump Proto.headerSize)
  /-- A `CLIENT_GRANT`, sent when the send pipe was connected. -/
  | grant (b : Buffer) (pipe : Handle) (hanswered : (a, pipe) ∈ net.answered)
      (hreceive : net.ReceiveAgrees a pipe)
      (hoffered : net.offered (getGrant b) = some (.client a, Client.receiveFd)) :
      FromClient net a (b.dump Proto.grantSize)

/-- What is known about the pipes of a child that a packet from `a` started. -/
structure Introduced (net : Network) (a : SockAddr) (receiveFd : Option Handle)
    (sendFd : Handle) : Prop where
  /-- The client reads what the child writes. -/
  send : net.SendAgrees a sendFd
  /-- The child reads from a pipe that was offered to the client. -/
  receive : ∃ pipe, receiveFd = some pipe ∧ (a, pipe) ∈ net.answered
  /-- The client writes to a pipe that was offered to it. -/
  taken : ∃ pipe, net.ReceiveAgrees a pipe ∧ (a, pipe) ∈ net.answered

/-- Nothing is forgotten about grants, connections and offers. -/
structure Grows (net net' : Network) : Prop where
  /-- The pipe behind a grant stays the same. -/
  offered : ∀ g p, net.offered g = some p → net'.offered g = some p
  /-- A pipe that was connected to a grant stays so. -/
  attached : ∀ p g, net.attached p = some g → net'.attached p = some g
  /-- More pipes may be offered to clients. -/
  answered : net.answered ⊆ net'.answered

/-- The packets and children tell the truth about the pipes. -/
structure Sound (net : Network) : Prop where
  /-- The openings of the server point to pipes that it has offered. -/
  pointers : Pointers net.server net.answered
  /-- Every packet to a client is one that the server has sent. -/
  toClient : ∀ a d, (a, d) ∈ net.toClient → FromServer net a d
  /-- Every packet to the server is one that its client has sent. -/
  toServer : ∀ a d, (a, d) ∈ net.toServer → FromClient net a d
  /-- A client connects its pipe when it returns. -/
  unconnected : ∀ a, (∀ ok, net.clients a ≠ .returned ok) →
    net.attached (.client a, Client.sendFd) = none
  /-- The server connects the pipes it opened. -/
  fresh : ∀ w, net.server.nextHandle ≤ w → net.attached (.server, w) = none
  /-- Every child that was started has pipes that a client has agreed to. -/
  started : ∀ a r w, (a, r, w) ∈ net.started → Introduced net a r w

section Growth

variable {net net' : Network} {a : SockAddr} {d bytes : List UInt8} {r : Option Handle}
  {w pipe : Handle} {effects : List Effect}

/-- An agreement about the pipe that is sent through lasts. -/
theorem Network.SendAgrees.mono (h : net.SendAgrees a w) (hg : Grows net net') :
    net'.SendAgrees a w := by
  obtain ⟨g, hattached, hoffered⟩ := h
  exact ⟨g, hg.attached _ _ hattached, hg.offered _ _ hoffered⟩

/-- An agreement about the pipe that is received from lasts. -/
theorem Network.ReceiveAgrees.mono (h : net.ReceiveAgrees a pipe) (hg : Grows net net') :
    net'.ReceiveAgrees a pipe := by
  obtain ⟨g, hattached, hoffered⟩ := h
  exact ⟨g, hg.attached _ _ hattached, hg.offered _ _ hoffered⟩

/-- A packet that the server has sent stays one. -/
theorem FromServer.mono (h : FromServer net a d) (hg : Grows net net') : FromServer net' a d := by
  cases h with
  | reset b => exact .reset b
  | grant b pipe hanswered hoffered =>
    exact .grant b pipe (hg.answered hanswered) (hg.offered _ _ hoffered)

/-- A packet that a client has sent stays one. -/
theorem FromClient.mono (h : FromClient net a d) (hg : Grows net net') : FromClient net' a d := by
  cases h with
  | hello domid => exact .hello domid
  | reset b => exact .reset b
  | grant b pipe hanswered hreceive hoffered =>
    exact .grant b pipe (hg.answered hanswered) (hreceive.mono hg) (hg.offered _ _ hoffered)

/-- What is known about the pipes of a child stays true. -/
theorem Introduced.mono (h : Introduced net a r w) (hg : Grows net net') :
    Introduced net' a r w where
  send := h.send.mono hg
  receive := h.receive.imp fun _ hpipe => ⟨hpipe.1, hg.answered hpipe.2⟩
  taken := h.taken.imp fun _ hpipe => ⟨hpipe.1.mono hg, hg.answered hpipe.2⟩

/-- A grant that is long enough to be read is the one that was sent. -/
theorem FromServer.getGrant_received {old : Buffer} (h : FromServer net a bytes)
    (hlen : Proto.grantSize ≤ min bytes.length Proto.maxLen) :
    ∃ pipe, (a, pipe) ∈ net.answered ∧
      net.offered (getGrant (Buffer.fill (bytes.take Proto.maxLen) old)) =
        some (.server, pipe) := by
  cases h with
  | reset b => simp [Proto.grantSize, Proto.headerSize] at hlen
  | grant b pipe hanswered hoffered =>
    refine ⟨pipe, hanswered, ?_⟩
    rwa [List.take_of_length_le (by simp [Proto.grantSize, Proto.maxLen]),
      getGrant_fill (Nat.le_refl _)]

/-- Of a packet long enough for a `CLIENT_GRANT`, the grant that the server reads is an agreement on
both pipes. -/
theorem FromClient.getGrant_received {stack : Buffer} (h : FromClient net a bytes)
    (hlen : Proto.grantSize ≤ min bytes.length Proto.maxLen) :
    ∃ pipe, (a, pipe) ∈ net.answered ∧ net.ReceiveAgrees a pipe ∧
      net.offered (getGrant (received bytes stack)) = some (.client a, Client.receiveFd) := by
  cases h with
  | hello domid => simp [Proto.grantSize, Proto.clientHelloSize] at hlen
  | reset b => simp [Proto.grantSize, Proto.headerSize] at hlen
  | grant b pipe hanswered hreceive hoffered =>
    refine ⟨pipe, hanswered, hreceive, ?_⟩
    rwa [received, List.take_of_length_le (by simp [Proto.grantSize, Proto.maxLen]),
      getGrant_fill (Nat.le_refl _)]

end Growth

section Calls

variable {net : Network} {party : Party} {a : SockAddr} {g : Grant} {p : PipeId}
  {offered : Grant → Option PipeId} {attached : PipeId → Option Grant}
  {l : List (Handle × Grant)} {effects : List Effect} {client : Client} {server : SockAddr}

/-- A call that offers other grants leaves this one with its pipe. -/
theorem Network.offer_of_ne (h : ∀ o ∈ l, o.2 ≠ g) :
    Network.offer party offered l g = offered g := by
  induction l generalizing offered with
  | nil => rfl
  | cons o l ih =>
    have hrest : Network.offer party (Function.update offered o.2 (some (party, o.1))) l g = _ :=
      ih fun o' ho' => h o' (List.mem_cons_of_mem o ho')
    exact hrest.trans (Function.update_of_ne (h o (by simp)).symm ..)

/-- A call that connects other pipes leaves this one with its grant. -/
theorem Network.connect_of_ne (h : ∀ c ∈ l, (party, c.1) ≠ p) :
    Network.connect party attached l p = attached p := by
  induction l generalizing attached with
  | nil => rfl
  | cons c l ih =>
    have hrest : Network.connect party (Function.update attached (party, c.1) (some c.2)) l p = _ :=
      ih fun c' hc' => h c' (List.mem_cons_of_mem c hc')
    exact hrest.trans (Function.update_of_ne (h c (by simp)).symm ..)

/-- New grants and new connections forget nothing that was known. -/
theorem grows_of_fresh {net' : Network} (connects : List (Handle × Grant))
    (hoffered : net'.offered = Network.offer party net.offered l)
    (hattached : net'.attached = Network.connect party net.attached connects)
    (hanswered : net.answered ⊆ net'.answered) (hfresh : ∀ o ∈ l, net.offered o.2 = none)
    (hfree : ∀ c ∈ connects, net.attached (party, c.1) = none) : Grows net net' := by
  refine ⟨fun g p hg => ?_, fun p g hp => ?_, hanswered⟩
  · rw [hoffered, Network.offer_of_ne, hg]
    rintro o ho rfl
    simp [hfresh o ho] at hg
  · rw [hattached, Network.connect_of_ne, hp]
    rintro c hc rfl
    simp [hfree c hc] at hp

/-- The calls of a client that only connects the send pipe, and only when it returns. -/
theorem Sound.clientCalls {net' : Network} (h : Sound net)
    (hnet : net' =
      { net with clients := Function.update net.clients a client }.clientCalls a effects)
    (hwait : ∀ ok, net.clients a ≠ .returned ok)
    (hfresh : ∀ o ∈ effects.filterMap Effect.offer, net.offered o.2 = none)
    (hconnect : ∀ c ∈ effects.filterMap Effect.connection,
      c.1 = Client.sendFd ∧ ∃ ok, client = .returned ok)
    (hsent : Grows net net' → ∀ m ∈ effects.filterMap Effect.sent, FromClient net' a m.2) :
    Sound net' := by
  have hgrows : Grows net net' := by
    refine grows_of_fresh (effects.filterMap Effect.connection) (congrArg _ hnet)
      (congrArg _ hnet) (by rw [hnet]; exact List.Subset.refl _) hfresh fun c hc => ?_
    rw [(hconnect c hc).1]
    exact h.unconnected a hwait
  have hother : ∀ q, (∀ b, q.1 = .client b → b ≠ a) → net'.attached q = net.attached q := by
    intro q hq
    rw [hnet]
    refine Network.connect_of_ne fun c _ heq => ?_
    exact hq a (by rw [← heq]) rfl
  refine ⟨?_, ?_, ?_, ?_, ?_, ?_⟩
  · rw [hnet]
    exact h.pointers
  · intro b d hd
    rw [hnet] at hd
    exact (h.toClient b d hd).mono hgrows
  · intro b d hd
    rw [hnet, Network.clientCalls, List.mem_append] at hd
    rcases hd with hd | hd
    · exact (h.toServer b d hd).mono hgrows
    · obtain ⟨m, hm, heq⟩ := List.mem_map.mp hd
      cases heq
      exact hsent hgrows m hm
  · intro b hb
    rw [hnet] at hb
    by_cases hba : b = a
    · subst b
      have hnone : effects.filterMap Effect.connection = [] := by
        refine List.eq_nil_iff_forall_not_mem.mpr fun c hc => ?_
        obtain ⟨ok, hok⟩ := (hconnect c hc).2
        exact hb ok ((Function.update_self ..).trans hok)
      rw [hnet, Network.clientCalls, hnone]
      exact h.unconnected a hwait
    · rw [hother _ fun c hc => by cases hc; exact hba]
      refine h.unconnected b fun ok hok => hb ok ?_
      exact (Function.update_of_ne hba ..).trans hok
  · intro w hw
    rw [hnet] at hw
    rw [hother (.server, w) fun b hb => by cases hb]
    exact h.fresh w hw
  · intro b r w hstarted
    rw [hnet] at hstarted
    exact (h.started b r w hstarted).mono hgrows

/-- What `init_pipe` calls before it waits offers and connects nothing. -/
theorem greet_calls (server : SockAddr) (env : GreetOutcomes) :
    (greet server env).2.filterMap Effect.offer = [] ∧
      (greet server env).2.filterMap Effect.connection = [] ∧
      ∀ m ∈ (greet server env).2.filterMap Effect.sent,
        (∃ domid, m.2 = (helloPacket domid).dump Proto.clientHelloSize) ∨
          ∃ b, m.2 = (setMessage b Proto.clientReset).dump Proto.headerSize := by
  unfold greet
  split
  · simp [Effect.offer, Effect.connection, Effect.sent]
  split
  · simp [shutdownSocket, Effect.offer, Effect.connection, Effect.sent]
  dsimp only
  split
  · simp [cleanReceiveFd, shutdownSocket, Effect.offer, Effect.connection, Effect.sent]
  split
  · simp [cleanSendFd, cleanReceiveFd, shutdownSocket, Effect.offer, Effect.connection,
      Effect.sent]
  rename_i domid hdomid
  split
  · simp [cancelServer, cleanSendFd, cleanReceiveFd, shutdownSocket, Effect.offer,
      Effect.connection, Effect.sent]
    exact .inr ⟨_, rfl⟩
  · simp [Effect.offer, Effect.connection, Effect.sent]
    exact .inl ⟨_, rfl⟩

/-- The calls by which `init_pipe` gives up offer and connect nothing. -/
theorem cancelServer_calls (server : SockAddr) (b : Buffer) :
    (cancelServer server b).filterMap Effect.offer = [] ∧
      (cancelServer server b).filterMap Effect.connection = [] ∧
      (cancelServer server b).filterMap Effect.sent =
        [(server, (setMessage b Proto.clientReset).dump Proto.headerSize)] := by
  simp [cancelServer, cleanSendFd, cleanReceiveFd, shutdownSocket, Effect.offer,
    Effect.connection, Effect.sent]

/-- What `init_pipe` does with the datagram it received. -/
inductive Answered (pageCount : UInt8) (buffer : Buffer) (received : Option (List UInt8))
    (env : AnswerOutcomes) (effects : List Effect) : Prop where
  /-- The client gives up before a pipe is connected. -/
  | refused (hoffer : effects.filterMap Effect.offer = [])
      (hconnect : effects.filterMap Effect.connection = [])
      (hsent : ∀ m ∈ effects.filterMap Effect.sent,
        ∃ b, m.2 = (setMessage b Proto.clientReset).dump Proto.headerSize)
  /-- The client connects the send pipe to the grant it received, and may offer the receive pipe. -/
  | connected (bytes : List UInt8) (hreceived : received = some bytes)
      (hlen : Proto.grantSize ≤ min bytes.length Proto.maxLen)
      (hconnect : effects.filterMap Effect.connection =
        [(Client.sendFd, getGrant (Buffer.fill (bytes.take Proto.maxLen) buffer))])
      (hoffer : ∀ o ∈ effects.filterMap Effect.offer, env.offers = some o.2)
      (hsent : ∀ m ∈ effects.filterMap Effect.sent,
        (∃ b, m.2 = (setMessage b Proto.clientReset).dump Proto.headerSize) ∨
          ∃ own, effects.filterMap Effect.offer = [(Client.receiveFd, own)] ∧
            ∃ b, getGrant b = own ∧ m.2 = b.dump Proto.grantSize)

/-- Whatever `init_pipe` has received, it refuses, or it connects the pipe it was offered. -/
theorem answer_calls (server : SockAddr) (pageCount : UInt8) (buffer : Buffer)
    (received : Option (List UInt8)) (env : AnswerOutcomes) :
    Answered pageCount buffer received env (answer server pageCount buffer received env).2 := by
  have hcancel := cancelServer_calls server
  cases received with
  | none =>
    obtain ⟨hoffer, hconnect, hsent⟩ := hcancel buffer
    exact .refused hoffer hconnect fun m hm => ⟨buffer, by simp_all [answer]⟩
  | some bytes =>
    simp only [answer]
    obtain ⟨hoffer, hconnect, hsent⟩ := hcancel (Buffer.fill (bytes.take Proto.maxLen) buffer)
    split
    · exact .refused hoffer hconnect fun m hm => ⟨Buffer.fill (bytes.take Proto.maxLen) buffer,
        by simp_all⟩
    rename_i haccept
    rw [Decidable.not_not] at haccept
    split
    · rename_i hok
      refine .refused ?_ ?_ fun m hm =>
        ⟨Buffer.fill (bytes.take Proto.maxLen) buffer, ?_⟩
      · simpa [Effect.offer] using hoffer
      · simpa [Effect.connection, hok] using hconnect
      · simp only [List.filterMap_cons, Effect.sent, hsent, List.mem_singleton] at hm
        exact congrArg Prod.snd hm
    rename_i hok
    rw [Bool.not_eq_false] at hok
    have hlen := haccept.2.2.1
    split
    · rename_i hoffers
      refine .connected bytes rfl hlen ?_ ?_ fun m hm => .inl
        ⟨Buffer.fill (bytes.take Proto.maxLen) buffer, ?_⟩
      · simp only [List.filterMap_cons, hok, Effect.connection, hconnect]
      · simp [List.filterMap_cons, hoffers, Effect.offer, hoffer]
      · simp only [List.filterMap_cons, Effect.sent, hsent, List.mem_singleton] at hm
        exact congrArg Prod.snd hm
    rename_i own hoffers
    obtain ⟨hoffer, hconnect, hsent⟩ :=
      hcancel (answerPacket (Buffer.fill (bytes.take Proto.maxLen) buffer) own pageCount)
    split
    · refine .connected bytes rfl hlen ?_ ?_ fun m hm => .inl
        ⟨answerPacket (Buffer.fill (bytes.take Proto.maxLen) buffer) own pageCount, ?_⟩
      · simp only [List.filterMap_cons, hok, Effect.connection, hconnect]
      · simp [List.filterMap_cons, hoffers, Effect.offer, hoffer]
      · simp only [List.filterMap_cons, Effect.sent, hsent, List.mem_singleton] at hm
        exact congrArg Prod.snd hm
    · refine .connected bytes rfl hlen ?_ ?_ fun m hm => .inr ⟨own, ?_,
        answerPacket (Buffer.fill (bytes.take Proto.maxLen) buffer) own pageCount, ?_, ?_⟩
      · simp only [shutdownSocket, List.filterMap_cons, List.filterMap_nil, hok, Effect.connection]
      · simp [shutdownSocket, List.filterMap_cons, hoffers, Effect.offer]
      · simp only [shutdownSocket, List.filterMap_cons, List.filterMap_nil, hoffers, Effect.offer]
      · simp [answerPacket]
      · simp only [List.filterMap_cons, Effect.sent, shutdownSocket, List.filterMap_nil,
          List.mem_singleton] at hm
        exact congrArg Prod.snd hm

end Calls

section Steps

variable {setup : Setup} {net net' : Network} {a : SockAddr} {i : Input}

/-- A client that begins with `init_pipe` keeps the packets true. -/
theorem Sound.greet {env : GreetOutcomes} (h : Sound net)
    (hstep : net.step setup (.greet a env) = some net') : Sound net' := by
  simp only [Network.step] at hstep
  split at hstep
  · rename_i hidle
    obtain ⟨hoffer, hconnect, hsent⟩ := greet_calls setup.server env
    refine h.clientCalls (Option.some.inj hstep).symm (by simp [hidle]) (by simp [hoffer])
      (by simp [hconnect]) fun _ m hm => ?_
    rcases hsent m hm with ⟨domid, hm⟩ | ⟨b, hm⟩
    · exact hm ▸ .hello domid
    · exact hm ▸ .reset b
  · contradiction

/-- A client that receives its datagram and returns keeps the packets true. -/
theorem Sound.answer {received : Option (List UInt8)} {env : AnswerOutcomes} (h : Sound net)
    (hfresh : freshGrants net (.answer a received env) = true)
    (hstep : net.step setup (.answer a received env) = some net') : Sound net' := by
  simp only [Network.step] at hstep
  split at hstep
  · rename_i buffer hwaiting
    split at hstep
    · rename_i hin
      have hnet := (Option.some.inj hstep).symm
      have hcalls := answer_calls setup.server (setup.clientPages a) buffer received env
      have hwait : ∀ ok, net.clients a ≠ .returned ok := by simp [hwaiting]
      cases hcalls with
      | refused hoffer hconnect hsent =>
        refine h.clientCalls hnet hwait (by simp [hoffer]) (by simp [hconnect]) fun _ m hm => ?_
        obtain ⟨b, hb⟩ := hsent m hm
        exact hb ▸ .reset b
      | connected bytes hreceived hlen hconnect hoffer hsent =>
        have hnew : ∀ o ∈ (Udp.answer setup.server (setup.clientPages a) buffer received
            env).2.filterMap Effect.offer, net.offered o.2 = none := by
          intro o ho
          have hgrant := hoffer o ho
          simpa [freshGrants, Input.grant, hgrant] using hfresh
        refine h.clientCalls hnet hwait hnew (by simp [hconnect]) fun hgrows m hm => ?_
        rcases hsent m hm with ⟨b, hb⟩ | ⟨own, hown, b, hgrant, hb⟩
        · exact hb ▸ .reset b
        · rw [hb]
          -- The datagram is a grant of the server, and the send pipe is connected to it.
          have hmem : (a, bytes) ∈ net.toClient := by simpa [hreceived] using hin
          obtain ⟨pipe, hanswered, hoffered⟩ := (h.toClient a bytes hmem).getGrant_received hlen
          refine .grant b pipe (hgrows.answered hanswered)
            ⟨_, ?_, hgrows.offered _ _ hoffered⟩ ?_
          · rw [hnet, Network.clientCalls, hconnect]
            exact Function.update_self ..
          · rw [hnet, Network.clientCalls, hown, hgrant]
            exact Function.update_self ..
    · contradiction
  · contradiction

/-- The calls of the server for one packet. -/
theorem Sound.serverCalls {server : Server} {effects : List Effect} (h : Sound net)
    (hnet : net' = { net with server := server }.serverCalls a effects)
    (hpointers : Pointers server net'.answered)
    (hnext : net.server.nextHandle ≤ server.nextHandle)
    (hfresh : ∀ o ∈ effects.filterMap Effect.offer, net.offered o.2 = none)
    (hconnect : ∀ c ∈ effects.filterMap Effect.connection,
      net.server.nextHandle ≤ c.1 ∧ c.1 < server.nextHandle)
    (hsent : Grows net net' → ∀ m ∈ effects.filterMap Effect.sent, FromServer net' m.1 m.2)
    (hchild : Grows net net' → ∀ c ∈ effects.filterMap Effect.child, Introduced net' a c.1 c.2) :
    Sound net' := by
  have hgrows : Grows net net' := by
    refine grows_of_fresh (effects.filterMap Effect.connection) (congrArg _ hnet)
      (congrArg _ hnet) ?_ hfresh fun c hc => h.fresh _ (hconnect c hc).1
    rw [hnet]
    exact List.subset_append_left ..
  refine ⟨?_, ?_, ?_, ?_, ?_, ?_⟩
  · rw [hnet] at hpointers ⊢
    exact hpointers
  · intro b d hd
    rw [hnet, Network.serverCalls, List.mem_append] at hd
    rcases hd with hd | hd
    · exact (h.toClient b d hd).mono hgrows
    · exact hsent hgrows _ hd
  · intro b d hd
    rw [hnet] at hd
    exact (h.toServer b d hd).mono hgrows
  · intro b hb
    have hother : net'.attached (.client b, Client.sendFd) =
        net.attached (.client b, Client.sendFd) := by
      rw [hnet]
      exact Network.connect_of_ne fun c _ heq => by cases heq
    rw [hother]
    rw [hnet] at hb
    exact h.unconnected b hb
  · intro w hw
    rw [hnet] at hw
    have hother : net'.attached (.server, w) = net.attached (.server, w) := by
      rw [hnet]
      refine Network.connect_of_ne fun c hc heq => ?_
      cases heq
      exact absurd (hconnect c hc).2 (Nat.not_lt.mpr hw)
    rw [hother]
    exact h.fresh w (hnext.trans hw)
  · intro b r w hstarted
    rw [hnet, Network.serverCalls, List.mem_append] at hstarted
    rcases hstarted with hstarted | hstarted
    · exact (h.started b r w hstarted).mono hgrows
    · obtain ⟨c, hc, heq⟩ := List.mem_map.mp hstarted
      cases heq
      exact hchild hgrows c hc

section Harmless

variable {fresh : Handle} {buffer : Buffer} {effects : List Effect} {opens frees : List Handle}

/-- Harmless calls offer no pipe. -/
theorem Harmless.offer_eq_nil (h : Harmless fresh buffer effects opens frees) :
    effects.filterMap Effect.offer = [] := by
  refine List.filterMap_eq_nil_iff.mpr fun e he => ?_
  unfold Effect.offer
  split
  · exact absurd he (h.offers _ _ _ _)
  · rfl

/-- Harmless calls start no child. -/
theorem Harmless.child_eq_nil (h : Harmless fresh buffer effects opens frees) :
    effects.filterMap Effect.child = [] := by
  refine List.filterMap_eq_nil_iff.mpr fun e he => ?_
  unfold Effect.child
  split
  · exact absurd he (h.unstarted _ _)
  · rfl

/-- Harmless calls connect only the pipe that they have opened. -/
theorem Harmless.connection_mem (h : Harmless fresh buffer effects opens frees) :
    ∀ c ∈ effects.filterMap Effect.connection, c.1 = fresh ∧ fresh ∈ opens := by
  intro c hc
  obtain ⟨e, he, heq⟩ := List.mem_filterMap.mp hc
  unfold Effect.connection at heq
  split at heq
  · cases heq
    exact h.connects _ _ _ _ he
  · contradiction

/-- Harmless calls send nothing but a `SERVER_RESET`. -/
theorem Harmless.sent_mem (h : Harmless fresh buffer effects opens frees) :
    ∀ m ∈ effects.filterMap Effect.sent,
      m.2 = (setMessage buffer Proto.serverReset).dump Proto.headerSize := by
  intro m hm
  obtain ⟨e, he, heq⟩ := List.mem_filterMap.mp hm
  unfold Effect.sent at heq
  split at heq
  · cases heq
    exact h.sends _ _ he
  · contradiction

end Harmless

/-- Harmless calls of the server keep the packets and the children true. -/
theorem Sound.harmless {server : Server} {buffer : Buffer} {effects : List Effect}
    {opens frees : List Handle} (h : Sound net)
    (hnet : net' = { net with server := server }.serverCalls a effects)
    (hmoves : Harmless net.server.nextHandle buffer effects opens frees)
    (hpointers : Pointers server net.answered)
    (hnext : server.nextHandle = net.server.nextHandle + opens.length) : Sound net' := by
  have hoffer := hmoves.offer_eq_nil
  refine h.serverCalls hnet ?_ ?_ (by simp [hoffer]) (fun c hc => ?_) (fun _ m hm => ?_)
    (by simp [hmoves.child_eq_nil])
  · rw [hnet]
    exact hpointers.mono (List.subset_append_left ..)
  · rw [hnext]
    exact Nat.le_add_right ..
  · obtain ⟨hc, hopens⟩ := hmoves.connection_mem c hc
    have hlen := List.length_pos_of_mem hopens
    rw [hc, hnext]
    exact ⟨Nat.le_refl _, Nat.lt_add_of_pos_right hlen⟩
  · exact hmoves.sent_mem m hm ▸ .reset buffer

/-- A server that receives a datagram keeps the packets and the children true. -/
theorem Sound.deliver {bytes : List UInt8} {stack : Buffer} {env : Outcomes} (h : Sound net)
    (hfresh : freshGrants net (.deliver a bytes stack env) = true)
    (hstep : net.step setup (.deliver a bytes stack env) = some net') : Sound net' := by
  simp only [Network.step, Option.ite_none_right_eq_some, Option.bind_eq_bind] at hstep
  obtain ⟨hin, hstep⟩ := hstep
  obtain ⟨⟨server, effects⟩, hread, hstep⟩ := Option.bind_eq_some_iff.mp hstep
  have hnet := (Option.some.inj hstep).symm
  rcases udpReadable_cases hread with ⟨rfl, rfl, -⟩ | ⟨-, hhandled⟩
  · exact h.harmless hnet (harmless_nil _ (received bytes stack)) h.pointers rfl
  cases hhandled with
  | ignored _ hmoves => exact h.harmless hnet hmoves h.pointers rfl
  | leaked node opens frees _ hnext _ hmoves =>
    exact h.harmless hnet hmoves (h.pointers.put_fresh hnext) rfl
  | freed o node pipe opens _ _ _ _ _ _ hfree hmoves =>
    obtain ⟨hpointers, hnext⟩ := h.pointers.withHandle.freeOpening hfree
    exact h.harmless hnet hmoves hpointers hnext
  | granted grant hmsg hoffers =>
    have hgrant : net.offered grant = none := by
      simpa [freshGrants, Input.grant, hoffers] using hfresh
    refine h.serverCalls hnet ?_ (Nat.le_succ _)
      (by simpa [grantEffects, Effect.offer] using hgrant)
      (by simp [grantEffects, Effect.connection]) (fun _ m hm => ?_)
      (by simp [grantEffects, Effect.child])
    · rw [hnet]
      exact h.pointers.granted
    · have hm : (a, (grantPacket (received bytes stack) grant
          net.server.pageCount).dump Proto.grantSize) = m := by
        simpa [grantEffects, Effect.sent, eq_comm] using hm
      have hback : getGrant (grantPacket (received bytes stack) grant net.server.pageCount) =
          grant := by simp [grantPacket]
      rw [← hm]
      refine .grant _ net.server.nextHandle ?_ ?_
      · rw [hnet]
        exact List.mem_append_right _ (by simp [grantEffects, Effect.offer])
      · rw [hnet, hback]
        exact Function.update_self ..
  | started o node hmsg hlong hfound hnode =>
    have hmem : (a, bytes) ∈ net.toServer := by simpa using hin
    obtain ⟨pipe, hanswered, hreceive, hoffered⟩ :=
      (h.toServer a bytes hmem).getGrant_received hlong
    obtain ⟨node', pipe', hnode', -, hpipe', hanswered'⟩ := findOpening_pointed h.pointers hfound
    cases hnode.symm.trans hnode'
    refine h.serverCalls hnet ?_ (Nat.le_succ _) (by simp [startEffects, Effect.offer])
      (by simp [startEffects, Effect.connection]) (by simp [startEffects, Effect.sent])
      (fun hgrows c hc => ?_)
    · rw [hnet]
      exact Pointers.mono ⟨h.pointers.current, h.pointers.next⟩ (List.subset_append_left ..)
    · have hc : (node.receiveFd, net.server.nextHandle) = c := by
        simpa [startEffects, Effect.child, eq_comm] using hc
      rw [← hc]
      refine ⟨⟨_, ?_, hgrows.offered _ _ hoffered⟩, ⟨pipe', hpipe', hgrows.answered hanswered'⟩,
        pipe, hreceive.mono hgrows, hgrows.answered hanswered⟩
      rw [hnet]
      exact Function.update_self ..

/-- Every step keeps the packets and the children truthful. -/
theorem Sound.step (h : Sound net) (hfresh : freshGrants net i = true)
    (hstep : net.step setup i = some net') : Sound net' := by
  cases i with
  | greet a env => exact h.greet hstep
  | answer a received env => exact h.answer hfresh hstep
  | deliver a bytes stack env => exact h.deliver hfresh hstep

/-- Before the first packet there is nothing that could be untrue. -/
theorem Sound.initial (setup : Setup) : Sound (.initial setup) where
  pointers := ⟨by simp [Network.initial, Server.initial], by simp [Network.initial, Server.initial]⟩
  toClient := by simp [Network.initial]
  toServer := by simp [Network.initial]
  unconnected _ _ := rfl
  fresh _ _ := rfl
  started := by simp [Network.initial]

end Steps

/-- Two elements that a test accepts, when it accepts at most one, are the same. -/
private theorem eq_of_countP_le_one {α : Type*} {p : α → Bool} {l : List α} {x y : α}
    (h : l.countP p ≤ 1) (hx : x ∈ l) (hy : y ∈ l) (hpx : p x = true) (hpy : p y = true) :
    x = y := by
  rw [List.countP_eq_length_filter] at h
  have hx' := List.mem_filter.mpr ⟨hx, hpx⟩
  have hy' := List.mem_filter.mpr ⟨hy, hpy⟩
  match hl : l.filter p with
  | [] => simp [hl] at hx'
  | [z] =>
    simp only [hl, List.mem_singleton] at hx' hy'
    exact hx'.trans hy'.symm
  | z :: z' :: l' => simp [hl] at h

section Newest

variable {setup : Setup} {net net' : Network} {a : SockAddr} {i : Input} {r : Option Handle}
  {w : Handle}

/-- Only a datagram that is delivered changes the server, and what it has offered and started. -/
theorem Network.step_server (hstep : net.step setup i = some net') :
    net'.server = net.server ∧ net'.answered = net.answered ∧ net'.started = net.started ∨
      ∃ a bytes stack env server effects, i = .deliver a bytes stack env ∧
        udpReadable net.server (.datagram a bytes stack env) = some (server, effects) ∧
        net' = { net with server := server }.serverCalls a effects := by
  cases i with
  | greet a env =>
    simp only [Network.step] at hstep
    split at hstep
    · cases hstep
      exact .inl ⟨rfl, rfl, rfl⟩
    · contradiction
  | answer a received env =>
    simp only [Network.step] at hstep
    split at hstep
    · split at hstep
      · cases hstep
        exact .inl ⟨rfl, rfl, rfl⟩
      · contradiction
    · contradiction
  | deliver a bytes stack env =>
    simp only [Network.step, Option.ite_none_right_eq_some, Option.bind_eq_bind] at hstep
    obtain ⟨⟨server, effects⟩, hread, hstep⟩ := Option.bind_eq_some_iff.mp hstep.2
    exact .inr ⟨a, bytes, stack, env, server, effects, rfl, hread, (Option.some.inj hstep).symm⟩

/-- Harmless calls offer nothing, so the order of the offers stays. -/
private theorem Ordered.harmless {server : Server} {buffer : Buffer} {fresh : Handle}
    {effects : List Effect} {opens frees : List Handle} (h : Ordered server net.answered)
    (hmoves : Harmless fresh buffer effects opens frees) :
    Ordered server ({ net with server := server }.serverCalls a effects).answered := by
  rw [Network.serverCalls, hmoves.offer_eq_nil, List.map_nil, List.append_nil]
  exact h

/-- Every step keeps the openings in their order. -/
theorem Ordered.step (h : Ordered net.server net.answered)
    (hp : Pointers net.server net.answered) (hstep : net.step setup i = some net') :
    Ordered net'.server net'.answered := by
  obtain ⟨hserver, hanswered, -⟩ | ⟨a, bytes, stack, env, server, effects, rfl, hread, rfl⟩ :=
    Network.step_server hstep
  · rwa [hserver, hanswered]
  rcases udpReadable_cases hread with ⟨rfl, rfl, -⟩ | ⟨-, hhandled⟩
  · exact h.harmless (harmless_nil 0 (received bytes stack))
  cases hhandled with
  | ignored _ hmoves => exact h.harmless hmoves
  | leaked node opens frees _ _ hpipe hmoves =>
    refine (h.put_fresh (Nat.le_add_right _ _) fun pipe hfd => ?_).harmless hmoves
    obtain ⟨rfl, hopens⟩ := hpipe pipe hfd
    exact ⟨rfl, by rw [hopens]; exact Nat.lt_succ_self _⟩
  | freed o node pipe opens _ _ _ _ _ _ hfree hmoves =>
    exact ((h.withHandle (Nat.le_add_right _ _)).freeOpening hp.withHandle hfree).harmless hmoves
  | granted grant => exact h.granted
  | started o node =>
    have hoffer : (startEffects net.server node.receiveFd (received bytes stack)).filterMap
        Effect.offer = [] := rfl
    rw [Network.serverCalls, hoffer, List.map_nil, List.append_nil]
    have hmore := h.withHandle (Nat.le_succ _)
    exact ⟨hmore.offered, hmore.bound, hmore.current, hmore.next⟩

/-- A child gets the pipe of the opening that `find_opening` returns, and nothing else changes for
the client. -/
theorem Network.child_of_step (hstep : net.step setup i = some net')
    (hchild : net'.started = net.started ++ [(a, r, w)]) :
    ∃ o node, findOpening net.server a = some (some o) ∧ net.server.openings o = some node ∧
      node.receiveFd = r ∧ net'.answered = net.answered ∧
      ∀ pipe, net'.ReceiveAgrees a pipe ↔ net.ReceiveAgrees a pipe := by
  obtain ⟨-, -, hstarted⟩ | ⟨b, bytes, stack, env, server, effects, -, hread, rfl⟩ :=
    Network.step_server hstep
  · simp [hchild] at hstarted
  have hnone : ∀ {opens frees : List Handle} {buffer : Buffer},
      Harmless net.server.nextHandle buffer effects opens frees → False := by
    intro _ _ _ hmoves
    simp [Network.serverCalls, hmoves.child_eq_nil] at hchild
  rcases udpReadable_cases hread with ⟨rfl, rfl, -⟩ | ⟨-, hhandled⟩
  · exact (hnone (harmless_nil _ (received bytes stack))).elim
  cases hhandled with
  | ignored _ hmoves | leaked _ _ _ _ _ _ hmoves | freed _ _ _ _ _ _ _ _ _ _ _ hmoves =>
    exact (hnone hmoves).elim
  | granted grant =>
    have hnothing : (grantEffects net.server b (received bytes stack) grant).filterMap
        Effect.child = [] := rfl
    simp [Network.serverCalls, hnothing] at hchild
  | started o node hmsg hlong hfound hnode =>
    have hsame : [(b, node.receiveFd, net.server.nextHandle)] = [(a, r, w)] :=
      List.append_cancel_left hchild
    cases hsame
    refine ⟨o, node, hfound, hnode, rfl, List.append_nil _, fun pipe => ?_⟩
    have hattached : Network.connect .server net.attached
        ((startEffects net.server node.receiveFd (received bytes stack)).filterMap
          Effect.connection) (.client a, Client.sendFd) = net.attached (.client a, Client.sendFd) :=
      Network.connect_of_ne fun c _ heq => by cases heq
    exact exists_congr fun g => and_congr (by rw [← hattached]; rfl) Iff.rfl

/-- In every run with fresh grants the packets are true and the offers are in order. -/
theorem sound_of_reaches (h : Reaches (Network.step setup) freshGrants (.initial setup) net) :
    Sound net ∧ Ordered net.server net.answered := by
  have hstep : ∀ net i after, Sound net ∧ Ordered net.server net.answered →
      freshGrants net i = true → Network.step setup net i = some after →
        Sound after ∧ Ordered after.server after.answered :=
    fun _ _ _ hs hf hi => ⟨hs.1.step hf hi, hs.2.step hs.1.pointers hi⟩
  exact h.invariant ⟨Sound.initial setup, Ordered.initial setup.serverPages⟩ hstep

end Newest

/-- Whenever the server starts a child on a packet from `a`, the child writes to the receive pipe
of this client, and it reads from a pipe that was offered to the client. This is the pipe that the
client writes to exactly when the client has taken the newest opening that the server still has for
it, and so it is whenever only one pipe was offered to the client. -/
theorem handshake_agrees (setup : Setup) (net net' : Network) (i : Input)
    (h : Reaches (Network.step setup) freshGrants (.initial setup) net)
    (hfresh : freshGrants net i = true) (hstep : net.step setup i = some net') (a : SockAddr)
    (receiveFd : Option Handle) (sendFd : Handle)
    (hchild : net'.started = net.started ++ [(a, receiveFd, sendFd)]) :
    net'.SendAgrees a sendFd ∧ ∃ pipe, receiveFd = some pipe ∧ (a, pipe) ∈ net.answered ∧
      (net'.ReceiveAgrees a pipe ↔ net.TakesNewest a) ∧
      (net.answered.countP (fun p => p.1 = a) ≤ 1 → net.TakesNewest a) := by
  obtain ⟨hsound, horder⟩ := sound_of_reaches h
  obtain ⟨o, node, hfound, hnode, rfl, hanswered, hagrees⟩ := Network.child_of_step hstep hchild
  obtain ⟨hsend, -, pipe', hreceive, hanswered'⟩ :=
    (hsound.step hfresh hstep).started a node.receiveFd sendFd (by simp [hchild])
  obtain ⟨node', pipe, hnode', hsource, hpipe, hmem⟩ := findOpening_pointed hsound.pointers hfound
  cases hnode.symm.trans hnode'
  have hopens : net.Opens a o pipe := ⟨hmem, node, hnode, hsource, hpipe⟩
  have hnewest : ∀ j q, net.Opens a j q → j ≤ o := by
    rintro j q ⟨hj, other, hother, rfl, hq⟩
    exact findOpening_newest horder hsound.pointers hfound j ⟨other, q, hother, hq, hj⟩
      (by simp [Server.isFrom, hother])
  refine ⟨hsend, pipe, hpipe, hmem, ?_, fun hone => ⟨o, pipe, hopens, ?_, hnewest⟩⟩
  · rw [hagrees]
    constructor
    · exact fun hpipes => ⟨o, pipe, hopens, hpipes, hnewest⟩
    · rintro ⟨j, q, hj, hpipes, hlast⟩
      obtain rfl : j = o := le_antisymm (hnewest j q hj) (hlast o pipe hopens)
      obtain ⟨-, other, hother, -, hq⟩ := hj
      cases hnode.symm.trans hother
      cases hpipe.symm.trans hq
      exact hpipes
  · rw [hanswered] at hanswered'
    have hsame := eq_of_countP_le_one hone hmem hanswered' (by simp) (by simp)
    cases hsame
    exact (hagrees _).mp hreceive

/-- A server on port 2000, and clients that propose four pages. -/
def plainSetup : Setup := ⟨⟨2000, 1⟩, 4, fun _ => 4⟩

/-- The client of the example runs, by its address and port. -/
def plainClient : SockAddr := ⟨4000, 7⟩

/-- The `CLIENT_HELLO` that this client sends. -/
def plainHello : List UInt8 := (helloPacket 3).dump Proto.clientHelloSize

/-- The `SERVER_GRANT` that answers it with a pipe of the server. -/
def plainGrant (g : Grant) : Buffer := grantPacket (received plainHello fun _ => 0) g 4

/-- The `CLIENT_GRANT` of a client that has received this one. -/
def plainAnswer (g : Grant) : Buffer :=
  answerPacket (Buffer.fill ((plainGrant g).dump Proto.grantSize) (helloPacket 3)) ⟨3, 5⟩ 4

/-- The client greets the server, which receives the `CLIENT_HELLO` as often as there are grants to
answer it, and the client takes one of them. -/
def greeting (grants : List Grant) (taken : Grant) : List Input :=
  .greet plainClient ⟨true, true, true, some 3, true⟩ ::
    (grants.map fun g =>
      .deliver plainClient plainHello (fun _ => 0) ⟨true, true, some g, true, true⟩) ++
    [.answer plainClient (some ((plainGrant taken).dump Proto.grantSize)) ⟨true, some ⟨3, 5⟩, true⟩]

/-- The last step of an example run, in which the server receives the `CLIENT_GRANT`. -/
def starting (taken : Grant) : Input :=
  .deliver plainClient ((plainAnswer taken).dump Proto.grantSize) (fun _ => 0)
    ⟨true, true, none, true, true⟩

/-- The `CLIENT_HELLO` is received twice, and the client takes the second grant. -/
theorem handshake_agrees_twice : ∃ net net',
    Reaches (Network.step plainSetup) freshGrants (.initial plainSetup) net ∧
      net.answered = [(plainClient, 0), (plainClient, 1)] ∧
      net.step plainSetup (starting ⟨1, 9⟩) = some net' ∧ net'.ReceiveAgrees plainClient 1 := by
  have hrun : (run (Network.step plainSetup) freshGrants (.initial plainSetup)
      (greeting [⟨1, 8⟩, ⟨1, 9⟩] ⟨1, 9⟩)).any (fun net =>
        net.answered = [(plainClient, 0), (plainClient, 1)] ∧ net.server.nextOpening = 2 ∧
        net.server.openings 1 = some ⟨plainClient, some 1, some 0⟩ ∧
        net.attached (.client plainClient, Client.sendFd) = some ⟨1, 9⟩ ∧
        net.offered ⟨1, 9⟩ = some (.server, 1) ∧ freshGrants net (starting ⟨1, 9⟩) = true ∧
        (net.step plainSetup (starting ⟨1, 9⟩)).any fun net' =>
          net'.started = net.started ++ [(plainClient, some 1, 2)]) = true := by
    decide +kernel
  obtain ⟨net, hreach, htest⟩ := exists_reaches_of_run hrun
  obtain ⟨hanswered, hnext, hnode, hattached, hoffered, hfresh, hstarts⟩ := of_decide_eq_true htest
  obtain ⟨net', hstep, hchild⟩ := (Option.any_eq_true _ _).mp hstarts
  have hnewest : net.TakesNewest plainClient := by
    refine ⟨1, 1, ⟨by simp [hanswered], _, hnode, rfl, rfl⟩, ⟨_, hattached, hoffered⟩, ?_⟩
    rintro j q ⟨-, node, hj, -⟩
    have hlt := ((sound_of_reaches hreach).2.bound j node hj).1
    rw [hnext] at hlt
    exact Nat.le_of_lt_succ hlt
  obtain ⟨-, pipe, hpipe, -, hagrees, -⟩ := handshake_agrees plainSetup net net' _ hreach hfresh
    hstep _ _ _ (of_decide_eq_true hchild)
  cases hpipe
  exact ⟨net, net', hreach, hanswered, hstep, hagrees.mpr hnewest⟩

/-- When the `CLIENT_HELLO` is received twice and the client takes the first grant, the child reads
from the second pipe and the client writes to the first one. -/
theorem not_handshake_agrees : ∃ net,
    Reaches (Network.step plainSetup) freshGrants (.initial plainSetup) net ∧
      (plainClient, some 1, 2) ∈ net.started ∧ ¬ net.ReceiveAgrees plainClient 1 := by
  have hrun : (run (Network.step plainSetup) freshGrants (.initial plainSetup)
      (greeting [⟨1, 8⟩, ⟨1, 9⟩] ⟨1, 8⟩ ++ [starting ⟨1, 8⟩])).any (fun net =>
        (plainClient, some 1, 2) ∈ net.started ∧
          net.attached (.client plainClient, Client.sendFd) = some ⟨1, 8⟩ ∧
          net.offered ⟨1, 8⟩ = some (.server, 0)) = true := by
    decide +kernel
  obtain ⟨net, hreach, hnet⟩ := exists_reaches_of_run hrun
  obtain ⟨hstarted, hattached, hoffered⟩ := of_decide_eq_true hnet
  refine ⟨net, hreach, hstarted, ?_⟩
  rintro ⟨g, hg, hpipe⟩
  cases hattached.symm.trans hg
  cases hoffered.symm.trans hpipe

end XenShm.Udp
