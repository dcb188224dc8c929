import XenShm.Udp.Agreement
import XenShm.Udp.Replies
import XenShm.Udp.Table

/-!
# A handshake that is left alone completes

No client can keep another one from being served. Between the steps of one client the others may
greet, answer and have their datagrams delivered as they like, in any number and with any calls
failing: if the datagrams of this client are delivered in order and its own calls succeed, then a
child is started for it, and the two agree on both pipes.
-/

namespace XenShm.Udp

open Library

/-- The client whose step it is, or whose packet is delivered. -/
def Input.client : Input → SockAddr
  | .greet a _ | .answer a _ _ | .deliver a _ _ _ => a

/-- The call of `udp_readable_cb` that the step makes of the server. -/
def Input.wakeup : Input → Wakeup
  | .deliver a bytes stack env => .datagram a bytes stack env
  | _ => .unreadable

/-- Grants are new, and the server takes no first opening out. -/
def careful (net : Network) (i : Input) : Bool :=
  freshGrants net i && removesBehind ⟨net.server, []⟩ i.wakeup

/-- The guard for steps of clients other than `a`. -/
def others (a : SockAddr) (net : Network) (i : Input) : Bool := careful net i && i.client ≠ a

/-- The input is possible, and then this holds, however the others go on. -/
def Network.After (setup : Setup) (a : SockAddr) (net : Network) (i : Input)
    (post : Network → Prop) : Prop :=
  ∃ net', net.step setup i = some net' ∧
    ∀ net'', Reaches (Network.step setup) (others a) net' net'' → post net''

/-- From here the client `a` can come to its two pipes. It calls `init_pipe`, its `CLIENT_HELLO` is
delivered and granted, it receives this grant and answers it, and its answer is delivered; before
each of these steps the others may go on as they like. -/
def Network.Completes (setup : Setup) (a : SockAddr) (domid : BitVec 32) (net : Network) : Prop :=
  net.After setup a (.greet a ⟨true, true, true, some domid, true⟩) fun net => ∃ hello,
    ∀ stack g, net.offered g = none →
      net.After setup a (.deliver a hello stack ⟨true, true, some g, true, true⟩) fun net =>
        ∃ grant, ∀ own, net.offered own = none →
          net.After setup a (.answer a (some grant) ⟨true, some own, true⟩) fun net => ∃ reply,
            ∀ stack, net.After setup a (.deliver a reply stack ⟨true, true, none, true, true⟩)
              fun net => net.clients a = .returned true ∧ ∃ receiveFd sendFd,
                (a, some receiveFd, sendFd) ∈ net.started ∧ net.SendAgrees a sendFd ∧
                  net.ReceiveAgrees a receiveFd

section Find

variable {t : Table} {a source : SockAddr} {pipe : Handle} {len : Nat} {buffer : Buffer}
  {env : Outcomes} {before effects : List Effect}

/-- What is found does not depend on what was erased for another test. -/
theorem find?_eraseP_of_disjoint {α : Type*} {p q : α → Bool} (l : List α)
    (h : ∀ x, p x = true → q x = false) : (l.eraseP p).find? q = l.find? q := by
  induction l with
  | nil => rfl
  | cons x l ih =>
    by_cases hp : p x = true
    · rw [List.eraseP_cons_of_pos hp, List.find?_cons_of_neg (by simp [h x hp])]
    · rw [List.eraseP_cons_of_neg hp, List.find?_cons, List.find?_cons, ih]

@[simp] theorem Table.find_call : (t.call effects).find a = t.find a := rfl

@[simp] theorem Table.find_openPipe : t.openPipe.find a = t.find a := rfl

/-- To forget one client leaves the others in the table. -/
theorem Table.find_forget_of_ne (h : source ≠ a) : (t.forget source).find a = t.find a := by
  unfold find forget
  rw [find?_eraseP_of_disjoint t.entries fun e he => ?_]
  simpa [of_decide_eq_true he] using h

/-- To give up the opening of one client leaves the others in the table. -/
theorem Table.find_giveUp_of_ne (h : source ≠ a) :
    (t.giveUp source pipe buffer before).find a = t.find a := find_forget_of_ne h

/-- A `CLIENT_HELLO` of one client leaves the others in the table. -/
theorem Table.find_greeted_of_ne (h : source ≠ a) :
    (t.greeted source len buffer env).find a = t.find a := by
  unfold greeted
  split
  · rfl
  split
  · rfl
  cases env.offers with
  | none => rfl
  | some grant => simp [find, call, h]

/-- A `CLIENT_GRANT` of one client leaves the others in the table. -/
theorem Table.find_answered_of_ne (h : source ≠ a) :
    (t.answered source pipe len buffer env).find a = t.find a := by
  unfold answered
  split
  · exact find_giveUp_of_ne h
  split
  · exact find_giveUp_of_ne h
  dsimp only
  split
  · exact find_giveUp_of_ne h
  split
  · rfl
  · exact find_forget_of_ne h

/-- A packet has nothing to do with the opening of another client. -/
theorem Table.find_handle_of_ne (h : source ≠ a) :
    (t.handle source len buffer env).find a = t.find a := by
  unfold handle
  split
  · rfl
  split
  · exact find_greeted_of_ne h
  split
  · split
    · rfl
    · exact find_giveUp_of_ne h
  split
  · split
    · rfl
    · exact find_answered_of_ne h
  · rfl

end Find

section Spared

variable {setup : Setup} {net net' net'' : Network} {a : SockAddr} {i : Input}

/-- What the steps of the others leave of a client. -/
structure Spared (a : SockAddr) (net net' : Network) : Prop where
  /-- The call of the client is where it was. -/
  client : net'.clients a = net.clients a
  /-- The send pipe of the client is connected as before. -/
  own : net'.attached (.client a, Client.sendFd) = net.attached (.client a, Client.sendFd)
  /-- What it sent can still be delivered. -/
  toServer : net.toServer ⊆ net'.toServer
  /-- The packets sent to the client are still in the network. -/
  toClient : net.toClient ⊆ net'.toClient
  /-- A grant that was made names the same pipe. -/
  offered : ∀ g p, net.offered g = some p → net'.offered g = some p
  /-- The server goes on with new pipes. -/
  handles : net.server.nextHandle ≤ net'.server.nextHandle
  /-- A pipe of the server that the client was offered is not connected anew. -/
  connected : ∀ w, w < net.server.nextHandle →
    net'.attached (.server, w) = net.attached (.server, w)
  /-- The children that were started are not forgotten. -/
  started : net.started ⊆ net'.started
  /-- The server knows of the same pipe. -/
  opening : ∀ t, net.server.Matches t → ∃ t', net'.server.Matches t' ∧ t'.find a = t.find a

/-- Without a step of the others everything is left. -/
theorem Spared.refl (a : SockAddr) (net : Network) : Spared a net net :=
  ⟨rfl, rfl, List.Subset.refl _, List.Subset.refl _, fun _ _ h => h, le_rfl, fun _ _ => rfl,
    List.Subset.refl _, fun t ht => ⟨t, ht, rfl⟩⟩

/-- What each of two runs leaves is left by both of them. -/
theorem Spared.trans (h : Spared a net net') (h' : Spared a net' net'') : Spared a net net'' where
  client := h'.client.trans h.client
  own := h'.own.trans h.own
  toServer := List.Subset.trans h.toServer h'.toServer
  toClient := List.Subset.trans h.toClient h'.toClient
  offered g p hg := h'.offered g p (h.offered g p hg)
  handles := h.handles.trans h'.handles
  connected w hw := (h'.connected w (hw.trans_le h.handles)).trans (h.connected w hw)
  started := List.Subset.trans h.started h'.started
  opening t ht := by
    obtain ⟨t', ht', hfind⟩ := h.opening t ht
    obtain ⟨t'', ht'', hfind'⟩ := h'.opening t' ht'
    exact ⟨t'', ht'', hfind'.trans hfind⟩

/-- The pipes that are offered and connected for one packet. -/
theorem Handled.pipes {s s' : Server} {source : SockAddr} {len : Nat} {buffer : Buffer}
    {env : Outcomes} {effects : List Effect} (h : Handled s source len buffer env s' effects) :
    s.nextHandle ≤ s'.nextHandle ∧
      (∀ o ∈ effects.filterMap Effect.offer, env.offers = some o.2) ∧
      ∀ c ∈ effects.filterMap Effect.connection, c.1 = s.nextHandle := by
  cases h with
  | ignored _ hmoves =>
    exact ⟨le_rfl, by simp [hmoves.offer_eq_nil], fun c hc => (hmoves.connection_mem c hc).1⟩
  | leaked _ _ _ _ _ _ hmoves =>
    exact ⟨Nat.le_add_right .., by simp [hmoves.offer_eq_nil],
      fun c hc => (hmoves.connection_mem c hc).1⟩
  | granted grant _ hoffers =>
    exact ⟨Nat.le_succ _, by simp [grantEffects, Effect.offer, hoffers],
      by simp [grantEffects, Effect.connection]⟩
  | freed _ _ _ _ _ _ _ _ _ _ hfree hmoves =>
    refine ⟨?_, by simp [hmoves.offer_eq_nil], fun c hc => (hmoves.connection_mem c hc).1⟩
    rw [(freeOpening_frame hfree).2.1]
    exact Nat.le_add_right ..
  | started =>
    exact ⟨Nat.le_succ _, by simp [startEffects, Effect.offer],
      by simp [startEffects, Effect.connection]⟩

/-- The server and the table of its openings go together over a datagram. -/
theorem Server.Matches.datagram {s s' : Server} {t : Table} {source : SockAddr}
    {bytes : List UInt8} {stack : Buffer} {env : Outcomes} {effects : List Effect}
    (h : s.Matches t) (hbehind : RemovesBehind ⟨s, []⟩ (.datagram source bytes stack env))
    (hread : udpReadable s (.datagram source bytes stack env) = some (s', effects)) :
    s'.Matches (t.handle source (min bytes.length Proto.maxLen) (received bytes stack) env) := by
  obtain ⟨s'', effects', hs'', hmatches, -⟩ := h.handlePacket hbehind
  obtain ⟨rfl, rfl⟩ := Prod.mk.inj (Option.some.inj (hread.symm.trans hs''))
  exact hmatches

/-- The calls of another client leave all of this client. -/
theorem spared_clientCalls {b : SockAddr} {client : Client} {effects : List Effect} (hb : b ≠ a)
    (hfresh : ∀ o ∈ effects.filterMap Effect.offer, net.offered o.2 = none) :
    Spared a net ({ net with clients := Function.update net.clients b client }.clientCalls b
      effects) where
  client := Function.update_of_ne hb.symm ..
  own := Network.connect_of_ne fun c _ heq => hb (Party.client.inj (congrArg Prod.fst heq))
  toServer := List.subset_append_left ..
  toClient := List.Subset.refl _
  offered g p hg := by
    refine (Network.offer_of_ne fun o ho heq => ?_).trans hg
    cases heq
    simp [hfresh o ho] at hg
  handles := le_rfl
  connected w _ := Network.connect_of_ne fun c _ heq => by cases heq
  started := List.Subset.refl _
  opening t ht := ⟨t, ht, rfl⟩

/-- A datagram of another client that is delivered leaves all of this client. -/
theorem spared_deliver {b : SockAddr} {bytes : List UInt8} {stack : Buffer} {env : Outcomes}
    (hb : b ≠ a) (hcareful : careful net (.deliver b bytes stack env) = true)
    (hstep : net.step setup (.deliver b bytes stack env) = some net') : Spared a net net' := by
  obtain ⟨hfresh, hbehind⟩ := Bool.and_eq_true_iff.mp hcareful
  simp only [Network.step, Option.ite_none_right_eq_some, Option.bind_eq_bind] at hstep
  obtain ⟨-, hstep⟩ := hstep
  obtain ⟨⟨server, effects⟩, hread, hstep⟩ := Option.bind_eq_some_iff.mp hstep
  obtain rfl := Option.some.inj hstep
  obtain ⟨hhandles, hoffers, hconnects⟩ : net.server.nextHandle ≤ server.nextHandle ∧
      (∀ o ∈ effects.filterMap Effect.offer, env.offers = some o.2) ∧
      ∀ c ∈ effects.filterMap Effect.connection, c.1 = net.server.nextHandle := by
    rcases udpReadable_cases hread with ⟨rfl, rfl, -⟩ | ⟨-, hhandled⟩
    · exact ⟨le_rfl, by simp, by simp⟩
    · exact hhandled.pipes
  refine ⟨rfl, ?_, List.Subset.refl _, List.subset_append_left .., fun g p hg => ?_, hhandles,
    fun w hw => ?_, List.subset_append_left .., fun t ht => ?_⟩
  · exact Network.connect_of_ne fun c _ heq => by cases heq
  · refine (Network.offer_of_ne fun o ho heq => ?_).trans hg
    cases heq
    have hnone : net.offered o.2 = none := by
      simpa [freshGrants, Input.grant, hoffers o ho] using hfresh
    simp [hnone] at hg
  · refine Network.connect_of_ne fun c hc heq => ?_
    cases heq
    exact hw.ne (hconnects c hc)
  · exact ⟨_, ht.datagram (of_decide_eq_true hbehind) hread, Table.find_handle_of_ne hb⟩

/-- A step of another client leaves all of this client. -/
theorem spared_step (hother : others a net i = true) (hstep : net.step setup i = some net') :
    Spared a net net' := by
  obtain ⟨hcareful, hne⟩ := Bool.and_eq_true_iff.mp hother
  have hfresh := (Bool.and_eq_true_iff.mp hcareful).1
  cases i with
  | greet b env =>
    simp only [Network.step] at hstep
    split at hstep
    · obtain rfl := Option.some.inj hstep
      exact spared_clientCalls (of_decide_eq_true hne) (by simp [(greet_calls setup.server env).1])
    · contradiction
  | answer b received env =>
    simp only [Network.step] at hstep
    split at hstep
    · rename_i buffer _
      split at hstep
      · obtain rfl := Option.some.inj hstep
        refine spared_clientCalls (of_decide_eq_true hne) fun o ho => ?_
        have hoffers : env.offers = some o.2 := by
          cases answer_calls setup.server (setup.clientPages b) buffer received env with
          | refused hoffer => simp [hoffer] at ho
          | connected _ _ _ _ hoffer => exact hoffer o ho
        simpa [freshGrants, Input.grant, hoffers] using hfresh
      · contradiction
    · contradiction
  | deliver b bytes stack env => exact spared_deliver (of_decide_eq_true hne) hcareful hstep

/-- Any number of steps of the others leave all of this client. -/
theorem spared_of_reaches (h : Reaches (Network.step setup) (others a) net net') :
    Spared a net net' := by
  induction h with
  | refl => exact .refl a net
  | tail _ hm ih =>
    obtain ⟨i, hother, hstep⟩ := hm
    exact ih.trans (spared_step hother hstep)

end Spared

section Stages

variable {setup : Setup} {net : Network} {t : Table} {a : SockAddr} {domid : BitVec 32}
  {g : Grant} {pipe : Handle} {b stack : Buffer} {count : UInt8}

/-- In a careful run there is always a table. -/
theorem exists_matches (h : Reaches (Network.step setup) careful (.initial setup) net) :
    ∃ t, net.server.Matches t := by
  induction h with
  | refl => exact ⟨_, (Represents.initial setup.serverPages).lists⟩
  | tail _ hm ih =>
    obtain ⟨i, hcareful, hstep⟩ := hm
    obtain ⟨t, ht⟩ := ih
    have hbehind := of_decide_eq_true (Bool.and_eq_true_iff.mp hcareful).2
    cases i with
    | greet b env =>
      simp only [Network.step] at hstep
      split at hstep
      · obtain rfl := Option.some.inj hstep
        exact ⟨t, ht⟩
      · contradiction
    | answer b received env =>
      simp only [Network.step] at hstep
      split at hstep
      · split at hstep
        · obtain rfl := Option.some.inj hstep
          exact ⟨t, ht⟩
        · contradiction
      · contradiction
    | deliver b bytes stack env =>
      simp only [Network.step, Option.ite_none_right_eq_some, Option.bind_eq_bind] at hstep
      obtain ⟨⟨server, effects⟩, hread, hstep⟩ := Option.bind_eq_some_iff.mp hstep.2
      obtain rfl := Option.some.inj hstep
      exact ⟨_, ht.datagram hbehind hread⟩

/-- The input is possible, and what the others leave of the next state is enough. -/
theorem Network.after {net' : Network} {i : Input} {post : Network → Prop}
    (hstep : net.step setup i = some net') (hpost : ∀ net'', Spared a net' net'' → post net'') :
    net.After setup a i post :=
  ⟨net', hstep, fun net'' h => hpost net'' (spared_of_reaches h)⟩

/-- The buffer is a `SERVER_GRANT` for this grant, with which the client can go on. -/
structure Grants (b : Buffer) (g : Grant) : Prop where
  version : getVersion b = Proto.version
  message : getMessage b = Proto.serverGrant
  mode : getMode b = Proto.readerOfferer
  grant : getGrant b = g

/-- A `SERVER_GRANT` arrives as it was sent. -/
theorem Grants.fill (h : Grants b g) (old : Buffer) :
    Grants (Buffer.fill (b.dump Proto.grantSize) old) g where
  version := (getVersion_fill (by decide)).trans h.version
  message := (getMessage_fill (by decide)).trans h.message
  mode := (getMode_fill (by decide)).trans h.mode
  grant := (getGrant_fill le_rfl).trans h.grant

/-- What the server reads of a `CLIENT_HELLO` that was sent to it. -/
theorem received_hello (domid : BitVec 32) (stack : Buffer) :
    getVersion (received ((helloPacket domid).dump Proto.clientHelloSize) stack) = Proto.version ∧
      getMessage (received ((helloPacket domid).dump Proto.clientHelloSize) stack) =
        Proto.clientHello := by
  rw [received, List.take_of_length_le (by simp; decide), getVersion_fill (by decide),
    getMessage_fill (by decide), getVersion_helloPacket, getMessage_helloPacket]
  exact ⟨rfl, rfl⟩

/-- The answer of the table to a `CLIENT_HELLO` is a grant for the client. -/
theorem Table.handle_hello (t : Table) (a : SockAddr) (domid : BitVec 32) (stack : Buffer)
    (g : Grant) :
    t.handle a (min ((helloPacket domid).dump Proto.clientHelloSize).length Proto.maxLen)
        (received ((helloPacket domid).dump Proto.clientHelloSize) stack)
        ⟨true, true, some g, true, true⟩ =
      { t.openPipe with entries := (a, t.nextHandle) :: t.entries }.call
        [.pipeInit .read (some t.nextHandle), .pipeOffers t.nextHandle t.pageCount
            (getHelloDomid (received ((helloPacket domid).dump Proto.clientHelloSize) stack))
            (some g),
          .sendto a ((grantPacket (received ((helloPacket domid).dump Proto.clientHelloSize) stack)
            g t.pageCount).dump Proto.grantSize)] := by
  obtain ⟨hversion, hmessage⟩ := received_hello domid stack
  have hlen : min ((helloPacket domid).dump Proto.clientHelloSize).length Proto.maxLen =
      Proto.clientHelloSize := by simp; decide
  unfold handle
  rw [hlen, if_neg (by simp [hversion]; decide), if_pos hmessage, greeted, if_neg (by simp)]
  rfl

/-- The answer of the table to a `CLIENT_GRANT` of a client that it finds is a child. -/
theorem Table.handle_answer (hversion : getVersion b = Proto.version)
    (hmode : getMode b = Proto.readerOfferer) (hfind : t.find a = some pipe) (stack : Buffer) :
    t.handle a (min ((answerPacket b g count).dump Proto.grantSize).length Proto.maxLen)
        (received ((answerPacket b g count).dump Proto.grantSize) stack)
        ⟨true, true, none, true, true⟩ =
      { t.openPipe with children := (pipe, t.nextHandle) :: t.children }.call
        [.pipeInit .write (some t.nextHandle), .pipeConnect t.nextHandle
            (getPageCount (received ((answerPacket b g count).dump Proto.grantSize) stack)) g true,
          .threadCreate (some pipe) t.nextHandle true] := by
  have htake : ((answerPacket b g count).dump Proto.grantSize).take Proto.maxLen =
      (answerPacket b g count).dump Proto.grantSize := List.take_of_length_le (by simp; decide)
  have hlen : min ((answerPacket b g count).dump Proto.grantSize).length Proto.maxLen =
      Proto.grantSize := by simp; decide
  have hversion' : getVersion (received ((answerPacket b g count).dump Proto.grantSize) stack) =
      Proto.version := by
    rw [received, htake, getVersion_fill (by decide)]
    simp [answerPacket, hversion]
  have hmessage : getMessage (received ((answerPacket b g count).dump Proto.grantSize) stack) =
      Proto.clientGrant := by
    rw [received, htake, getMessage_fill (by decide)]
    simp [answerPacket]
  have hmode' : getMode (received ((answerPacket b g count).dump Proto.grantSize) stack) =
      Proto.readerOfferer := by
    rw [received, htake, getMode_fill (by decide)]
    simp [answerPacket, hmode]
  have hgrant : getGrant (received ((answerPacket b g count).dump Proto.grantSize) stack) = g := by
    rw [received, htake, getGrant_fill le_rfl]
    simp [answerPacket]
  unfold handle
  rw [hlen, if_neg (by simp [hversion']; decide), if_neg (by rw [hmessage]; decide),
    if_neg (by rw [hmessage]; decide), if_pos hmessage, hfind]
  simp [answered, hmode', hgrant]

/-- The step of the network in which a client calls `init_pipe`. -/
theorem step_greet (setup : Setup) (env : GreetOutcomes) (h : net.clients a = .idle) :
    net.step setup (.greet a env) =
      some ({ net with
        clients := Function.update net.clients a (greet setup.server env).1 }.clientCalls
        a (greet setup.server env).2) := by
  simp only [Network.step, h]

/-- The step of the network in which a client answers the packet it receives. -/
theorem step_answer (setup : Setup) {bytes : List UInt8} (env : AnswerOutcomes)
    (h : net.clients a = .waiting b) (hsent : (a, bytes) ∈ net.toClient) :
    net.step setup (.answer a (some bytes) env) =
      some ({ net with clients := Function.update net.clients a (.returned
          (answer setup.server (setup.clientPages a) b (some bytes) env).1) }.clientCalls a
        (answer setup.server (setup.clientPages a) b (some bytes) env).2) := by
  simp only [Network.step, h, Option.all_some, hsent, decide_true, if_true]

/-- The step of the network in which the server receives a datagram. -/
theorem step_deliver (setup : Setup) {bytes : List UInt8} {env : Outcomes} {s' : Server}
    {effects : List Effect} (hsent : (a, bytes) ∈ net.toServer)
    (hread : udpReadable net.server (.datagram a bytes stack env) = some (s', effects)) :
    net.step setup (.deliver a bytes stack env) =
      some ({ net with server := s' }.serverCalls a
        effects) := by
  simp only [Network.step, if_pos hsent, hread, Option.bind_eq_bind, Option.bind_some]

/-- A packet for which the table makes these calls and goes on like that. -/
theorem deliver_of_table (setup : Setup) {t' : Table} {bytes : List UInt8} {env : Outcomes}
    {effects : List Effect} (hsent : (a, bytes) ∈ net.toServer) (ht : net.server.Matches t)
    (hbehind : RemovesBehind ⟨net.server, []⟩ (.datagram a bytes stack env))
    (htable : t.handle a (min bytes.length Proto.maxLen) (received bytes stack) env =
      t'.call effects) (hlog : t'.log = t.log) :
    ∃ s', s'.Matches t' ∧ net.step setup (.deliver a bytes stack env) =
      some ({ net with server := s' }.serverCalls a
        effects) := by
  obtain ⟨s', effects', hs', hmatches, heffects⟩ := ht.handlePacket hbehind
  rw [htable] at hmatches heffects
  obtain rfl : effects = effects' := by simpa [Table.call, hlog] using heffects
  exact ⟨s', ⟨hmatches.pageCount, hmatches.nextHandle, hmatches.openings, hmatches.children⟩,
    step_deliver setup hsent hs'⟩

/-- A client that has not begun can call `init_pipe`, and its `CLIENT_HELLO` is sent. -/
theorem exists_greet (setup : Setup) (hidle : net.clients a = .idle) (domid : BitVec 32) :
    ∃ net', net.step setup (.greet a ⟨true, true, true, some domid, true⟩) = some net' ∧
      net'.clients a = .waiting (helloPacket domid) ∧ net'.server = net.server ∧
      (a, (helloPacket domid).dump Proto.clientHelloSize) ∈ net'.toServer := by
  refine ⟨_, step_greet setup _ hidle, Function.update_self .., rfl, ?_⟩
  exact List.mem_append_right _ (by simp [greet, Effect.sent])

/-- The `CLIENT_HELLO` can be delivered, and a grant for the client is sent. -/
theorem exists_hello (setup : Setup)
    (hsent : (a, (helloPacket domid).dump Proto.clientHelloSize) ∈ net.toServer)
    (ht : net.server.Matches t) (stack : Buffer) (g : Grant) :
    ∃ net', net.step setup (.deliver a ((helloPacket domid).dump Proto.clientHelloSize) stack
        ⟨true, true, some g, true, true⟩) = some net' ∧ net'.clients = net.clients ∧
      net'.offered g = some (.server, t.nextHandle) ∧
      (∃ t', net'.server.Matches t' ∧ t'.find a = some t.nextHandle) ∧
      ∃ b, (a, b.dump Proto.grantSize) ∈ net'.toClient ∧ Grants b g := by
  obtain ⟨hversion, hmessage⟩ := received_hello domid stack
  obtain ⟨s', hmatches, hstep⟩ := deliver_of_table setup hsent ht
    (fun _ _ h => by rcases h with h | ⟨h, -⟩ <;> exact absurd (hmessage.symm.trans h) (by decide))
    (t.handle_hello a domid stack g) rfl
  refine ⟨_, hstep, rfl, Function.update_self .., ⟨_, hmatches, by simp [Table.find]⟩,
    grantPacket (received ((helloPacket domid).dump Proto.clientHelloSize) stack) g t.pageCount,
    List.mem_append_right _ (by simp [Effect.sent]), ?_⟩
  exact ⟨by simpa [grantPacket] using hversion, by simp [grantPacket], by simp [grantPacket],
    by simp [grantPacket]⟩

/-- The client can receive the grant, connect to it and answer with its own. -/
theorem exists_answer (setup : Setup) (hb : Grants b g)
    (hwait : net.clients a = .waiting (helloPacket domid))
    (hsent : (a, b.dump Proto.grantSize) ∈ net.toClient) (own : Grant) :
    ∃ net', net.step setup (.answer a (some (b.dump Proto.grantSize)) ⟨true, some own, true⟩) =
        some net' ∧ net'.clients a = .returned true ∧ net'.server = net.server ∧
      net'.attached (.client a, Client.sendFd) = some g ∧
      net'.offered = Function.update net.offered own (some (.client a, Client.receiveFd)) ∧
      ∃ b' count, (a, (answerPacket b' own count).dump Proto.grantSize) ∈ net'.toServer ∧
        Grants b' g := by
  have htake : (b.dump Proto.grantSize).take Proto.maxLen = b.dump Proto.grantSize :=
    List.take_of_length_le (by simp; decide)
  have hfill := hb.fill (helloPacket domid)
  set b' := Buffer.fill (b.dump Proto.grantSize) (helloPacket domid) with hb'
  have haccept : acceptable (min (b.dump Proto.grantSize).length Proto.maxLen) b' :=
    ⟨by simp; decide, hfill.message, by simp; decide, hfill.mode⟩
  have hanswer : answer setup.server (setup.clientPages a) (helloPacket domid)
      (some (b.dump Proto.grantSize)) ⟨true, some own, true⟩ = (true,
        .pipeConnect Client.sendFd (getPageCount b') g true ::
        .pipeOffers Client.receiveFd (setup.clientPages a) g.domid (some own) ::
        .sendto setup.server ((answerPacket b' own (setup.clientPages a)).dump Proto.grantSize) ::
        shutdownSocket) := by
    simp only [answer, htake, ← hb', hfill.grant, haccept]
    rfl
  refine ⟨_, step_answer setup _ hwait hsent, ?_⟩
  rw [hanswer]
  exact ⟨Function.update_self .., rfl, Function.update_self .., rfl, b', setup.clientPages a,
    List.mem_append_right _ (by simp [Effect.sent, shutdownSocket]), hfill⟩

/-- The answer of the client can be delivered, and a child is started with both pipes. -/
theorem exists_started (setup : Setup) {old : Grant} (hb : Grants b old)
    (hsent : (a, (answerPacket b g count).dump Proto.grantSize) ∈ net.toServer)
    (ht : net.server.Matches t) (hfind : t.find a = some pipe) (stack : Buffer) :
    ∃ net', net.step setup (.deliver a ((answerPacket b g count).dump Proto.grantSize) stack
        ⟨true, true, none, true, true⟩) = some net' ∧ net'.clients = net.clients ∧
      net'.offered = net.offered ∧ net'.attached = Function.update net.attached
        (.server, t.nextHandle) (some g) ∧ t.nextHandle < net'.server.nextHandle ∧
      (a, some pipe, t.nextHandle) ∈ net'.started := by
  have hbehind : RemovesBehind ⟨net.server, []⟩ (.datagram a
      ((answerPacket b g count).dump Proto.grantSize) stack ⟨true, true, none, true, true⟩) := by
    have htake : ((answerPacket b g count).dump Proto.grantSize).take Proto.maxLen =
        (answerPacket b g count).dump Proto.grantSize := List.take_of_length_le (by simp; decide)
    rintro - - (h | ⟨-, hnot⟩)
    · rw [received, htake, getMessage_fill (by decide)] at h
      simp [answerPacket] at h
      exact absurd h (by decide)
    · refine absurd ⟨?_, rfl, ?_, rfl, rfl, rfl⟩ hnot
      · simp
        decide
      · rw [received, htake, getMode_fill (by decide)]
        simp [answerPacket, hb.mode]
  obtain ⟨s', hmatches, hstep⟩ := deliver_of_table setup hsent ht hbehind
    (Table.handle_answer hb.version hb.mode hfind stack) rfl
  refine ⟨_, hstep, rfl, rfl, rfl, ?_, ?_⟩
  · exact (Nat.lt_succ_self _).trans_eq hmatches.nextHandle.symm
  · exact List.mem_append_right _ (by simp [Effect.child])

end Stages

/-- In every careful run a client that has not called `init_pipe` yet can still come to its two
pipes, whatever the others have done and go on to do. -/
theorem handshake_completes {setup : Setup} {net : Network} {a : SockAddr}
    (h : Reaches (Network.step setup) careful (.initial setup) net) (hidle : net.clients a = .idle)
    (domid : BitVec 32) : net.Completes setup a domid := by
  obtain ⟨t, ht⟩ := exists_matches h
  obtain ⟨net₁, hstep, hwait, hserver, hhello⟩ := exists_greet setup hidle domid
  refine Network.after hstep fun net₂ h₂ =>
    ⟨(helloPacket domid).dump Proto.clientHelloSize, fun stack g hg => ?_⟩
  obtain ⟨t₂, ht₂, -⟩ := h₂.opening t (hserver ▸ ht)
  obtain ⟨net₃, hstep, hclients, hoffered, ⟨t₃, ht₃, hfind⟩, b, hgrant, hb⟩ :=
    exists_hello setup (h₂.toServer hhello) ht₂ stack g
  refine Network.after hstep fun net₄ h₄ => ⟨b.dump Proto.grantSize, fun own hown => ?_⟩
  have hwait₄ : net₄.clients a = .waiting (helloPacket domid) := by
    rw [h₄.client, hclients, h₂.client, hwait]
  obtain ⟨t₄, ht₄, hfind₄⟩ := h₄.opening t₃ ht₃
  obtain ⟨net₅, hstep, hreturned, hserver, hattached, hoffered₅, b', count, hreply, hb'⟩ :=
    exists_answer setup hb hwait₄ (h₄.toClient hgrant) own
  refine Network.after hstep fun net₆ h₆ =>
    ⟨(answerPacket b' own count).dump Proto.grantSize, fun stack' => ?_⟩
  obtain ⟨t₆, ht₆, hfind₆⟩ := h₆.opening t₄ (hserver ▸ ht₄)
  obtain ⟨net₇, hstep, hclients₇, hoffered₇, hattached₇, hhandle, hstarted⟩ :=
    exists_started setup hb' (h₆.toServer hreply) ht₆ (hfind₆.trans (hfind₄.trans hfind)) stack'
  -- Both grants have kept their pipes since they were made.
  have hown₇ : net₇.offered own = some (.client a, Client.receiveFd) := by
    rw [hoffered₇]
    exact h₆.offered _ _ (by rw [hoffered₅, Function.update_self])
  have hg₇ : net₇.offered g = some (.server, t₂.nextHandle) := by
    have hkept := h₄.offered _ _ hoffered
    rw [hoffered₇]
    refine h₆.offered _ _ ?_
    rw [hoffered₅, Function.update_of_ne, hkept]
    rintro rfl
    simp [hown] at hkept
  refine Network.after hstep fun net₈ h₈ => ⟨?_, t₂.nextHandle, t₆.nextHandle,
    h₈.started hstarted, ⟨own, ?_, h₈.offered _ _ hown₇⟩, g, ?_, h₈.offered _ _ hg₇⟩
  · rw [h₈.client, hclients₇, h₆.client, hreturned]
  · rw [h₈.connected _ hhandle, hattached₇, Function.update_self]
  · rw [h₈.own, hattached₇, Function.update_of_ne (by simp), h₆.own, hattached]

/-- A second client completes its handshake when another one has greeted before. -/
theorem handshake_completes_second : ∃ net, net.toServer ≠ [] ∧
    Network.Completes plainSetup plainClient 3 net :=
  have hstep := step_greet plainSetup ⟨true, true, true, some 5, true⟩
    (show (Network.initial plainSetup).clients ⟨4001, 7⟩ = .idle from rfl)
  ⟨_, List.cons_ne_nil _ _, handshake_completes (.single ⟨_, rfl, hstep⟩) rfl 3⟩

end XenShm.Udp
