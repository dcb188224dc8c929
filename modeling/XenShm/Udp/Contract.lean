import XenShm.Udp.Agreement
import XenShm.Udp.Replies

/-!
# What is connected is what was offered

INIT_RECEIVER refuses a page count other than that of INIT_OFFERER, and maps only pages that were
granted to its own domain. The end that connects a pipe takes the page count from a packet, and the
end that offers it takes the domain from one. The offers, the connections and the domains that the
clients reported are recorded beside the network.
-/

namespace XenShm.Udp

open Library

/-- A pipe that was offered, with all that was said about it. -/
structure Offer where
  /-- The party that has offered the pipe. -/
  party : Party
  /-- The number of pages that the pipe was offered with. -/
  pageCount : UInt8
  /-- The domain that the pipe was offered to. -/
  domid : BitVec 32
  /-- The grant that names the pipe. -/
  grant : Grant
  deriving DecidableEq

/-- A call of `xen_shm_pipe_connect`, with all that was passed to it. -/
structure Connection where
  /-- The party that has made the call. -/
  party : Party
  /-- The number of pages that was passed. -/
  pageCount : UInt8
  /-- The grant that was passed. -/
  grant : Grant
  deriving DecidableEq

/-- The domain that a call of `xen_shm_pipe_getdomid` has reported. -/
def Effect.reported : Effect → Option (BitVec 32)
  | .getdomid _ domid => domid
  | _ => none

/-- The party whose calls the step makes. -/
def Input.party : Input → Party
  | .greet a _ | .answer a _ _ => .client a
  | .deliver _ _ _ _ => .server

/-- The calls that are made in a step. -/
def Network.effects (setup : Setup) (net : Network) : Input → List Effect
  | .greet _ env => (greet setup.server env).2
  | .answer a received env =>
    match net.clients a with
    | .waiting buffer => (answer setup.server (setup.clientPages a) buffer received env).2
    | _ => []
  | .deliver a bytes stack env =>
    (udpReadable net.server (.datagram a bytes stack env)).elim [] Prod.snd

/-- The network, and what was agreed on so far. -/
structure Contracts where
  /-- The network with its parties and its packets. -/
  net : Network
  /-- The pipes that were offered so far. -/
  offers : List Offer
  /-- The calls of `xen_shm_pipe_connect` that were made so far. -/
  connects : List Connection
  /-- The domains that were reported to the clients so far. -/
  domids : List (Party × BitVec 32)

namespace Contracts

/-- The record before anything was sent. -/
def initial (setup : Setup) : Contracts := ⟨.initial setup, [], [], []⟩

/-- Record the calls that a party has made in a step. -/
def record (l : Contracts) (party : Party) (effects : List Effect) (net : Network) : Contracts where
  net := net
  offers := l.offers ++
    (effects.filterMap Effect.offerTerms).map fun o => ⟨party, o.1, o.2.1, o.2.2⟩
  connects := l.connects ++ (effects.filterMap Effect.connectTerms).map fun c => ⟨party, c.1, c.2⟩
  domids := l.domids ++ (effects.filterMap Effect.reported).map fun d => (party, d)

/-- A step of the network, with its calls added to the record. -/
def step (setup : Setup) (l : Contracts) (i : Input) : Option Contracts :=
  (l.net.step setup i).map (l.record i.party (l.net.effects setup i))

/-- The guard under which every offered pipe gets a new grant. -/
def fresh (l : Contracts) (i : Input) : Bool := freshGrants l.net i

/-- The connection is what was offered. A client connects to what the server offered to the domain
of the client. The server connects to what a client offered to the domain that the server named in
a grant of its own. -/
def Fits (l : Contracts) (c : Connection) : Prop :=
  match c.party with
  | .client a => ∃ domid, (.client a, domid) ∈ l.domids ∧
      ⟨.server, c.pageCount, domid, c.grant⟩ ∈ l.offers
  | .server => ∃ a own pageCount domid, ⟨.server, pageCount, domid, own⟩ ∈ l.offers ∧
      ⟨.client a, c.pageCount, own.domid, c.grant⟩ ∈ l.offers

/-- A packet of the server to `a` that is long enough for a grant. -/
def Granted (l : Contracts) (a : SockAddr) (m : List UInt8) : Prop :=
  Proto.grantSize ≤ m.length → ∃ b domid, m = b.dump Proto.grantSize ∧
    (.client a, domid) ∈ l.domids ∧ ⟨.server, getPageCount b, domid, getGrant b⟩ ∈ l.offers

/-- A packet of the client `a`, with what the record says about its contents. -/
inductive Sent (l : Contracts) (a : SockAddr) : List UInt8 → Prop where
  /-- A `CLIENT_HELLO` with the domain that was reported to the client. -/
  | hello (domid : BitVec 32) (hdomid : (.client a, domid) ∈ l.domids) :
      Sent l a ((helloPacket domid).dump Proto.clientHelloSize)
  /-- A `CLIENT_RESET`, which says nothing about pipes. -/
  | reset (b : Buffer) : Sent l a ((setMessage b Proto.clientReset).dump Proto.headerSize)
  /-- A `CLIENT_GRANT` for a pipe that the client has offered. -/
  | grant (b : Buffer) (own : Grant) (pageCount : UInt8) (domid : BitVec 32)
      (hmsg : getMessage b = Proto.clientGrant)
      (hown : ⟨.server, pageCount, domid, own⟩ ∈ l.offers)
      (hoffer : ⟨.client a, getPageCount b, own.domid, getGrant b⟩ ∈ l.offers) :
      Sent l a (b.dump Proto.grantSize)

/-- The invariant of the record: what the packets tell was offered, and what was connected fits. -/
structure Kept (l : Contracts) : Prop where
  /-- The grants of all offers are taken. -/
  known : ∀ o ∈ l.offers, (l.net.offered o.grant).isSome = true
  /-- No grant was made for two offers. -/
  unique : ∀ o ∈ l.offers, ∀ o' ∈ l.offers, o.grant = o'.grant → o = o'
  /-- What the server has sent is in the record. -/
  toClient : ∀ a m, (a, m) ∈ l.net.toClient → l.Granted a m
  /-- What the clients have sent is in the record. -/
  toServer : ∀ a m, (a, m) ∈ l.net.toServer → l.Sent a m
  /-- What was connected fits an offer of the other party. -/
  fits : ∀ c ∈ l.connects, l.Fits c

section Records

variable {l l' : Contracts} {a : SockAddr} {m : List UInt8} {c : Connection}

/-- A later record, in which nothing of the earlier one is struck out. -/
structure Extends (l l' : Contracts) : Prop where
  offers : l.offers ⊆ l'.offers
  domids : l.domids ⊆ l'.domids

/-- To record calls strikes nothing out. -/
theorem extends_record (l : Contracts) (party : Party) (effects : List Effect) (net : Network) :
    Extends l (l.record party effects net) :=
  ⟨List.subset_append_left .., List.subset_append_left ..⟩

/-- A connection that fits an offer fits it in any later record. -/
theorem Fits.mono (h : l.Fits c) (hl : Extends l l') : l'.Fits c := by
  unfold Fits at h ⊢
  split at h
  · obtain ⟨domid, hdomid, hoffer⟩ := h
    exact ⟨domid, hl.domids hdomid, hl.offers hoffer⟩
  · obtain ⟨a, own, pageCount, domid, hown, hoffer⟩ := h
    exact ⟨a, own, pageCount, domid, hl.offers hown, hl.offers hoffer⟩

/-- A packet of the server stays one in any later record. -/
theorem Granted.mono (h : l.Granted a m) (hl : Extends l l') : l'.Granted a m := by
  intro hlen
  obtain ⟨b, domid, hm, hdomid, hoffer⟩ := h hlen
  exact ⟨b, domid, hm, hl.domids hdomid, hl.offers hoffer⟩

/-- A packet of a client stays one in any later record. -/
theorem Sent.mono (h : l.Sent a m) (hl : Extends l l') : l'.Sent a m := by
  cases h with
  | hello domid hdomid => exact .hello domid (hl.domids hdomid)
  | reset b => exact .reset b
  | grant b own pageCount domid hmsg hown hoffer =>
    exact .grant b own pageCount domid hmsg (hl.offers hown) (hl.offers hoffer)

end Records

section Steps

variable {setup : Setup} {l l' : Contracts} {net net' : Network} {i : Input} {a : SockAddr}
  {party : Party} {effects : List Effect} {g : Grant} {m : List UInt8}

/-- A grant that is taken stays taken, whatever is offered behind it. -/
theorem isSome_offer {offered : Grant → Option PipeId} {os : List (Handle × Grant)}
    (h : (offered g).isSome = true) : (Network.offer party offered os g).isSome = true := by
  induction os generalizing offered with
  | nil => exact h
  | cons o os ih =>
    change (Network.offer party (Function.update offered o.2 (some (party, o.1))) os g).isSome =
      true
    refine ih ?_
    by_cases hg : g = o.2
    · simp [hg]
    · rwa [Function.update_of_ne hg]

/-- The grant of a pipe that was offered is taken. -/
theorem isSome_offer_of_mem {offered : Grant → Option PipeId} {os : List (Handle × Grant)}
    {pipe : Handle} (h : (pipe, g) ∈ os) :
    (Network.offer party offered os g).isSome = true := by
  induction os generalizing offered with
  | nil => contradiction
  | cons o os ih =>
    change (Network.offer party (Function.update offered o.2 (some (party, o.1))) os g).isSome =
      true
    rcases List.mem_cons.mp h with rfl | h
    · exact isSome_offer (by simp)
    · exact ih h

/-- The network and the record are made from the same calls, so each offer is in both. -/
theorem offer_of_terms {pageCount : UInt8} {domid : BitVec 32}
    (h : (pageCount, domid, g) ∈ effects.filterMap Effect.offerTerms) :
    ∃ pipe, (pipe, g) ∈ effects.filterMap Effect.offer := by
  obtain ⟨e, he, heq⟩ := List.mem_filterMap.mp h
  unfold Effect.offerTerms at heq
  split at heq
  · cases heq
    exact ⟨_, List.mem_filterMap.mpr ⟨_, he, rfl⟩⟩
  · contradiction

/-- The calls of a step, one offer with a new grant at most. -/
theorem Kept.record (h : l.Kept)
    (hoffered : net'.offered = Network.offer party l.net.offered (effects.filterMap Effect.offer))
    (hfresh : ∀ o ∈ effects.filterMap Effect.offerTerms, l.net.offered o.2.2 = none)
    (hone : ∀ o ∈ effects.filterMap Effect.offerTerms,
      ∀ o' ∈ effects.filterMap Effect.offerTerms, o = o')
    (htoClient : ∀ a m, (a, m) ∈ net'.toClient →
      (a, m) ∈ l.net.toClient ∨ (l.record party effects net').Granted a m)
    (htoServer : ∀ a m, (a, m) ∈ net'.toServer →
      (a, m) ∈ l.net.toServer ∨ (l.record party effects net').Sent a m)
    (hfits : ∀ c ∈ effects.filterMap Effect.connectTerms, l.Fits ⟨party, c.1, c.2⟩) :
    (l.record party effects net').Kept := by
  have hext := extends_record l party effects net'
  refine ⟨fun o ho => ?_, fun o ho o' ho' heq => ?_, fun a m hm => ?_, fun a m hm => ?_,
    fun c hc => ?_⟩
  · change (net'.offered o.grant).isSome = true
    rw [hoffered]
    rcases List.mem_append.mp ho with ho | ho
    · exact isSome_offer (h.known o ho)
    · obtain ⟨⟨pageCount, domid, grant⟩, hterms, rfl⟩ := List.mem_map.mp ho
      obtain ⟨pipe, hpipe⟩ := offer_of_terms hterms
      exact isSome_offer_of_mem hpipe
  · rcases List.mem_append.mp ho with ho | ho <;> rcases List.mem_append.mp ho' with ho' | ho'
    · exact h.unique o ho o' ho' heq
    · obtain ⟨terms, hterms, rfl⟩ := List.mem_map.mp ho'
      have hknown := h.known o ho
      simp [heq, hfresh terms hterms] at hknown
    · obtain ⟨terms, hterms, rfl⟩ := List.mem_map.mp ho
      have hknown := h.known o' ho'
      simp [← heq, hfresh terms hterms] at hknown
    · obtain ⟨terms, hterms, rfl⟩ := List.mem_map.mp ho
      obtain ⟨terms', hterms', rfl⟩ := List.mem_map.mp ho'
      rw [hone terms hterms terms' hterms']
  · rcases htoClient a m hm with hm | hm
    · exact (h.toClient a m hm).mono hext
    · exact hm
  · rcases htoServer a m hm with hm | hm
    · exact (h.toServer a m hm).mono hext
    · exact hm
  · rcases List.mem_append.mp hc with hc | hc
    · exact (h.fits c hc).mono hext
    · obtain ⟨terms, hterms, rfl⟩ := List.mem_map.mp hc
      exact (hfits terms hterms).mono hext

/-- What `init_pipe` calls before it waits offers nothing, and reports the domain of the client. -/
theorem greet_terms (server : SockAddr) (env : GreetOutcomes) :
    (greet server env).2.filterMap Effect.offerTerms = [] ∧
      (greet server env).2.filterMap Effect.connectTerms = [] ∧
      ∀ m ∈ (greet server env).2.filterMap Effect.sent,
        (∃ domid ∈ (greet server env).2.filterMap Effect.reported,
          m.2 = (helloPacket domid).dump Proto.clientHelloSize) ∨
        ∃ b, m.2 = (setMessage b Proto.clientReset).dump Proto.headerSize := by
  unfold greet
  split
  · exact ⟨rfl, rfl, by simp [Effect.sent]⟩
  split
  · exact ⟨rfl, rfl, by simp [Effect.sent, shutdownSocket]⟩
  dsimp only
  split
  · exact ⟨rfl, rfl, by simp [Effect.sent, cleanReceiveFd, shutdownSocket]⟩
  split
  · exact ⟨rfl, rfl, by simp [Effect.sent, cleanSendFd, cleanReceiveFd, shutdownSocket]⟩
  rename_i domid hdomid
  split
  · refine ⟨rfl, rfl, fun m hm => .inr ⟨helloPacket domid, ?_⟩⟩
    cases List.mem_singleton.mp hm
    rfl
  · refine ⟨rfl, rfl, fun m hm => .inl ⟨domid, by simp [Effect.reported, hdomid], ?_⟩⟩
    cases List.mem_singleton.mp hm
    rfl

/-- What `init_pipe` calls for the datagram that it received. -/
theorem answer_terms (server : SockAddr) (pageCount : UInt8) (b : Buffer)
    (received : Option (List UInt8)) (env : AnswerOutcomes) :
    let effects := (answer server pageCount b received env).2
    effects.filterMap Effect.offerTerms = [] ∧ effects.filterMap Effect.connectTerms = [] ∧
        (∀ m ∈ effects.filterMap Effect.sent,
          ∃ b, m.2 = (setMessage b Proto.clientReset).dump Proto.headerSize) ∨
      ∃ bytes b', received = some bytes ∧ Proto.grantSize ≤ min bytes.length Proto.maxLen ∧
        b' = Buffer.fill (bytes.take Proto.maxLen) b ∧
        effects.filterMap Effect.connectTerms = [(getPageCount b', getGrant b')] ∧
        (∀ o ∈ effects.filterMap Effect.offerTerms, ∃ own, env.offers = some own ∧
          o = (pageCount, (getGrant b').domid, own)) ∧
        ∀ m ∈ effects.filterMap Effect.sent,
          (∃ b, m.2 = (setMessage b Proto.clientReset).dump Proto.headerSize) ∨
          ∃ own, (pageCount, (getGrant b').domid, own) ∈ effects.filterMap Effect.offerTerms ∧
            m.2 = (answerPacket b' own pageCount).dump Proto.grantSize := by
  cases received with
  | none => exact .inl ⟨rfl, rfl, fun m hm => ⟨b, by cases List.mem_singleton.mp hm; rfl⟩⟩
  | some bytes =>
    dsimp only [answer]
    split
    · refine .inl ⟨rfl, rfl, fun m hm => ⟨Buffer.fill (bytes.take Proto.maxLen) b, ?_⟩⟩
      cases List.mem_singleton.mp hm
      rfl
    rename_i haccept
    have hlen := (Decidable.not_not.mp haccept).2.2.1
    refine .inr ⟨bytes, _, rfl, hlen, rfl, ?_⟩
    split
    · refine ⟨rfl, fun o ho => absurd ho List.not_mem_nil, fun m hm =>
      .inl ⟨Buffer.fill (bytes.take Proto.maxLen) b, ?_⟩⟩
      cases List.mem_singleton.mp hm
      rfl
    cases hoffers : env.offers with
    | none =>
      refine ⟨rfl, fun o ho => absurd ho List.not_mem_nil, fun m hm =>
        .inl ⟨Buffer.fill (bytes.take Proto.maxLen) b, ?_⟩⟩
      cases List.mem_singleton.mp hm
      rfl
    | some own =>
      dsimp only
      split
      · refine ⟨rfl, fun o ho => ⟨own, rfl, List.mem_singleton.mp ho⟩, fun m hm =>
          .inl ⟨answerPacket (Buffer.fill (bytes.take Proto.maxLen) b) own pageCount, ?_⟩⟩
        cases List.mem_singleton.mp hm
        rfl
      · refine ⟨rfl, fun o ho => ⟨own, rfl, List.mem_singleton.mp ho⟩, fun m hm =>
          .inr ⟨own, ?_, ?_⟩⟩
        · simp [Effect.offerTerms]
        · cases List.mem_singleton.mp hm
          rfl

/-- What the clients sent, after some more calls of one of them. -/
theorem mem_clientCalls {net : Network} {b : SockAddr}
    (h : (b, m) ∈ (net.clientCalls a effects).toServer) :
    (b, m) ∈ net.toServer ∨ b = a ∧ ∃ dest, (dest, m) ∈ effects.filterMap Effect.sent := by
  rcases List.mem_append.mp h with h | h
  · exact .inl h
  · obtain ⟨⟨dest, m'⟩, hm, heq⟩ := List.mem_map.mp h
    cases heq
    exact .inr ⟨rfl, dest, hm⟩

/-- A client that calls `init_pipe` keeps the record in order. -/
theorem Kept.greet {env : GreetOutcomes} (h : l.Kept)
    (hstep : l.step setup (.greet a env) = some l') : l'.Kept := by
  obtain ⟨net', hnet, rfl⟩ := Option.map_eq_some_iff.mp hstep
  simp only [Network.step] at hnet
  split at hnet
  swap
  · contradiction
  obtain rfl := Option.some.inj hnet
  obtain ⟨hoffers, hconnects, hsent⟩ := greet_terms setup.server env
  refine h.record rfl (by simp [Network.effects, hoffers]) (by simp [Network.effects, hoffers])
    (fun _ _ hm => .inl hm) (fun b m hm => ?_) (by simp [Network.effects, hconnects])
  rcases mem_clientCalls hm with hm | ⟨rfl, dest, hm⟩
  · exact .inl hm
  refine .inr ?_
  rcases hsent _ hm with ⟨domid, hdomid, hm⟩ | ⟨b', hm⟩
  · cases hm
    exact .hello domid (List.mem_append_right _ (List.mem_map_of_mem hdomid))
  · cases hm
    exact .reset b'

/-- The grant in a packet that the client received. -/
theorem Granted.received {bytes : List UInt8} {b : Buffer} (h : l.Granted a bytes)
    (hlen : Proto.grantSize ≤ min bytes.length Proto.maxLen) :
    ∃ domid, (.client a, domid) ∈ l.domids ∧
      ⟨.server, getPageCount (Buffer.fill (bytes.take Proto.maxLen) b), domid,
        getGrant (Buffer.fill (bytes.take Proto.maxLen) b)⟩ ∈ l.offers := by
  obtain ⟨b', domid, rfl, hdomid, hoffer⟩ := h (hlen.trans (Nat.min_le_left ..))
  rw [List.take_of_length_le (by simp; decide), getPageCount_fill (by decide),
    getGrant_fill le_rfl]
  exact ⟨domid, hdomid, hoffer⟩

/-- A client that answers what it has received keeps the record in order. -/
theorem Kept.answer {received : Option (List UInt8)} {env : AnswerOutcomes} (h : l.Kept)
    (hfresh : l.fresh (.answer a received env) = true)
    (hstep : l.step setup (.answer a received env) = some l') : l'.Kept := by
  obtain ⟨net', hnet, rfl⟩ := Option.map_eq_some_iff.mp hstep
  simp only [Network.step] at hnet
  split at hnet
  swap
  · contradiction
  rename_i buffer hwait
  split at hnet
  swap
  · contradiction
  rename_i hin
  obtain rfl := Option.some.inj hnet
  have heffects : l.net.effects setup (.answer a received env) =
      (Udp.answer setup.server (setup.clientPages a) buffer received env).2 := by
    simp only [Network.effects, hwait]
  rw [heffects]
  rcases answer_terms setup.server (setup.clientPages a) buffer received env with
    ⟨hoffers, hconnects, hsent⟩ | ⟨bytes, b, hreceived, hlen, hb, hconnects, hoffers, hsent⟩
  · refine h.record rfl (by simp [hoffers]) (by simp [hoffers]) (fun _ _ hm => .inl hm)
      (fun c m hm => ?_) (by simp [hconnects])
    rcases mem_clientCalls hm with hm | ⟨rfl, dest, hm⟩
    · exact .inl hm
    · obtain ⟨b, hm⟩ := hsent _ hm
      cases hm
      exact .inr (.reset b)
  · have hmem : (a, bytes) ∈ l.net.toClient := by simpa [hreceived] using hin
    obtain ⟨domid, hdomid, hoffer⟩ := (h.toClient a bytes hmem).received (b := buffer) hlen
    rw [← hb] at hoffer
    refine h.record rfl (fun o ho => ?_) (fun o ho o' ho' => ?_) (fun _ _ hm => .inl hm)
      (fun c m hm => ?_) (fun c hc => ?_)
    · obtain ⟨own, hown, rfl⟩ := hoffers o ho
      simpa [fresh, freshGrants, Input.grant, hown] using hfresh
    · obtain ⟨own, hown, rfl⟩ := hoffers o ho
      obtain ⟨own', hown', rfl⟩ := hoffers o' ho'
      cases hown.symm.trans hown'
      rfl
    · rcases mem_clientCalls hm with hm | ⟨rfl, dest, hm⟩
      · exact .inl hm
      refine .inr ?_
      rcases hsent _ hm with ⟨b', hm⟩ | ⟨own, hown, hm⟩
      · cases hm
        exact .reset b'
      · cases hm
        refine .grant _ (getGrant b) (getPageCount b) domid (by simp [answerPacket])
          (List.mem_append_left _ hoffer) (List.mem_append_right _ ?_)
        refine List.mem_map.mpr ⟨_, hown, ?_⟩
        simp [answerPacket, Input.party]
    · rw [hconnects, List.mem_singleton] at hc
      cases hc
      exact ⟨domid, hdomid, hoffer⟩

/-- The domain in a packet that the server takes for a `CLIENT_HELLO`. -/
theorem Sent.received_hello {bytes : List UInt8} {stack : Buffer} (h : l.Sent a bytes)
    (hlen : Proto.clientHelloSize ≤ min bytes.length Proto.maxLen)
    (hmsg : getMessage (received bytes stack) = Proto.clientHello) :
    (.client a, getHelloDomid (received bytes stack)) ∈ l.domids := by
  cases h with
  | hello domid hdomid =>
    rwa [received, List.take_of_length_le (by simp; decide), getHelloDomid_fill (by decide),
      getHelloDomid_helloPacket]
  | reset b => simp [Proto.clientHelloSize, Proto.headerSize] at hlen
  | grant b own pageCount domid hmsg' hown hoffer =>
    rw [received, List.take_of_length_le (by simp; decide), getMessage_fill (by decide),
      hmsg'] at hmsg
    exact absurd hmsg (by decide)

/-- The offer in a packet that is long enough for a `CLIENT_GRANT`. -/
theorem Sent.received_grant {bytes : List UInt8} {stack : Buffer} (h : l.Sent a bytes)
    (hlen : Proto.grantSize ≤ min bytes.length Proto.maxLen) :
    l.Fits ⟨.server, getPageCount (received bytes stack), getGrant (received bytes stack)⟩ := by
  cases h with
  | hello domid hdomid => simp [Proto.grantSize, Proto.clientHelloSize] at hlen
  | reset b => simp [Proto.grantSize, Proto.headerSize] at hlen
  | grant b own pageCount domid hmsg hown hoffer =>
    rw [received, List.take_of_length_le (by simp; decide), getPageCount_fill (by decide),
      getGrant_fill le_rfl]
    exact ⟨a, own, pageCount, domid, hown, hoffer⟩

/-- A server that receives a datagram keeps the record in order. -/
theorem Kept.deliver {bytes : List UInt8} {stack : Buffer} {env : Outcomes} (h : l.Kept)
    (hfresh : l.fresh (.deliver a bytes stack env) = true)
    (hstep : l.step setup (.deliver a bytes stack env) = some l') : l'.Kept := by
  obtain ⟨net', hnet, rfl⟩ := Option.map_eq_some_iff.mp hstep
  simp only [Network.step, Option.ite_none_right_eq_some, Option.bind_eq_bind] at hnet
  obtain ⟨hin, hnet⟩ := hnet
  obtain ⟨⟨server, effects⟩, hread, hnet⟩ := Option.bind_eq_some_iff.mp hnet
  obtain rfl := Option.some.inj hnet
  have heffects : l.net.effects setup (.deliver a bytes stack env) = effects := by
    simp only [Network.effects, hread, Option.elim_some]
  rw [heffects]
  have hsender := h.toServer a bytes hin
  cases handlePacket_replies hread with
  | granted grant hmsg hlen hgrant hoffers hconnects hsent =>
    have hdomid := hsender.received_hello hlen hmsg
    refine h.record rfl (fun o ho => ?_) (fun o ho o' ho' => ?_) (fun b m hm => ?_)
      (fun _ _ hm => .inl hm) (by simp [hconnects])
    · rw [hoffers, List.mem_singleton] at ho
      subst ho
      simpa [fresh, freshGrants, Input.grant, hgrant] using hfresh
    · rw [hoffers, List.mem_singleton] at ho ho'
      rw [ho, ho']
    · rcases List.mem_append.mp hm with hm | hm
      · exact .inl hm
      rw [hsent, List.mem_singleton] at hm
      cases hm
      refine .inr fun _ => ⟨_, _, rfl, List.mem_append_left _ hdomid, List.mem_append_right _ ?_⟩
      simp [hoffers, grantPacket, Input.party]
  | other hoffers hconnects hsent =>
    refine h.record rfl (by simp [hoffers]) (by simp [hoffers]) (fun b m hm => ?_)
      (fun _ _ hm => .inl hm) (fun c hc => ?_)
    · rcases List.mem_append.mp hm with hm | hm
      · exact .inl hm
      rcases hsent with hsent | ⟨-, hsent⟩ <;> rw [hsent] at hm
      · contradiction
      · cases List.mem_singleton.mp hm
        exact .inr fun hlong => by simp [Proto.grantSize, Proto.headerSize] at hlong
    · obtain ⟨hlen, rfl⟩ := hconnects c hc
      exact hsender.received_grant hlen

/-- Every step of the network with fresh grants keeps the record in order. -/
theorem Kept.step (h : l.Kept) (hfresh : l.fresh i = true) (hstep : l.step setup i = some l') :
    l'.Kept := by
  cases i with
  | greet a env => exact h.greet hstep
  | answer a received env => exact h.answer hfresh hstep
  | deliver a bytes stack env => exact h.deliver hfresh hstep

/-- The record before the first packet is in order. -/
theorem Kept.initial (setup : Setup) : (initial setup).Kept := by
  refine ⟨?_, ?_, ?_, ?_, ?_⟩ <;> simp [Contracts.initial, Network.initial]

end Steps

end Contracts

/-- Over a network that loses, repeats, delays and reorders as it likes, and whatever the calls come
to, every call of `xen_shm_pipe_connect` is made with the page count with which its grant was
offered, and the grant was offered to the domain of the program that connects. No grant is offered
twice. -/
theorem connections_fit {setup : Setup} {l : Contracts}
    (h : Reaches (Contracts.step setup) Contracts.fresh (.initial setup) l) :
    (∀ c ∈ l.connects, l.Fits c) ∧
      ∀ o ∈ l.offers, ∀ o' ∈ l.offers, o.grant = o'.grant → o = o' := by
  have hkept : l.Kept :=
    h.invariant (.initial setup) fun _ _ _ hk hfresh hstep => hk.step hfresh hstep
  exact ⟨hkept.fits, hkept.unique⟩

/-- A handshake without duplicates makes two connections, each of which fits the offer of the other
party. -/
theorem connections_fit_handshake : ∃ l,
    Reaches (Contracts.step plainSetup) Contracts.fresh (.initial plainSetup) l ∧
      l.connects = [⟨.client plainClient, 4, ⟨1, 8⟩⟩, ⟨.server, 4, ⟨3, 5⟩⟩] ∧
      ∀ c ∈ l.connects, l.Fits c := by
  have hrun : (run (Contracts.step plainSetup) Contracts.fresh (.initial plainSetup)
      (greeting [⟨1, 8⟩] ⟨1, 8⟩ ++ [starting ⟨1, 8⟩])).any (fun l =>
        l.connects = [⟨.client plainClient, 4, ⟨1, 8⟩⟩, ⟨.server, 4, ⟨3, 5⟩⟩]) = true := by
    decide +kernel
  obtain ⟨l, hreach, hl⟩ := exists_reaches_of_run hrun
  exact ⟨l, hreach, of_decide_eq_true hl, (connections_fit hreach).1⟩

end XenShm.Udp
