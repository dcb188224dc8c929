import XenShm.Udp.InitPipe
import XenShm.Udp.Network
import XenShm.Udp.Ownership

/-!
# What a packet makes the server do

Every datagram makes the server send one datagram at most, and only to the sender. A grant is
half as long again as the `CLIENT_HELLO` that asks for it, and everything else that is sent is not
longer than what was received. The server can not be used to flood another host.
-/

namespace XenShm.Udp

open Library

section Fields

variable {b old : Buffer} {g : Grant} {v : UInt8} {n : Nat} {domid : BitVec 32}

/-! What the two ends test of the packets that they send each other. -/

@[simp] theorem getVersion_setGrant : getVersion (setGrant b g) = getVersion b := by
  simp [getVersion, setGrant, Buffer.store32]

@[simp] theorem getVersion_setMessage : getVersion (setMessage b v) = getVersion b := by
  simp [getVersion, setMessage]

@[simp] theorem getVersion_setMode : getVersion (setMode b v) = getVersion b := by
  simp [getVersion, setMode]

@[simp] theorem getVersion_setPageCount : getVersion (setPageCount b v) = getVersion b := by
  simp [getVersion, setPageCount]

@[simp] theorem getMode_setGrant : getMode (setGrant b g) = getMode b := by
  simp [getMode, setGrant, Buffer.store32]

@[simp] theorem getMode_setMessage : getMode (setMessage b v) = getMode b := by
  simp [getMode, setMessage]

@[simp] theorem getMode_setMode : getMode (setMode b v) = v := by simp [getMode, setMode]

@[simp] theorem getMode_setPageCount : getMode (setPageCount b v) = getMode b := by
  simp [getMode, setPageCount]

/-- The version arrives with any part of the packet. -/
theorem getVersion_fill (h : 0 < n) : getVersion (Buffer.fill (b.dump n) old) = getVersion b :=
  Buffer.fill_dump h

/-- The message arrives with the first two bytes. -/
theorem getMessage_fill (h : 1 < n) : getMessage (Buffer.fill (b.dump n) old) = getMessage b :=
  Buffer.fill_dump h

/-- The mode arrives with the bytes up to it. -/
theorem getMode_fill (h : 16 < n) : getMode (Buffer.fill (b.dump n) old) = getMode b :=
  Buffer.fill_dump h

@[simp] theorem getPageCount_setPageCount : getPageCount (setPageCount b v) = v := by
  simp [getPageCount, setPageCount]

/-- The page count arrives with the bytes up to it. -/
theorem getPageCount_fill (h : 17 < n) :
    getPageCount (Buffer.fill (b.dump n) old) = getPageCount b := Buffer.fill_dump h

/-- The domain of a `CLIENT_HELLO` arrives with its four bytes. -/
theorem getHelloDomid_fill (h : 12 ≤ n) :
    getHelloDomid (Buffer.fill (b.dump n) old) = getHelloDomid b := Buffer.load32_fill_dump h

@[simp] theorem getHelloDomid_helloPacket : getHelloDomid (helloPacket domid) = domid :=
  Buffer.load32_store32 ..

@[simp] theorem getVersion_helloPacket : getVersion (helloPacket domid) = Proto.version := by
  simp [helloPacket, getVersion, setHelloDomid, setMessage, setVersion, Buffer.store32]

end Fields

/-- What was offered: the page count, the domain that may connect, and the grant. -/
def Effect.offerTerms : Effect → Option (UInt8 × BitVec 32 × Grant)
  | .pipeOffers _ pageCount domid (some grant) => some (pageCount, domid, grant)
  | _ => none

/-- What a pipe was to be connected to, and with which page count. -/
def Effect.connectTerms : Effect → Option (UInt8 × Grant)
  | .pipeConnect _ pageCount grant _ => some (pageCount, grant)
  | _ => none

section Packet

variable {s s' s'' : Server} {source : SockAddr} {len : Nat} {buffer : Buffer} {env : Outcomes}
  {effects before : List Effect} {o : Id}

/-- What the server asks for when it handles a packet. -/
inductive Replies (s : Server) (source : SockAddr) (len : Nat) (buffer : Buffer) (env : Outcomes)
    (effects : List Effect) : Prop where
  /-- A pipe is offered as the `CLIENT_HELLO` asks for it, and the grant is sent back. -/
  | granted (grant : Grant) (hmsg : getMessage buffer = Proto.clientHello)
      (hlen : Proto.clientHelloSize ≤ len) (hgrant : env.offers = some grant)
      (hoffers : effects.filterMap Effect.offerTerms =
        [(s.pageCount, getHelloDomid buffer, grant)])
      (hconnects : effects.filterMap Effect.connectTerms = [])
      (hsent : effects.filterMap Effect.sent =
        [(source, (grantPacket buffer grant s.pageCount).dump Proto.grantSize)])
  /-- A pipe is connected as the `CLIENT_GRANT` says, or none is, and a reset may be sent back. -/
  | other (hoffers : effects.filterMap Effect.offerTerms = [])
      (hconnects : ∀ c ∈ effects.filterMap Effect.connectTerms,
        Proto.grantSize ≤ len ∧ c = (getPageCount buffer, getGrant buffer))
      (hsent : effects.filterMap Effect.sent = [] ∨ Proto.headerSize ≤ len ∧
        effects.filterMap Effect.sent =
          [(source, (setMessage buffer Proto.serverReset).dump Proto.headerSize)])

/-- The label `server_reset` after calls that send nothing. -/
theorem Replies.reset (before : List Effect) (hlen : Proto.headerSize ≤ len)
    (hoffers : before.filterMap Effect.offerTerms = [])
    (hconnects : ∀ c ∈ before.filterMap Effect.connectTerms,
      Proto.grantSize ≤ len ∧ c = (getPageCount buffer, getGrant buffer))
    (hsent : before.filterMap Effect.sent = []) :
    Replies s source len buffer env (before ++ resetClient source buffer) := by
  refine .other ?_ ?_ (.inr ⟨hlen, ?_⟩)
  · simp [hoffers, resetClient, Effect.offerTerms]
  · simpa [resetClient, Effect.connectTerms] using hconnects
  · simp [hsent, resetClient, Effect.sent]

/-- The label `free_o_new` resets the client, and what was called before it stays a reply. -/
theorem Replies.freeONew (hlen : Proto.headerSize ≤ len)
    (hoffers : before.filterMap Effect.offerTerms = [])
    (hconnects : ∀ c ∈ before.filterMap Effect.connectTerms,
      Proto.grantSize ≤ len ∧ c = (getPageCount buffer, getGrant buffer))
    (hsent : before.filterMap Effect.sent = [])
    (h : Udp.freeONew s' o source buffer before = some (s'', effects)) :
    Replies s source len buffer env effects := by
  simp only [Udp.freeONew, Option.bind_eq_bind, Option.bind_eq_some_iff, Option.some.injEq,
    Prod.mk.injEq] at h
  obtain ⟨node, -, pipe, -, t, -, -, rfl⟩ := h
  rw [List.append_cons]
  refine .reset _ hlen ?_ ?_ ?_
  · simp [hoffers, Effect.offerTerms]
  · simpa [Effect.connectTerms] using hconnects
  · simp [hsent, Effect.sent]

/-- A `CLIENT_HELLO` is answered with a grant or with a reset. -/
theorem onClientHello_replies (hmsg : getMessage buffer = Proto.clientHello)
    (hlen : Proto.headerSize ≤ len) :
    Replies s source len buffer env (onClientHello s source len buffer env).2 := by
  unfold onClientHello
  split
  · exact .other rfl (by simp) (.inl rfl)
  rename_i haccept
  dsimp only
  split
  · exact .reset [.pipeInit .read none] hlen rfl (by simp [Effect.connectTerms]) rfl
  cases hgrant : env.offers with
  | none =>
    exact .reset [.pipeInit .read (some s.nextHandle), .pipeOffers s.nextHandle s.pageCount
      (getHelloDomid buffer) none, .pipeFree s.nextHandle] hlen rfl (by simp [Effect.connectTerms])
      rfl
  | some grant => exact .granted grant hmsg (by omega) hgrant rfl rfl rfl

/-- A `CLIENT_RESET` is answered with a reset, or not at all. -/
theorem onClientReset_replies (hlen : Proto.headerSize ≤ len)
    (h : onClientReset s source buffer = some (s', effects)) :
    Replies s source len buffer env effects := by
  simp only [onClientReset, Option.bind_eq_bind] at h
  obtain ⟨found, -, h⟩ := Option.bind_eq_some_iff.mp h
  cases found with
  | none =>
    obtain ⟨-, rfl⟩ := Prod.mk.inj (Option.some.inj h)
    exact .other rfl (by simp) (.inl rfl)
  | some o => exact .freeONew hlen rfl (by simp) rfl h

/-- A `CLIENT_GRANT` is answered with a reset, or not at all. -/
theorem onClientGrant_replies (hlen : Proto.headerSize ≤ len)
    (h : onClientGrant s source len buffer env = some (s', effects)) :
    Replies s source len buffer env effects := by
  simp only [onClientGrant, Option.bind_eq_bind] at h
  obtain ⟨found, -, h⟩ := Option.bind_eq_some_iff.mp h
  cases found with
  | none =>
    obtain ⟨-, rfl⟩ := Prod.mk.inj (Option.some.inj h)
    exact .reset [] hlen rfl (by simp) rfl
  | some o =>
    simp only at h
    split at h
    · exact .freeONew hlen rfl (by simp) rfl h
    rename_i hgood
    have hlong : Proto.grantSize ≤ len := by omega
    split at h
    · exact .freeONew hlen rfl (by simp [Effect.connectTerms]) rfl h
    split at h
    · exact .freeONew hlen rfl (by simp [Effect.connectTerms, hlong]) rfl h
    simp only [startChild, Option.bind_eq_bind] at h
    obtain ⟨node, -, h⟩ := Option.bind_eq_some_iff.mp h
    split at h
    · obtain ⟨-, rfl⟩ := Prod.mk.inj (Option.some.inj h)
      exact .other rfl (by simp [Effect.connectTerms, hlong]) (.inl rfl)
    · obtain ⟨pipe, -, h⟩ := Option.bind_eq_some_iff.mp h
      obtain ⟨t, -, h⟩ := Option.bind_eq_some_iff.mp h
      obtain ⟨-, rfl⟩ := Prod.mk.inj (Option.some.inj h)
      exact .other rfl (by simp [Effect.connectTerms, hlong]) (.inl rfl)

/-- Whatever the packet contains, the server asks for one of these things. -/
theorem handlePacket_replies (h : handlePacket s source len buffer env = some (s', effects)) :
    Replies s source len buffer env effects := by
  unfold handlePacket at h
  split at h
  · obtain ⟨-, rfl⟩ := Prod.mk.inj (Option.some.inj h)
    exact .other rfl (by simp) (.inl rfl)
  rename_i hgood
  have hlen : Proto.headerSize ≤ len := by omega
  split at h
  · rename_i hmsg
    obtain ⟨-, rfl⟩ := Prod.mk.inj (Option.some.inj h)
    exact onClientHello_replies hmsg hlen
  split at h
  · exact onClientReset_replies hlen h
  split at h
  · exact onClientGrant_replies hlen h
  · obtain ⟨-, rfl⟩ := Prod.mk.inj (Option.some.inj h)
    exact .other rfl (by simp) (.inl rfl)

/-- What is sent is a grant or a reset. -/
theorem Replies.message (h : Replies s source len buffer env effects) :
    ∀ m ∈ effects.filterMap Effect.sent, ∀ stack,
      getMessage (received m.2 stack) = Proto.serverGrant ∨
        getMessage (received m.2 stack) = Proto.serverReset := by
  intro m hm stack
  cases h with
  | granted grant _ _ _ _ _ hsent =>
    rw [hsent, List.mem_singleton] at hm
    rw [hm, received, List.take_of_length_le (by simp; decide), getMessage_fill (by decide)]
    exact .inl (by simp [grantPacket])
  | other _ _ hsent =>
    rcases hsent with hsent | ⟨-, hsent⟩ <;> rw [hsent] at hm
    · contradiction
    · rw [List.mem_singleton] at hm
      rw [hm, received, List.take_of_length_le (by simp; decide), getMessage_fill (by decide)]
      exact .inr getMessage_setMessage

/-- The server does nothing with what a server sends. -/
theorem handlePacket_of_server (s : Server) (source : SockAddr) (len : Nat) (env : Outcomes)
    (h : getMessage buffer = Proto.serverGrant ∨ getMessage buffer = Proto.serverReset) :
    handlePacket s source len buffer env = some (s, []) := by
  unfold handlePacket
  split
  · rfl
  rcases h with h | h <;> rw [h] <;> rfl

end Packet

section Traffic

/-- The lengths of the datagrams received from an address. -/
def lengthsFrom (a : SockAddr) : List Wakeup → List Nat :=
  List.filterMap fun
    | .datagram source bytes _ _ => if source = a then some bytes.length else none
    | _ => none

/-- The lengths of the datagrams sent to an address. -/
def lengthsTo (a : SockAddr) (effects : List Effect) : List Nat :=
  (effects.filterMap Effect.sent).filterMap fun m => if m.1 = a then some m.2.length else none

/-- No more datagrams are sent than received, and at most half as many bytes again. -/
structure Answers (received sent : List Nat) : Prop where
  /-- No more datagrams are sent than were received. -/
  count : sent.length ≤ received.length
  /-- At most half as many bytes again are sent as were received. -/
  size : 2 * sent.sum ≤ 3 * received.sum

variable {a source : SockAddr} {v v' : Served} {w : Wakeup}
  {received received' sent sent' : List Nat}

/-- What is answered in two parts is answered in one. -/
theorem Answers.append (h : Answers received sent) (h' : Answers received' sent') :
    Answers (received ++ received') (sent ++ sent') := by
  refine ⟨?_, ?_⟩
  · simpa using Nat.add_le_add h.count h'.count
  · have hsize := h.size
    have hsize' := h'.size
    simp only [List.sum_append]
    omega

/-- What is sent for one datagram is an answer to it. -/
theorem Replies.answers {s : Server} {bytes : List UInt8} {buffer : Buffer} {env : Outcomes}
    {effects : List Effect} (a : SockAddr)
    (h : Replies s source (min bytes.length Proto.maxLen) buffer env effects) :
    Answers (if source = a then [bytes.length] else []) (lengthsTo a effects) := by
  unfold lengthsTo
  cases h with
  | granted grant _ hlen _ _ _ hsent =>
    rw [hsent]
    by_cases ha : source = a
    · refine ⟨by simp [ha], ?_⟩
      have hlong : Proto.clientHelloSize ≤ bytes.length := hlen.trans (Nat.min_le_left ..)
      simp [ha, Proto.grantSize, Proto.clientHelloSize] at hlong ⊢
      omega
    · exact ⟨by simp [ha], by simp [ha]⟩
  | other _ _ hsent =>
    rcases hsent with hsent | ⟨hlen, hsent⟩
    · rw [hsent]
      exact ⟨Nat.zero_le _, Nat.zero_le _⟩
    · rw [hsent]
      by_cases ha : source = a
      · refine ⟨by simp [ha], ?_⟩
        have hlong : Proto.headerSize ≤ bytes.length := hlen.trans (Nat.min_le_left ..)
        simp [ha, Proto.headerSize] at hlong ⊢
        omega
      · exact ⟨by simp [ha], by simp [ha]⟩

/-- The server has sent no datagram that a server would act on. -/
def Served.Unanswered (v : Served) : Prop :=
  ∀ m ∈ v.log.filterMap Effect.sent, ∀ s source stack env,
    udpReadable s (.datagram source m.2 stack env) = some (s, [])

/-- One call of `udp_readable_cb` answers the datagram that it has received. -/
theorem Served.step_answers (a : SockAddr) (h : v.step w = some v') :
    (∃ sent, lengthsTo a v'.log = lengthsTo a v.log ++ sent ∧ Answers (lengthsFrom a [w]) sent) ∧
      (v.Unanswered → v'.Unanswered) := by
  obtain ⟨⟨s, effects⟩, hread, rfl⟩ := Option.map_eq_some_iff.mp h
  obtain ⟨hanswers, hmessage⟩ : Answers (lengthsFrom a [w]) (lengthsTo a effects) ∧
      ∀ m ∈ effects.filterMap Effect.sent, ∀ stack,
        getMessage (received m.2 stack) = Proto.serverGrant ∨
          getMessage (received m.2 stack) = Proto.serverReset := by
    cases w with
    | event failed =>
      obtain ⟨-, rfl⟩ := Prod.mk.inj (Option.some.inj hread)
      cases failed <;> exact ⟨⟨le_rfl, le_rfl⟩, by simp [Effect.sent]⟩
    | unreadable =>
      obtain ⟨-, rfl⟩ := Prod.mk.inj (Option.some.inj hread)
      exact ⟨⟨le_rfl, le_rfl⟩, by simp⟩
    | datagram source bytes stack env =>
      have hreplies := handlePacket_replies hread
      refine ⟨?_, hreplies.message⟩
      by_cases ha : source = a <;> simpa [lengthsFrom, ha] using hreplies.answers a
  refine ⟨⟨lengthsTo a effects, by simp [lengthsTo], hanswers⟩, fun hold m hm => ?_⟩
  simp only [List.filterMap_append, List.mem_append] at hm
  rcases hm with hm | hm
  · exact hold m hm
  · intro s' source stack env
    exact handlePacket_of_server s' source _ env (hmessage m hm stack)

/-- Any number of calls answer the datagrams that they have received. -/
theorem Served.run_answers {calls : List Wakeup} (a : SockAddr)
    (h : run Served.step (fun _ _ => true) v calls = some v') :
    (∃ sent, lengthsTo a v'.log = lengthsTo a v.log ++ sent ∧
      Answers (lengthsFrom a calls) sent) ∧ (v.Unanswered → v'.Unanswered) := by
  induction calls generalizing v with
  | nil =>
    obtain rfl := Option.some.inj h
    exact ⟨⟨[], by simp, le_rfl, le_rfl⟩, id⟩
  | cons w calls ih =>
    simp only [run, if_true] at h
    obtain ⟨u, hu, hrest⟩ := Option.bind_eq_some_iff.mp h
    obtain ⟨⟨sent, heq, hanswers⟩, hkept⟩ := Served.step_answers a hu
    obtain ⟨⟨sent', heq', hanswers'⟩, hkept'⟩ := ih hrest
    refine ⟨⟨sent ++ sent', by rw [heq', heq, List.append_assoc], ?_⟩, hkept' ∘ hkept⟩
    have hcons : lengthsFrom a (w :: calls) = lengthsFrom a [w] ++ lengthsFrom a calls :=
      List.filterMap_append (l := [w]) ..
    rw [hcons]
    exact hanswers.append hanswers'

/-- Whatever is received, from whomever and whatever the calls come to: to no address the server
sends more datagrams than it received from there, nor more than three bytes for two, and no server
answers what it sends. -/
theorem no_amplification {pageCount : UInt8} {calls : List Wakeup} {v : Served}
    (h : run Served.step (fun _ _ => true) (.initial pageCount) calls = some v) (a : SockAddr) :
    Answers (lengthsFrom a calls) (lengthsTo a v.log) ∧ v.Unanswered := by
  obtain ⟨⟨sent, heq, hanswers⟩, hkept⟩ := Served.run_answers a h
  refine ⟨heq ▸ hanswers, hkept fun m hm => ?_⟩
  simp [Served.initial] at hm

/-- A `CLIENT_HELLO` that is granted is answered with one longer packet. -/
theorem no_amplification_granted : ∃ v,
    run Served.step (fun _ _ => true) (.initial 4)
      [.datagram ⟨4000, 7⟩ ((helloPacket 3).dump Proto.clientHelloSize) (fun _ => 0) .success] =
        some v ∧ lengthsTo ⟨4000, 7⟩ v.log = [18] ∧ Answers [12] [18] ∧ v.Unanswered := by
  have hrun : (run Served.step (fun _ _ => true) (.initial 4)
      [.datagram ⟨4000, 7⟩ ((helloPacket 3).dump Proto.clientHelloSize) (fun _ => 0)
        .success]).any (fun v => lengthsTo ⟨4000, 7⟩ v.log = [18]) = true := by decide +kernel
  obtain ⟨v, hv, hlengths⟩ := (Option.any_eq_true _ _).mp hrun
  have hsent : lengthsTo ⟨4000, 7⟩ v.log = [18] := of_decide_eq_true hlengths
  exact ⟨v, hv, hsent, hsent ▸ no_amplification hv ⟨4000, 7⟩⟩

end Traffic

end XenShm.Udp
