import XenShm.Udp.Client
import XenShm.Udp.Server

/-!
# Well-formed packets

Both ends read a packet through structures laid over a buffer that is longer than most
packets. The server looks at the length before it reads the header and at the version
before anything else. The client reads the message of whatever `recv` returned, asks
neither who sent it nor for its version, and sends the rest of the header back when it
gives up. For both ends the fields that are used are listed, and what they do depends on
the bytes of these fields only.
-/

namespace XenShm.Udp

open Library

/-- A field of a received packet, as the headers of the protocol name it. -/
inductive Field where
  | version
  | message
  | reserved
  | bigReserved
  | helloDomid
  | grantRef
  | grantDomid
  | mode
  | pageCount
  deriving DecidableEq, Repr

/-- The offset at which the field begins. -/
def Field.start : Field → Nat
  | .version => 0
  | .message => 1
  | .reserved => 2
  | .bigReserved => 4
  | .helloDomid | .grantRef => 8
  | .grantDomid => 12
  | .mode => 16
  | .pageCount => 17

/-- The offset behind the last byte of the field. -/
def Field.stop : Field → Nat
  | .version => 1
  | .message => 2
  | .reserved => 4
  | .bigReserved => 8
  | .helloDomid | .grantRef => 12
  | .grantDomid => 16
  | .mode => 17
  | .pageCount => 18

/-- The offsets of the bytes of the field. -/
def Field.offsets (f : Field) : Set Nat := Set.Ico f.start f.stop

/-- Two buffers contain the same in each of these fields. -/
def SameOn (fields : List Field) (b b' : Buffer) : Prop := ∀ f ∈ fields, Set.EqOn b b' f.offsets

/-- The call opens, offers or connects a pipe, or starts a child. -/
def Effect.acts : Effect → Bool
  | .pipeInit .. | .pipeOffers .. | .pipeConnect .. | .threadCreate .. => true
  | _ => false

/-- A datagram with at least the bytes of a `CLIENT_HELLO`. -/
def CarriesHello (bytes : List UInt8) : Prop :=
  bytes[0]? = some Proto.version ∧ bytes[1]? = some Proto.clientHello ∧
    Proto.clientHelloSize ≤ bytes.length

/-- A datagram with at least the bytes of a grant in the mode that is supported, whatever its
version. -/
def LooksLikeGrant (message : UInt8) (bytes : List UInt8) : Prop :=
  bytes[1]? = some message ∧ Proto.grantSize ≤ bytes.length ∧ bytes[16]? = some Proto.readerOfferer

/-- The packet is a grant with this message, of the version that both ends speak. -/
def CarriesGrant (message : UInt8) (bytes : List UInt8) : Prop :=
  bytes[0]? = some Proto.version ∧ LooksLikeGrant message bytes

/-- The fields of the header that every answer passes on: only the message is written anew. -/
def sentBack : List Field := [.version, .reserved, .bigReserved]

/-- The fields that are used in the case `CLIENT_HELLO`. A packet is sent in any case when there is
a new node, and a grant is written before it is sent. -/
def helloReads (len : Nat) (env : Outcomes) : List Field :=
  if len < Proto.clientHelloSize ∨ env.calloc = false then []
  else if env.init = false then sentBack
  else .helloDomid :: sentBack

/-- The fields that are used in the case `CLIENT_RESET`. -/
def resetReads (s : Server) (source : SockAddr) : List Field :=
  match findOpening s source with
  | some (some _) => sentBack
  | _ => []

/-- The fields that are used in the case `CLIENT_GRANT`. Nothing is sent when the child is started,
and when it cannot be started. -/
def grantReads (s : Server) (source : SockAddr) (len : Nat) (buffer : Buffer) (env : Outcomes) :
    List Field :=
  match findOpening s source with
  | none => []
  | some none => sentBack
  | some (some _) =>
    if len < Proto.grantSize ∨ env.calloc = false then sentBack
    else .mode ::
      if getMode buffer ≠ Proto.readerOfferer ∨ env.init = false then sentBack
      else [.pageCount, .grantDomid, .grantRef] ++ if env.connect then [] else sentBack

/-- The fields of a packet that `udp_readable_cb` uses, by the way it takes. -/
def packetReads (s : Server) (source : SockAddr) (len : Nat) (buffer : Buffer) (env : Outcomes) :
    List Field :=
  if len < Proto.headerSize then []
  else .version ::
    if getVersion buffer ≠ Proto.version then []
    else .message ::
      if getMessage buffer = Proto.clientHello then helloReads len env
      else if getMessage buffer = Proto.clientReset then resetReads s source
      else if getMessage buffer = Proto.clientGrant then grantReads s source len buffer env
      else []

/-- The fields of a `SERVER_GRANT` that `init_pipe` uses besides those of the header. -/
def serverGrantReads (buffer : Buffer) : List Field :=
  .mode :: if getMode buffer = Proto.readerOfferer then [.pageCount, .grantDomid, .grantRef] else []

/-- The fields that `init_pipe` uses when `recv` has returned. A packet is sent to the server in any
case, the `CLIENT_GRANT` or a `CLIENT_RESET`. -/
def answerReads (len : Nat) (buffer : Buffer) : List Field :=
  sentBack ++
    if len = 0 then []
    else .message ::
      if getMessage buffer = Proto.serverGrant ∧ Proto.grantSize ≤ len then serverGrantReads buffer
      else []

/-- A datagram is received by one of the two ends. -/
inductive Receipt where
  /-- By the server, over what was on the stack. -/
  | byServer (s : Server) (source : SockAddr) (bytes : List UInt8) (stack : Buffer)
      (env : Outcomes)
  /-- By a client that has greeted this server, over its `CLIENT_HELLO`. -/
  | byClient (server : SockAddr) (pageCount : UInt8) (buffer : Buffer) (source : SockAddr)
      (bytes : List UInt8) (env : AnswerOutcomes)

/-- The server acts on well-formed packets only, and uses none of their fields that were not
sent. -/
structure ServerHeeds (s : Server) (source : SockAddr) (bytes : List UInt8) (stack : Buffer)
    (env : Outcomes) : Prop where
  /-- The server asks for a pipe or a child only for a `CLIENT_HELLO`, or for a `CLIENT_GRANT` of a
  client that has an opening. -/
  acts : ∀ s' effects, udpReadable s (.datagram source bytes stack env) = some (s', effects) →
    ∀ e ∈ effects, e.acts = true → CarriesHello bytes ∨
      CarriesGrant Proto.clientGrant bytes ∧ ∃ o, findOpening s source = some (some o)
  /-- The fields that it uses are in the datagram. -/
  carried : ∀ f ∈ packetReads s source (min bytes.length Proto.maxLen) (received bytes stack) env,
    f.stop ≤ bytes.length
  /-- What else is in the buffer makes no difference. -/
  stack : ∀ stack', udpReadable s (.datagram source bytes stack' env) =
    udpReadable s (.datagram source bytes stack env)

/-- The client acts on well-formed packets only, and uses none of their fields that were not
sent. -/
structure ClientHeeds (server : SockAddr) (pageCount : UInt8) (buffer : Buffer) (source : SockAddr)
    (bytes : List UInt8) (env : AnswerOutcomes) : Prop where
  /-- The client goes on to connect its pipe only for a `SERVER_GRANT` of the server that it
  greeted. -/
  connects : ∀ pipe count grant ok, .pipeConnect pipe count grant ok ∈
    (answer server pageCount buffer (some bytes) env).2 →
      source = server ∧ CarriesGrant Proto.serverGrant bytes
  /-- The fields that it uses are in the datagram. -/
  carried : ∀ f ∈ answerReads (min bytes.length Proto.maxLen) (received bytes buffer),
    f.stop ≤ bytes.length
  /-- What else is in the buffer makes no difference. -/
  stack : ∀ buffer', answer server pageCount buffer' (some bytes) env =
    answer server pageCount buffer (some bytes) env

/-- Whichever end receives the datagram, it acts on it only if it is well-formed. -/
def Receipt.Heeded : Receipt → Prop
  | .byServer s source bytes stack env => ServerHeeds s source bytes stack env
  | .byClient server pageCount buffer source bytes env =>
    ClientHeeds server pageCount buffer source bytes env

/-- The datagram that a client receives contains a whole header, and what looks like a
`SERVER_GRANT` comes from the server and has the version. -/
def Receipt.Expected : Receipt → Prop
  | .byServer .. => True
  | .byClient server _ _ source bytes _ =>
    Proto.headerSize ≤ bytes.length ∧ (LooksLikeGrant Proto.serverGrant bytes →
      source = server ∧ bytes[0]? = some Proto.version)

section Packets

variable {s s' : Server} {source server : SockAddr} {len i : Nat} {b b' buffer stack : Buffer}
  {fields fields' : List Field}
  {env : Outcomes} {bytes : List UInt8} {v : UInt8} {effects before : List Effect} {o : Id}
  {sendFd : Handle}

/-- What is read at an offset of a received packet. -/
theorem received_iff (hi : i < min bytes.length Proto.maxLen) :
    received bytes stack i = v ↔ bytes[i]? = some v := by
  have hlt : i < (bytes.take Proto.maxLen).length := by
    rw [List.length_take]
    omega
  rw [received, Buffer.fill_of_lt hlt, List.getElem_take,
    List.getElem?_eq_getElem (by omega), Option.some.injEq]

/-- Giving an opening back asks for nothing new. -/
theorem freeONew_acts (h : freeONew s o source buffer before = some (s', effects)) {e : Effect}
    (he : e ∈ effects) (hacts : e.acts = true) : e ∈ before := by
  simp only [freeONew, Option.bind_eq_bind, Option.bind_eq_some_iff, Option.some.injEq,
    Prod.mk.injEq] at h
  obtain ⟨node, -, pipe, -, t, -, -, rfl⟩ := h
  rcases List.mem_append.mp he with he | he
  · exact he
  · simp only [resetClient, List.mem_cons, List.not_mem_nil, or_false] at he
    rcases he with rfl | rfl <;> simp [Effect.acts] at hacts

/-- The server asks for something new in the case `CLIENT_GRANT` only for a whole packet in the
supported mode, and with an opening. -/
theorem onClientGrant_acts (h : onClientGrant s source len buffer env = some (s', effects))
    {e : Effect} (he : e ∈ effects) (hacts : e.acts = true) :
    (∃ o, findOpening s source = some (some o)) ∧ Proto.grantSize ≤ len ∧
      getMode buffer = Proto.readerOfferer := by
  simp only [onClientGrant, Option.bind_eq_bind] at h
  obtain ⟨found, hfound, h⟩ := Option.bind_eq_some_iff.mp h
  cases found with
  | none =>
    obtain ⟨rfl, rfl⟩ := Prod.mk.inj (Option.some.inj h)
    obtain rfl := List.mem_singleton.mp he
    simp [Effect.acts] at hacts
  | some o =>
    refine ⟨⟨o, hfound⟩, ?_⟩
    by_cases hbad : len < Proto.grantSize ∨ env.calloc = false ∨
        getMode buffer ≠ Proto.readerOfferer
    · simp only [hbad, if_true] at h
      exact absurd (freeONew_acts h he hacts) (List.not_mem_nil)
    · simp only [not_or, not_not] at hbad
      exact ⟨Nat.le_of_not_lt hbad.1, hbad.2.2⟩

/-- The calls by which the server acts are made for well-formed packets only. -/
theorem udpReadable_acts (h : udpReadable s (.datagram source bytes stack env) = some (s', effects))
    {e : Effect} (he : e ∈ effects) (hacts : e.acts = true) : CarriesHello bytes ∨
      CarriesGrant Proto.clientGrant bytes ∧ ∃ o, findOpening s source = some (some o) := by
  simp only [udpReadable, handlePacket] at h
  split at h
  · obtain ⟨rfl, rfl⟩ := Prod.mk.inj (Option.some.inj h)
    simp at he
  rename_i hgood
  simp only [not_or, not_lt, not_not, Proto.headerSize] at hgood
  obtain ⟨hlen, hversion⟩ := hgood
  have hversion' := (received_iff (i := 0) (by omega)).mp hversion
  split at h
  · rename_i hmsg
    have hmsg' := (received_iff (i := 1) (by omega)).mp hmsg
    by_cases hshort : min bytes.length Proto.maxLen < Proto.clientHelloSize
    · simp only [onClientHello, hshort, true_or, if_true, Option.some.injEq, Prod.mk.injEq] at h
      obtain ⟨rfl, rfl⟩ := h
      simp at he
    · exact .inl ⟨hversion', hmsg', by omega⟩
  split at h
  · simp only [onClientReset, Option.bind_eq_bind] at h
    obtain ⟨found, -, h⟩ := Option.bind_eq_some_iff.mp h
    cases found with
    | none =>
      obtain ⟨rfl, rfl⟩ := Prod.mk.inj (Option.some.inj h)
      simp at he
    | some o => exact absurd (freeONew_acts h he hacts) (List.not_mem_nil)
  split at h
  · rename_i hmsg
    have hmsg' := (received_iff (i := 1) (by omega)).mp hmsg
    obtain ⟨hfound, hsize, hmode⟩ := onClientGrant_acts h he hacts
    unfold Proto.grantSize at hsize
    have hmode' := (received_iff (i := 16) (by omega)).mp hmode
    exact .inr ⟨⟨hversion', hmsg', by unfold Proto.grantSize; omega, hmode'⟩, hfound⟩
  · obtain ⟨rfl, rfl⟩ := Prod.mk.inj (Option.some.inj h)
    simp at he

/-- The header ends behind the fields that are passed on. -/
theorem sentBack_carried (hlen : Proto.headerSize ≤ len) {f : Field} (hf : f ∈ sentBack) :
    f.stop ≤ len := by
  have hstop : ∀ f ∈ sentBack, f.stop ≤ Proto.headerSize := by decide
  exact (hstop f hf).trans hlen

/-- A grant ends behind the last byte of every field. -/
theorem stop_le_grantSize (f : Field) : f.stop ≤ Proto.grantSize := by
  cases f <;> decide

/-- The fields used for a `CLIENT_HELLO` were sent with it. -/
theorem helloReads_carried (hlen : Proto.headerSize ≤ len) {f : Field}
    (hf : f ∈ helloReads len env) :
    f.stop ≤ len := by
  unfold helloReads at hf
  split_ifs at hf with hshort
  · cases hf
  · exact sentBack_carried hlen hf
  · rcases List.mem_cons.mp hf with rfl | hf
    · exact Nat.le_of_not_lt (not_or.mp hshort).1
    · exact sentBack_carried hlen hf

/-- The fields used for a `CLIENT_GRANT` were sent with it. -/
theorem grantReads_carried (hlen : Proto.headerSize ≤ len) {f : Field}
    (hf : f ∈ grantReads s source len b env) : f.stop ≤ len := by
  unfold grantReads at hf
  split at hf
  · cases hf
  · exact sentBack_carried hlen hf
  · split_ifs at hf with hshort
    · exact sentBack_carried hlen hf
    all_goals exact (stop_le_grantSize f).trans (Nat.le_of_not_lt (not_or.mp hshort).1)

/-- The fields that the server uses are received. -/
theorem packetReads_carried {f : Field} (hf : f ∈ packetReads s source len b env) :
    f.stop ≤ len := by
  unfold packetReads at hf
  split at hf
  · cases hf
  rename_i hlen
  have hlen : Proto.headerSize ≤ len := Nat.le_of_not_lt hlen
  rcases List.mem_cons.mp hf with rfl | hf
  · exact le_trans (by decide) hlen
  split at hf
  · cases hf
  rcases List.mem_cons.mp hf with rfl | hf
  · exact le_trans (by decide) hlen
  split_ifs at hf
  · exact helloReads_carried hlen hf
  · unfold resetReads at hf
    split at hf
    · exact sentBack_carried hlen hf
    · cases hf
  · exact grantReads_carried hlen hf
  · cases hf

/-- Buffers that contain the same fields are the same at each offset of a field. -/
theorem SameOn.eq (h : SameOn fields b b') {f : Field} (hf : f ∈ fields) {i : Nat}
    (hlo : f.start ≤ i) (hhi : i < f.stop) : b i = b' i :=
  h f hf ⟨hlo, hhi⟩

/-- Buffers that are the same on some fields are the same on fewer. -/
theorem SameOn.mono (h : SameOn fields b b') (hsub : fields' ⊆ fields) : SameOn fields' b b' :=
  fun f hf => h f (hsub hf)

/-- What is passed on is the header without its message. -/
theorem SameOn.header (h : SameOn sentBack b b') : Set.EqOn b b' {i | i < 8 ∧ i ≠ 1} := by
  rintro i ⟨hlt, hne⟩
  rcases Nat.lt_or_ge i 2 with h2 | h2
  · exact h.eq (f := .version) (by decide) (Nat.zero_le i) (show i < 1 by omega)
  rcases Nat.lt_or_ge i 4 with h4 | h4
  · exact h.eq (f := .reserved) (by decide) h2 h4
  · exact h.eq (f := .bigReserved) (by decide) h4 hlt

/-- A header that is sent back with another message depends on the fields that are kept. -/
theorem setMessage_congr (h : SameOn sentBack b b') (message : UInt8) :
    (setMessage b message).dump Proto.headerSize =
      (setMessage b' message).dump Proto.headerSize := by
  refine Buffer.dump_congr ((Buffer.eqOn_put h.header).mono fun i hi => ?_)
  have hlt : i < 8 := hi
  simp only [Set.mem_insert_iff, Set.mem_ofPred_eq]
  omega

/-- A reset depends on the fields of the header that are sent back. -/
theorem resetClient_congr (source : SockAddr) (h : SameOn sentBack b b') :
    resetClient source b = resetClient source b' := by
  rw [resetClient, resetClient, setMessage_congr h]

/-- The label `free_o_new` depends on the fields of the header that are sent back. -/
theorem freeONew_congr (h : SameOn sentBack b b') :
    freeONew s o source b before = freeONew s o source b' before := by
  rw [freeONew, freeONew, resetClient_congr source h]

/-- Every byte of the answer to a `CLIENT_HELLO` is passed on or is written. -/
theorem grantPacket_congr (h : SameOn sentBack b b') (grant : Grant) (pageCount : UInt8) :
    (grantPacket b grant pageCount).dump Proto.grantSize =
      (grantPacket b' grant pageCount).dump Proto.grantSize := by
  refine Buffer.dump_congr ((Buffer.eqOn_put (Buffer.eqOn_put (Buffer.eqOn_put
    (Buffer.eqOn_store32 (Buffer.eqOn_store32 h.header))))).mono fun i hi => ?_)
  have hlt : i < 18 := hi
  simp only [Set.mem_insert_iff, Set.mem_union, Set.mem_Ico, Set.mem_ofPred_eq]
  omega

/-- The case `CLIENT_HELLO` depends on the fields listed for it. -/
theorem onClientHello_congr (h : SameOn (helloReads len env) b b') :
    onClientHello s source len b env = onClientHello s source len b' env := by
  unfold helloReads at h
  by_cases hshort : len < Proto.clientHelloSize ∨ env.calloc = false
  · simp only [onClientHello, hshort, if_true]
  rw [if_neg hshort] at h
  by_cases hinit : env.init = false
  · rw [if_pos hinit] at h
    simp only [onClientHello, hshort, hinit, if_true, resetClient_congr source h]
  · rw [if_neg hinit] at h
    have hdomid : getHelloDomid b = getHelloDomid b' :=
      Buffer.load32_congr (h .helloDomid List.mem_cons_self)
    have hback : SameOn sentBack b b' := h.mono (List.subset_cons_self ..)
    simp only [onClientHello, hdomid, resetClient_congr source hback, grantPacket_congr hback]

/-- The case `CLIENT_RESET` depends on the fields listed for it. -/
theorem onClientReset_congr (h : SameOn (resetReads s source) b b') :
    onClientReset s source b = onClientReset s source b' := by
  unfold resetReads at h
  unfold onClientReset
  match hfound : findOpening s source with
  | none => rfl
  | some none => rfl
  | some (some o) =>
    rw [hfound] at h
    exact freeONew_congr h

/-- The case `CLIENT_GRANT` depends on the fields listed for it. -/
theorem onClientGrant_congr (h : SameOn (grantReads s source len b env) b b') :
    onClientGrant s source len b env = onClientGrant s source len b' env := by
  unfold grantReads at h
  unfold onClientGrant
  match hfound : findOpening s source with
  | none => rfl
  | some none =>
    rw [hfound] at h
    exact congrArg (fun sent => some (s, sent)) (resetClient_congr source h)
  | some (some o) =>
    simp only [hfound] at h
    simp only [Option.bind_eq_bind, Option.bind_some]
    by_cases hshort : len < Proto.grantSize ∨ env.calloc = false
    · have hbad : ∀ mode : UInt8, len < Proto.grantSize ∨ env.calloc = false ∨
          mode ≠ Proto.readerOfferer := fun _ => hshort.imp_right .inl
      rw [if_pos hshort] at h
      rw [if_pos (hbad _), if_pos (hbad _), freeONew_congr h]
    rw [if_neg hshort] at h
    have hmode : getMode b = getMode b' := h .mode List.mem_cons_self ⟨Nat.le_refl 16, by decide⟩
    have hrest := h.mono (List.subset_cons_self ..)
    rw [← hmode]
    by_cases hbad : getMode b ≠ Proto.readerOfferer ∨ env.init = false
    · rw [if_pos hbad] at hrest
      simp only [freeONew_congr hrest]
      split_ifs <;> tauto
    rw [if_neg hbad] at hrest
    obtain ⟨hgood, hinit⟩ := not_or.mp hbad
    have hcount : getPageCount b = getPageCount b' :=
      hrest .pageCount (by simp) ⟨Nat.le_refl 17, by decide⟩
    have hgrant : getGrant b = getGrant b' := by
      have hdomid : b.load32 12 = b'.load32 12 :=
        Buffer.load32_congr (hrest .grantDomid (by simp))
      have href : b.load32 8 = b'.load32 8 := Buffer.load32_congr (hrest .grantRef (by simp))
      rw [getGrant, getGrant, hdomid, href]
    have hgo : ¬ (len < Proto.grantSize ∨ env.calloc = false ∨
        getMode b ≠ Proto.readerOfferer) := by tauto
    rw [if_neg hgo, if_neg hgo, if_neg hinit, if_neg hinit, hcount, hgrant]
    by_cases hconnect : env.connect = true
    · rw [if_neg (by simp [hconnect]), if_neg (by simp [hconnect])]
    · have hback : SameOn sentBack b b' := hrest.mono (by
        rw [if_neg hconnect]
        exact List.subset_append_right ..)
      simp only [freeONew_congr hback]

/-- What the server does depends on the fields that are listed, and on nothing else in the
buffer. -/
theorem handlePacket_congr (h : SameOn (packetReads s source len b env) b b') :
    handlePacket s source len b env = handlePacket s source len b' env := by
  unfold packetReads at h
  unfold handlePacket
  by_cases hshort : len < Proto.headerSize
  · rw [if_pos (.inl hshort), if_pos (.inl hshort)]
  rw [if_neg hshort] at h
  have hversion : getVersion b = getVersion b' :=
    h .version List.mem_cons_self ⟨Nat.le_refl 0, by decide⟩
  have hrest := h.mono (List.subset_cons_self ..)
  rw [← hversion]
  by_cases hother : getVersion b ≠ Proto.version
  · rw [if_pos (.inr hother), if_pos (.inr hother)]
  rw [if_neg hother] at hrest
  rw [if_neg (not_or.mpr ⟨hshort, hother⟩), if_neg (not_or.mpr ⟨hshort, hother⟩)]
  have hmessage : getMessage b = getMessage b' :=
    hrest .message List.mem_cons_self ⟨Nat.le_refl 1, by decide⟩
  have hrest := hrest.mono (List.subset_cons_self ..)
  rw [← hmessage]
  split_ifs at hrest ⊢
  · rw [onClientHello_congr hrest]
  · exact onClientReset_congr hrest
  · exact onClientGrant_congr hrest
  · rfl

/-- Fields of the received part do not depend on what was in the buffer before. -/
theorem sameOn_received (stack stack' : Buffer)
    (hfields : ∀ f ∈ fields, f.stop ≤ min bytes.length Proto.maxLen) :
    SameOn fields (received bytes stack) (received bytes stack') := by
  intro f hf
  refine (Buffer.eqOn_fill (bytes.take Proto.maxLen) stack stack').mono fun i hi => ?_
  have hstop := hfields f hf
  have hlt : i < f.stop := hi.2
  rw [Set.mem_Iio, List.length_take]
  omega

/-- What the server does for a datagram does not depend on what was on its stack. -/
theorem udpReadable_stack (s : Server) (source : SockAddr) (bytes : List UInt8)
    (stack stack' : Buffer) (env : Outcomes) : udpReadable s (.datagram source bytes stack env) =
      udpReadable s (.datagram source bytes stack' env) :=
  handlePacket_congr (sameOn_received stack stack' fun _ hf => packetReads_carried hf)

/-- Whether a packet is accepted depends on the fields that are listed. -/
theorem acceptable_congr (h : SameOn (answerReads len b) b b') :
    acceptable len b ↔ acceptable len b' := by
  have hrest := h.mono (List.subset_append_right ..)
  by_cases hzero : len = 0
  · exact iff_of_false (fun hgood => hgood.1.ne' hzero) fun hgood => hgood.1.ne' hzero
  rw [if_neg hzero] at hrest
  have hmessage : getMessage b = getMessage b' :=
    hrest .message List.mem_cons_self ⟨Nat.le_refl 1, by decide⟩
  have hrest := hrest.mono (List.subset_cons_self ..)
  rw [acceptable, acceptable, ← hmessage]
  by_cases hgrant : getMessage b = Proto.serverGrant ∧ Proto.grantSize ≤ len
  · rw [if_pos hgrant] at hrest
    have hmode : getMode b = getMode b' :=
      hrest .mode List.mem_cons_self ⟨Nat.le_refl 16, by decide⟩
    rw [← hmode]
  · exact iff_of_false (fun hgood => hgrant ⟨hgood.2.1, hgood.2.2.1⟩)
      fun hgood => hgrant ⟨hgood.2.1, hgood.2.2.1⟩

/-- All fields of an accepted grant are used. -/
theorem answerReads_of_acceptable (h : acceptable len b) : answerReads len b =
    sentBack ++ [.message, .mode, .pageCount, .grantDomid, .grantRef] := by
  rw [answerReads, if_neg h.1.ne', if_pos ⟨h.2.1, h.2.2.1⟩, serverGrantReads, if_pos h.2.2.2]

/-- The packet that cancels depends on the fields of the header that are sent back. -/
theorem cancelServer_congr (server : SockAddr) (h : SameOn sentBack b b') :
    cancelServer server b = cancelServer server b' := by
  rw [cancelServer, cancelServer, setMessage_congr h]

/-- Every byte of the answer to a `SERVER_GRANT` is passed on or is written. -/
theorem answerPacket_congr (h : SameOn (.mode :: sentBack) b b') (grant : Grant)
    (pageCount : UInt8) :
    Set.EqOn (answerPacket b grant pageCount) (answerPacket b' grant pageCount)
      (Set.Iio Proto.grantSize) := by
  have hback : SameOn sentBack b b' := h.mono (List.subset_cons_self ..)
  have hboth : Set.EqOn b b' ({i | i < 8 ∧ i ≠ 1} ∪ Field.mode.offsets) :=
    Set.eqOn_union.mpr ⟨hback.header, h .mode List.mem_cons_self⟩
  refine (Buffer.eqOn_put (Buffer.eqOn_put (Buffer.eqOn_store32
    (Buffer.eqOn_store32 hboth)))).mono fun i hi => ?_
  have hlt : i < 18 := hi
  simp only [Set.mem_insert_iff, Set.mem_union, Set.mem_Ico, Set.mem_ofPred_eq, Field.offsets,
    Field.start, Field.stop]
  omega

/-- What the client does depends on the fields that are listed, and on nothing else in the
buffer. -/
theorem answer_congr (server : SockAddr) (pageCount : UInt8) {buffer buffer' : Buffer}
    (h : SameOn (answerReads (min bytes.length Proto.maxLen) (received bytes buffer))
      (received bytes buffer) (received bytes buffer')) (env : AnswerOutcomes) :
    answer server pageCount buffer (some bytes) env =
      answer server pageCount buffer' (some bytes) env := by
  have hback : SameOn sentBack (received bytes buffer) (received bytes buffer') :=
    h.mono (List.subset_append_left ..)
  have hcancel := cancelServer_congr server hback
  by_cases hgood : acceptable (min bytes.length Proto.maxLen) (received bytes buffer)
  swap
  · have hgood' := mt (acceptable_congr h).mpr hgood
    rw [answer_of_not_acceptable hgood, answer_of_not_acceptable hgood']
    exact congrArg (Prod.mk false) hcancel
  have hgood' := (acceptable_congr h).mp hgood
  rw [answerReads_of_acceptable hgood] at h
  have hcount : getPageCount (received bytes buffer) = getPageCount (received bytes buffer') :=
    h .pageCount (by simp) ⟨Nat.le_refl 17, by decide⟩
  have hdomid : (received bytes buffer).load32 12 = (received bytes buffer').load32 12 :=
    Buffer.load32_congr (h .grantDomid (by simp))
  have href : (received bytes buffer).load32 8 = (received bytes buffer').load32 8 :=
    Buffer.load32_congr (h .grantRef (by simp))
  have hgrant : getGrant (received bytes buffer) = getGrant (received bytes buffer') := by
    rw [getGrant, getGrant, hdomid, href]
  have hpacket := fun own => answerPacket_congr (h.mono (by decide)) own pageCount
  have hsent := fun own => Buffer.dump_congr (hpacket own)
  have hlater := fun own => cancelServer_congr server
    fun f _ => (hpacket own).mono fun _ hi => Nat.lt_of_lt_of_le hi.2 (stop_le_grantSize f)
  unfold received at hgood hgood' hcancel hcount hgrant hsent hlater
  simp only [answer, hgood, hgood', not_true_eq_false, if_false, hcancel, hcount, hgrant, hsent,
    hlater]

/-- The client accepts what looks like a `SERVER_GRANT`. -/
theorem acceptable_iff (bytes : List UInt8) (stack : Buffer) :
    acceptable (min bytes.length Proto.maxLen) (received bytes stack) ↔
      LooksLikeGrant Proto.serverGrant bytes := by
  have hsize : Proto.grantSize ≤ min bytes.length Proto.maxLen ↔
      Proto.grantSize ≤ bytes.length := by
    unfold Proto.grantSize Proto.maxLen
    omega
  constructor
  · rintro ⟨-, hmessage, hlen, hmode⟩
    have hlen' : 18 ≤ min bytes.length Proto.maxLen := hlen
    exact ⟨(received_iff (by omega)).mp hmessage, hsize.mp hlen, (received_iff (by omega)).mp hmode⟩
  · rintro ⟨hmessage, hlen, hmode⟩
    have hlen' : 18 ≤ min bytes.length Proto.maxLen := hsize.mpr hlen
    exact ⟨by omega, (received_iff (by omega)).mpr hmessage, hlen',
      (received_iff (by omega)).mpr hmode⟩

/-- The client connects its pipe exactly when it accepts the datagram. -/
theorem answer_connects (server : SockAddr) (pageCount : UInt8) (buffer : Buffer)
    (bytes : List UInt8) (env : AnswerOutcomes) :
    (∃ pipe count grant ok, .pipeConnect pipe count grant ok ∈
      (answer server pageCount buffer (some bytes) env).2) ↔
        LooksLikeGrant Proto.serverGrant bytes := by
  have hcancel : ∀ b pipe count grant ok,
      Effect.pipeConnect pipe count grant ok ∉ cancelServer server b := by
    simp [cancelServer, cleanSendFd, cleanReceiveFd, shutdownSocket]
  rw [← acceptable_iff bytes buffer]
  constructor
  · rintro ⟨pipe, count, grant, ok, hmem⟩
    by_contra hnot
    rw [answer_of_not_acceptable hnot] at hmem
    exact hcancel _ _ _ _ _ hmem
  · intro hgood
    obtain ⟨after, hafter⟩ := answer_of_acceptable server pageCount env hgood
    rw [hafter]
    exact ⟨_, _, _, _, List.mem_cons_self ..⟩

/-- The fields that the client uses are received exactly when the header is. -/
theorem answerReads_carried (len : Nat) (buffer : Buffer) :
    (∀ f ∈ answerReads len buffer, f.stop ≤ len) ↔ Proto.headerSize ≤ len := by
  constructor
  · exact fun hall => hall .bigReserved (List.mem_append_left _ (by decide))
  intro hlen f hf
  rcases List.mem_append.mp hf with hf | hf
  · exact sentBack_carried hlen hf
  split at hf
  · cases hf
  rcases List.mem_cons.mp hf with rfl | hf
  · exact le_trans (by decide) hlen
  split at hf
  · rename_i hgrant
    exact (stop_le_grantSize f).trans hgrant.2
  · cases hf

end Packets

/-- Only well-formed packets are acted on, by the server always, and by the client unless it
receives less than a header, or what looks like a `SERVER_GRANT` from somebody else or of another
version. -/
theorem heeded_iff (r : Receipt) : r.Heeded ↔ r.Expected := by
  cases r with
  | byServer s source bytes stack env =>
    refine iff_of_true ?_ trivial
    constructor
    · exact fun s' effects h e he hacts => udpReadable_acts h he hacts
    · exact fun f hf => (packetReads_carried hf).trans (min_le_left ..)
    · exact fun stack' => udpReadable_stack s source bytes stack' stack env
  | byClient server pageCount buffer source bytes env =>
    have hconnects := answer_connects server pageCount buffer bytes env
    have hreads := answerReads_carried (min bytes.length Proto.maxLen) (received bytes buffer)
    have hheader : Proto.headerSize ≤ min bytes.length Proto.maxLen ↔
        Proto.headerSize ≤ bytes.length := by
      unfold Proto.headerSize Proto.maxLen
      omega
    constructor
    · intro h
      refine ⟨h.carried .bigReserved (List.mem_append_left _ (by decide)), fun hlooks => ?_⟩
      obtain ⟨pipe, count, grant, ok, hmem⟩ := hconnects.mpr hlooks
      obtain ⟨hsource, hversion, -⟩ := h.connects pipe count grant ok hmem
      exact ⟨hsource, hversion⟩
    · rintro ⟨hlen, hlooks⟩
      have hcarried := hreads.mpr (hheader.mpr hlen)
      constructor
      · intro pipe count grant ok hmem
        have hgrant := hconnects.mp ⟨pipe, count, grant, ok, hmem⟩
        obtain ⟨hsource, hversion⟩ := hlooks hgrant
        exact ⟨hsource, hversion, hgrant⟩
      · exact fun f hf => (hcarried f hf).trans (min_le_left ..)
      · exact fun buffer' => (answer_congr server pageCount
          (sameOn_received buffer buffer' hcarried) env).symm

/-- The results of the calls made for the answer, when every one of them succeeds. -/
def AnswerOutcomes.success : AnswerOutcomes := ⟨true, some ⟨1, 8⟩, true⟩

/-- A datagram that is a grant of another version of the protocol. -/
def foreignGrant : List UInt8 := [9, 3] ++ List.replicate 14 0 ++ [2, 1]

/-- The client connects its pipe to the grant that somebody else sent it. When the server sends two
bytes, the rest of the header that the client sends back is what was in its buffer before. -/
theorem not_heeded : ¬ (Receipt.byClient ⟨4000, 7⟩ 4 (helloPacket 1) ⟨4666, 9⟩ foreignGrant
      .success).Heeded ∧
    ¬ (Receipt.byClient ⟨4000, 7⟩ 4 (helloPacket 1) ⟨4000, 7⟩ [1, 2] .success).Heeded := by
  refine ⟨fun h => ?_, fun h => ?_⟩
  · have hlooks : LooksLikeGrant Proto.serverGrant foreignGrant := ⟨rfl, by decide, rfl⟩
    obtain ⟨pipe, count, grant, ok, hmem⟩ := (answer_connects ⟨4000, 7⟩ 4 (helloPacket 1)
      foreignGrant .success).mpr hlooks
    exact absurd (h.connects pipe count grant ok hmem).1 (by decide)
  · exact absurd (h.stack fun _ => 5) (by decide)

end XenShm.Udp
