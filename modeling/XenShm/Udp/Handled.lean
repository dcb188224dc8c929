import XenShm.Udp.Openings

/-!
# What the server does with a packet

Every way through `udp_readable_cb` ends in one of five changes: nothing, a node outside
the list, a new opening, an opening less, or a new child. Each comes with the calls that
were made, and with whether the packet is one that the server handles well.
-/

namespace XenShm.Udp

open Library

/-- The pipe that a call of `xen_shm_pipe_init` opened. -/
def Effect.opened : Effect → Option Handle
  | .pipeInit _ pipe => pipe
  | _ => none

/-- The pipe that the call has passed to `xen_shm_pipe_free`. -/
def Effect.freed : Effect → Option Handle
  | .pipeFree pipe => some pipe
  | _ => none

/-- A `CLIENT_GRANT` is good enough to have its pipe connected and a child started. -/
def startsChild (len : Nat) (buffer : Buffer) (env : Outcomes) : Prop :=
  Proto.grantSize ≤ len ∧ env.calloc = true ∧ getMode buffer = Proto.readerOfferer ∧
    env.init = true ∧ env.connect = true ∧ env.create = true

/-- An opening of this sender is found, and it is not the first of the list. -/
def FoundBehind (s : Server) (source : SockAddr) : Prop :=
  ∀ o, findOpening s source = some (some o) → s.current ≠ some o

/-- A packet that the server handles without losing track of a node or of a pipe. -/
def Fine (s : Server) (source : SockAddr) (len : Nat) (buffer : Buffer) (env : Outcomes) : Prop :=
  (getMessage buffer = Proto.clientHello → Proto.clientHelloSize ≤ len → env.calloc = true →
    env.init = true ∧ env.offers.isSome = true) ∧
  (getMessage buffer = Proto.clientReset → FoundBehind s source) ∧
  (getMessage buffer = Proto.clientGrant →
    FoundBehind s source ∧
      ((findOpening s source).join.isSome = true → ¬ startsChild len buffer env))

/-- The effects open these pipes, free those and start no child. -/
structure Moves (effects : List Effect) (opens frees : List Handle) : Prop where
  /-- The pipes that `xen_shm_pipe_init` has returned are the opened ones. -/
  opened : effects.filterMap Effect.opened = opens
  /-- What was passed to `xen_shm_pipe_free`, in some order. -/
  freed : (effects.filterMap Effect.freed).Perm frees
  /-- No call of `pthread_create` has succeeded. -/
  unstarted : ∀ receiveFd sendFd, Effect.threadCreate receiveFd sendFd true ∉ effects

/-- No pipe is offered, only a new one is connected, and only resets are sent. -/
structure Harmless (fresh : Handle) (buffer : Buffer) (effects : List Effect)
    (opens frees : List Handle) : Prop extends Moves effects opens frees where
  /-- No call of `xen_shm_pipe_offers` has succeeded. -/
  offers : ∀ pipe pageCount domid grant,
    Effect.pipeOffers pipe pageCount domid (some grant) ∉ effects
  /-- `xen_shm_pipe_connect` was called for a new pipe. -/
  connects : ∀ pipe pageCount grant ok,
    Effect.pipeConnect pipe pageCount grant ok ∈ effects → pipe = fresh ∧ fresh ∈ opens
  /-- Every packet that was sent is a `SERVER_RESET`. -/
  sends : ∀ dest datagram, Effect.sendto dest datagram ∈ effects →
    datagram = (setMessage buffer Proto.serverReset).dump Proto.headerSize

/-- The calls made for a `CLIENT_HELLO` that is granted. -/
def grantEffects (s : Server) (source : SockAddr) (buffer : Buffer) (grant : Grant) :
    List Effect :=
  [.pipeInit .read (some s.nextHandle),
    .pipeOffers s.nextHandle s.pageCount (getHelloDomid buffer) (some grant),
    .sendto source ((grantPacket buffer grant s.pageCount).dump Proto.grantSize)]

/-- The calls made for a `CLIENT_GRANT` that starts a child. -/
def startEffects (s : Server) (receiveFd : Option Handle) (buffer : Buffer) : List Effect :=
  [.pipeInit .write (some s.nextHandle),
    .pipeConnect s.nextHandle (getPageCount buffer) (getGrant buffer) true,
    .threadCreate receiveFd s.nextHandle true]

section Handlers

variable {s s' : Server} {source : SockAddr} {len : Nat} {buffer : Buffer} {env : Outcomes}
  {effects before : List Effect} {o : Id} {opens frees : List Handle}

/-- What `udp_readable_cb` does with a packet, and whether that is fine. -/
inductive Handled (s : Server) (source : SockAddr) (len : Nat) (buffer : Buffer)
    (env : Outcomes) : Server → List Effect → Prop where
  /-- Nothing changes, but an answer may be sent. -/
  | ignored (effects : List Effect) (hmoves : Harmless s.nextHandle buffer effects [] [])
      (hfine : Fine s source len buffer env) : Handled s source len buffer env s effects
  /-- A node is left outside the list. Its pipe was opened for it, if there is one. -/
  | leaked (node : Opening) (opens frees : List Handle) (effects : List Effect)
      (hnext : node.next = none)
      (hpipe : ∀ pipe, node.receiveFd = some pipe → pipe = s.nextHandle ∧ opens = [pipe])
      (hmoves : Harmless s.nextHandle buffer effects opens frees)
      (hfine : ¬ Fine s source len buffer env) : Handled s source len buffer env
        { s.put s.nextOpening (some node) with
          nextOpening := s.nextOpening + 1
          nextHandle := s.nextHandle + opens.length } effects
  /-- A pipe is offered to the sender. -/
  | granted (grant : Grant) (hmsg : getMessage buffer = Proto.clientHello)
      (hoffers : env.offers = some grant) (hfine : Fine s source len buffer env) :
      Handled s source len buffer env
        { s.put s.nextOpening (some ⟨source, some s.nextHandle, s.current⟩) with
          current := some s.nextOpening
          nextOpening := s.nextOpening + 1
          nextHandle := s.nextHandle + 1 } (grantEffects s source buffer grant)
  /-- An opening is freed, and perhaps a second pipe that was opened for it. -/
  | freed (o : Id) (node : Opening) (pipe : Handle) (opens : List Handle) (s' : Server)
      (effects : List Effect) (hfound : findOpening s source = some (some o))
      (hnode : s.openings o = some node) (hpipe : node.receiveFd = some pipe)
      (hopens : opens = [] ∨ opens = [s.nextHandle])
      (hfree : freeOpening { s with nextHandle := s.nextHandle + opens.length } o = some s')
      (hmoves : Harmless s.nextHandle buffer effects opens (pipe :: opens))
      (hfine : Fine s source len buffer env ↔ s.current ≠ some o) :
      Handled s source len buffer env s' effects
  /-- A child is started with the pipes of the opening. -/
  | started (o : Id) (node : Opening) (hmsg : getMessage buffer = Proto.clientGrant)
      (hlen : Proto.grantSize ≤ len) (hfound : findOpening s source = some (some o))
      (hnode : s.openings o = some node) (hfine : ¬ Fine s source len buffer env) :
      Handled s source len buffer env
        { s with
          threads := Function.update s.threads s.nextThread
            (some ⟨node.receiveFd, s.nextHandle, false, s.childs⟩)
          childs := some s.nextThread
          nextThread := s.nextThread + 1
          nextHandle := s.nextHandle + 1 } (startEffects s node.receiveFd buffer)

/-- Without calls no pipe is opened or freed. -/
theorem moves_nil : Moves [] [] [] := ⟨rfl, .nil, by simp⟩

section Harmless

variable {fresh pipe : Handle} {after : List Effect} {opens' frees' : List Handle}

/-- Harmless calls one after the other are harmless. -/
theorem Harmless.append (h : Harmless fresh buffer before opens frees)
    (h' : Harmless fresh buffer after opens' frees') :
    Harmless fresh buffer (before ++ after) (opens ++ opens') (frees ++ frees') where
  opened := by rw [List.filterMap_append, h.opened, h'.opened]
  freed := by
    rw [List.filterMap_append]
    exact h.freed.append h'.freed
  unstarted receiveFd sendFd hmem :=
    (List.mem_append.mp hmem).elim (h.unstarted _ _) (h'.unstarted _ _)
  offers pipe pageCount domid grant hmem :=
    (List.mem_append.mp hmem).elim (h.offers _ _ _ _) (h'.offers _ _ _ _)
  connects pipe pageCount grant ok hmem := by
    rcases List.mem_append.mp hmem with hmem | hmem
    · exact (h.connects _ _ _ _ hmem).imp_right (List.mem_append_left opens')
    · exact (h'.connects _ _ _ _ hmem).imp_right (List.mem_append_right opens)
  sends dest datagram hmem := (List.mem_append.mp hmem).elim (h.sends _ _) (h'.sends _ _)

/-- To call nothing is harmless. -/
theorem harmless_nil (fresh : Handle) (buffer : Buffer) : Harmless fresh buffer [] [] [] :=
  ⟨moves_nil, by simp, by simp, by simp⟩

/-- A reset behind harmless calls is harmless. -/
theorem Harmless.reset (h : Harmless fresh buffer before opens frees) :
    Harmless fresh buffer (before ++ resetClient source buffer) opens frees := by
  have hreset : Harmless fresh buffer (resetClient source buffer) [] [] :=
    ⟨⟨rfl, .nil, by simp [resetClient]⟩, by simp [resetClient], by simp [resetClient],
      fun dest datagram hmem => by cases List.mem_singleton.mp hmem; rfl⟩
  simpa using h.append hreset

/-- A pipe is given back after other harmless calls. -/
theorem Harmless.free (h : Harmless fresh buffer before opens frees) :
    Harmless fresh buffer (before ++ [.pipeFree pipe]) opens (pipe :: frees) := by
  have hfree : Harmless fresh buffer [.pipeFree pipe] [] [pipe] :=
    ⟨⟨rfl, .refl _, by simp⟩, by simp, by simp, by simp⟩
  have happend := h.append hfree
  rw [List.append_nil] at happend
  exact { happend with freed := happend.freed.trans (List.perm_append_singleton pipe frees) }

/-- It is harmless to find that no pipe can be opened. -/
theorem harmless_init_none (fresh : Handle) (buffer : Buffer) (mod : Pipe.Mod) :
    Harmless fresh buffer [.pipeInit mod none] [] [] :=
  ⟨⟨rfl, .nil, by simp⟩, by simp, by simp, by simp⟩

/-- A pipe was opened, and could not be offered. -/
theorem harmless_offers_none (fresh : Handle) (buffer : Buffer) (pageCount : UInt8)
    (domid : BitVec 32) : Harmless fresh buffer
      [.pipeInit .read (some fresh), .pipeOffers fresh pageCount domid none] [fresh] [] :=
  ⟨⟨rfl, .nil, by simp⟩, by simp, by simp, by simp⟩

/-- It is harmless to open a pipe and to connect it, or to fail to connect it. -/
theorem harmless_connect (fresh : Handle) (buffer : Buffer) (pageCount : UInt8) (grant : Grant)
    (ok : Bool) : Harmless fresh buffer
      [.pipeInit .write (some fresh), .pipeConnect fresh pageCount grant ok] [fresh] [] := by
  refine ⟨⟨rfl, .nil, by simp⟩, by simp, ?_, by simp⟩
  intro pipe pageCount' grant' ok' hmem
  simp at hmem
  exact ⟨hmem.1, by simp⟩

/-- It is harmless that a child could not be started. -/
theorem harmless_create (fresh : Handle) (buffer : Buffer) (receiveFd : Option Handle)
    (sendFd : Handle) : Harmless fresh buffer [.threadCreate receiveFd sendFd false] [] [] :=
  ⟨⟨rfl, .nil, by simp⟩, by simp, by simp, by simp⟩

end Harmless

/-- A `CLIENT_HELLO` that is accepted is fine when it can be granted. -/
theorem fine_clientHello (hmsg : getMessage buffer = Proto.clientHello)
    (haccept : ¬ (len < Proto.clientHelloSize ∨ env.calloc = false)) :
    Fine s source len buffer env ↔ env.init = true ∧ env.offers.isSome = true := by
  have hlen : Proto.clientHelloSize ≤ len := by omega
  have hcalloc : env.calloc = true := by simp at haccept; exact haccept.2
  have hreset : Proto.clientHello ≠ Proto.clientReset := by decide
  have hgrant : Proto.clientHello ≠ Proto.clientGrant := by decide
  simp [Fine, hmsg, hlen, hcalloc, hreset, hgrant]

/-- The handler of a `CLIENT_HELLO` does one of the things listed. -/
theorem onClientHello_cases (hmsg : getMessage buffer = Proto.clientHello)
    (h : onClientHello s source len buffer env = (s', effects)) :
    Handled s source len buffer env s' effects := by
  simp only [onClientHello] at h
  split at h
  · rename_i hrefuse
    obtain ⟨rfl, rfl⟩ := Prod.mk.inj h
    refine .ignored [] (harmless_nil _ _) ⟨fun _ hlen hcalloc => ?_, ?_, ?_⟩
    · rcases hrefuse with hrefuse | hrefuse
      · omega
      · simp [hcalloc] at hrefuse
    · intro hmsg'
      exact absurd (hmsg.symm.trans hmsg') (by decide)
    · intro hmsg'
      exact absurd (hmsg.symm.trans hmsg') (by decide)
  · rename_i haccept
    have hfine : Fine s source len buffer env ↔ _ := fine_clientHello hmsg haccept
    split at h
    · rename_i hinit
      obtain ⟨rfl, rfl⟩ := Prod.mk.inj h
      exact .leaked .zero [] [] _ rfl (by simp [Opening.zero]) (harmless_init_none _ _ _).reset
        (by simp [hfine, hinit])
    · rename_i hinit
      split at h
      · rename_i hoffers
        obtain ⟨rfl, rfl⟩ := Prod.mk.inj h
        simp only [Server.put, Function.update_idem, hoffers]
        exact .leaked { Opening.zero with receiveFd := some s.nextHandle } [s.nextHandle]
          [s.nextHandle] _ rfl (fun _ h => by cases h; exact ⟨rfl, rfl⟩)
          (harmless_offers_none _ _ _ _).free.reset (by simp [hfine, hoffers])
      · rename_i grant hoffers
        obtain ⟨rfl, rfl⟩ := Prod.mk.inj h
        simp only [Server.put, Function.update_idem, hoffers]
        refine .granted grant hmsg hoffers ?_
        simpa [hfine, hoffers] using hinit

/-- The label `free_o_new` in terms of what it frees. -/
theorem freeONew_cases (opens : List Handle) {n : Handle}
    (hfound : findOpening s source = some (some o)) (hn : n = s.nextHandle + opens.length)
    (hopens : opens = [] ∨ opens = [s.nextHandle])
    (hbefore : Harmless s.nextHandle buffer before opens opens)
    (hfine : Fine s source len buffer env ↔ s.current ≠ some o)
    (h : freeONew { s with nextHandle := n } o source buffer before = some (s', effects)) :
    Handled s source len buffer env s' effects := by
  simp only [freeONew, Option.bind_eq_bind, Option.bind_eq_some_iff, Option.some.injEq,
    Prod.mk.injEq] at h
  obtain ⟨node, hnode, pipe, hpipe, t, hfree, rfl, rfl⟩ := h
  rw [List.append_cons]
  exact .freed o node pipe opens _ _ hfound hnode hpipe hopens (hn ▸ hfree) hbefore.free.reset hfine

/-- The handler of a `CLIENT_RESET` does one of the things listed. -/
theorem onClientReset_cases (hmsg : getMessage buffer = Proto.clientReset)
    (h : onClientReset s source buffer = some (s', effects)) :
    Handled s source len buffer env s' effects := by
  have hhello : Proto.clientReset ≠ Proto.clientHello := by decide
  have hgrant : Proto.clientReset ≠ Proto.clientGrant := by decide
  have hfine : Fine s source len buffer env ↔ FoundBehind s source := by
    simp [Fine, hmsg, hhello, hgrant]
  simp only [onClientReset, Option.bind_eq_bind] at h
  obtain ⟨found, hfound, h⟩ := Option.bind_eq_some_iff.mp h
  cases found with
  | none =>
    obtain ⟨rfl, rfl⟩ := Prod.mk.inj (Option.some.inj h)
    exact .ignored [] (harmless_nil _ _) (hfine.mpr fun o ho => by simp [hfound] at ho)
  | some o =>
    refine freeONew_cases [] hfound rfl (.inl rfl) (harmless_nil _ _) ?_ h
    simp [hfine, FoundBehind, hfound]

/-- The handler of a `CLIENT_GRANT` does one of the things listed. -/
theorem onClientGrant_cases (hmsg : getMessage buffer = Proto.clientGrant)
    (h : onClientGrant s source len buffer env = some (s', effects)) :
    Handled s source len buffer env s' effects := by
  have hhello : Proto.clientGrant ≠ Proto.clientHello := by decide
  have hreset : Proto.clientGrant ≠ Proto.clientReset := by decide
  have hfine : Fine s source len buffer env ↔ FoundBehind s source ∧
      ((findOpening s source).join.isSome = true → ¬ startsChild len buffer env) := by
    simp [Fine, hmsg, hhello, hreset]
  simp only [onClientGrant, Option.bind_eq_bind] at h
  obtain ⟨found, hfound, h⟩ := Option.bind_eq_some_iff.mp h
  cases found with
  | none =>
    obtain ⟨rfl, rfl⟩ := Prod.mk.inj (Option.some.inj h)
    exact .ignored _ (harmless_nil _ _).reset (hfine.mpr ⟨fun o ho => by simp [hfound] at ho,
      by simp [hfound]⟩)
  | some o =>
    -- Unless the child is started, the opening is freed.
    have hbehind : ¬ startsChild len buffer env →
        (Fine s source len buffer env ↔ s.current ≠ some o) := by
      intro hnot
      simp [hfine, FoundBehind, hfound, hnot]
    simp only at h
    split at h
    · rename_i hbad
      refine freeONew_cases [] hfound rfl (.inl rfl) (harmless_nil _ _) (hbehind ?_) h
      rintro ⟨hlen, hcalloc, hmode, -⟩
      simp [hcalloc, hmode] at hbad
      omega
    rename_i hgood
    split at h
    · rename_i hinit
      refine freeONew_cases [] hfound rfl (.inl rfl) (harmless_init_none _ _ _) (hbehind ?_) h
      simp [startsChild, hinit]
    rename_i hinit
    split at h
    · rename_i hconnect
      refine freeONew_cases [s.nextHandle] hfound rfl (.inr rfl)
        (harmless_connect _ _ _ _ _).free (hbehind ?_) h
      simp [startsChild, hconnect]
    rename_i hconnect
    simp only [startChild, Option.bind_eq_bind] at h
    obtain ⟨node, hnode, h⟩ := Option.bind_eq_some_iff.mp h
    simp at hgood hinit hconnect
    have hlen : Proto.grantSize ≤ len := by omega
    split at h
    · rename_i hcreate
      obtain ⟨rfl, rfl⟩ := Prod.mk.inj (Option.some.inj h)
      have hstart : startsChild len buffer env :=
        ⟨hlen, hgood.2.1, hgood.2.2, hinit, hconnect, hcreate⟩
      simp only [hconnect]
      exact .started o node hmsg hlen hfound hnode (by simp [hfine, hfound, hstart])
    · rename_i hcreate
      simp only [Option.bind_eq_some_iff, Option.some.injEq, Prod.mk.injEq] at h
      obtain ⟨pipe, hpipe, t, hfree, rfl, rfl⟩ := h
      have hfrees : Harmless s.nextHandle buffer [.threadCreate node.receiveFd s.nextHandle false,
          .pipeFree pipe, .pipeFree s.nextHandle] [] [s.nextHandle, pipe] :=
        (harmless_create _ _ _ _).free.free
      have hmoves := (harmless_connect s.nextHandle buffer (getPageCount buffer) (getGrant buffer)
        env.connect).append hfrees
      refine .freed o node pipe [s.nextHandle] _ _ hfound hnode hpipe (.inr rfl) hfree
        { hmoves with freed := hmoves.freed.trans (.swap ..) } (hbehind ?_)
      simp [startsChild, hcreate]

/-- Every packet is handled in one of these ways. -/
theorem handlePacket_cases (h : handlePacket s source len buffer env = some (s', effects))
    (hlen : Proto.headerSize ≤ len) (hversion : getVersion buffer = Proto.version) :
    Handled s source len buffer env s' effects := by
  simp only [handlePacket] at h
  split at h
  · rename_i hbad
    exact absurd hbad (by simp [hversion]; omega)
  split at h
  · rename_i hmsg
    exact onClientHello_cases hmsg (Option.some.inj h)
  split at h
  · rename_i hmsg
    exact onClientReset_cases hmsg h
  split at h
  · rename_i hmsg
    exact onClientGrant_cases hmsg h
  · rename_i hhello hreset hgrant
    obtain ⟨rfl, rfl⟩ := Prod.mk.inj (Option.some.inj h)
    exact .ignored [] (harmless_nil _ _) ⟨fun hmsg => absurd hmsg hhello,
      fun hmsg => absurd hmsg hreset, fun hmsg => absurd hmsg hgrant⟩

/-- A datagram that is too short or of another version is ignored. -/
theorem udpReadable_cases {bytes : List UInt8} {stack : Buffer}
    (h : udpReadable s (.datagram source bytes stack env) = some (s', effects)) :
    (s' = s ∧ effects = [] ∧ ¬ (Proto.headerSize ≤ min bytes.length Proto.maxLen ∧
      getVersion (received bytes stack) = Proto.version)) ∨
    ((Proto.headerSize ≤ min bytes.length Proto.maxLen ∧
      getVersion (received bytes stack) = Proto.version) ∧
      Handled s source (min bytes.length Proto.maxLen) (received bytes stack) env s' effects) := by
  by_cases hgood : Proto.headerSize ≤ min bytes.length Proto.maxLen ∧
      getVersion (received bytes stack) = Proto.version
  · exact .inr ⟨hgood, handlePacket_cases h hgood.1 hgood.2⟩
  · have hbad : min bytes.length Proto.maxLen < Proto.headerSize ∨
        getVersion (received bytes stack) ≠ Proto.version := by
      by_cases hlen : min bytes.length Proto.maxLen < Proto.headerSize
      · exact .inl hlen
      · exact .inr fun hversion => hgood ⟨by omega, hversion⟩
    simp only [udpReadable, handlePacket, hbad, if_true, Option.some.injEq, Prod.mk.injEq] at h
    exact .inl ⟨h.1.symm, h.2.symm, hgood⟩

end Handlers

end XenShm.Udp
