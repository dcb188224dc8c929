import XenShm.Udp.Network
import XenShm.Udp.Ownership
import XenShm.Udp.Removal
import XenShm.Udp.Shutdown

/-!
# The server as a table

What the server is for can be told without nodes and links: it keeps the clients that it has sent
a grant, the last one first, and the pairs of pipes of its children. As long as no first opening
has to be taken out, `udp_readable_cb` never follows a link to a freed node and makes the calls
that the table asks for, one by one.
-/

namespace XenShm.Udp

open Library

/-- What the server knows, without its lists: the abstract server. -/
structure Table where
  /-- The page count that the server proposes. -/
  pageCount : UInt8
  /-- The clients that were sent a grant, with the pipe behind it. -/
  entries : List (SockAddr × Handle)
  /-- The pipes of the children, the newest child first. -/
  children : List (Handle × Handle)
  /-- How many pipes were opened, and the handle of the next one. -/
  nextHandle : Handle
  /-- The calls that were made so far, in their order. -/
  log : List Effect

namespace Table

/-- The table before anything was received. -/
def initial (pageCount : UInt8) : Table := ⟨pageCount, [], [], 0, []⟩

/-- The pipe that was offered to this client last, if its opening is still there. -/
def find (t : Table) (source : SockAddr) : Option Handle :=
  (t.entries.find? fun e => e.1 = source).map Prod.snd

/-- Forget the last grant that was made for this client. -/
def forget (t : Table) (source : SockAddr) : Table :=
  { t with entries := t.entries.eraseP fun e => e.1 = source }

/-- Add calls to the log. -/
def call (t : Table) (effects : List Effect) : Table := { t with log := t.log ++ effects }

/-- Give the next handle to a pipe that is opened. -/
def openPipe (t : Table) : Table := { t with nextHandle := t.nextHandle + 1 }

/-- Give a client up: its pipe is freed and it is told so. -/
def giveUp (t : Table) (source : SockAddr) (pipe : Handle) (buffer : Buffer)
    (before : List Effect) : Table :=
  (t.forget source).call (before ++ .pipeFree pipe :: resetClient source buffer)

/-- A client greets and is granted a pipe, or it is reset. -/
def greeted (t : Table) (source : SockAddr) (len : Nat) (buffer : Buffer) (env : Outcomes) :
    Table :=
  if len < Proto.clientHelloSize ∨ env.calloc = false then t
  else if env.init = false then t.call (.pipeInit .read none :: resetClient source buffer)
  else
    let offers := Effect.pipeOffers t.nextHandle t.pageCount (getHelloDomid buffer) env.offers
    match env.offers with
    | none => t.openPipe.call (.pipeInit .read (some t.nextHandle) :: offers ::
        .pipeFree t.nextHandle :: resetClient source buffer)
    | some grant =>
      { t.openPipe with entries := (source, t.nextHandle) :: t.entries }.call
        [.pipeInit .read (some t.nextHandle), offers,
          .sendto source ((grantPacket buffer grant t.pageCount).dump Proto.grantSize)]

/-- A client that was sent a grant answers with its own. -/
def answered (t : Table) (source : SockAddr) (pipe : Handle) (len : Nat) (buffer : Buffer)
    (env : Outcomes) : Table :=
  if len < Proto.grantSize ∨ env.calloc = false ∨ getMode buffer ≠ Proto.readerOfferer then
    t.giveUp source pipe buffer []
  else if env.init = false then t.giveUp source pipe buffer [.pipeInit .write none]
  else
    let second := t.nextHandle
    let before := [Effect.pipeInit .write (some second),
      .pipeConnect second (getPageCount buffer) (getGrant buffer) env.connect]
    if env.connect = false then
      t.openPipe.giveUp source pipe buffer (before ++ [Effect.pipeFree second])
    else if env.create then
      { t.openPipe with children := (pipe, second) :: t.children }.call
        (before ++ [Effect.threadCreate (some pipe) second true])
    else
      (t.openPipe.forget source).call (before ++ [Effect.threadCreate (some pipe) second false,
        .pipeFree pipe, .pipeFree second])

/-- A packet is received, with its length and its contents. -/
def handle (t : Table) (source : SockAddr) (len : Nat) (buffer : Buffer) (env : Outcomes) :
    Table :=
  if len < Proto.headerSize ∨ getVersion buffer ≠ Proto.version then t
  else if getMessage buffer = Proto.clientHello then t.greeted source len buffer env
  else if getMessage buffer = Proto.clientReset then
    match t.find source with
    | none => t
    | some pipe => t.giveUp source pipe buffer []
  else if getMessage buffer = Proto.clientGrant then
    match t.find source with
    | none => t.call (resetClient source buffer)
    | some pipe => t.answered source pipe len buffer env
  else t

/-- One call of the server, whatever it is called for. -/
def step (t : Table) : Wakeup → Option Table
  | .event failed => some (t.call (if failed then [.clean] else []))
  | .unreadable => some t
  | .datagram source bytes stack env =>
    some (t.handle source (min bytes.length Proto.maxLen) (received bytes stack) env)

/-- The guard of the table, which is ready for every call. -/
def anyWakeup (_ : Table) (_ : Wakeup) : Bool := true

end Table

/-- No first opening is taken out for the packet: it is ignored, or what has to be given up stands
behind another opening. -/
def RemovesBehind (v : Served) : Wakeup → Prop
  | .datagram source bytes stack env =>
    let len := min bytes.length Proto.maxLen
    let buffer := received bytes stack
    Proto.headerSize ≤ len → getVersion buffer = Proto.version →
      getMessage buffer = Proto.clientReset ∨
          getMessage buffer = Proto.clientGrant ∧ ¬ startsChild len buffer env →
        FoundBehind v.server source
  | _ => True

instance (len : Nat) (buffer : Buffer) (env : Outcomes) : Decidable (startsChild len buffer env) :=
  inferInstanceAs (Decidable (_ ∧ _))

instance (s : Server) (source : SockAddr) : Decidable (FoundBehind s source) :=
  decidable_of_iff (∀ o ∈ (findOpening s source).join, s.current ≠ some o) <| by
    simp [FoundBehind, Option.join_eq_some_iff]

instance RemovesBehind.decidable (v : Served) : (w : Wakeup) → Decidable (RemovesBehind v w)
  | .datagram _ _ _ _ => inferInstanceAs (Decidable (_ → _ → _ ∨ _ → _))
  | .event _ | .unreadable => isTrue trivial

/-- The condition on the calls as a guard, for runs that are computed. -/
def removesBehind (v : Served) (w : Wakeup) : Bool := RemovesBehind v w

/-- The lists of the server are those of the table. -/
structure Server.Matches (s : Server) (t : Table) : Prop where
  /-- The server and the table propose the same page count. -/
  pageCount : s.pageCount = t.pageCount
  /-- The server and the table give the same handles to the pipes. -/
  nextHandle : s.nextHandle = t.nextHandle
  /-- The list of the openings has the entries of the table. -/
  openings : ∃ l, s.Lists l ∧ l.map (fun o => (s.openings o).map Opening.entry) =
    t.entries.map fun e => some (e.1, some e.2)
  /-- The list of the children has the pipes of the table. -/
  children : ∃ ts, s.Children ts ∧
    ts.map (fun c => (s.threads c).map fun thread => (thread.receiveFd, thread.sendFd)) =
      t.children.map fun c => some (some c.1, c.2)

/-- The server represents the table: its lists are those of the table, and it made the same
calls. -/
structure Represents (v : Served) (t : Table) : Prop where
  lists : v.server.Matches t
  log : v.log = t.log

section Found

variable {s s' : Server} {t : Table} {source : SockAddr} {l : List Id}

/-- The search in the list finds what the search in the table finds, and taking it out leaves the
rest of both. -/
theorem find_represents {entries : List (SockAddr × Handle)} (hnodup : l.Nodup)
    (hl : l.map (fun o => (s.openings o).map Opening.entry) =
      entries.map fun e => some (e.1, some e.2)) :
    l.find? (s.isFrom source) = none ∧ (entries.find? fun e => e.1 = source) = none ∨
    ∃ o pipe node, l.find? (s.isFrom source) = some o ∧
      (entries.find? fun e => e.1 = source) = some (source, pipe) ∧ o ∈ l ∧
      s.openings o = some node ∧ node.receiveFd = some pipe ∧
      (l.erase o).map (fun o => (s.openings o).map Opening.entry) =
        (entries.eraseP fun e => e.1 = source).map fun e => some (e.1, some e.2) := by
  induction l generalizing entries with
  | nil =>
    obtain rfl : entries = [] := by simpa using hl.symm
    exact .inl ⟨rfl, rfl⟩
  | cons c l ih =>
    obtain _ | ⟨⟨a, pipe⟩, entries⟩ := entries
    · simp at hl
    simp only [List.map_cons, List.cons.injEq] at hl
    obtain ⟨hc, hl⟩ := hl
    obtain ⟨node, hnode, hentry⟩ := Option.map_eq_some_iff.mp hc
    obtain ⟨hsource, hpipe⟩ := Prod.mk.inj hentry
    by_cases ha : a = source
    · subst ha
      refine .inr ⟨c, pipe, node, ?_, by simp, List.mem_cons_self, hnode, hpipe, ?_⟩
      · simp [Server.isFrom, hnode, hsource]
      · simpa using hl
    · have hfrom : s.isFrom source c = false := by simp [Server.isFrom, hnode, hsource, ha]
      obtain ⟨hcl, hnodup⟩ := List.nodup_cons.mp hnodup
      rcases ih hnodup hl with ⟨hnone, hnone'⟩ | ⟨o, pipe', node', ho, he, hmem, hrest⟩
      · exact .inl ⟨by simp [hfrom, hnone], by simp [ha, hnone']⟩
      · have hne : c ≠ o := fun heq => hcl (heq ▸ hmem)
        refine .inr ⟨o, pipe', node', by simp [hfrom, ho], by simp [ha, he],
          List.mem_cons_of_mem _ hmem, hrest.1, hrest.2.1, ?_⟩
        rw [List.erase_cons_tail (by simpa using hne), List.map_cons, hrest.2.2, hc,
          List.eraseP_cons_of_neg (by simpa using ha), List.map_cons]

/-- The entries of a list that has lost a node are what they were. -/
theorem Removed.entries {o : Id} (h : Removed s l o s') :
    (l.erase o).map (fun i => (s'.openings i).map Opening.entry) =
      (l.erase o).map fun i => (s.openings i).map Opening.entry := by
  refine List.map_congr_left fun i hi => ?_
  obtain ⟨node', hnode'⟩ := Option.isSome_iff_exists.mp (show (s'.openings i).isSome = true by
    simpa [Server.link] using h.linked.isSome hi)
  obtain ⟨node, hnode, hsource, hpipe⟩ := h.kept i node' hnode'
  simp [hnode', hnode, Opening.entry, hsource, hpipe]

/-- What `free_opening` leaves alone: all but the list of the openings. -/
theorem freeOpening_frame {o : Id} (h : freeOpening s o = some s') :
    s'.pageCount = s.pageCount ∧ s'.nextHandle = s.nextHandle ∧ s'.nextOpening = s.nextOpening ∧
      s'.threads = s.threads := by
  rcases freeOpening_cases h with rfl | rfl | ⟨-, -, -, -, -, -, rfl⟩ <;> exact ⟨rfl, rfl, rfl, rfl⟩

/-- The opening that the server finds is the entry that the table finds. Behind another one it
can be taken out of both. -/
theorem Server.Matches.found (h : s.Matches t) (source : SockAddr) :
    findOpening s source = some none ∧ t.find source = none ∨
    ∃ o pipe node, findOpening s source = some (some o) ∧ t.find source = some pipe ∧
      s.openings o = some node ∧ node.receiveFd = some pipe ∧
      (s.current ≠ some o → ∃ s', freeOpening s o = some s' ∧ s'.Matches (t.forget source)) := by
  obtain ⟨l, hl, hentries⟩ := h.openings
  rw [findOpening_eq hl, Table.find]
  rcases find_represents hl.linked.nodup hentries with
    ⟨hnone, hnone'⟩ | ⟨o, pipe, node, ho, he, hmem, hnode, hpipe, hrest⟩
  · exact .inl ⟨by rw [hnone], by rw [hnone']; rfl⟩
  refine .inr ⟨o, pipe, node, by rw [ho], by rw [he]; rfl, hnode, hpipe, fun hbehind => ?_⟩
  obtain ⟨s', hfree, hremoved⟩ := removed_of_behind hl hmem hbehind
  obtain ⟨hpages, hhandle, hnext, hthreads⟩ := freeOpening_frame hfree
  obtain ⟨ts, hts, hchildren⟩ := h.children
  refine ⟨s', hfree, hpages.trans h.pageCount, hhandle.trans h.nextHandle, ?_, ?_⟩
  · refine ⟨l.erase o, ⟨hremoved.linked, fun i hi => ?_⟩, hremoved.entries.trans hrest⟩
    rw [hnext]
    exact hl.bound i (List.mem_of_mem_erase hi)
  · refine ⟨ts, hts.freeOpening hfree, ?_⟩
    rw [hthreads]
    exact hchildren

end Found

section Steps

variable {s : Server} {t : Table} {source : SockAddr} {len : Nat} {buffer : Buffer}
  {env : Outcomes} {before : List Effect}

/-- The server and the table do the same. -/
def DoesAs (r : Option (Server × List Effect)) (t t' : Table) : Prop :=
  ∃ s' effects, r = some (s', effects) ∧ s'.Matches t' ∧ t'.log = t.log ++ effects

theorem Server.Matches.call (h : s.Matches t) (effects : List Effect) :
    s.Matches (t.call effects) := ⟨h.pageCount, h.nextHandle, h.openings, h.children⟩

theorem Server.Matches.openPipe (h : s.Matches t) :
    Server.Matches { s with nextHandle := s.nextHandle + 1 } t.openPipe := by
  obtain ⟨l, hl, hentries⟩ := h.openings
  obtain ⟨ts, hts, hchildren⟩ := h.children
  exact ⟨h.pageCount, congrArg (· + 1) h.nextHandle, ⟨l, ⟨hl.linked, hl.bound⟩, hentries⟩,
    ts, hts.congr rfl rfl rfl, hchildren⟩

/-- The label `free_o_new` does to the server what giving up does to the table. -/
theorem Server.Matches.freeONew {o : Id} {pipe : Handle} (h : s.Matches t)
    (hfound : findOpening s source = some (some o)) (hpipe : t.find source = some pipe)
    (hbehind : s.current ≠ some o) :
    DoesAs (Udp.freeONew s o source buffer before) t (t.giveUp source pipe buffer before) := by
  rcases h.found source with ⟨hnone, -⟩ | ⟨o', pipe', node, hfound', hpipe', hnode, hfd, hfree⟩
  · simp [hfound] at hnone
  obtain rfl : o = o' := Option.some.inj (Option.some.inj (hfound.symm.trans hfound'))
  obtain rfl : pipe = pipe' := Option.some.inj (hpipe.symm.trans hpipe')
  obtain ⟨s', hs', hmatches⟩ := hfree hbehind
  exact ⟨s', _, by simp [Udp.freeONew, hnode, hfd, hs'], hmatches.call _, rfl⟩

/-- A new node changes no entry of the list. -/
theorem Server.Lists.entries_put {l : List Id} (hl : s.Lists l) (node : Opening) :
    (∀ o ∈ l, (s.put s.nextOpening (some node)).link o = s.link o) ∧
      l.map (fun o => ((s.put s.nextOpening (some node)).openings o).map Opening.entry) =
        l.map fun o => (s.openings o).map Opening.entry := by
  have hne : ∀ o ∈ l, o ≠ s.nextOpening := fun o ho => (hl.bound o ho).ne
  refine ⟨fun o ho => Server.link_put_of_ne (hne o ho), List.map_congr_left fun o ho => ?_⟩
  rw [Server.put_openings_of_ne (hne o ho)]

/-- A node that is left outside the list. -/
theorem Server.Matches.leak (h : s.Matches t) (node : Opening) : Server.Matches
    { s.put s.nextOpening (some node) with nextOpening := s.nextOpening + 1 } t := by
  obtain ⟨l, hl, hentries⟩ := h.openings
  obtain ⟨hlink, hsame⟩ := hl.entries_put node
  obtain ⟨ts, hts, hchildren⟩ := h.children
  exact ⟨h.pageCount, h.nextHandle, ⟨l, ⟨hl.linked.congr hlink,
    fun o ho => Nat.lt_succ_of_lt (hl.bound o ho)⟩, hsame.trans hentries⟩, ts,
    hts.congr rfl rfl rfl, hchildren⟩

/-- A node that is put in front of the list is a new entry of the table. -/
theorem Server.Matches.push (h : s.Matches t) (source : SockAddr) (pipe : Handle) : Server.Matches
    { s.put s.nextOpening (some ⟨source, some pipe, s.current⟩) with
      current := some s.nextOpening, nextOpening := s.nextOpening + 1 }
    { t with entries := (source, pipe) :: t.entries } := by
  obtain ⟨l, hl, hentries⟩ := h.openings
  obtain ⟨hlink, hsame⟩ := hl.entries_put ⟨source, some pipe, s.current⟩
  obtain ⟨ts, hts, hchildren⟩ := h.children
  refine ⟨h.pageCount, h.nextHandle, ⟨s.nextOpening :: l, ⟨?_, fun o ho => ?_⟩, ?_⟩, ts,
    hts.congr rfl rfl rfl, hchildren⟩
  · exact hl.linked.push (by simp [Server.link]) hlink
  · rcases List.mem_cons.mp ho with rfl | ho
    · exact Nat.lt_succ_self _
    · exact Nat.lt_succ_of_lt (hl.bound o ho)
  · simp only [List.map_cons]
    rw [hsame, hentries]
    simp [Opening.entry]

/-- The case `CLIENT_HELLO` does to the server what a greeting does to the table. -/
theorem Server.Matches.onClientHello (h : s.Matches t) :
    DoesAs (some (Udp.onClientHello s source len buffer env)) t
      (t.greeted source len buffer env) := by
  unfold Udp.onClientHello Table.greeted
  split
  · exact ⟨s, [], rfl, h, by simp⟩
  dsimp only
  split
  · exact ⟨_, _, rfl, (h.leak _).call _, rfl⟩
  cases hoffers : env.offers with
  | none =>
    refine ⟨_, _, rfl, ?_, ?_⟩
    · simpa only [Server.put, Function.update_idem] using
        (h.leak { Opening.zero with receiveFd := some s.nextHandle }).openPipe.call _
    · simp only [Table.call, Table.openPipe, Server.put, h.nextHandle, h.pageCount]
  | some grant =>
    refine ⟨_, _, rfl, ?_, ?_⟩
    · have hpush := (h.push source s.nextHandle).openPipe.call
        [.pipeInit .read (some t.nextHandle),
          .pipeOffers t.nextHandle t.pageCount (getHelloDomid buffer) (some grant),
          .sendto source ((grantPacket buffer grant t.pageCount).dump Proto.grantSize)]
      simpa only [Server.put, Function.update_idem, h.nextHandle, Table.openPipe, Table.call] using
        hpush
    · simp only [Table.call, Table.openPipe, Server.put, h.nextHandle, h.pageCount]

/-- The case `CLIENT_RESET` does to the server what forgetting does to the table. -/
theorem Server.Matches.onClientReset (h : s.Matches t) (hbehind : FoundBehind s source) :
    DoesAs (Udp.onClientReset s source buffer) t (match t.find source with
      | none => t
      | some pipe => t.giveUp source pipe buffer []) := by
  unfold Udp.onClientReset
  rcases h.found source with ⟨hnone, hnone'⟩ | ⟨o, pipe, node, hfound, hpipe, -⟩
  · rw [hnone, hnone']
    exact ⟨s, [], rfl, h, by simp⟩
  · rw [hfound, hpipe]
    exact h.freeONew hfound hpipe (hbehind o hfound)

/-- The answer of a client that is found. -/
theorem Server.Matches.answered {o : Id} {pipe : Handle} (h : s.Matches t)
    (hfound : findOpening s source = some (some o)) (hpipe : t.find source = some pipe)
    (hbehind : ¬ startsChild len buffer env → s.current ≠ some o) :
    DoesAs (Udp.onClientGrant s source len buffer env) t
      (t.answered source pipe len buffer env) := by
  obtain ⟨node, hnode, hfd⟩ : ∃ node, s.openings o = some node ∧ node.receiveFd = some pipe := by
    rcases h.found source with ⟨hnone, -⟩ | ⟨o', pipe', node, hfound', hpipe', hnode, hfd, -⟩
    · simp [hfound] at hnone
    obtain rfl : o = o' := Option.some.inj (Option.some.inj (hfound.symm.trans hfound'))
    obtain rfl : pipe = pipe' := Option.some.inj (hpipe.symm.trans hpipe')
    exact ⟨node, hnode, hfd⟩
  have hopen := h.openPipe
  unfold Udp.onClientGrant Table.answered
  simp only [hfound, Option.bind_eq_bind, Option.bind_some]
  by_cases hbad : len < Proto.grantSize ∨ env.calloc = false ∨ getMode buffer ≠ Proto.readerOfferer
  · simp only [if_pos hbad]
    refine h.freeONew hfound hpipe (hbehind ?_)
    rintro ⟨hlen, hcalloc, hmode, -⟩
    simp [hcalloc, hmode] at hbad
    omega
  simp only [if_neg hbad]
  by_cases hinit : env.init = false
  · simp only [if_pos hinit]
    exact h.freeONew hfound hpipe (hbehind (by simp [startsChild, hinit]))
  simp only [if_neg hinit]
  rw [h.nextHandle] at hopen
  simp only [h.nextHandle]
  by_cases hconnect : env.connect = false
  · simp only [if_pos hconnect]
    exact hopen.freeONew hfound hpipe (hbehind (by simp [startsChild, hconnect]))
  simp only [if_neg hconnect, startChild, hnode, hfd, Option.bind_eq_bind, Option.bind_some]
  by_cases hcreate : env.create = true
  · simp only [if_pos hcreate]
    refine ⟨_, _, rfl, ?_, rfl⟩
    obtain ⟨l, hl, hentries⟩ := hopen.openings
    obtain ⟨ts, hts, hchildren⟩ := hopen.children
    refine ⟨h.pageCount, rfl, ⟨l, ⟨hl.linked, hl.bound⟩, hentries⟩, s.nextThread :: ts,
      hts.started rfl rfl rfl rfl, ?_⟩
    simp only [List.map_cons, Function.update_self]
    refine congrArg₂ List.cons rfl ((List.map_congr_left fun c hc => ?_).trans hchildren)
    rw [Function.update_of_ne (hts.bound c hc).ne]
  · simp only [if_neg hcreate]
    rcases hopen.found source with ⟨hnone, -⟩ | ⟨o', pipe', node', hfound', hpipe', -, -, hfree⟩
    · exact absurd (hfound.symm.trans hnone) (by simp)
    obtain rfl : o = o' := Option.some.inj (Option.some.inj (hfound.symm.trans hfound'))
    obtain ⟨s', hs', hmatches⟩ := hfree (hbehind (by simp [startsChild, hcreate]))
    exact ⟨s', _, by rw [hs']; rfl, hmatches.call _, rfl⟩

/-- Whatever a packet contains, the server and the table handle it alike. -/
theorem Server.Matches.handlePacket (h : s.Matches t)
    (hbehind : Proto.headerSize ≤ len → getVersion buffer = Proto.version →
      getMessage buffer = Proto.clientReset ∨
          getMessage buffer = Proto.clientGrant ∧ ¬ startsChild len buffer env →
        FoundBehind s source) :
    DoesAs (Udp.handlePacket s source len buffer env) t (t.handle source len buffer env) := by
  unfold Udp.handlePacket Table.handle
  split
  · exact ⟨s, [], rfl, h, by simp⟩
  rename_i hgood
  obtain ⟨hlen, hversion⟩ := not_or.mp hgood
  have hbehind := hbehind (Nat.le_of_not_lt hlen) (not_not.mp hversion)
  split
  · exact h.onClientHello
  split
  · rename_i hmsg
    exact h.onClientReset (hbehind (.inl hmsg))
  split
  · rename_i hmsg
    rcases h.found source with ⟨hnone, hnone'⟩ | ⟨o, pipe, node, hfound, hpipe, -⟩
    · rw [hnone']
      exact ⟨s, _, by simp [Udp.onClientGrant, hnone], h.call _, rfl⟩
    · rw [hpipe]
      exact h.answered hfound hpipe fun hnot => hbehind (.inr ⟨hmsg, hnot⟩) o hfound
  · exact ⟨s, [], rfl, h, by simp⟩

/-- One call of `udp_readable_cb` does to the server what it does to the table. -/
theorem Represents.step {v : Served} {w : Wakeup} (h : Represents v t)
    (hbehind : RemovesBehind v w) :
    ∃ v' t', v.step w = some v' ∧ t.step w = some t' ∧ Represents v' t' := by
  cases w with
  | event failed =>
    exact ⟨_, _, rfl, rfl, h.lists.call _, congrArg (· ++ _) h.log⟩
  | unreadable => exact ⟨_, t, rfl, rfl, h.lists, by simp [h.log]⟩
  | datagram source bytes stack env =>
    obtain ⟨s', effects, hs, hmatches, hlog⟩ := h.lists.handlePacket hbehind
    refine ⟨⟨s', v.log ++ effects⟩, _, ?_, rfl, hmatches, ?_⟩
    · simp only [Served.step, udpReadable, hs, Option.map_some]
    · exact (congrArg (· ++ effects) h.log).trans hlog.symm

end Steps

/-- Before the first packet the server represents the empty table. -/
theorem Represents.initial (pageCount : UInt8) :
    Represents (.initial pageCount) (.initial pageCount) where
  lists := ⟨rfl, rfl, ⟨[], ⟨rfl, by simp⟩, rfl⟩, [], .initial pageCount, rfl⟩
  log := rfl

/-- Along a whole run the server represents the table, if no first opening is taken out. -/
theorem Represents.run {v v' : Served} {t : Table} {calls : List Wakeup} (h : Represents v t)
    (hrun : Library.run Served.step removesBehind v calls = some v') :
    ∃ t', Library.run Table.step Table.anyWakeup t calls = some t' ∧ Represents v' t' := by
  induction calls generalizing v t with
  | nil => exact ⟨t, rfl, Option.some.inj hrun ▸ h⟩
  | cons w calls ih =>
    simp only [Library.run] at hrun
    split at hrun
    · rename_i hguard
      obtain ⟨u, t', hu, ht', hrep⟩ := h.step (of_decide_eq_true hguard)
      simp only [hu, Option.bind_some] at hrun
      obtain ⟨t'', hrest, hlast⟩ := ih hrep hrun
      exact ⟨t'', by simpa [Library.run, Table.anyWakeup, ht'] using hrest, hlast⟩
    · cases hrun

/-- However the packets come and whatever they contain: while no first opening is taken out, the
server makes the calls of the table, one by one, and is never led to a freed node. -/
theorem server_refines_table (pageCount : UInt8) (calls : List Wakeup) (v : Served)
    (hrun : run Served.step removesBehind (.initial pageCount) calls = some v) :
    (∃ t, run Table.step Table.anyWakeup (.initial pageCount) calls = some t ∧ Represents v t) ∧
      ∀ w, RemovesBehind v w → (v.step w).isSome = true := by
  obtain ⟨t, ht, hrep⟩ := (Represents.initial pageCount).run hrun
  refine ⟨⟨t, ht, hrep⟩, fun w hw => ?_⟩
  obtain ⟨v', -, hv', -⟩ := hrep.step hw
  simp [hv']

/-- Two clients greet and the first of them gives up. -/
def greetTwiceAndReset : List Wakeup :=
  let hello := (helloPacket 3).dump Proto.clientHelloSize
  let reset := (setMessage (helloPacket 3) Proto.clientReset).dump Proto.headerSize
  [.datagram ⟨4000, 7⟩ hello (fun _ => 0) .success, .datagram ⟨4001, 7⟩ hello (fun _ => 0) .success,
    .datagram ⟨4000, 7⟩ reset (fun _ => 0) .success]

/-- A client that greets twice and resets leaves the server with its first grant, as the table
says. -/
theorem server_refines_table_reset : ∃ v,
    run Served.step removesBehind (.initial 4) greetTwiceAndReset = some v ∧
    (∃ t, run Table.step Table.anyWakeup (.initial 4) greetTwiceAndReset = some t ∧
      Represents v t) ∧ ∀ w, RemovesBehind v w → (v.step w).isSome = true := by
  have hsome : (run Served.step removesBehind (.initial 4) greetTwiceAndReset).isSome = true := by
    decide +kernel
  obtain ⟨v, hv⟩ := Option.isSome_iff_exists.mp hsome
  exact ⟨v, hv, server_refines_table 4 greetTwiceAndReset v hv⟩

end XenShm.Udp
