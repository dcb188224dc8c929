import XenShm.Ping.Carries

/-!
# The ping exchange and its deadlock

Each thread is at most one packet ahead of the other. So both writers always have room, both
threads are only ever blocked in reads, and of two blocked reads the stream of one holds the
packet it waits for. The event behind that packet is the one the flush behind each write is
for, and the client flushes the wrong pipe there.
-/

namespace XenShm.Ping

open XenShm.Library XenShm.Pipe

/-- The side whose thread drives this end of the pipe that `sender` sends through. -/
def owner (sender : Side) : Mod → Side
  | .write => sender
  | .read => sender.peer

namespace Thread

variable (side : Side) (t : Thread)

/-- The packets of the first call of the loop that were moved. -/
def firsts : Nat := if t.stage = .first then t.rounds else t.rounds + 1

/-- The packets of the second call of the loop. -/
def seconds : Nat := if t.stage = .secondFlush then t.rounds + 1 else t.rounds

/-- The packets a thread has moved through the end it drives in one direction. -/
def packets (m : Mod) : Nat := if (loop side .first).fd.mod = m then t.firsts else t.seconds

/-- What a thread has asked that end for. -/
def duty (m : Mod) : Duty :=
  if t.inCall ∧ (loop side t.stage).fd.mod = m then (loop side t.stage).duty else .none

end Thread

namespace Exchange

variable (e : Exchange)

/-- The packets that were moved through an end. -/
def packets (sender : Side) (m : Mod) : Nat :=
  (e.thread (owner sender m)).packets (owner sender m) m

/-- What the thread behind an end has asked it for. -/
def duty (sender : Side) (m : Mod) : Duty := (e.thread (owner sender m)).duty (owner sender m) m

/-- The packets whose event was sent or not needed: the client has called its first flush behind
them, or the flush of the server has returned. -/
def announced : Side → Nat
  | .client =>
    let t := e.thread .client
    if t.stage = .first ∨ t.stage = .firstFlush ∧ t.inCall = false then t.rounds else t.rounds + 1
  | .server => (e.thread .server).rounds

/-- The invariant of both pipes and both threads. -/
structure Sound (g : Side → Geometry) (e : Exchange) : Prop where
  /-- Both pipes carry the packets that their threads have counted. -/
  carries : ∀ s, Carries (g s) (e.pipe s) (e.announced s) (e.packets s) (e.duty s)
  /-- No call is made before the handshakes. -/
  greeted : e.Greeted ∨ ∀ s, (e.thread s).inCall = false
  /-- Neither thread was told to stop. -/
  running : ∀ s, (e.thread s).stop = false

end Exchange

namespace Exchange

variable {g : Side → Geometry} {e f : Exchange}

/-- The client sends at most one packet more than it has got answers. -/
private theorem client_sends (e : Exchange) :
    (if e.duty .client .write = .transfer then e.packets .client .write + 1
      else e.packets .client .write) ≤ (e.thread .client).rounds + 1 ∧
    (e.thread .client).rounds ≤ e.packets .server .read := by
  cases hstage : (e.thread .client).stage <;> cases hcall : (e.thread .client).inCall <;>
    simp [duty, packets, owner, loop, pingClient, Thread.duty, Thread.packets, Thread.firsts,
      Thread.seconds, hstage, hcall, LibCall.fd, LibCall.duty, Fd.mod, Side.peer]

/-- The server answers at most what it has got. -/
private theorem server_sends (e : Exchange) :
    (if e.duty .server .write = .transfer then e.packets .server .write + 1
      else e.packets .server .write) ≤ e.packets .client .read := by
  cases hstage : (e.thread .server).stage <;> cases hcall : (e.thread .server).inCall <;>
    simp [duty, packets, owner, loop, pingServer, Thread.duty, Thread.packets, Thread.firsts,
      Thread.seconds, hstage, hcall, LibCall.fd, LibCall.duty, Fd.mod, Side.peer]

/-- Each thread is at most one packet ahead of the other. -/
theorem Sound.ready (h : Sound g e) (s : Side) : (e.pipe s).sys.Ready (g s) .write := by
  obtain ⟨hgot, hreads, hsent⟩ := (h.carries .client).bounds
  obtain ⟨hanswered, hanswers, hreturned⟩ := (h.carries .server).bounds
  obtain ⟨hclient, hrounds⟩ := client_sends e
  have hserver := server_sends e
  have hroom := (g s).bufferSize_ge
  simp only [pingPacketSize] at hgot hsent hanswered hreturned
  cases s <;> simp only [System.Ready, bound, Mod.peer] <;> omega

/-- A blocked thread is in a read, and the packet it waits for was never announced to it. -/
private theorem Sound.blocked (h : Sound g e) {side : Side} (hb : e.Blocked side) :
    e.duty side.peer .read = .transfer ∧
      e.announced side.peer * pingPacketSize ≤ (e.pipe side.peer).sys.shown .read ∧
      (e.pipe side.peer).sys.shown .read < (e.packets side.peer .read + 1) * pingPacketSize := by
  obtain ⟨fd, hsleeps, hpending, hhandler, hlatch⟩ := hb
  obtain ⟨hread, hduty, hannounced, hshown⟩ :=
    (h.carries (fd.sender side)).blocked hsleeps hpending hhandler hlatch
  cases fd with
  | send => cases hread
  | receive => exact ⟨hduty, hannounced, hshown⟩

/-- The client reads in its second call only. -/
private theorem client_reads (h : e.duty .server .read = .transfer) :
    (e.thread .client).stage = .second := by
  revert h
  cases hstage : (e.thread .client).stage <;> cases hcall : (e.thread .client).inCall <;>
    simp [duty, owner, loop, pingClient, Thread.duty, hstage, hcall, LibCall.fd, LibCall.duty,
      Fd.mod, Side.peer]

/-- The server reads in its first call only. -/
private theorem server_reads (h : e.duty .client .read = .transfer) :
    (e.thread .server).stage = .first := by
  revert h
  cases hstage : (e.thread .server).stage <;> cases hcall : (e.thread .server).inCall <;>
    simp [duty, owner, loop, pingServer, Thread.duty, hstage, hcall, LibCall.fd, LibCall.duty,
      Fd.mod, Side.peer]

/-- Of two blocked reads, one waits for a packet whose event was sent. -/
theorem Sound.no_deadlock (h : Sound g e) : ¬ e.Deadlock := by
  rintro ⟨hclient, hserver⟩
  obtain ⟨hread, hannounced, hshown⟩ := h.blocked hclient
  obtain ⟨hread', hannounced', hshown'⟩ := h.blocked hserver
  have hstage := client_reads hread
  have hstage' := server_reads hread'
  have hclientSent : e.announced .client = (e.thread .client).rounds + 1 := by
    simp [announced, hstage]
  have hserverSent : e.announced .server = (e.thread .server).rounds := rfl
  have hclientGot : e.packets .server .read = (e.thread .client).rounds := by
    simp [packets, Thread.packets, owner, loop, pingClient, LibCall.fd, Fd.mod, Thread.seconds,
      Side.peer, hstage]
  have hserverGot : e.packets .client .read = (e.thread .server).rounds := by
    simp [packets, Thread.packets, owner, loop, pingServer, LibCall.fd, Fd.mod, Thread.firsts,
      Side.peer, hstage']
  simp only [Side.peer, pingPacketSize, hclientSent, hserverSent, hclientGot, hserverGot]
    at hannounced hshown hannounced' hshown'
  omega

/-- Whatever goes on at a pipe without failing keeps the invariant. -/
private theorem Sound.pipe (h : Sound g e) {sender : Side} {i : Connection.Input}
    (hsmooth : e.Smooth (.pipe sender i)) (hs : e.step g (.pipe sender i) = some f) :
    Sound g f := by
  simp only [Exchange.step, Option.ite_none_right_eq_some, Option.map_eq_some_iff] at hs
  obtain ⟨hi, c, hc, rfl⟩ := hs
  have hok : ∀ m choice, i = .kernel m choice → ∀ r,
      ((e.pipe sender).kernel m).task = .ret r → r = .ok := by
    rintro m choice rfl r hr
    have hfails : failing ((e.pipe sender).kernel m).task = false := hsmooth
    simpa [failing, hr] using hfails
  have hgreeted : (∀ m, ((e.pipe sender).kernel m).signals.initialSignal = true) ∨
      ∀ m, e.duty sender m = .none :=
    h.greeted.imp (· sender) fun hidle m => by simp [duty, Thread.duty, hidle]
  have hcarries := (h.carries sender).step hi hok hgreeted (h.ready sender) hc
  refine ⟨Side.forall_of sender ?_ ?_, ?_, h.running⟩
  · simp only [setPipe, Function.update_self]
    exact hcarries
  · simp only [setPipe, Function.update_of_ne sender.peer_ne]
    exact h.carries sender.peer
  · refine h.greeted.imp_left fun hall => Side.forall_of sender ?_ ?_
    · simp only [setPipe, Function.update_self]
      exact (h.carries sender).greeted_step hi (hall sender) hc
    · simp only [setPipe, Function.update_of_ne sender.peer_ne]
      exact hall sender.peer

/-- A handle of a side drives an end of that side. -/
theorem owner_sender (side : Side) (fd : Fd) : owner (fd.sender side) fd.mod = side := by
  cases side <;> cases fd <;> rfl

/-- An end that a side drives belongs to the pipe that the handle of that side names. -/
private theorem sender_of_owner {side s : Side} {fd : Fd} (h : owner s fd.mod = side) :
    s = fd.sender side := by
  cases side <;> cases fd <;> cases s <;> first | rfl | cases h

/-- What the threads say about the ends they drive, after a change of one thread that concerns
the end of one handle. -/
theorem ends_change {α : Type} (F : Side → Thread → Mod → α) {side : Side} {t : Thread}
    {fd : Fd} {value : α} (hthread : f.thread = Function.update e.thread side t)
    (hother : ∀ m, m ≠ fd.mod → F side t m = F side (e.thread side) m)
    (hown : F side t fd.mod = value) (s : Side) :
    (fun m => F (owner s m) (f.thread (owner s m)) m) =
      if s = fd.sender side then
        Function.update (fun m => F (owner s m) (e.thread (owner s m)) m) fd.mod value
      else fun m => F (owner s m) (e.thread (owner s m)) m := by
  have hpoint : ∀ m, F (owner s m) (f.thread (owner s m)) m =
      if s = fd.sender side ∧ m = fd.mod then value
      else F (owner s m) (e.thread (owner s m)) m := by
    intro m
    by_cases howner : owner s m = side
    · rw [howner, hthread, Function.update_self]
      by_cases hm : m = fd.mod
      · subst hm
        rw [if_pos ⟨sender_of_owner howner, rfl⟩, hown]
      · rw [if_neg fun h => hm h.2, hother m hm]
    · rw [hthread, Function.update_of_ne howner, if_neg]
      rintro ⟨rfl, rfl⟩
      exact howner (owner_sender side fd)
  funext m
  rw [hpoint]
  by_cases hs : s = fd.sender side
  · rw [if_pos hs]
    by_cases hm : m = fd.mod
    · subst hm
      rw [if_pos ⟨hs, rfl⟩, Function.update_self]
    · rw [if_neg fun h => hm h.2, Function.update_of_ne hm]
  · rw [if_neg hs, if_neg fun h => hs h.1]

/-- A thread has no other duty than its call. -/
theorem duty_of_ne (t : Thread) {side : Side} {m : Mod}
    (hm : m ≠ (loop side t.stage).fd.mod) : t.duty side m = .none := by
  rw [Thread.duty, if_neg fun h => hm h.2.symm]

/-- A thread between two calls has given no end a duty. -/
theorem duty_of_idle {t : Thread} (h : t.inCall = false) (side : Side) (m : Mod) :
    t.duty side m = .none := by
  rw [Thread.duty, if_neg (by simp [h])]

/-- The next call counts the packet of this one. -/
private theorem packets_next (side : Side) (t : Thread) (m : Mod) : t.next.packets side m =
    if (loop side t.stage).fd.mod = m ∧ (loop side t.stage).duty = .transfer then
      t.packets side m + 1 else t.packets side m := by
  cases side <;> cases hstage : t.stage <;> cases m <;>
    simp [Thread.packets, Thread.next, Thread.firsts, Thread.seconds, hstage, loop, pingClient,
      pingServer, LibCall.fd, LibCall.duty, Fd.mod]

/-- A thread whose call has not failed goes on with the next one. -/
private theorem conclude_eq (t : Thread) (call : LibCall) {p : Proc} (h : 0 ≤ p.result) :
    ∃ mem, t.conclude call p = { t with mem := mem }.next := by
  cases call with
  | flush => exact ⟨t.mem, rfl⟩
  | _ => exact ⟨p.mem, if_neg (by omega)⟩

/-- The two calls of a thread on its end. -/
theorem request_cases (side : Side) (t : Thread) (stage : Stage) :
    (loop side stage).duty = .flush ∧ t.request (loop side stage) = .flush ∨
      (loop side stage).duty = .transfer ∧ t.request (loop side stage) =
        .transfer (loop side stage).fd.mod true t.noise pingPacketSize t.mem := by
  cases side <;> cases stage <;>
    simp [loop, pingClient, pingServer, LibCall.duty, LibCall.fd, Thread.request, Fd.mod]

/-- What was announced while a thread begins its call: the client announces its packets. -/
private theorem Sound.announces_begin (h : Sound g e) {side : Side}
    (hgreeted : e.Greeted) (hnoticed : e.Noticed (.thread side))
    (hidle : (e.thread side).inCall = false)
    (hthread : f.thread = Function.update e.thread side { e.thread side with inCall := true })
    (s : Side) :
    Announces (g s) (e.pipe s) (f.announced s) := by
  have hannounces := (h.carries s).announces
  cases s with
  | server =>
    have hsame : f.announced .server = e.announced .server := by
      cases side <;> simp [announced, hthread]
    rwa [hsame]
  | client =>
    cases side with
    | server =>
      have hsame : f.announced .client = e.announced .client := by simp [announced, hthread]
      rwa [hsame]
    | client =>
      by_cases hstage : (e.thread .client).stage = .firstFlush
      · have hnext := (h.carries .client).announced_of_token (hgreeted .client .read)
          (hnoticed hstage hidle)
        have hall : f.announced .client = e.packets .client .write := by
          simp [announced, hthread, packets, owner, Thread.packets, loop, pingClient, LibCall.fd,
            Fd.mod, Thread.firsts, hstage]
        rwa [hall]
      · have hsame : f.announced .client = e.announced .client := by
          simp [announced, hthread, hstage]
        rwa [hsame]

/-- What was announced while a thread takes the value of its call: the server has announced what
it has flushed. -/
private theorem Sound.announces_conclude (h : Sound g e) {side : Side} {mem : Nat → UInt8}
    (hcall : (e.thread side).inCall = true)
    (hpc : ((e.connection side (e.call side).fd).sys.proc (e.call side).fd.mod).pc = .idle)
    (hthread : f.thread = Function.update e.thread side { e.thread side with mem := mem }.next)
    (s : Side) : Announces (g s) (e.pipe s) (f.announced s) := by
  have hannounces := (h.carries s).announces
  cases s with
  | client =>
    have hsame : f.announced .client = e.announced .client := by
      cases side with
      | server => simp [announced, hthread]
      | client =>
        cases hstage : (e.thread .client).stage <;>
          simp [announced, hthread, Thread.next, hstage, hcall]
    rwa [hsame]
  | server =>
    cases side with
    | client =>
      have hsame : f.announced .server = e.announced .server := by simp [announced, hthread]
      rwa [hsame]
    | server =>
      cases hstage : (e.thread .server).stage with
      | secondFlush =>
        have hfd : e.call .server = .flush .send := by rw [call, hstage]; rfl
        rw [hfd] at hpc
        have hduty : e.duty .server .write = .flush := by
          simp [duty, Thread.duty, owner, hstage, hcall, loop, pingServer, LibCall.fd, Fd.mod,
            LibCall.duty]
        have hnext := (h.carries .server).announced_of_flush hduty hpc
        have hall : f.announced .server = e.packets .server .write := by
          simp [announced, hthread, Thread.next, packets, owner, Thread.packets, loop, pingServer,
            LibCall.fd, Fd.mod, Thread.seconds, hstage]
        rwa [hall]
      | _ =>
        have hsame : f.announced .server = e.announced .server := by
          simp [announced, hthread, Thread.next, hstage]
        rwa [hsame]

@[simp] theorem next_inCall (t : Thread) : t.next.inCall = false := by
  unfold Thread.next
  split <;> rfl

@[simp] private theorem next_stop (t : Thread) : t.next.stop = t.stop := by
  unfold Thread.next
  split <;> rfl

/-- A thread that makes its next call keeps the invariant. -/
private theorem Sound.begin (h : Sound g e) {side : Side} (hgreeted : e.Greeted)
    (hnoticed : e.Noticed (.thread side)) (hidle : (e.thread side).inCall = false)
    (hs : e.begin g side = some f) : Sound g f := by
  unfold Exchange.begin at hs
  rw [if_neg (by simp [h.running side])] at hs
  obtain ⟨c, hc, hf⟩ := Option.map_eq_some_iff.mp hs
  have hthread : f.thread =
      Function.update e.thread side { e.thread side with inCall := true } := by rw [← hf]; rfl
  have hpipe : f.pipe = Function.update e.pipe ((e.call side).fd.sender side) c := by
    rw [← hf]
    rfl
  have hduty : ∀ s, f.duty s = if s = (e.call side).fd.sender side then
      Function.update (e.duty s) (e.call side).fd.mod (e.call side).duty else e.duty s :=
    ends_change Thread.duty hthread (fun m hm =>
      (duty_of_ne { e.thread side with inCall := true } hm).trans (duty_of_idle hidle side m).symm)
      (if_pos ⟨rfl, rfl⟩)
  have hpackets : ∀ s, f.packets s = e.packets s := by
    intro s
    have hchange : f.packets s = if s = (e.call side).fd.sender side then
        Function.update (e.packets s) (e.call side).fd.mod
          ((e.thread side).packets side (e.call side).fd.mod) else e.packets s :=
      ends_change Thread.packets hthread (fun _ _ => rfl) rfl s
    refine Eq.trans hchange ?_
    split
    · rename_i hs
      subst hs
      refine Function.update_eq_self_iff.mpr ?_
      change _ = Thread.packets (owner _ _) (e.thread (owner _ _)) _
      rw [owner_sender]
    · rfl
  have hbefore : ∀ s, Carries (g s) (e.pipe s) (f.announced s) (e.packets s) (e.duty s) :=
    fun s => (h.carries s).congr (h.announces_begin hgreeted hnoticed hidle hthread s) rfl rfl
  have hnone : e.duty ((e.call side).fd.sender side) (e.call side).fd.mod = .none := by
    rw [duty, owner_sender]
    exact duty_of_idle hidle ..
  have hkernel := (hbefore ((e.call side).fd.sender side)).kernel_user hc
  have hcarries : Carries (g ((e.call side).fd.sender side)) c
      (f.announced ((e.call side).fd.sender side)) (e.packets ((e.call side).fd.sender side))
      (Function.update (e.duty ((e.call side).fd.sender side)) (e.call side).fd.mod
        (e.call side).duty) := by
    rcases request_cases side (e.thread side) (e.thread side).stage with
      ⟨hkind, hreq⟩ | ⟨hkind, hreq⟩
    · rw [call, hreq] at hc
      rw [call, hkind]
      exact (hbefore _).beginFlush hnone (h.ready _) hc
    · rw [call, hreq] at hc
      rw [call, hkind]
      exact (hbefore _).beginTransfer hnone (h.ready _) hc
  refine ⟨Side.forall_of ((e.call side).fd.sender side) ?_ ?_,
    .inl (Side.forall_of ((e.call side).fd.sender side) ?_ ?_), Side.forall_of side ?_ ?_⟩
  · rw [hpipe, Function.update_self]
    refine hcarries.congr hcarries.announces (hpackets _) ?_
    rw [hduty, if_pos rfl]
  · rw [hpipe, Function.update_of_ne (Side.peer_ne _)]
    refine (hbefore _).congr (hbefore _).announces (hpackets _) ?_
    rw [hduty, if_neg (Side.peer_ne _)]
  · rw [hpipe, Function.update_self, hkernel]
    exact hgreeted _
  · rw [hpipe, Function.update_of_ne (Side.peer_ne _)]
    exact hgreeted _
  · rw [hthread, Function.update_self]
    exact h.running side
  · rw [hthread, Function.update_of_ne side.peer_ne]
    exact h.running side.peer

/-- A thread takes the value of its call. -/
private theorem Sound.conclude (h : Sound g e) {side : Side} (hgreeted : e.Greeted)
    (hcall : (e.thread side).inCall = true) (hs : e.conclude side = some f) : Sound g f := by
  unfold Exchange.conclude at hs
  simp only [Option.ite_none_right_eq_some, Option.some.injEq] at hs
  obtain ⟨⟨hpc, -⟩, hf⟩ := hs
  have hresult := ((h.carries ((e.call side).fd.sender side)).unbroken.proc
    (e.call side).fd.mod).result
  obtain ⟨mem, hnext⟩ := conclude_eq (e.thread side) (e.call side) hresult
  have hthread : f.thread =
      Function.update e.thread side { e.thread side with mem := mem }.next := by
    rw [← hf, ← hnext]
    rfl
  have hpipe : f.pipe = e.pipe := by
    rw [← hf]
    rfl
  have howned : e.duty ((e.call side).fd.sender side) (e.call side).fd.mod =
      (e.call side).duty := by
    rw [duty, owner_sender]
    exact if_pos ⟨hcall, rfl⟩
  have hduty : ∀ s, f.duty s = if s = (e.call side).fd.sender side then
      Function.update (e.duty s) (e.call side).fd.mod .none else e.duty s :=
    ends_change Thread.duty hthread (fun m hm =>
      (duty_of_idle (next_inCall _) side m).trans (duty_of_ne (e.thread side) hm).symm)
      (duty_of_idle (next_inCall _) ..)
  have hpackets : ∀ s, f.packets s = if s = (e.call side).fd.sender side then
      Function.update (e.packets s) (e.call side).fd.mod
        (if (e.call side).duty = .transfer then
          (e.thread side).packets side (e.call side).fd.mod + 1
        else (e.thread side).packets side (e.call side).fd.mod) else e.packets s := by
    refine ends_change Thread.packets hthread (fun m hm => ?_) ?_
    · rw [packets_next, if_neg fun h => hm h.1.symm]
      rfl
    · rw [packets_next]
      by_cases hkind : (e.call side).duty = .transfer
      · rw [if_pos hkind, if_pos ⟨rfl, hkind⟩]
        rfl
      · rw [if_neg hkind, if_neg fun h => hkind h.2]
        rfl
  have hannounces := h.announces_conclude hcall hpc hthread
  refine ⟨fun s => ?_, .inl (by rw [Exchange.Greeted, hpipe]; exact hgreeted),
    Side.forall_of side ?_ ?_⟩
  · rw [hpipe]
    by_cases hs : s = (e.call side).fd.sender side
    · subst hs
      refine ((h.carries _).conclude hpc).congr (hannounces _) ?_ ?_
      · rw [hpackets, if_pos rfl, howned]
        have hown : e.packets ((e.call side).fd.sender side) (e.call side).fd.mod =
            (e.thread side).packets side (e.call side).fd.mod := by rw [packets, owner_sender]
        rw [hown]
      · rw [hduty, if_pos rfl]
    · refine (h.carries s).congr (hannounces s) ?_ ?_
      · rw [hpackets, if_neg hs]
      · rw [hduty, if_neg hs]
  · rw [hthread, Function.update_self, next_stop]
    exact h.running side
  · rw [hthread, Function.update_of_ne side.peer_ne]
    exact h.running side.peer

/-- Every step of the exchange that meets the condition keeps the invariant. -/
theorem Sound.step (h : Sound g e) {i : Input} (hsmooth : e.Smooth i) (hnoticed : e.Noticed i)
    (hs : e.step g i = some f) : Sound g f := by
  cases i with
  | thread side =>
    simp only [Exchange.step] at hs
    (repeat' split at hs)
    · contradiction
    · rename_i hcall
      exact h.conclude hsmooth hcall hs
    · rename_i hcall
      exact h.begin hsmooth hnoticed (by simpa using hcall) hs
  | pipe sender i => exact h.pipe hsmooth hs
  | stop side => exact hsmooth.elim

/-- The exchange begins with the invariant, for nothing was asked of any end. -/
theorem sound_offered (g : Side → Geometry) (buffer memReader memWriter : Side → Nat → UInt8)
    (noise : Side → Nat) (mem : Side → Nat → UInt8) :
    Sound g (offered buffer memReader memWriter noise mem) where
  carries s := by
    refine ⟨⟨fun _ => 0, Connection.marked_offered .., ?_⟩, ⟨fun _ => ⟨[], 0, 0, [], []⟩,
      Ledger.sound_opened .., fun m => ?_⟩, System.unbroken_offered .., ?_, fun m call ht => ?_⟩
    · cases s <;> exact Nat.le_of_eq (Nat.zero_mul _)
    · cases s <;> cases m <;> first
        | exact .resting (.inl rfl) rfl
        | exact .resting (.inr (.inr rfl)) rfl
    · rfl
    · cases m <;> cases ht
  greeted := .inr fun _ => rfl
  running := fun _ => rfl

/-- As long as the client never leaves its write while the server is about to sleep over it, the
threads do not deadlock. -/
theorem ping_without_deadlock (g : Side → Geometry)
    (buffer memReader memWriter : Side → Nat → UInt8) (noise : Side → Nat)
    (mem : Side → Nat → UInt8) (inputs : List Input)
    (h : Along (step g) (fun e i => e.Smooth i ∧ e.Noticed i)
      (offered buffer memReader memWriter noise mem) inputs) :
    Always (step g) (fun e => ¬ e.Deadlock) (offered buffer memReader memWriter noise mem) inputs :=
  h.always (fun _ (hs : Sound g _) => hs.no_deadlock)
    (fun _ _ _ hs hi hstep => hs.step hi.1 hi.2 hstep)
    (sound_offered g buffer memReader memWriter noise mem)

/-- Two pipes of one page each, over zeroed pages. -/
def fresh : Exchange :=
  offered (fun _ _ => 0) (fun _ _ => 0) (fun _ _ => 0) (fun _ => 0) fun _ _ => 0

/-- The same input `n` times in a row. -/
def repeated (n : Nat) (i : Input) : List Input := .replicate n i

/-- So many steps of the process at one end of a pipe. -/
def ticks (sender : Side) (m : Mod) (n : Nat) : List Input :=
  repeated n (.pipe sender (.user m .tick))

/-- An `ioctl` with `n` steps of the kernel. -/
def ioctl (sender : Side) (m : Mod) (n : Nat) : List Input :=
  .pipe sender (.enter m) :: repeated n (.pipe sender (.kernel m .proceed))

/-- The writer of a pipe connects, and both ends are greeted. -/
def greeting (sender : Side) : List Input :=
  repeated 2 (.pipe sender (.kernel .write .proceed)) ++ ticks sender .write 2 ++
    .pipe sender (.deliver .read) :: repeated 4 (.pipe sender (.handler .read)) ++
      .pipe sender (.deliver .write) :: repeated 3 (.pipe sender (.handler .write))

/-- The client writes a packet, in as many steps as that takes. -/
def writing : List Input := .thread .client :: ticks .client .write 30

/-- The client calls flush behind the packet it has written. -/
def flushing : List Input :=
  [.thread .client, .thread .client] ++ ticks .server .read 1 ++ ioctl .server .read 3

/-- A thread that reads from an empty pipe falls asleep. -/
def sleepsInRead (sender : Side) : List Input := ticks sender .read 11 ++ ioctl sender .read 8

/-- The client falls asleep in its read of the answer. -/
def clientSleeps : List Input :=
  [.thread .client, .thread .client] ++ sleepsInRead .server

/-- A packet is written for a reader that sleeps, and behind its last byte the writer sends an event
of its own accord. -/
def writesToSleeper (sender : Side) : List Input :=
  ticks sender .write 26 ++ ioctl sender .write 3 ++ ticks sender .write 4

/-- The event wakes the reader, which reads the packet to its end. -/
def wakesAndReads (sender : Side) : List Input :=
  .pipe sender (.deliver .read) :: repeated 4 (.pipe sender (.handler .read)) ++
    repeated 9 (.pipe sender (.kernel .read .proceed)) ++ ticks sender .read 29

/-- A whole round in which each of the threads sleeps until the other one's packet wakes it. When
the client calls its first flush the server is asleep and the event of the write is still on its
way, and for a while both of them sleep. -/
def wokenRound : List Input :=
  greeting .client ++ greeting .server ++ .thread .server :: sleepsInRead .client ++
    .thread .client :: writesToSleeper .client ++ flushing ++ clientSleeps ++
    wakesAndReads .client ++
    [.thread .server, .thread .server] ++ ticks .client .read 1 ++ ioctl .client .read 3 ++
    [.thread .server, .thread .server] ++ writesToSleeper .server ++
    [.thread .server, .thread .server] ++ ticks .server .write 1 ++ ioctl .server .write 3 ++
    wakesAndReads .server ++ [.thread .client]

/-- A whole round of both threads, in which the sleeping client is woken, never comes to a
deadlock. -/
theorem ping_without_deadlock_wokenRound :
    Always (step fun _ => .onePage) (fun e => ¬ e.Deadlock) fresh wokenRound :=
  ping_without_deadlock _ _ _ _ _ _ _ (by decide +kernel)

/-- The server has decided to sleep when the client writes, and sleeps before the client
flushes. -/
def missedPacket : List Input :=
  greeting .client ++ greeting .server ++ .thread .server :: ticks .client .read 9 ++ writing ++
    ticks .client .read 2 ++ ioctl .client .read 8 ++ flushing ++ clientSleeps

/-- The client flushes the pipe it receives from, so no event wakes the server. -/
theorem not_ping_without_deadlock :
    ∃ e, Reaches (step fun _ => .onePage) (fun e i => decide (e.Smooth i)) fresh e ∧
      e.Deadlock := by
  have hrun : (run (step fun _ => .onePage) (fun e i => decide (e.Smooth i)) fresh
      missedPacket).any (fun e => [Side.client, .server].all fun s =>
        let k := (e.pipe s).kernel .read
        k.task.sleeps && !k.pending && k.handler.isNone && !k.signals.latentUserSignal) = true := by
    decide +kernel
  obtain ⟨e, he, htest⟩ := exists_reaches_of_run hrun
  simp only [List.all_cons, List.all_nil, Bool.and_true, Bool.and_eq_true, Bool.not_eq_true',
    Option.isNone_iff_eq_none] at htest
  obtain ⟨⟨⟨⟨hserver, hpending⟩, hhandler⟩, hlatch⟩, ⟨⟨hclient, hpending'⟩, hhandler'⟩, hlatch'⟩ :=
    htest
  exact ⟨e, he, ⟨.receive, hclient, hpending', hhandler', hlatch'⟩,
    ⟨.receive, hserver, hpending, hhandler, hlatch⟩⟩

end Exchange

end XenShm.Ping
