import XenShm.Ping.Deadlock
import XenShm.Pipe.Linked

/-!
# The answers of the ping server

The client sends its buffer and reads the answer into the same buffer, the server reads into its
own and sends that. As long as no `ioctl` fails, what the client had in its buffer at
the beginning goes round and round.
-/

namespace XenShm.Ping

open XenShm.Library XenShm.Pipe

/-- The stream is one packet over and over again, and possibly a part of it at the end. -/
def Repeats (packet stream : List UInt8) : Prop :=
  ∀ i, i < stream.length → stream[i]? = packet[i % packet.length]?

section Repeats

variable {packet stream opened rest : List UInt8}

/-- The beginning of such a stream is one too. -/
theorem Repeats.of_prefix (h : Repeats packet stream) (hp : opened <+: stream) :
    Repeats packet opened := by
  obtain ⟨rest, rfl⟩ := hp
  intro i hi
  rw [← h i (by simp; omega), List.getElem?_append_left hi]

/-- Behind whole packets there is a beginning of the next one. -/
theorem Repeats.drop (h : Repeats packet (opened ++ rest))
    (hwhole : opened.length % packet.length = 0) (hle : rest.length ≤ packet.length) :
    rest = packet.take rest.length := by
  apply List.ext_getElem?
  intro i
  by_cases hi : i < rest.length
  · have hnext := h (opened.length + i) (by simp; omega)
    rw [List.getElem?_append_right (by omega), Nat.add_sub_cancel_left, Nat.add_mod, hwhole,
      Nat.zero_add, Nat.mod_mod, Nat.mod_eq_of_lt (by omega)] at hnext
    rw [hnext, List.getElem?_take, if_pos hi]
  · rw [List.getElem?_eq_none (by omega), List.getElem?_eq_none (by simp; omega)]

/-- Behind whole packets the next part of the packet goes on with the stream. -/
theorem Repeats.append (h : Repeats packet opened) (hwhole : opened.length % packet.length = 0)
    {n : Nat} (hn : n ≤ packet.length) : Repeats packet (opened ++ packet.take n) := by
  intro i hi
  rw [List.length_append, List.length_take, Nat.min_eq_left hn] at hi
  by_cases hbefore : i < opened.length
  · rw [List.getElem?_append_left hbefore, h i hbefore]
  · obtain ⟨j, rfl⟩ := Nat.exists_eq_add_of_le (Nat.le_of_not_lt hbefore)
    rw [List.getElem?_append_right (by omega), Nat.add_sub_cancel_left, List.getElem?_take,
      if_pos (by omega), Nat.add_mod, hwhole, Nat.zero_add, Nat.mod_mod,
      Nat.mod_eq_of_lt (by omega)]

end Repeats

/-- What an end does with the packet for its thread, whose buffer is at `addr`. -/
inductive Carrying (packet : List UInt8) (m : Mod) (p : Proc) (b : Book) (stream : List UInt8)
    (addr : Nat) : Duty → Prop where
  /-- The end has nothing to move, and whole packets have passed through it. -/
  | resting {duty : Duty} (none : duty ≠ .transfer) (busy : p.busy = false)
      (whole : stream.length % pingPacketSize = 0) : Carrying packet m p b stream addr duty
  /-- The end moves the packet, from the buffer of its thread or into it. -/
  | moving (busy : p.busy = true) (all : p.all = true) (asked : b.asked = pingPacketSize)
      (buffer : b.buffer = addr) (whole : b.opened.length % pingPacketSize = 0)
      (sent : m = .write → segment p.mem addr pingPacketSize = packet) :
      Carrying packet m p b stream addr .transfer
  /-- The end has moved the packet, and whole packets have passed through it. -/
  | moved (pc : p.pc = .idle) (whole : stream.length % pingPacketSize = 0)
      (mem : segment p.mem addr pingPacketSize = packet) :
      Carrying packet m p b stream addr .transfer

section Carrying

variable {g : Geometry} {packet : List UInt8} {l k : Ledger} {m : Mod} {j : Pipe.Input}
  {addr : Nat} {duty : Duty}

/-- A pipe that carries the packet, over and over again, for the threads at its ends. -/
structure Circulates (g : Geometry) (packet : List UInt8) (l : Ledger) (addr : Mod → Nat)
    (duty : Mod → Duty) : Prop where
  /-- The calls at the pipe are in the books of its ends. -/
  linked : Ledger.Linked g l
  /-- No call at this pipe has failed. -/
  unbroken : l.sys.Unbroken
  /-- The stream of the pipe is the packet over and over again. -/
  copied : Repeats packet l.sys.copied
  /-- Each end does with the packet what its thread has asked it for. -/
  ends : ∀ m, Carrying packet m (l.sys.proc m) (l.book m) (l.sys.stream m) (addr m) (duty m)

/-- What has passed through either end is the packet over and over again. -/
private theorem repeats_stream (h : Repeats packet l.sys.copied) (hk : Kept g l.sys) (m : Mod) :
    Repeats packet (l.sys.stream m) := by
  cases m with
  | write => exact h
  | read =>
    refine h.of_prefix ?_
    rw [System.stream, hk.handed]
    exact List.take_prefix ..

/-- A write in progress goes on with the packet. -/
private theorem repeats_moving (hlinked : Ledger.Linked g k)
    (hopened : Repeats packet (k.book m).opened) (hlen : packet.length = pingPacketSize)
    (hbusy : (k.sys.proc m).busy = true)
    (hasked : (k.book m).asked = pingPacketSize) (hbuffer : (k.book m).buffer = addr)
    (hwhole : (k.book m).opened.length % pingPacketSize = 0)
    (hsent : segment (k.sys.proc m).mem addr pingPacketSize = packet) :
    Repeats packet (k.sys.stream m) := by
  obtain ⟨n, hn, hpart⟩ := hlinked.part hbusy
  have htake : segment (k.sys.proc m).mem addr n = packet.take n := by
    rw [← hsent]
    have hslice := segment_slice (k.sys.proc m).mem (a := addr) (j := 0) (k := n)
      (n := pingPacketSize) (by omega)
    simpa using hslice.symm
  rw [hpart, hbuffer, htake]
  exact hopened.append (by rw [hlen]; exact hwhole) (by omega)

/-- A call of the `_all` form that has not failed has moved what it was asked for. -/
private theorem whole_packet (hlinked : Ledger.Linked g l) (hu : l.sys.Unbroken)
    (hbusy : (l.sys.proc m).busy = true) (hall : (l.sys.proc m).all = true)
    (hasked : (l.book m).asked = pingPacketSize) (hs : l.step g (m, j) = some k)
    (hbusy' : (k.sys.proc m).busy = false) :
    (k.sys.proc m).pc = .idle ∧ (k.sys.proc m).mem = (l.sys.proc m).mem ∧
      k.sys.stream m = l.sys.stream m ∧ l.sys.stream m =
        (l.book m).opened ++ segment (l.sys.proc m).mem (l.book m).buffer pingPacketSize := by
  obtain ⟨hsys, -⟩ := Ledger.step_eq_some hs
  have hstep := System.step_proc hsys
  have hpc : (l.sys.proc m).pc = .ret := by
    by_contra hret
    simp [(Proc.step_continues hbusy hret hstep).busy] at hbusy'
  obtain ⟨rfl, hp, -⟩ := Proc.step_ret hpc hstep
  have hpos := (hu.proc m).value (by simp [Proc.leaving, hpc])
  have hbal := hlinked.sound.balanced m hbusy (by rw [hasked]; decide)
  have hcounts := hbal.counts
  simp only [Proc.Counts, hpc] at hcounts
  have hsum := hbal.asked
  have hstream : k.sys.stream m = l.sys.stream m := by
    rw [System.stream_step hsys]
    simp [Proc.moved, hpc]
  rw [hp] at hbusy' ⊢
  cases (l.sys.proc m).returns m with
  | plain hplain => simp [hall] at hplain
  | failed _ hle => omega
  | complete _ _ hrest hnext =>
    refine ⟨by rw [hnext]; rfl, by rw [hnext]; rfl, hstream, ?_⟩
    have hle : (l.sys.proc m).retval ≤ (l.sys.proc m).nbytes := by
      rcases hcounts.1 with hv | ⟨-, hv⟩ | hv <;> omega
    have htotal : (l.sys.proc m).total + (l.sys.proc m).retval.toNat = pingPacketSize := by omega
    rw [hcounts.2, hbal.begun, ← htotal, segment_add, hbal.buffer, List.append_assoc]
  | again _ _ _ hnext => simp [hnext, Proc.busy_beginCall] at hbusy'

/-- The end that takes a step without a new call. -/
private theorem Circulates.own {addrs : Mod → Nat} {duties : Mod → Duty}
    (h : Circulates g packet l addrs duties) (hlen : packet.length = pingPacketSize)
    (hj : j = .tick ∨ j = .ioctl .ok) (hs : l.step g (m, j) = some k) :
    Repeats packet (k.sys.stream m) ∧
      Carrying packet m (k.sys.proc m) (k.book m) (k.sys.stream m) (addrs m) (duties m) := by
  obtain ⟨hsys, hbook⟩ := Ledger.step_eq_some hs
  have hstep := System.step_proc hsys
  have hlinked' := h.linked.step hs
  have hrepeats := repeats_stream h.copied h.linked.sound.kept m
  have hend := h.ends m
  generalize duties m = duty at hend ⊢
  cases hend with
  | resting none busy whole =>
    have hpc : (l.sys.proc m).pc ≠ .avail := fun hpc => by simp [Proc.busy, hpc] at busy
    have hstream : k.sys.stream m = l.sys.stream m := by
      rw [System.stream_step hsys]
      simp [Proc.moved, hpc]
    rw [hstream]
    refine ⟨hrepeats, .resting none ?_ whole⟩
    by_contra hbusy'
    obtain ⟨-, -, _, _, _, _, _, hi, -⟩ := Proc.busy_of_step busy (by simpa using hbusy') hstep
    rcases hj with rfl | rfl <;> cases hi
  | moving busy all asked buffer whole sent =>
    -- what was there when the call began is still there
    have hopened : (l.book m).opened <+: l.sys.stream m := by
      obtain ⟨n, -, hpart⟩ := h.linked.part busy
      rw [hpart]
      exact List.prefix_append ..
    cases hbusy' : (k.sys.proc m).busy with
    | true =>
      obtain ⟨hopen, hbuffer, hasked, hall, hmem⟩ := Ledger.request_stays hs busy hbusy'
      rw [← hopen] at hopened whole
      rw [← hasked] at asked
      rw [← hbuffer] at buffer
      refine ⟨?_, .moving hbusy' (hall.trans all) asked buffer whole fun hm => ?_⟩
      · cases m with
        | write =>
          refine repeats_moving hlinked' (hrepeats.of_prefix hopened) hlen hbusy' asked buffer whole
            ?_
          rw [hmem rfl]
          exact sent rfl
        | read =>
          have hcopied : k.sys.stream .write = l.sys.stream .write := System.stream_peer_step hsys
          have hrepeats' : Repeats packet k.sys.copied := by
            rw [show k.sys.copied = l.sys.copied from hcopied]
            exact h.copied
          exact repeats_stream hrepeats' hlinked'.sound.kept .read
      · rw [hmem hm]
        exact sent hm
    | false =>
      obtain ⟨hpc, hmem, hstream, hpart⟩ :=
        whole_packet h.linked h.unbroken busy all asked hs hbusy'
      rw [hstream]
      refine ⟨hrepeats, .moved hpc ?_ ?_⟩
      · rw [hpart, List.length_append, length_segment, Nat.add_mod_right]
        exact whole
      · rw [hpart] at hrepeats
        have hnext := hrepeats.drop (by rw [hlen]; exact whole) (by rw [length_segment, hlen])
        rw [hmem, ← buffer, hnext, length_segment, ← hlen, List.take_length]
  | moved pc whole mem =>
    rcases hj with rfl | rfl
    · cases m <;> simp [Proc.step, Proc.tick, Proc.waitReader, Proc.waitWriter, pc] at hstep
    · simp [Proc.step, Proc.ioctlReturn, pc] at hstep

/-- A step of one end, with what it does for that end. -/
private theorem Circulates.step {addrs : Mod → Nat} {duties : Mod → Duty}
    (h : Circulates g packet l addrs duties) (hj : j.regular m = true)
    (hs : l.step g (m, j) = some k) (hrepeats : Repeats packet (k.sys.stream m))
    (hown : Carrying packet m (k.sys.proc m) (k.book m) (k.sys.stream m) (addrs m) duty) :
    Circulates g packet k addrs (Function.update duties m duty) := by
  obtain ⟨hsys, hbook⟩ := Ledger.step_eq_some hs
  have hstream := System.stream_peer_step hsys
  have hproc := System.proc_peer_step hsys
  have hother : k.book m.peer = l.book m.peer := by
    rw [hbook]
    exact Function.update_of_ne (Mod.peer_ne m) ..
  refine ⟨h.linked.step hs, h.unbroken.step (fun hpc hdone => ?_) hj hsys, ?_,
    Mod.forall_of m ?_ ?_⟩
  · have hbusy : (l.sys.proc m).busy = true := by simp [Proc.busy, hpc]
    have hasked : 0 < (l.book m).asked := by
      have hend := h.ends m
      generalize duties m = before at hend
      cases hend with
      | resting _ hidle => simp [hidle] at hbusy
      | moving _ _ asked => rw [asked]; decide
      | moved hidle => simp [hidle] at hpc
    obtain ⟨_, _, hx⟩ := (h.linked.sound.kept.ends m).loop hpc
    exact (h.linked.sound.underway m hasked hpc).moved hdone hx.ge
  · cases m with
    | write => exact hrepeats
    | read =>
      rw [show k.sys.copied = l.sys.copied from hstream]
      exact h.copied
  · rw [Function.update_self]
    exact hown
  · rw [Function.update_of_ne m.peer_ne, hproc, hother, hstream]
    exact h.ends m.peer

/-- A step without a new call keeps the pipe carrying the packet. -/
theorem Circulates.internal {addrs : Mod → Nat} {duties : Mod → Duty}
    (h : Circulates g packet l addrs duties) (hlen : packet.length = pingPacketSize)
    (hj : j = .tick ∨ j = .ioctl .ok) (hs : l.step g (m, j) = some k) :
    Circulates g packet k addrs duties := by
  obtain ⟨hrepeats, hown⟩ := h.own hlen hj hs
  have hnext := h.step (by rcases hj with rfl | rfl <;> rfl) hs hrepeats hown
  rwa [Function.update_eq_self] at hnext

/-- A call of the user is made between two calls and moves nothing. -/
private theorem step_user {j : Pipe.Input} (hj : (∃ fn all buf nbytes mem,
    j = .transfer fn all buf nbytes mem) ∨ j = .flush) (hs : l.step g (m, j) = some k) :
    (l.sys.proc m).pc = .idle ∧ k.sys.stream m = l.sys.stream m := by
  obtain ⟨hsys, -⟩ := Ledger.step_eq_some hs
  have hstep := System.step_proc hsys
  have hpc : (l.sys.proc m).pc = .idle := by
    by_contra hne
    rcases hj with ⟨_, _, _, _, _, rfl⟩ | rfl <;> simp [Proc.step, hne] at hstep
  refine ⟨hpc, ?_⟩
  rw [System.stream_step hsys]
  simp [Proc.moved, hpc]

/-- At an end that moves nothing whole packets have passed through. -/
private theorem Carrying.whole {p : Proc} {b : Book} {stream : List UInt8}
    (h : Carrying packet m p b stream addr duty) (hpc : p.pc = .idle) :
    stream.length % pingPacketSize = 0 := by
  cases h with
  | resting _ _ whole | moved _ whole => exact whole
  | moving busy => simp [Proc.busy, hpc] at busy

/-- A thread asks for a packet, the writer for the one that goes round. -/
theorem Circulates.beginTransfer {addrs : Mod → Nat} {duties : Mod → Duty} {mem : Nat → UInt8}
    (h : Circulates g packet l addrs duties)
    (hmem : m = .write → segment mem (addrs m) pingPacketSize = packet)
    (hs : l.step g (m, .transfer m true (addrs m) pingPacketSize mem) = some k) :
    Circulates g packet k addrs (Function.update duties m .transfer) := by
  obtain ⟨hpc, hstream⟩ := step_user (.inl ⟨_, _, _, _, _, rfl⟩) hs
  obtain ⟨hsys, hbook⟩ := Ledger.step_eq_some hs
  have hwhole := (h.ends m).whole hpc
  have hrepeats := repeats_stream h.copied h.linked.sound.kept m
  have hp := Option.some.inj ((if_pos hpc).symm.trans (System.step_proc hsys))
  obtain ⟨hp, -⟩ := Prod.mk.inj hp
  refine h.step (by simp [Pipe.Input.regular]) hs (by rw [hstream]; exact hrepeats) ?_
  rw [hbook, Function.update_self]
  refine .moving ?_ ?_ rfl rfl hwhole fun hm => ?_
  · rw [← hp]
    exact Proc.busy_beginCall ..
  · rw [← hp, Proc.beginCall]
    split_ifs <;> rfl
  · rw [← hmem hm, ← hp, Proc.beginCall]
    split_ifs <;> rfl

/-- A thread that asks for a flush does not disturb the packets. -/
theorem Circulates.beginFlush {addrs : Mod → Nat} {duties : Mod → Duty}
    (h : Circulates g packet l addrs duties) (hs : l.step g (m, .flush) = some k) :
    Circulates g packet k addrs (Function.update duties m .flush) := by
  obtain ⟨hpc, hstream⟩ := step_user (.inr rfl) hs
  obtain ⟨hsys, hbook⟩ := Ledger.step_eq_some hs
  have hwhole := (h.ends m).whole hpc
  have hrepeats := repeats_stream h.copied h.linked.sound.kept m
  refine h.step rfl hs (by rw [hstream]; exact hrepeats) ?_
  refine .resting (by simp) ?_ (by rw [hstream]; exact hwhole)
  by_contra hbusy
  have hidle : (l.sys.proc m).busy = false := by simp [Proc.busy, hpc]
  obtain ⟨-, -, _, _, _, _, _, hi, -⟩ :=
    Proc.busy_of_step hidle (by simpa using hbusy) (System.step_proc hsys)
  cases hi

/-- A thread takes the value of its call. A packet that was asked for is in its buffer. -/
theorem Circulates.conclude {addrs : Mod → Nat} {duties : Mod → Duty}
    (h : Circulates g packet l addrs duties) (hpc : (l.sys.proc m).pc = .idle) :
    Circulates g packet l addrs (Function.update duties m .none) ∧
      (duties m = .transfer → segment (l.sys.proc m).mem (addrs m) pingPacketSize = packet) := by
  refine ⟨⟨h.linked, h.unbroken, h.copied, Mod.forall_of m ?_ ?_⟩, fun hduty => ?_⟩
  · rw [Function.update_self]
    exact .resting (by simp) (by simp [Proc.busy, hpc]) ((h.ends m).whole hpc)
  · rw [Function.update_of_ne m.peer_ne]
    exact h.ends m.peer
  · have hend := h.ends m
    rw [hduty] at hend
    cases hend with
    | resting none => exact absurd rfl none
    | moving busy => simp [Proc.busy, hpc] at busy
    | moved _ _ mem => exact mem

/-- The books follow a step of a process. -/
private theorem step_of_sys {sys sys' : System} {book : Mod → Book}
    (hs : sys.step g (m, j) = some sys') : Ledger.step g ⟨sys, book⟩ (m, j) =
      some ⟨sys', Function.update book m ((book m).after (sys.proc m) (sys.stream m) j)⟩ := by
  rw [Ledger.step, hs]
  rfl

end Carrying

namespace Exchange

/-- No `ioctl` of the library fails, while threads may be stopped at any time. -/
def Unfailing (e : Exchange) : Input → Prop
  | .pipe sender (.kernel m _) => failing ((e.pipe sender).kernel m).task = false
  | _ => True

instance (e : Exchange) : (i : Input) → Decidable (e.Unfailing i)
  | .pipe _ (.kernel _ _) => inferInstanceAs (Decidable (_ = _))
  | .pipe _ (.user _ _) | .pipe _ (.enter _) | .pipe _ (.wait _ _) | .pipe _ (.deliver _)
  | .pipe _ (.handler _) | .thread _ | .stop _ => isTrue trivial

/-- Where the buffers behind the two ends of a pipe are. -/
def noise (e : Exchange) (sender : Side) (m : Mod) : Nat := (e.thread (owner sender m)).noise

end Exchange

/-- A thread with the packet in its buffer: the client, and the server behind its first read. -/
def Thread.Holds (packet : List UInt8) (side : Side) (t : Thread) : Prop :=
  side = .client ∨ t.stage ≠ .first ∨ 0 < t.rounds → segment t.mem t.noise pingPacketSize = packet

/-- A thread that goes on to its next call keeps the packet in its buffer. -/
private theorem Thread.Holds.next {packet : List UInt8} {side : Side} {t : Thread}
    (h : segment t.mem t.noise pingPacketSize = packet) : t.next.Holds packet side := by
  intro _
  unfold Thread.next
  split <;> exact h

namespace Exchange

variable {g : Side → Geometry} {packet : List UInt8} {e f : Exchange}

/-- One packet is all there is, on both pipes and in both buffers. -/
structure Echoes (packet : List UInt8) (e : Exchange) : Prop where
  /-- The stream of either pipe is the packet over and over again. -/
  streams : ∀ s, Repeats packet (e.pipe s).sys.copied
  /-- Either thread has the packet in its buffer when it is to write it. -/
  holds : ∀ side, (e.thread side).Holds packet side

/-- The invariant: both pipes carry the packet and both threads have it when they need it. -/
structure Circling (g : Side → Geometry) (packet : List UInt8) (e : Exchange) : Prop where
  /-- Either pipe carries the packet, whatever its books are. -/
  circulates : ∀ s, ∃ book,
    Circulates (g s) packet ⟨(e.pipe s).sys, book⟩ (e.noise s) (e.duty s)
  /-- Either thread has the packet in its buffer when it is to write it. -/
  holds : ∀ side, (e.thread side).Holds packet side

/-- When the invariant holds, one packet is all there is. -/
theorem Circling.echoes (h : Circling g packet e) : Echoes packet e where
  streams s := by
    obtain ⟨_, hs⟩ := h.circulates s
    exact hs.copied
  holds := h.holds

/-- Whatever goes on at a pipe without failing keeps the invariant. -/
private theorem Circling.pipe (h : Circling g packet e) (hlen : packet.length = pingPacketSize)
    {sender : Side} {i : Connection.Input} (hok : e.Unfailing (.pipe sender i))
    (hs : e.step g (.pipe sender i) = some f) : Circling g packet f := by
  simp only [Exchange.step, Option.ite_none_right_eq_some, Option.map_eq_some_iff] at hs
  obtain ⟨hi, c, hc, rfl⟩ := hs
  have hown : ∃ book, Circulates (g sender) packet ⟨c.sys, book⟩ (e.noise sender)
      (e.duty sender) := by
    obtain ⟨book, hbook⟩ := h.circulates sender
    cases effect hi hc with
    | kernels hsys => exact ⟨book, by rwa [hsys]⟩
    | tick m _ hsys => exact ⟨_, hbook.internal hlen (.inl rfl) (step_of_sys hsys)⟩
    | ioctl m choice r htask hsys =>
      have hfails : failing ((e.pipe sender).kernel m).task = false := hok
      obtain rfl : r = .ok := by simpa [failing, htask] using hfails
      exact ⟨_, hbook.internal hlen (.inr rfl) (step_of_sys hsys)⟩
  refine ⟨Side.forall_of sender ?_ ?_, h.holds⟩
  · simp only [setPipe, Function.update_self]
    exact hown
  · simp only [setPipe, Function.update_of_ne sender.peer_ne]
    exact h.circulates sender.peer

/-- A thread that keeps its buffer where it is. -/
private theorem noise_change {side : Side} {t : Thread}
    (hthread : f.thread = Function.update e.thread side t)
    (hnoise : t.noise = (e.thread side).noise) (s : Side) : f.noise s = e.noise s := by
  funext m
  simp only [noise, hthread]
  by_cases howner : owner s m = side
  · rw [howner, Function.update_self, hnoise]
  · rw [Function.update_of_ne howner]

/-- A change of one thread leaves the other one with its packet. -/
private theorem holds_change {side : Side} {t : Thread}
    (h : ∀ side, (e.thread side).Holds packet side)
    (hthread : f.thread = Function.update e.thread side t) (hown : t.Holds packet side)
    (side' : Side) : (f.thread side').Holds packet side' := by
  rw [hthread]
  refine Side.forall_of (P := fun s => (Function.update e.thread side t s).Holds packet s) side
    ?_ ?_ side'
  · rw [Function.update_self]
    exact hown
  · rw [Function.update_of_ne side.peer_ne]
    exact h side.peer

/-- A thread that is about to write has the packet in its buffer. -/
private theorem holds_of_writes {side : Side} {t : Thread} (h : t.Holds packet side)
    (hwrites : (loop side t.stage).fd.mod = .write) (hkind : (loop side t.stage).duty = .transfer) :
    segment t.mem t.noise pingPacketSize = packet := by
  cases side with
  | client => exact h (.inl rfl)
  | server =>
    refine h (.inr (.inl fun hfirst => ?_))
    simp [hfirst, loop, pingServer, LibCall.fd, Fd.mod] at hwrites

/-- A flag of a thread that is set does not touch its packet. -/
private theorem Circling.flag (h : Circling g packet e) {side : Side} {stop ended : Bool} :
    Circling g packet
      (e.setThread side { e.thread side with stop := stop, ended := ended }) := by
  refine ⟨fun s => ?_, holds_change h.holds rfl (h.holds side)⟩
  have hduty : (e.setThread side { e.thread side with stop := stop, ended := ended }).duty s =
      e.duty s := by
    funext m
    simp only [duty, setThread]
    by_cases howner : owner s m = side
    · rw [howner, Function.update_self]
      rfl
    · rw [Function.update_of_ne howner]
  rw [noise_change (t := { e.thread side with stop := stop, ended := ended }) rfl rfl, hduty]
  exact h.circulates s

/-- What a thread between two calls does: it ends, or it makes its next call. -/
private theorem begin_cases {side : Side} (hs : e.begin g side = some f) :
    f = e.setThread side { e.thread side with ended := true } ∨
      ∃ c, (e.connection side (e.call side).fd).step (g ((e.call side).fd.sender side))
          .readerOffers (.user (e.call side).fd.mod ((e.thread side).request (e.call side))) =
            some c ∧
        f = (e.setPipe ((e.call side).fd.sender side) c).setThread side
          { e.thread side with inCall := true } := by
  unfold Exchange.begin at hs
  by_cases hstop : (e.thread side).stop = true ∧ (e.thread side).testsStop side = true
  · rw [if_pos hstop] at hs
    exact .inl (Option.some.inj hs).symm
  · rw [if_neg hstop] at hs
    obtain ⟨c, hc, hf⟩ := Option.map_eq_some_iff.mp hs
    exact .inr ⟨c, hc, hf.symm⟩

/-- A thread that makes its next call keeps the invariant. -/
private theorem Circling.begin (h : Circling g packet e) {side : Side}
    (hidle : (e.thread side).inCall = false) (hs : e.begin g side = some f) :
    Circling g packet f := by
  rcases begin_cases hs with rfl | ⟨c, hc, hf⟩
  · exact h.flag
  · have hthread : f.thread =
        Function.update e.thread side { e.thread side with inCall := true } := by rw [hf]; rfl
    have hpipe : f.pipe = Function.update e.pipe ((e.call side).fd.sender side) c := by
      rw [hf]
      rfl
    have hnoise := noise_change hthread rfl
    have hduty : ∀ s, f.duty s = if s = (e.call side).fd.sender side then
        Function.update (e.duty s) (e.call side).fd.mod (e.call side).duty else e.duty s :=
      ends_change Thread.duty hthread (fun m hm =>
        (duty_of_ne { e.thread side with inCall := true } hm).trans
          (duty_of_idle hidle side m).symm) (if_pos ⟨rfl, rfl⟩)
    have hnext : ∃ book, Circulates (g ((e.call side).fd.sender side)) packet ⟨c.sys, book⟩
        (e.noise ((e.call side).fd.sender side))
        (Function.update (e.duty ((e.call side).fd.sender side)) (e.call side).fd.mod
          (e.call side).duty) := by
      obtain ⟨book, hbook⟩ := h.circulates ((e.call side).fd.sender side)
      have haddr : e.noise ((e.call side).fd.sender side) (e.call side).fd.mod =
          (e.thread side).noise := by rw [noise, owner_sender]
      obtain ⟨-, hsys, -⟩ := user_step (pc_ne_close hbook.unbroken _) hc
      rcases request_cases side (e.thread side) (e.thread side).stage with
        ⟨hkind, hreq⟩ | ⟨hkind, hreq⟩
      · rw [call, hreq] at hsys
        rw [call, hkind]
        exact ⟨_, hbook.beginFlush (step_of_sys hsys)⟩
      · rw [call, hreq, ← haddr] at hsys
        rw [call, hkind]
        refine ⟨_, hbook.beginTransfer (fun hm => ?_) (step_of_sys hsys)⟩
        have hpacket := holds_of_writes (h.holds side) hm hkind
        rwa [← haddr] at hpacket
    refine ⟨Side.forall_of ((e.call side).fd.sender side) ?_ ?_,
      holds_change h.holds hthread (h.holds side)⟩
    · rw [hpipe, Function.update_self, hnoise, hduty, if_pos rfl]
      exact hnext
    · rw [hpipe, Function.update_of_ne (Side.peer_ne _), hnoise, hduty, if_neg (Side.peer_ne _)]
      exact h.circulates _

/-- A call of the `_all` form leaves the packet in the buffer, a flush is not the first call of
the server. -/
private theorem conclude_holds {side : Side} {t : Thread} {p : Proc} (h : t.Holds packet side)
    (hresult : 0 ≤ p.result) (hpacket : (loop side t.stage).duty = .transfer →
      segment p.mem t.noise pingPacketSize = packet) :
    ∃ mem, t.conclude (loop side t.stage) p = { t with mem := mem }.next ∧
      segment mem t.noise pingPacketSize = packet := by
  cases hcall : loop side t.stage with
  | flush fd =>
    refine ⟨t.mem, rfl, h ?_⟩
    cases side with
    | client => exact .inl rfl
    | server =>
      refine .inr (.inl fun hfirst => ?_)
      rw [hfirst] at hcall
      contradiction
  | writeAll fd | readAll fd =>
    rw [hcall] at hpacket
    exact ⟨p.mem, if_neg (by omega), hpacket rfl⟩

@[simp] theorem next_noise (t : Thread) : t.next.noise = t.noise := by
  unfold Thread.next
  split <;> rfl

/-- A thread takes the value of its call. -/
private theorem Circling.conclude (h : Circling g packet e) {side : Side}
    (hcall : (e.thread side).inCall = true) (hs : e.conclude side = some f) :
    Circling g packet f := by
  unfold Exchange.conclude at hs
  simp only [Option.ite_none_right_eq_some, Option.some.injEq] at hs
  obtain ⟨⟨hpc, -⟩, hf⟩ := hs
  obtain ⟨book, hbook⟩ := h.circulates ((e.call side).fd.sender side)
  have hresult := (hbook.unbroken.proc (e.call side).fd.mod).result
  have howned :
      e.duty ((e.call side).fd.sender side) (e.call side).fd.mod = (e.call side).duty := by
    rw [duty, owner_sender]
    exact if_pos ⟨hcall, rfl⟩
  have haddr : e.noise ((e.call side).fd.sender side) (e.call side).fd.mod =
      (e.thread side).noise := by rw [noise, owner_sender]
  obtain ⟨hnext, hpacket⟩ := hbook.conclude hpc
  rw [howned, haddr] at hpacket
  obtain ⟨mem, heq, hmem⟩ := conclude_holds (h.holds side) hresult hpacket
  have hthread : f.thread =
      Function.update e.thread side { e.thread side with mem := mem }.next := by
    rw [← hf, ← heq]
    rfl
  have hpipe : f.pipe = e.pipe := by
    rw [← hf]
    rfl
  have hduty : ∀ s, f.duty s = if s = (e.call side).fd.sender side then
      Function.update (e.duty s) (e.call side).fd.mod .none else e.duty s :=
    ends_change Thread.duty hthread (fun m hm =>
      (duty_of_idle (next_inCall _) side m).trans (duty_of_ne (e.thread side) hm).symm)
      (duty_of_idle (next_inCall _) ..)
  have hnoise := noise_change hthread (next_noise _)
  refine ⟨fun s => ?_, holds_change h.holds hthread (Thread.Holds.next hmem)⟩
  rw [hpipe, hnoise, hduty]
  split
  · rename_i hs
    subst hs
    exact ⟨book, hnext⟩
  · exact h.circulates s

/-- Every step of the exchange in which no `ioctl` fails keeps the invariant. -/
theorem Circling.step (h : Circling g packet e) (hlen : packet.length = pingPacketSize) {i : Input}
    (hok : e.Unfailing i) (hs : e.step g i = some f) : Circling g packet f := by
  cases i with
  | thread side =>
    simp only [Exchange.step] at hs
    (repeat' split at hs)
    · contradiction
    · rename_i hcall
      exact h.conclude hcall hs
    · rename_i hcall
      exact h.begin (by simpa using hcall) hs
  | pipe sender i => exact h.pipe hlen hok hs
  | stop side =>
    obtain rfl := Option.some.inj hs
    exact h.flag

/-- The exchange begins with the packet in the buffer of the client. -/
theorem circling_offered (g : Side → Geometry) (buffer memReader memWriter : Side → Nat → UInt8)
    (noise : Side → Nat) (mem : Side → Nat → UInt8) :
    Circling g (segment (mem .client) (noise .client) pingPacketSize)
      (offered buffer memReader memWriter noise mem) where
  circulates s := by
    refine ⟨fun _ => ⟨[], 0, 0, [], []⟩, Ledger.linked_opened .., System.unbroken_offered ..,
      fun i hi => absurd hi (Nat.not_lt_zero i), fun m => ?_⟩
    exact .resting (by simp [duty, Thread.duty, offered]) (by cases m <;> rfl)
      (by cases m <;> rfl)
  holds side hside := by
    obtain rfl : side = .client := by simpa [offered] using hside
    rfl

/-- What the client has in its buffer at the beginning is all that goes through the pipes, and
each of its reads gives it back to it: the packet it has written, in its order. -/
theorem ping_echoes (g : Side → Geometry) (buffer memReader memWriter : Side → Nat → UInt8)
    (noise : Side → Nat) (mem : Side → Nat → UInt8) (inputs : List Input)
    (h : Along (step g) Unfailing (offered buffer memReader memWriter noise mem) inputs) :
    Always (step g) (Echoes (segment (mem .client) (noise .client) pingPacketSize))
      (offered buffer memReader memWriter noise mem) inputs :=
  h.always (fun _ (hs : Circling g _ _) => hs.echoes)
    (fun _ _ _ hs hi hstep => hs.step (by simp) hi hstep)
    (circling_offered g buffer memReader memWriter noise mem)

/-- A packet goes to the server and comes back, with the four flushes. -/
def oneRound : List Input :=
  greeting .client ++ greeting .server ++ writing ++ flushing ++
    .thread .server :: ticks .client .read 29 ++
    [.thread .server, .thread .server] ++ ticks .client .read 1 ++ ioctl .client .read 3 ++
    [.thread .server, .thread .server] ++ ticks .server .write 30 ++
    [.thread .server, .thread .server] ++ ticks .server .write 1 ++ ioctl .server .write 3 ++
    [.thread .client, .thread .client] ++ ticks .server .read 29 ++ [.thread .client]

/-- One round of both threads moves the bytes 7 to 16 to the server and back. -/
theorem ping_echoes_oneRound : Always (step fun _ => .onePage)
    (Echoes ((List.range' 7 10).map UInt8.ofNat))
    (offered (fun _ _ => 0) (fun _ _ => 0) (fun _ _ => 0) (fun _ => 0)
      fun side a => if side = .client then UInt8.ofNat (a + 7) else 0) oneRound :=
  ping_echoes (fun _ => .onePage) (fun _ _ => 0) (fun _ _ => 0) (fun _ _ => 0) (fun _ => 0)
    (fun side a => if side = .client then UInt8.ofNat (a + 7) else 0) oneRound
    (by decide +kernel)

end Exchange

end XenShm.Ping
