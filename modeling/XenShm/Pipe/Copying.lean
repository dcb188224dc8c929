import XenShm.Pipe.Integrity

/-!
# One call of a copying loop

The process of one end is inside `__xen_shm_pipe_read_avail` or
`__xen_shm_pipe_write_avail` while the shared area changes under it: flag words,
the index of the peer and bytes of the ring are stored from outside between any
two of its steps. What the loop does is recorded as a list of events.
-/

namespace XenShm.Pipe

open XenShm.Library

/-- What a copying loop does that others can notice. -/
inductive Event where
  /-- The flag `XSHMP_SLEEPING` of the peer was tested. -/
  | tested (sleeping : Bool)
  /-- So many bytes were copied. -/
  | copied (k : Nat)
  /-- The own index was stored. -/
  | stored
  /-- An event was sent to the peer. -/
  | signalled
  deriving DecidableEq, Repr

/-- The events of the next step of the loop. -/
def Transfer.events (m : Mod) (s : Shared) (t : Transfer) : List Event :=
  match t.pc with
  | .loadFlags | .lastCheck => [.tested (hasFlag (s.flags m.peer) .sleeping)]
  | .align | .words | .bytes => if t.copies = 0 then [] else [.copied t.copies]
  | .check =>
    if t.granCheck ∨ t.current = t.granMax then [.tested (hasFlag (s.flags m.peer) .sleeping)]
    else []
  | .checkSignal | .lastSignal => [.signalled]
  | .storeOwn => [.stored]
  | _ => []

/-- A call of the copying loop and what it has done so far. -/
structure Copying where
  /-- The process that makes the call. -/
  proc : Proc
  /-- The shared area as the call finds it. -/
  shared : Shared
  /-- The events since the call has begun, in their order. -/
  events : List Event

/-- What can happen during a call, in the process or by its peer. -/
inductive Turn where
  /-- The loop takes its next step, or its `ioctl` returns. -/
  | own (i : Input)
  /-- A flag word is stored from outside. -/
  | flags (m : Mod) (f : Flags)
  /-- The peer stores its index. -/
  | index (i : Nat)
  /-- A byte of the ring is stored from outside. -/
  | byte (slot : Nat) (v : UInt8)

/-- A step of the loop itself, and none of the peer. -/
def Turn.isOwn : Turn → Bool
  | .own _ => true
  | _ => false

namespace Copying

/-- The call as entered: the waiting function has found something to move. -/
def enter (p : Proc) (s : Shared) : Copying := ⟨p.enterAvail, s, []⟩

/-- One step of the loop or of the peer during a call. -/
def step (g : Geometry) (m : Mod) (c : Copying) : Turn → Option Copying
  | .own i =>
    if c.proc.pc = .avail then
      (c.proc.step g m i c.shared).map fun r =>
        ⟨r.1, r.2, c.events ++ c.proc.xfer.events m c.shared⟩
    else none
  | .flags m' f => some { c with shared := c.shared.setFlags m' f }
  | .index i => some { c with shared := c.shared.setIndex m.peer i }
  | .byte slot v =>
    some { c with shared := { c.shared with buffer := Function.update c.shared.buffer slot v } }

/-- The peer keeps its index and the ring as they are. -/
def still (_ : Copying) : Turn → Bool
  | .own _ | .flags .. => true
  | .index _ | .byte .. => false

/-- The peer moves its index at will, inside the ring. -/
def moving (g : Geometry) (_ : Copying) : Turn → Bool
  | .index i => i < g.bufferSize
  | _ => true

/-- The call has returned to the function that has made it. -/
def Returned (c : Copying) : Prop := c.proc.pc ≠ .avail

end Copying

/-- What a call of `__xen_shm_pipe_write_avail` by `p` over `s` has done. -/
structure Wrote (g : Geometry) (p : Proc) (s : Shared) (c : Copying) : Prop where
  /-- The number of bytes: what the user has, or what the ring takes. -/
  retval : c.proc.retval =
    (min p.nbytes ((s.read + g.bufferSize - 1 - s.write) % g.bufferSize) : Nat)
  /-- The user bytes are in the slots from `write` on, and nothing else has changed. -/
  ring : Transported p.mem s.buffer c.shared.buffer (fun i => p.buffer + i)
    (fun i => (s.write + i) % g.bufferSize) c.proc.retval.toNat
  /-- The own index has moved on by the value. -/
  write : c.shared.write = (s.write + c.proc.retval.toNat) % g.bufferSize
  /-- The index of the peer is where it was. -/
  read : c.shared.read = s.read
  /-- The user memory is unchanged. -/
  mem : c.proc.mem = p.mem

/-- What a call of `__xen_shm_pipe_read_avail` by `p` over `s` has done. -/
structure ReadOut (g : Geometry) (p : Proc) (s : Shared) (c : Copying) : Prop where
  /-- The number of bytes: what the user asks for, or what the ring holds. -/
  retval : c.proc.retval =
    (min p.nbytes ((s.write + g.bufferSize - s.read) % g.bufferSize) : Nat)
  /-- The slots from `read` on are in the user buffer, and nothing else has changed there. -/
  mem : Transported s.buffer p.mem c.proc.mem (fun i => (s.read + i) % g.bufferSize)
    (fun i => p.buffer + i) c.proc.retval.toNat
  /-- The own index has moved on by the value. -/
  read : c.shared.read = (s.read + c.proc.retval.toNat) % g.bufferSize
  /-- The index of the peer is where it was. -/
  write : c.shared.write = s.write
  /-- The contents of the ring are unchanged. -/
  ring : c.shared.buffer = s.buffer

namespace Transfer

variable {g : Geometry} {m : Mod} {s : Shared} {t : Transfer} {count stop : Nat}

/-- How far the loop is from its next copy, or from its end. -/
def phase (t : Transfer) : Nat :=
  match t.pc with
  | .loadRead => 15
  | .loadWrite => 14
  | .loadFlags => 13
  | .words => if t.current = t.minMax64 then 12 else 4
  | .bytes => if t.current = t.minMax then 11 else 3
  | .check => 10
  | .checkSignal => 9
  | .loadPeer => 8
  | .storeOwn => 7
  | .loop => 6
  | .align => 5
  | .lastCheck => 2
  | .lastSignal => 1
  | .done => 0

/-- A bound on the steps the loop has left. -/
def rank (t : Transfer) : Nat := 16 * (t.usrMax - t.current) + t.phase

/-- No phase weighs as much as a byte does in the rank. -/
theorem phase_le (t : Transfer) : t.phase ≤ 15 := by
  unfold phase
  split <;> (try split) <;> omega

/-- A busy copy comes before every other point of its round. -/
private theorem Busy.phase_le (h : t.Busy) : t.phase ≤ 5 := by
  cases hpc : t.pc <;> simp only [Busy, hpc] at h <;> simp only [phase, hpc]
  · omega
  · rw [if_neg (Nat.ne_of_lt h)]
    omega
  · rw [if_neg (Nat.ne_of_lt h)]
    omega

/-- The rank goes down with every step: a copied byte outweighs a whole round. -/
theorem Sound.rank_step (h : Sound g m count stop t) (hpc : t.pc ≠ .done) :
    (t.step g m s).rank < t.rank := by
  by_cases hcopy : t.copies = 0
  swap
  · obtain ⟨_, hspan, hfit⟩ := h.copies_fit hcopy
    have huser := hspan.user
    have hphase := phase_le (t.advance t.copies)
    rw [step_of_copies hcopy]
    simp only [rank, advance_usrMax, advance_current]
    omega
  have hat := h.atPc
  cases he : t.pc <;> simp only [AtPc, he] at hat <;> simp only [copies, he] at hcopy
  case loadRead | loadWrite => cases m <;> simp [rank, phase, Transfer.step, he]
  case loadFlags => simp [rank, phase, Transfer.step, he]
  case loop =>
    simp only [Transfer.step, he]
    split
    · rename_i hgo
      have hcur : t.current < t.usrMax := Nat.lt_of_le_of_ne h.le hgo.2
      have hbusy := (busy_enter h.atPc he hcur hgo.1).phase_le
      have hphase : t.phase = 6 := by simp only [phase, he]
      simp only [rank, enter_usrMax, enter_current]
      omega
    · simp [rank, phase, he]
  case align =>
    have hstop : ¬ t.current % 8 ≠ 0 := by
      intro hne
      simp [hne] at hcopy
    have hlt : t.current ≠ { t with pc := .words }.minMax64 := by
      simp only [minMax64] at hat ⊢
      omega
    simp only [Transfer.step, he, if_neg hstop, rank, phase, if_neg hlt]
    omega
  case words =>
    have hstop : t.current = t.minMax64 := by
      by_contra hne
      simp [hne] at hcopy
    have hphase : t.phase = 12 := by simp only [phase, he, if_pos hstop]
    simp only [Transfer.step, he, if_neg (not_not.mpr hstop), rank, hphase]
    split
    · rename_i hmore
      simp only [phase, if_neg hmore.2]
      omega
    · simp [phase]
  case bytes =>
    have hstop : t.current = t.minMax := by
      by_contra hne
      simp [hne] at hcopy
    simp [rank, phase, Transfer.step, he, hstop]
  case check =>
    simp only [Transfer.step, he]
    split
    · cases hasFlag (s.flags m.peer) .sleeping <;> simp [rank, phase, he]
    · simp [rank, phase, he]
  case lastCheck =>
    simp only [Transfer.step, he]
    cases hasFlag (s.flags m.peer) .sleeping <;> simp [rank, phase, he]
  case checkSignal | loadPeer | storeOwn | lastSignal => simp [rank, phase, Transfer.step, he]
  case done => contradiction

/-- Behind the loop the limit or the end of the user buffer has been reached. -/
def Exhausted (t : Transfer) : Prop :=
  match t.pc with
  | .lastCheck | .lastSignal | .done => t.pos = t.limit ∨ t.current = t.usrMax
  | _ => True

/-- A loop that has nothing left to move stays without it. -/
theorem exhausted_step (h : t.Exhausted) : (t.step g m s).Exhausted := by
  cases hpc : t.pc <;> simp only [Exhausted, hpc] at h
  case loop =>
    simp only [step, hpc]
    split
    · rcases enter_pc (g := g) (m := m) (t := t) with he | he | he <;> simp [Exhausted, he]
    · simp only [Exhausted]
      grind
  case lastCheck =>
    simp only [step, hpc]
    cases hasFlag (s.flags m.peer) .sleeping <;> exact h
  case lastSignal | done => simpa [step, hpc, Exhausted] using h
  case loadRead | loadWrite => cases m <;> simp [step, hpc, Exhausted]
  all_goals
    simp only [step, hpc]
    (repeat' split) <;> simp_all [Exhausted]

end Transfer

/-- Whatever slot of the ring the index of the peer names, it is the slot of some bound less than
one round ahead. -/
theorem exists_bound (g : Geometry) (m : Mod) {count i : Nat} (hcount : g.bufferSize ≤ count)
    (hi : i < g.bufferSize) :
    ∃ c, i = c % g.bufferSize ∧ count ≤ bound g m c ∧ bound g m c < count + g.bufferSize := by
  cases m with
  | read =>
    obtain ⟨c, hc, hle, hlt⟩ := exists_mod_eq hi count
    exact ⟨c, hc.symm, hle, hlt⟩
  | write =>
    obtain ⟨c, hc, hle, hlt⟩ := exists_mod_eq hi (count + 1 - g.bufferSize)
    refine ⟨c, hc.symm, ?_, ?_⟩ <;> simp only [bound] <;> omega

namespace Proc

variable {p : Proc}

/-- A copying loop that is in progress can always go on by itself. -/
theorem looped_live (hpc : p.pc = .avail) (g : Geometry) (m : Mod) (s : Shared) :
    ∃ i, (p.step g m i s).isSome = true := by
  cases he : p.xfer.pc
  case checkSignal | lastSignal => exact ⟨.ioctl .ok, by simp [step, ioctlReturn, hpc, he]⟩
  all_goals exact ⟨.tick, by cases m <;> simp [step, tick, hpc, tickAvail, he]⟩

end Proc

namespace Copying

variable {g : Geometry} {m : Mod} {p : Proc} {s : Shared} {c c' : Copying} {base stop other : Nat}

/-- How many bytes the call has moved since it began. -/
def count (c : Copying) : Nat := c.proc.xfer.current - c.proc.xfer.userBuf

/-- The loop invariant of a call on the user buffer of `p`, the end having moved `base` bytes
before the call. -/
structure Kept (g : Geometry) (m : Mod) (p : Proc) (base stop : Nat) (c : Copying) : Prop where
  /-- The user buffer is that of the call. -/
  userBuf : c.proc.xfer.userBuf = p.buffer
  /-- The end of the user buffer is that of the call. -/
  usrMax : c.proc.xfer.usrMax = p.buffer + p.nbytes
  /-- The loop is in order, with the bytes moved so far. -/
  sound : Transfer.Sound g m (base + c.count) stop c.proc.xfer
  /-- Outside a round of the loop the own index covers everything moved. -/
  own : c.proc.xfer.Synced → c.shared.index m = (base + c.count) % g.bufferSize

/-- A call that begins has moved nothing and is in order. -/
theorem kept_enter (p : Proc) (h : s.index m = base % g.bufferSize) :
    Kept g m p base stop (enter p s) := by
  have hzero : (enter p s).count = 0 := Nat.sub_self _
  refine ⟨rfl, rfl, ?_, fun _ => ?_⟩
  · exact Transfer.sound_start ..
  · rw [hzero]
    exact h

/-- What an own step of a call does. -/
theorem step_own {i : Input} (h : c.step g m (.own i) = some c') :
    c.proc.pc = .avail ∧ c.proc.step g m i c.shared = some (c'.proc, c'.shared) ∧
      c'.events = c.events ++ c.proc.xfer.events m c.shared := by
  simp only [step] at h
  split at h
  · rename_i hpc
    rw [Option.map_eq_some_iff] at h
    obtain ⟨r, hr, rfl⟩ := h
    exact ⟨hpc, hr, rfl⟩
  · contradiction

/-- The call never passes the limit that the peer has set. -/
theorem Kept.count_le (h : Kept g m p base stop c) (hle : base ≤ stop) : base + c.count ≤ stop := by
  by_cases hload : c.proc.xfer.pc = .loadRead ∨ c.proc.xfer.pc = .loadWrite
  · simpa [count, h.sound.fresh hload] using hle
  · exact h.sound.le_stop (not_or.mp hload)

/-- What is stored from outside leaves the own index alone. -/
theorem Kept.outside (h : Kept g m p base stop c) {sh : Shared}
    (hown : sh.index m = c.shared.index m) : Kept g m p base stop { c with shared := sh } :=
  ⟨h.userBuf, h.usrMax, h.sound, fun hsync => hown.trans (h.own hsync)⟩

/-- An own step moves what the loop copies. -/
theorem Kept.count_step (h : Kept g m p base stop c) {sh : Shared}
    (hx : c'.proc.xfer = c.proc.xfer.step g m sh) : c'.count = c.count + c.proc.xfer.copies := by
  have hge := h.sound.ge
  simp only [count, hx, Transfer.step_current, Transfer.step_user.1]
  omega

/-- An own step that stays in the loop keeps the invariant, wherever the peer has its index. -/
theorem Kept.step_own (h : Kept g m p base stop c) {i : Input}
    (hs : c.step g m (.own i) = some c') (hpc' : c'.proc.pc = .avail)
    (hother : c.shared.index m.peer = other % g.bufferSize)
    (hwin : base + c.count ≤ bound g m other ∧ bound g m other < base + c.count + g.bufferSize) :
    Kept g m p base (c.proc.xfer.nextStop g m other stop) c' := by
  obtain ⟨hpc, hstep, -⟩ := Copying.step_own hs
  have hl := Proc.step_looped hpc hstep
  rcases hl.next with ⟨_, _, hx⟩ | ⟨_, hne, _⟩
  swap
  · simp [hne] at hpc'
  have hown : c.proc.xfer.pc = .loadRead ∨ c.proc.xfer.pc = .loadWrite →
      c.shared.index m = (base + c.count) % g.bufferSize := fun hp =>
    h.own (by rcases hp with hp | hp <;> simp [Transfer.Synced, hp])
  have hnext := h.sound.step hown hother hwin
  have hcount := h.count_step hx
  refine ⟨?_, ?_, ?_, fun hsync => ?_⟩
  · rw [hx, Transfer.step_user.1, h.userBuf]
  · rw [hx, Transfer.step_user.2, h.usrMax]
  · rw [hx, hcount, ← Nat.add_assoc]
    exact hnext
  · rw [hl.own, hcount]
    have hpub : c.proc.publishes = decide (c.proc.xfer.pc = .storeOwn) := by
      simp [Proc.publishes, hpc]
    rcases Transfer.synced_step (hx ▸ hsync) with hst | ⟨hs', hz⟩
    · have hat := h.sound.atPc
      simp only [Transfer.AtPc, hst] at hat
      simp only [hpub, hst, decide_true, if_true, Transfer.copies, Nat.add_zero]
      exact hat.2.1.cursor.eq_mod hat.2.2.1
    · have hst : c.proc.xfer.pc ≠ .storeOwn := by
        intro hst
        simp [Transfer.Synced, hst] at hs'
      rw [hpub, decide_eq_false hst, if_neg Bool.false_ne_true, hz, Nat.add_zero]
      exact h.own hs'

/-- The call of one end has moved the first `k` bytes through the slots from its own index on. -/
def Contents (m : Mod) (g : Geometry) (p : Proc) (s : Shared) (k : Nat) (c : Copying) : Prop :=
  match m with
  | .read => Transported s.buffer p.mem c.proc.mem (fun i => (s.read + i) % g.bufferSize)
      (fun i => p.buffer + i) k ∧ c.shared.buffer = s.buffer
  | .write => Transported p.mem s.buffer c.shared.buffer (fun i => p.buffer + i)
      (fun i => (s.write + i) % g.bufferSize) k ∧ c.proc.mem = p.mem

/-- An own step moves the next bytes to the next slots, or out of them. -/
theorem Kept.contents_step (h : Kept g m p (s.index m + g.bufferSize) stop c)
    (hfull : stop < s.index m + g.bufferSize + g.bufferSize)
    (hc : Contents m g p s c.count c) {i : Input} (hs : c.step g m (.own i) = some c') :
    Contents m g p s (c.count + c.proc.xfer.copies) c' := by
  obtain ⟨hpc, hstep, -⟩ := Copying.step_own hs
  have hbuf := (Proc.step_looped hpc hstep).buffer
  have hmem := Proc.mem_looped hpc hstep
  have hge := h.sound.ge
  have huser := h.userBuf
  have hcur : p.buffer + c.count = c.proc.xfer.current := by
    simp only [count]
    omega
  by_cases hz : c.proc.xfer.copies = 0
  · rw [hz, Nat.add_zero]
    cases m <;> simp only [Contents, hbuf, hmem, Proc.ringAfter, Proc.memAfter, Proc.moved, hpc,
      Transfer.moved, hz, if_true, segment_zero, overwrite_nil] at hc ⊢ <;> exact hc
  obtain ⟨hloc, hspan, hfit⟩ := h.sound.copies_fit hz
  have hring := hspan.ring
  have hstop := hspan.stop
  have hlt := hloc.lt
  -- the slots of the bytes moved now, and that none of them was met before
  have hslot : ∀ i < c.proc.xfer.copies,
      (s.index m + (c.count + i)) % g.bufferSize = c.proc.xfer.pos + i := by
    intro i hi
    have := (hloc.cursor.advance (k := i) (by omega)).eq_mod (by omega)
    rw [this, show s.index m + g.bufferSize + c.count + i =
      s.index m + (c.count + i) + g.bufferSize by omega, Nat.add_mod_right]
  have hne : ∀ i < c.count, ∀ i' < c.proc.xfer.copies,
      (s.index m + i) % g.bufferSize ≠ (s.index m + (c.count + i')) % g.bufferSize := by
    intro i hi i' hi' heq
    have := (mod_eq_mod_iff (n := g.bufferSize) (by omega) (by omega)).mp heq
    omega
  cases m with
  | read =>
    refine ⟨?_, hbuf.trans hc.2⟩
    rw [hmem, Proc.memAfter, Proc.moved, if_pos hpc, Transfer.moved, hc.2]
    exact hc.1.append hslot (fun i _ => by omega) fun i hi i' _ => by omega
  | write =>
    refine ⟨?_, hmem.trans hc.2⟩
    rw [hbuf, Proc.ringAfter, Proc.moved, if_pos hpc, Transfer.moved, hc.2]
    exact hc.1.append (fun i _ => by omega) hslot hne

/-- How many bytes an end may move, as the indices stand. -/
def room (g : Geometry) (m : Mod) (s : Shared) : Nat :=
  match m with
  | .read => (s.write + g.bufferSize - s.read) % g.bufferSize
  | .write => (s.read + g.bufferSize - 1 - s.write) % g.bufferSize

/-- The room is the distance from the own index to the limit. -/
theorem room_eq (hown : s.index m < g.bufferSize) (hpeer : s.index m.peer < g.bufferSize) :
    room g m s =
      (peerLimit g m (s.index m.peer) + g.bufferSize - s.index m) % g.bufferSize := by
  cases m with
  | read => rfl
  | write =>
    change s.write < g.bufferSize at hown
    change s.read < g.bufferSize at hpeer
    change _ = (peerLimit g .write s.read + g.bufferSize - s.write) % g.bufferSize
    simp only [room, peerLimit]
    by_cases hz : s.read = 0
    · rw [if_pos hz, hz, Nat.zero_add, add_sub_mod hown (by omega), if_pos (by omega),
        Nat.mod_eq_of_lt (by omega)]
    · rw [if_neg hz, show s.read + g.bufferSize - 1 - s.write =
        s.read - 1 + g.bufferSize - s.write by omega]

/-- The bound of a peer that stays where it is lies just the room ahead. -/
theorem bound_eq_room (hown : s.index m < g.bufferSize)
    (hother : s.index m.peer = other % g.bufferSize)
    (hle : s.index m + g.bufferSize ≤ bound g m other)
    (hlt : bound g m other < s.index m + g.bufferSize + g.bufferSize) :
    bound g m other = s.index m + g.bufferSize + room g m s := by
  have hn := g.bufferSize_pos
  have hmod := Nat.mod_lt other hn
  have hbound := Nat.mod_lt (bound g m other) hn
  have hcases := mod_add_cases hle hlt
  rw [Nat.add_mod_right, Nat.mod_eq_of_lt hown] at hcases
  rw [room_eq hown (hother ▸ hmod), hother, peerLimit_mod, add_sub_mod hown hbound]
  split <;> omega

/-- What holds all through a call whose peer keeps its index. -/
structure Exact (g : Geometry) (m : Mod) (p : Proc) (s : Shared) (c : Copying) : Prop where
  /-- While the call is in the loop, the loop is in order. -/
  loop : c.proc.pc = .avail →
    Kept g m p (s.index m + g.bufferSize) (s.index m + g.bufferSize + room g m s) c ∧
      c.proc.xfer.Exhausted ∧ Contents m g p s c.count c
  /-- The peer keeps its index. -/
  peer : c.shared.index m.peer = s.index m.peer
  /-- When the call has returned, its value is what was asked for, as far as there was room. -/
  returned : c.Returned → c.proc.retval = (min p.nbytes (room g m s) : Nat) ∧
    c.shared.index m = (s.index m + c.proc.retval.toNat) % g.bufferSize ∧
    Contents m g p s c.proc.retval.toNat c

/-- A call that begins with its index in the ring is in order. -/
theorem exact_enter (g : Geometry) (m : Mod) (p : Proc) (s : Shared)
    (hown : s.index m < g.bufferSize) : Exact g m p s (enter p s) where
  loop _ := by
    have hzero : (enter p s).count = 0 := Nat.sub_self _
    refine ⟨kept_enter p ?_, trivial, ?_⟩
    · rw [Nat.add_mod_right, Nat.mod_eq_of_lt hown]
    · rw [hzero]
      cases m <;> exact ⟨transported_zero .., rfl⟩
  peer := rfl
  returned h := absurd rfl h

/-- A loop that returns has moved as much as it may. -/
theorem Kept.count_done (h : Kept g m p base stop c) (hex : c.proc.xfer.Exhausted)
    (hdone : c.proc.xfer.pc = .done) : c.count = min p.nbytes (stop - base) := by
  have hat := h.sound.atPc
  simp only [Transfer.AtPc, hdone] at hat
  obtain ⟨hloc, hpos⟩ := hat
  simp only [Transfer.Exhausted, hdone] at hex
  have hle := h.sound.le
  have hge := h.sound.ge
  have huser := h.userBuf
  have husr := h.usrMax
  have hstop := hloc.le
  have hcount : p.buffer + c.count = c.proc.xfer.current := by
    simp only [count]
    omega
  rcases hex with hlim | hend
  · have heq : base + c.count = stop := by
      rw [hloc.cursor.eq_mod hpos, hloc.limit] at hlim
      exact (mod_eq_mod_iff hloc.le hloc.lt).mp hlim
    omega
  · omega

/-- A step of the loop itself keeps the call in order. -/
private theorem Exact.step_own (h : Exact g m p s c) (hown : s.index m < g.bufferSize)
    (hother : s.index m.peer < g.bufferSize) {i : Input}
    (hs : c.step g m (.own i) = some c') : Exact g m p s c' := by
  obtain ⟨hpc, hstep, -⟩ := Copying.step_own hs
  obtain ⟨hkept, hex, hcontents⟩ := h.loop hpc
  have hl := Proc.step_looped hpc hstep
  obtain ⟨other, hslot, hle, hlt⟩ :=
    exists_bound g m (Nat.le_add_left g.bufferSize (s.index m)) hother
  have hbound := bound_eq_room hown hslot hle hlt
  have hpeer : c.shared.index m.peer = other % g.bufferSize := h.peer.trans hslot
  have hroom : room g m s < g.bufferSize := by omega
  have hmoved := hkept.contents_step (by omega) hcontents hs
  rcases hl.next with ⟨_, hpc', hx⟩ | ⟨hdone, hpc', hret⟩
  · refine ⟨fun _ => ⟨?_, ?_, ?_⟩, hl.peer.trans h.peer, fun hne => absurd hpc' hne⟩
    · have hcount := hkept.count_le (Nat.le_add_right _ _)
      have hnext := hkept.step_own hs hpc' hpeer (by omega)
      have hkeep : c.proc.xfer.nextStop g m other (s.index m + g.bufferSize + room g m s) =
          s.index m + g.bufferSize + room g m s := by
        simp only [Transfer.nextStop, hbound, ite_self]
      rwa [hkeep] at hnext
    · rw [hx]
      exact Transfer.exhausted_step hex
    · rw [hkept.count_step hx]
      exact hmoved
  · have hz : c.proc.xfer.copies = 0 := by simp [Transfer.copies, hdone]
    have hcount := hkept.count_done hex hdone
    rw [Nat.add_sub_cancel_left] at hcount
    have hval : c'.proc.retval = (c.count : Int) := hret
    refine ⟨fun he => ?_, hl.peer.trans h.peer, fun _ => ⟨?_, ?_, ?_⟩⟩
    · simp [hpc'] at he
    · rw [hval, hcount]
    · have hpub : c.proc.publishes = false := by simp [Proc.publishes, hdone]
      rw [hl.own, hpub, if_neg Bool.false_ne_true, hval, Int.toNat_natCast,
        hkept.own (by simp [Transfer.Synced, hdone]),
        show s.index m + g.bufferSize + c.count = s.index m + c.count + g.bufferSize by omega,
        Nat.add_mod_right]
    · rw [hval, Int.toNat_natCast]
      rwa [hz, Nat.add_zero] at hmoved

/-- A flag word that is stored from outside does not disturb the call. -/
private theorem Exact.step_flags (h : Exact g m p s c) (m' : Mod) (f : Flags) :
    Exact g m p s { c with shared := c.shared.setFlags m' f } := by
  refine ⟨fun hpc => ?_, by simpa using h.peer, fun hret => ?_⟩
  · obtain ⟨hkept, hex, hcontents⟩ := h.loop hpc
    refine ⟨hkept.outside (Shared.index_setFlags ..), hex, ?_⟩
    cases m <;> simpa [Contents, count] using hcontents
  · obtain ⟨hval, hidx, hcontents⟩ := h.returned hret
    refine ⟨hval, by simpa using hidx, ?_⟩
    cases m <;> simpa [Contents] using hcontents

/-- A step during a call whose peer keeps its index. -/
theorem Exact.step (h : Exact g m p s c) (hown : s.index m < g.bufferSize)
    (hother : s.index m.peer < g.bufferSize) {t : Turn} (ht : still c t = true)
    (hs : c.step g m t = some c') : Exact g m p s c' := by
  cases t with
  | own i => exact h.step_own hown hother hs
  | flags m' f =>
    obtain rfl := Option.some.inj hs
    exact h.step_flags m' f
  | index | byte => simp [still] at ht

/-- A bound on the own steps a call has left. -/
def rank (c : Copying) : Nat := if c.proc.pc = .avail then c.proc.xfer.rank + 1 else 0

/-- Own steps lower the rank, the others keep it. -/
theorem rank_step (hsound : c.proc.pc = .avail → Kept g m p base stop c) {t : Turn}
    (hs : c.step g m t = some c') : c'.rank + (if t.isOwn then 1 else 0) ≤ c.rank := by
  cases t with
  | own i =>
    obtain ⟨hpc, hstep, -⟩ := Copying.step_own hs
    simp only [rank, hpc, if_true, Turn.isOwn]
    rcases (Proc.step_looped hpc hstep).next with ⟨hdone, hpc', hx⟩ | ⟨_, hpc', _⟩
    · have := (hsound hpc).sound.rank_step (s := c.shared) hdone
      simp only [hpc', if_true, hx]
      omega
    · simp only [hpc', reduceCtorEq, if_false]
      omega
  | flags | index | byte =>
    obtain rfl := Option.some.inj hs
    simp [rank, Turn.isOwn]

/-- The call returns whatever its neighbours do, and has then moved what it should. -/
theorem finishes (g : Geometry) (m : Mod) (p : Proc) (s : Shared)
    (hown : s.index m < g.bufferSize) (hother : s.index m.peer < g.bufferSize) :
    Finishes (step g m) still Turn.isOwn Returned (16 * (p.nbytes + 1))
      (fun c => c.Returned ∧ Exact g m p s c) (enter p s) := by
  refine finishes_of_rank rank (exact_enter g m p s hown) ?_ ?_ ?_ ?_ ?_
  · simp only [rank, enter, Proc.enterAvail, if_true, Transfer.rank, Transfer.start,
      Transfer.phase]
    omega
  · exact fun c t c' h ht hs => h.step hown hother ht hs
  · exact fun c t c' h _ hs => rank_step (fun hpc => (h.loop hpc).1) hs
  · intro c _ hpc
    have hpc : c.proc.pc = .avail := not_not.mp hpc
    obtain ⟨i, hi⟩ := Proc.looped_live hpc g m c.shared
    refine ⟨.own i, rfl, rfl, ?_⟩
    simpa [step, hpc] using hi
  · exact fun c h hret => ⟨hret, h⟩

end Copying

/-- The optimised copies are exact. While the peer keeps its index, a call of either loop returns
after a bounded number of its own steps, and then the first bytes, as many as there are and no
more than asked for, have been copied one to one, whatever the two addresses are. -/
theorem avail_exact (g : Geometry) (p : Proc) (s : Shared) (hread : s.read < g.bufferSize)
    (hwrite : s.write < g.bufferSize) :
    Finishes (Copying.step g .write) Copying.still Turn.isOwn Copying.Returned
      (16 * (p.nbytes + 1)) (Wrote g p s) (.enter p s) ∧
    Finishes (Copying.step g .read) Copying.still Turn.isOwn Copying.Returned
      (16 * (p.nbytes + 1)) (ReadOut g p s) (.enter p s) := by
  constructor
  · refine (Copying.finishes g .write p s hwrite hread).imp fun c ⟨hret, h⟩ => ?_
    obtain ⟨hval, hidx, hcontents⟩ := h.returned hret
    exact ⟨hval, hcontents.1, hidx, h.peer, hcontents.2⟩
  · refine (Copying.finishes g .read p s hread hwrite).imp fun c ⟨hret, h⟩ => ?_
    obtain ⟨hval, hidx, hcontents⟩ := h.returned hret
    exact ⟨hval, hcontents.1, hidx, h.peer, hcontents.2⟩

/-- Five bytes asked for at an odd address, over a ring whose indices stand at its two ends. -/
private def oddCall : Proc :=
  { Proc.init .idle true fun a => UInt8.ofNat a with buffer := 3, nbytes := 5 }

/-- A call on an odd address moves its bytes over the end of the ring, in bounded time and
exactly. -/
theorem avail_exact_oddCall :
    Finishes (Copying.step .onePage .write) Copying.still Turn.isOwn Copying.Returned 96
      (Wrote .onePage oddCall ⟨0#32, 0#32, 4078, 2, fun _ => 0⟩)
      (.enter oddCall ⟨0#32, 0#32, 4078, 2, fun _ => 0⟩) ∧
    Finishes (Copying.step .onePage .read) Copying.still Turn.isOwn Copying.Returned 96
      (ReadOut .onePage oddCall ⟨0#32, 0#32, 4078, 2, fun _ => 0⟩)
      (.enter oddCall ⟨0#32, 0#32, 4078, 2, fun _ => 0⟩) :=
  avail_exact .onePage oddCall _ (by decide) (by decide)

end XenShm.Pipe
