import XenShm.Pipe.Shared

/-!
# The copying loops

`__xen_shm_pipe_read_avail` and `__xen_shm_pipe_write_avail` are one loop with the
two ends exchanged: the own index is the cursor, the index of the peer gives the
limit (less one slot for the writer), and bytes move from the ring to the user
buffer or the other way. A transfer is a program counter with the local variables
of that loop. Every load or store of a shared word, and every copy of a byte or of
a 64-bit word, is one step.
-/

namespace XenShm.Pipe

open XenShm.Library

/-- The points of the copying loop between which other processes may run. -/
inductive TransferPc where
  /-- Load the field `read` of the shared area. -/
  | loadRead
  /-- Load the field `write` of the shared area. -/
  | loadWrite
  /-- Load the flags of the peer to choose the first check boundary. -/
  | loadFlags
  /-- Loop condition, boundaries and choice of the copy. -/
  | loop
  /-- Slow copy up to a 64-bit boundary of the user buffer. -/
  | align
  /-- The fast copy, in words of 64 bits. -/
  | words
  /-- Slow copy up to the boundary, by itself or after the fast copy. -/
  | bytes
  /-- Boundary reached: look at the peer if it is time to. -/
  | check
  /-- Signal a sleeping peer from inside the loop. -/
  | checkSignal
  /-- Rewind the cursor and load the index of the peer again. -/
  | loadPeer
  /-- Store the own index in the shared area. -/
  | storeOwn
  /-- Look at the peer after the loop. -/
  | lastCheck
  /-- Signal a sleeping peer after the loop. -/
  | lastSignal
  /-- Return `current_buf - user_buf`, the number of bytes moved. -/
  | done
  deriving DecidableEq, Repr

/-- The local variables of the copying loop. Ring pointers are offsets from `buffer`, user
pointers are addresses. -/
structure Transfer where
  /-- Where the loop stands in its code. -/
  pc : TransferPc
  /-- The local variable `user_buf`, where the user buffer begins. -/
  userBuf : Nat
  /-- The local variable `usr_max_buf`, where the user buffer ends. -/
  usrMax : Nat
  /-- The local variable `current_buf`, up to where it was moved. -/
  current : Nat
  /-- The local variable `gran_max_buf`, where the peer is looked at next. -/
  granMax : Nat
  /-- The local variable `min_max_buf`, where the current copy ends. -/
  minMax : Nat
  /-- `read_pos` of the reader, `write_pos` of the writer. -/
  pos : Nat
  /-- `write_pos` of the reader, `read_pos_reduced` of the writer. -/
  limit : Nat
  /-- The local variable `is_aligned`, whether words can be copied. -/
  isAligned : Bool
  /-- The local variable `gran_check`, whether the peer is looked at now. -/
  granCheck : Bool

/-- Where one end has to stop when the index of its peer is `i`. The writer keeps one slot
free before the reader. -/
def peerLimit (g : Geometry) (m : Mod) (i : Nat) : Nat :=
  match m with
  | .read => i
  | .write => if i = 0 then g.bufferSize - 1 else i - 1

namespace Transfer

/-- The loop as entered by a call on `nbytes` bytes at address `buf`. -/
def start (buf nbytes : Nat) : Transfer where
  pc := .loadRead
  userBuf := buf
  usrMax := buf + nbytes
  current := buf
  granMax := buf
  minMax := buf
  pos := 0
  limit := 0
  isAligned := false
  granCheck := false

/-- `circ_max_buf`: straight on to the limit, or to the end of the ring. -/
def circMax (g : Geometry) (t : Transfer) : Nat :=
  t.current + straight g.bufferSize t.pos t.limit

/-- The nearer of the ring boundary and the user boundary. -/
def innerMax (g : Geometry) (t : Transfer) : Nat := min (t.circMax g) t.usrMax

/-- The boundary of one round, cut short where it is time to look at the peer. -/
def nearMax (g : Geometry) (t : Transfer) : Nat :=
  if t.granMax < t.innerMax g then t.granMax else t.innerMax g

/-- The boundaries of one round and the copy chosen for it. -/
def enter (g : Geometry) (m : Mod) (t : Transfer) : Transfer :=
  let t' := { t with minMax := t.nearMax g, granCheck := decide (t.granMax < t.innerMax g) }
  if (t.isAligned ∨ t.current % 8 = g.ringAddr m t.pos % 8) ∧ 24 < t.nearMax g - t.current then
    if t.isAligned then { t' with pc := .words } else { t' with isAligned := true, pc := .align }
  else { t' with isAligned := false, pc := .bytes }

/-- The local variable `min_max_buf64`, where the copy of words ends. -/
def minMax64 (t : Transfer) : Nat := t.minMax / 8 * 8

/-- How many bytes the next step moves. -/
def copies (t : Transfer) : Nat :=
  match t.pc with
  | .align => if t.current % 8 ≠ 0 then 1 else 0
  | .words => if t.current ≠ t.minMax64 then 8 else 0
  | .bytes => if t.current ≠ t.minMax then 1 else 0
  | _ => 0

/-- Both cursors after a copy of `k` bytes, which may wrap around in the ring. -/
def advance (t : Transfer) (k : Nat) : Transfer :=
  { t with current := t.current + k, pos := t.pos + k }

section Advance

variable (t : Transfer) (k : Nat)

@[simp] theorem advance_pc : (t.advance k).pc = t.pc := rfl

@[simp] theorem advance_userBuf : (t.advance k).userBuf = t.userBuf := rfl

@[simp] theorem advance_usrMax : (t.advance k).usrMax = t.usrMax := rfl

@[simp] theorem advance_current : (t.advance k).current = t.current + k := rfl

@[simp] theorem advance_pos : (t.advance k).pos = t.pos + k := rfl

@[simp] theorem advance_minMax64 : (t.advance k).minMax64 = t.minMax64 := rfl

@[simp] theorem advance_isAligned : (t.advance k).isAligned = t.isAligned := rfl

end Advance

/-- The local effect of one step of the loop at the end `m`, given what the shared words hold. -/
def step (g : Geometry) (m : Mod) (s : Shared) (t : Transfer) : Transfer :=
  match t.pc with
  | .loadRead =>
    match m with
    | .read => { t with pos := s.read, pc := .loadWrite }
    | .write => { t with limit := peerLimit g .write s.read, pc := .loadWrite }
  | .loadWrite =>
    match m with
    | .read => { t with limit := peerLimit g .read s.write, pc := .loadFlags }
    | .write => { t with pos := s.write, pc := .loadFlags }
  | .loadFlags =>
    let interval :=
      if hasFlag (s.flags m.peer) .sleeping then fastCheckInterval else g.waitCheckInterval
    { t with granMax := t.userBuf + interval, pc := .loop }
  | .loop =>
    if t.pos ≠ t.limit ∧ t.current ≠ t.usrMax then t.enter g m else { t with pc := .lastCheck }
  | .align => if t.current % 8 ≠ 0 then t.advance 1 else { t with pc := .words }
  | .words =>
    if t.current ≠ t.minMax64 then t.advance 8
    -- after a check boundary the last few bytes are left to the next round, still aligned
    else if ¬ t.granCheck ∧ t.current ≠ t.minMax then { t with isAligned := false, pc := .bytes }
    else { t with pc := .check }
  | .bytes => if t.current ≠ t.minMax then t.advance 1 else { t with pc := .check }
  | .check =>
    if t.granCheck ∨ t.current = t.granMax then
      { t with
        granMax := t.granMax + g.waitCheckInterval
        pc := if hasFlag (s.flags m.peer) .sleeping then .checkSignal else .loadPeer }
    else { t with pc := .loadPeer }
  | .checkSignal => { t with pc := .loadPeer }
  | .loadPeer =>
    { t with
      pos := if t.pos = g.bufferSize then 0 else t.pos
      limit := peerLimit g m (s.index m.peer)
      pc := .storeOwn }
  | .storeOwn => { t with pc := .loop }
  | .lastCheck =>
    { t with pc := if hasFlag (s.flags m.peer) .sleeping then .lastSignal else .done }
  | .lastSignal => { t with pc := .done }
  | .done => t

/-- The bytes the next step moves: out of the ring for the reader, out of the user memory for
the writer. -/
def moved (m : Mod) (buffer mem : Nat → UInt8) (t : Transfer) : List UInt8 :=
  match m with
  | .read => segment buffer t.pos t.copies
  | .write => segment mem t.current t.copies

@[simp] theorem length_moved (m : Mod) (buffer mem : Nat → UInt8) (t : Transfer) :
    (t.moved m buffer mem).length = t.copies := by
  cases m <;> simp [moved]

end Transfer

/-- The stream position where one end has to stop when its peer has published `c` elements. -/
def bound (g : Geometry) (m : Mod) (c : Nat) : Nat :=
  match m with
  | .read => c
  | .write => c + (g.bufferSize - 1)

/-- The limit computed from an index is the slot of the bound. -/
theorem peerLimit_mod (g : Geometry) (m : Mod) (c : Nat) :
    peerLimit g m (c % g.bufferSize) = bound g m c % g.bufferSize := by
  have hn := g.bufferSize_pos
  cases m with
  | read => rfl
  | write =>
    have hc := Nat.mod_lt c hn
    have hb : bound g .write c % g.bufferSize =
        (c % g.bufferSize + (g.bufferSize - 1)) % g.bufferSize := (Nat.mod_add_mod ..).symm
    simp only [peerLimit]
    by_cases hz : c % g.bufferSize = 0
    · rw [if_pos hz, hb, hz, Nat.zero_add, Nat.mod_eq_of_lt (by omega)]
    · have hsub : (c % g.bufferSize + (g.bufferSize - 1)) % g.bufferSize =
          c % g.bufferSize + (g.bufferSize - 1) - g.bufferSize := by
        rw [Nat.mod_eq_sub_mod (by omega), Nat.mod_eq_of_lt (by omega)]
      rw [if_neg hz, hb, hsub]
      omega

/-- The more the peer has shown, the more an end may move. -/
theorem bound_mono (g : Geometry) (m : Mod) {c d : Nat} (h : c ≤ d) :
    bound g m c ≤ bound g m d := by
  cases m <;> simp only [bound] <;> omega

end XenShm.Pipe
