import XenShm.Pipe.Transfer

/-!
# What the copying loop keeps

A transfer is tied to the stream by two numbers: how many elements its end has
moved so far, and the element at which the last loaded index of the peer makes it
stop. The loop keeps its cursor on the first number and its limit on the second,
never copies past the limit, the end of the ring or the user buffer, and keeps
both pointers on 64-bit boundaries while the sticky alignment flag is set.
-/

namespace XenShm.Pipe

open XenShm.Library

namespace Transfer

variable {g : Geometry} {m : Mod} {s : Shared} {t : Transfer} {count stop c : Nat}

/-- The cursor has passed `count` elements and the limit is the slot of element `stop`, less
than one round ahead. -/
structure Located (g : Geometry) (count stop : Nat) (t : Transfer) : Prop where
  /-- The cursor of the loop stands for the number of elements that it has passed. -/
  cursor : CursorAt g.bufferSize t.pos count
  /-- The limit of the loop is the slot of the element `stop`. -/
  limit : t.limit = stop % g.bufferSize
  /-- Nothing beyond the limit was moved. -/
  le : count ≤ stop
  /-- The limit is less than one round ahead. -/
  lt : stop < count + g.bufferSize

/-- The rest of the current copy fits before every boundary. -/
structure Spans (g : Geometry) (count stop : Nat) (t : Transfer) : Prop where
  /-- The boundary of this round is ahead. -/
  le : t.current ≤ t.minMax
  /-- The copy lies in the user buffer. -/
  user : t.minMax ≤ t.usrMax
  /-- The copy ends before the next look at the peer. -/
  gran : t.minMax ≤ t.granMax
  /-- The copy ends before the limit is reached. -/
  stop : count + (t.minMax - t.current) ≤ stop
  /-- The copy ends before the end of the ring is reached. -/
  ring : t.pos + (t.minMax - t.current) ≤ g.bufferSize

/-- The sticky flag means what its name says. -/
def FlagTrue (t : Transfer) : Prop := t.isAligned = true → t.current % 8 = 0 ∧ t.pos % 8 = 0

/-- The facts that hold at each point of the loop. -/
def AtPc (g : Geometry) (m : Mod) (count stop : Nat) (t : Transfer) : Prop :=
  match t.pc with
  | .loadRead => t.isAligned = false
  | .loadWrite =>
    t.isAligned = false ∧
      match m with
      | .read => t.pos = count % g.bufferSize
      | .write => t.limit = stop % g.bufferSize ∧ count ≤ stop ∧ stop < count + g.bufferSize
  | .loadFlags => t.isAligned = false ∧ Located g count stop t ∧ t.pos < g.bufferSize ∧
      t.current = t.userBuf
  | .loop => FlagTrue t ∧ Located g count stop t ∧ t.pos < g.bufferSize ∧ t.current < t.granMax
  | .align => Located g count stop t ∧ Spans g count stop t ∧ t.current % 8 = t.pos % 8 ∧
      (t.current + 7) / 8 * 8 < t.minMax64
  | .words => Located g count stop t ∧ Spans g count stop t ∧ t.current % 8 = 0 ∧
      t.pos % 8 = 0 ∧ t.current ≤ t.minMax64
  | .bytes => Located g count stop t ∧ Spans g count stop t ∧ t.isAligned = false
  | .check => FlagTrue t ∧ Located g count stop t ∧ t.current ≤ t.granMax
  | .checkSignal | .loadPeer => FlagTrue t ∧ Located g count stop t ∧ t.current < t.granMax
  | .storeOwn => FlagTrue t ∧ Located g count stop t ∧ t.pos < g.bufferSize ∧
      t.current < t.granMax
  | .lastCheck | .lastSignal | .done => Located g count stop t ∧ t.pos < g.bufferSize

/-- The invariant of the copying loop: its cursors, and what holds at the point where it stands. -/
structure Sound (g : Geometry) (m : Mod) (count stop : Nat) (t : Transfer) : Prop where
  /-- The user cursor is in the user buffer. -/
  ge : t.userBuf ≤ t.current
  /-- The user cursor is in the user buffer. -/
  le : t.current ≤ t.usrMax
  /-- Nothing has moved before the indices are loaded. -/
  fresh : t.pc = .loadRead ∨ t.pc = .loadWrite → t.current = t.userBuf
  /-- What holds at the point where the loop stands. -/
  atPc : AtPc g m count stop t

/-- Whether the next step loads the index of the peer. -/
def reloads (m : Mod) (t : Transfer) : Bool :=
  match t.pc, m with
  | .loadRead, .write => true
  | .loadWrite, .read => true
  | .loadPeer, _ => true
  | _, _ => false

/-- The stopping element known after the next step, the peer having published `c` elements. -/
def nextStop (g : Geometry) (m : Mod) (c stop : Nat) (t : Transfer) : Nat :=
  if t.reloads m then bound g m c else stop

/-- A loop that begins has moved nothing and is in order. -/
theorem sound_start (g : Geometry) (m : Mod) (count stop buf nbytes : Nat) :
    Sound g m count stop (start buf nbytes) :=
  ⟨le_rfl, Nat.le_add_right _ _, fun _ => rfl, rfl⟩

/-- The boundary of a round is in front of every limit. -/
private theorem spans_nearMax (hloc : Located g count stop t) (hpos : t.pos < g.bufferSize)
    (hle : t.current ≤ t.usrMax) (hgran : t.current < t.granMax) :
    Spans g count stop { t with minMax := t.nearMax g } := by
  obtain ⟨hstop, hring, _⟩ := straight_spec hloc.le hloc.lt
  rw [← hloc.cursor.eq_mod hpos, ← hloc.limit] at hstop hring
  have hnear : t.current ≤ t.nearMax g ∧ t.nearMax g ≤ t.granMax ∧ t.nearMax g ≤ t.usrMax ∧
      t.nearMax g ≤ t.current + straight g.bufferSize t.pos t.limit := by
    unfold nearMax
    by_cases hg : t.granMax < t.innerMax g
    · simp only [if_pos hg]
      simp only [innerMax, circMax] at hg
      omega
    · simp only [if_neg hg]
      simp only [innerMax, circMax] at hg ⊢
      omega
  have hle' := hloc.le
  constructor <;> simp only <;> omega

/-- A round of the loop starts with room in every direction, and with aligned pointers when
the fast copy is chosen. -/
private theorem enter_atPc (h : AtPc g m count stop t) (hpc : t.pc = .loop)
    (hle : t.current ≤ t.usrMax) : AtPc g m count stop (t.enter g m) := by
  simp only [AtPc, hpc] at h
  obtain ⟨haligned, hloc, hpos, hgran⟩ := h
  have hspan := spans_nearMax hloc hpos hle hgran
  unfold enter
  by_cases hfast : (t.isAligned ∨ t.current % 8 = g.ringAddr m t.pos % 8) ∧
      24 < t.nearMax g - t.current
  · rw [if_pos hfast]
    obtain ⟨hal, hlong⟩ := hfast
    rw [g.ringAddr_mod_eight] at hal
    by_cases hflag : t.isAligned = true
    · rw [if_pos hflag]
      obtain ⟨hc, hp⟩ := haligned hflag
      refine ⟨⟨hloc.1, hloc.2, hloc.3, hloc.4⟩, ⟨hspan.1, hspan.2, hspan.3, hspan.4, hspan.5⟩,
        hc, hp, ?_⟩
      simp only [minMax64]
      omega
    · rw [if_neg hflag]
      refine ⟨⟨hloc.1, hloc.2, hloc.3, hloc.4⟩, ⟨hspan.1, hspan.2, hspan.3, hspan.4, hspan.5⟩,
        hal.resolve_left hflag, ?_⟩
      simp only [minMax64]
      omega
  · rw [if_neg hfast]
    exact ⟨⟨hloc.1, hloc.2, hloc.3, hloc.4⟩, ⟨hspan.1, hspan.2, hspan.3, hspan.4, hspan.5⟩, rfl⟩

/-- A copy in progress has a word or a byte left before its boundary. -/
theorem Sound.copies_fit (h : Sound g m count stop t) (hcopy : t.copies ≠ 0) :
    Located g count stop t ∧ Spans g count stop t ∧ t.current + t.copies ≤ t.minMax := by
  have hat := h.atPc
  cases hpc : t.pc <;> simp only [copies, hpc, ne_eq, not_true_eq_false] at hcopy ⊢ <;>
    simp only [AtPc, hpc] at hat
  case align =>
    obtain ⟨hloc, hspan, _, hroom⟩ := hat
    simp only [minMax64] at hroom
    refine ⟨hloc, hspan, ?_⟩
    split <;> omega
  case words =>
    obtain ⟨hloc, hspan, hc, _, hle⟩ := hat
    refine ⟨hloc, hspan, ?_⟩
    by_cases hlast : t.current = t.minMax64
    · simp only [hlast, not_true_eq_false, ite_false] at hcopy
    · simp only [hlast, not_false_eq_true, ite_true]
      simp only [minMax64] at hle hlast
      omega
  case bytes =>
    obtain ⟨hloc, hspan, _⟩ := hat
    have hle := hspan.le
    refine ⟨hloc, hspan, ?_⟩
    split <;> omega

/-- The loop never passes the limit; before its second load it may not know it. -/
theorem Sound.le_stop (h : Sound g m count stop t) (hpc : t.pc ≠ .loadRead ∧ t.pc ≠ .loadWrite) :
    count ≤ stop := by
  have hat := h.atPc
  cases he : t.pc <;> simp only [AtPc, he] at hat
  case loadRead => exact absurd he hpc.1
  case loadWrite => exact absurd he hpc.2
  case loadFlags => exact hat.2.1.le
  case loop => exact hat.2.1.le
  case align | words | bytes => exact hat.1.le
  case check | checkSignal | loadPeer | storeOwn => exact hat.2.1.le
  case lastCheck | lastSignal | done => exact hat.1.le

/-- To move `k` elements inside the current span moves the cursor past them. -/
private theorem Located.advance (hloc : Located g count stop t) (hspan : Spans g count stop t)
    {k : Nat} (hk : t.current + k ≤ t.minMax) : Located g (count + k) stop (t.advance k) := by
  have hring := hspan.ring
  have hstop := hspan.stop
  have hlt := hloc.lt
  exact ⟨hloc.cursor.advance (by omega), hloc.limit, by omega, by omega⟩

/-- To move `k` elements inside the current span leaves the rest of the span. -/
private theorem Spans.advance (hspan : Spans g count stop t) {k : Nat}
    (hk : t.current + k ≤ t.minMax) : Spans g (count + k) stop (t.advance k) := by
  have hstop := hspan.stop
  have hring := hspan.ring
  constructor <;> simp only [Transfer.advance]
  · exact hk
  · exact hspan.user
  · exact hspan.gran
  · omega
  · omega

@[simp] theorem enter_userBuf : (t.enter g m).userBuf = t.userBuf := by
  unfold enter
  split_ifs <;> rfl

@[simp] theorem enter_usrMax : (t.enter g m).usrMax = t.usrMax := by
  unfold enter
  split_ifs <;> rfl

@[simp] theorem enter_current : (t.enter g m).current = t.current := by
  unfold enter
  split_ifs <;> rfl

/-- Entering a round chooses one of the three copies. -/
theorem enter_pc :
    (t.enter g m).pc = .words ∨ (t.enter g m).pc = .align ∨ (t.enter g m).pc = .bytes := by
  unfold enter
  split_ifs <;> simp

/-- The index loads in front of the loop. -/
private theorem Sound.step_load (h : Sound g m count stop t)
    (hpc : t.pc = .loadRead ∨ t.pc = .loadWrite) (hown : s.index m = count % g.bufferSize)
    (hpeer : s.index m.peer = c % g.bufferSize)
    (hc : count ≤ bound g m c ∧ bound g m c < count + g.bufferSize) :
    Sound g m count (t.nextStop g m c stop) (t.step g m s) := by
  obtain ⟨hge, hle, hfresh, hat⟩ := h
  have hcur := hfresh hpc
  have hn := g.bufferSize_pos
  have hlim := peerLimit_mod g m c
  rw [← hpeer] at hlim
  rcases hpc with hpc | hpc <;> cases m <;>
    simp only [AtPc, hpc] at hat <;>
    simp only [nextStop, reloads, step, hpc, Shared.index, Mod.peer, ite_true, ite_false,
      Bool.false_eq_true] at *
  case inl.read => exact ⟨hge, hle, fun _ => hcur, hat, hown⟩
  case inl.write => exact ⟨hge, hle, fun _ => hcur, hat, hlim, hc⟩
  case inr.read =>
    refine ⟨hge, hle, by simp, hat.1, ⟨?_, hlim, hc.1, hc.2⟩, ?_, hcur⟩
    · exact hat.2 ▸ cursorAt_mod hn
    · exact hat.2 ▸ Nat.mod_lt _ hn
  case inr.write =>
    refine ⟨hge, hle, by simp, hat.1, ⟨?_, hat.2.1, hat.2.2.1, hat.2.2.2⟩, ?_, hcur⟩
    · exact hown ▸ cursorAt_mod hn
    · exact hown ▸ Nat.mod_lt _ hn

/-- A copying step moves both cursors and stays at its point of the loop. -/
theorem step_of_copies (hcopy : t.copies ≠ 0) : t.step g m s = t.advance t.copies := by
  cases hpc : t.pc <;> simp only [copies, hpc, ne_eq, not_true_eq_false] at hcopy
  all_goals
    split at hcopy
    · simp [step, copies, *]
    · contradiction

/-- The steps that copy keep the loop in order, with the bytes that they have copied. -/
private theorem Sound.step_copy (h : Sound g m count stop t) (hcopy : t.copies ≠ 0) :
    Sound g m (count + t.copies) stop (t.step g m s) := by
  obtain ⟨hloc, hspan, hfit⟩ := h.copies_fit hcopy
  have huser := hspan.user
  have hloc' := hloc.advance hspan hfit
  have hspan' := hspan.advance hfit
  obtain ⟨hge, hle, _, hat⟩ := h
  rw [step_of_copies hcopy]
  revert hloc' hspan'
  cases hpc : t.pc <;> simp only [copies, hpc, ne_eq, not_true_eq_false] at hcopy hfit ⊢ <;>
    simp only [AtPc, hpc] at hat <;> intro hloc' hspan'
  case align =>
    by_cases hone : t.current % 8 = 0
    · simp [hone] at hcopy
    · simp only [if_pos hone] at hfit hloc' hspan' ⊢
      obtain ⟨_, _, hcong, hroom⟩ := hat
      refine ⟨by rw [advance_userBuf, advance_current]; omega,
        by rw [advance_current, advance_usrMax]; omega, by simp [hpc], ?_⟩
      simp only [AtPc, advance_pc, hpc]
      refine ⟨hloc', hspan', ?_, ?_⟩
      · rw [advance_current, advance_pos]
        omega
      · rw [advance_current, advance_minMax64]
        omega
  case words =>
    by_cases hlast : t.current = t.minMax64
    · simp [hlast] at hcopy
    · simp only [if_pos hlast] at hfit hloc' hspan' ⊢
      obtain ⟨_, _, hcong, hring, hroom⟩ := hat
      have h64 : t.minMax64 % 8 = 0 := by simp [minMax64]
      refine ⟨by rw [advance_userBuf, advance_current]; omega,
        by rw [advance_current, advance_usrMax]; omega, by simp [hpc], ?_⟩
      simp only [AtPc, advance_pc, hpc]
      refine ⟨hloc', hspan', ?_, ?_, ?_⟩
      · rw [advance_current]
        omega
      · rw [advance_pos]
        omega
      · rw [advance_current, advance_minMax64]
        omega
  case bytes =>
    by_cases hlast : t.current = t.minMax
    · simp [hlast] at hcopy
    · simp only [if_pos hlast] at hfit hloc' hspan' ⊢
      refine ⟨by rw [advance_userBuf, advance_current]; omega,
        by rw [advance_current, advance_usrMax]; omega, by simp [hpc], ?_⟩
      simp only [AtPc, advance_pc, hpc]
      exact ⟨hloc', hspan', hat.2.2⟩

/-- The step at the end of a copy keeps the loop in order. -/
private theorem Sound.step_copied (h : Sound g m count stop t) (hcopy : t.copies = 0)
    (hpc : t.pc = .align ∨ t.pc = .words ∨ t.pc = .bytes) :
    Sound g m count stop (t.step g m s) := by
  obtain ⟨hge, hle, _, hat⟩ := h
  rcases hpc with hpc | hpc | hpc <;> simp only [copies, hpc] at hcopy <;>
    simp only [AtPc, hpc] at hat <;> simp only [step, hpc]
  · obtain ⟨hloc, hspan, hcong, hroom⟩ := hat
    by_cases hone : t.current % 8 = 0
    · rw [if_neg (not_not.mpr hone)]
      refine ⟨hge, hle, by simp, ⟨hloc.1, hloc.2, hloc.3, hloc.4⟩,
        ⟨hspan.1, hspan.2, hspan.3, hspan.4, hspan.5⟩, hone, hcong ▸ hone, ?_⟩
      simp only [minMax64] at hroom ⊢
      omega
    · simp [hone] at hcopy
  · obtain ⟨hloc, hspan, hc, hp, hroom⟩ := hat
    by_cases hlast : t.current = t.minMax64
    · rw [if_neg (not_not.mpr hlast)]
      have hgran := hspan.gran
      have hspan_le := hspan.le
      split_ifs
      · exact ⟨hge, hle, by simp, ⟨hloc.1, hloc.2, hloc.3, hloc.4⟩,
          ⟨hspan.1, hspan.2, hspan.3, hspan.4, hspan.5⟩, rfl⟩
      · exact ⟨hge, hle, by simp, fun _ => ⟨hc, hp⟩, ⟨hloc.1, hloc.2, hloc.3, hloc.4⟩,
          hspan_le.trans hgran⟩
    · simp [hlast] at hcopy
  · obtain ⟨hloc, hspan, hflag⟩ := hat
    by_cases hlast : t.current = t.minMax
    · rw [if_neg (not_not.mpr hlast)]
      refine ⟨hge, hle, by simp, ?_, ⟨hloc.1, hloc.2, hloc.3, hloc.4⟩,
        hspan.le.trans hspan.gran⟩
      intro ht
      simp [hflag] at ht
    · simp [hlast] at hcopy

/-- The steps around the copies keep the loop in order. -/
private theorem Sound.step_round (h : Sound g m count stop t)
    (hpeer : s.index m.peer = c % g.bufferSize)
    (hc : count ≤ bound g m c ∧ bound g m c < count + g.bufferSize)
    (hload : t.pc ≠ .loadRead ∧ t.pc ≠ .loadWrite)
    (hcopy : t.pc ≠ .align ∧ t.pc ≠ .words ∧ t.pc ≠ .bytes) :
    Sound g m count (t.nextStop g m c stop) (t.step g m s) := by
  obtain ⟨hge, hle, _, hat⟩ := h
  have hn := g.bufferSize_pos
  have hinterval := g.waitCheckInterval_ge
  cases hpc : t.pc <;> simp only [hpc, ne_eq, not_true_eq_false, false_and,
    and_false] at hload hcopy
  case loadFlags =>
    simp only [AtPc, hpc] at hat
    obtain ⟨hflag, hloc, hpos, hcur⟩ := hat
    simp only [step, hpc, nextStop, reloads, Bool.false_eq_true, ite_false]
    refine ⟨hge, hle, by simp, ?_, ⟨hloc.1, hloc.2, hloc.3, hloc.4⟩, hpos, ?_⟩
    · intro ht
      simp [hflag] at ht
    · simp only [hcur, fastCheckInterval]
      split <;> omega
  case loop =>
    simp only [step, hpc, nextStop, reloads, Bool.false_eq_true, ite_false]
    split
    · refine ⟨?_, ?_, ?_, enter_atPc hat hpc hle⟩
      · simpa using hge
      · simpa using hle
      · rcases enter_pc (g := g) (m := m) (t := t) with he | he | he <;> simp [he]
    · simp only [AtPc, hpc] at hat
      obtain ⟨_, hloc, hpos, _⟩ := hat
      exact ⟨hge, hle, by simp, ⟨hloc.1, hloc.2, hloc.3, hloc.4⟩, hpos⟩
  case check =>
    simp only [AtPc, hpc] at hat
    obtain ⟨hflag, hloc, hgran⟩ := hat
    simp only [step, hpc, nextStop, reloads, Bool.false_eq_true, ite_false]
    by_cases hlook : t.granCheck = true ∨ t.current = t.granMax
    · rw [if_pos hlook]
      have hlt : t.current < t.granMax + g.waitCheckInterval := by omega
      cases hasFlag (s.flags m.peer) .sleeping
      · exact ⟨hge, hle, by simp, hflag, ⟨hloc.1, hloc.2, hloc.3, hloc.4⟩, hlt⟩
      · exact ⟨hge, hle, by simp, hflag, ⟨hloc.1, hloc.2, hloc.3, hloc.4⟩, hlt⟩
    · rw [if_neg hlook]
      have hlt : t.current < t.granMax := by omega
      exact ⟨hge, hle, by simp, hflag, ⟨hloc.1, hloc.2, hloc.3, hloc.4⟩, hlt⟩
  case checkSignal =>
    simp only [AtPc, hpc] at hat
    obtain ⟨hflag, hloc, hgran⟩ := hat
    simp only [step, hpc, nextStop, reloads, Bool.false_eq_true, ite_false]
    exact ⟨hge, hle, by simp, hflag, ⟨hloc.1, hloc.2, hloc.3, hloc.4⟩, hgran⟩
  case loadPeer =>
    simp only [AtPc, hpc] at hat
    obtain ⟨hflag, hloc, hgran⟩ := hat
    have hrewind := hloc.cursor.rewind
    have hlim := peerLimit_mod g m c
    rw [← hpeer] at hlim
    simp only [step, hpc, nextStop, reloads, ite_true]
    refine ⟨hge, hle, by simp, ?_, ⟨?_, hlim, hc.1, hc.2⟩, ?_, hgran⟩
    · intro ht
      refine ⟨(hflag ht).1, ?_⟩
      have hp := (hflag ht).2
      simp only
      split
      · rfl
      · exact hp
    · exact hrewind ▸ cursorAt_mod hn
    · exact hrewind ▸ Nat.mod_lt _ hn
  case storeOwn =>
    simp only [AtPc, hpc] at hat
    obtain ⟨hflag, hloc, hpos, hgran⟩ := hat
    simp only [step, hpc, nextStop, reloads, Bool.false_eq_true, ite_false]
    exact ⟨hge, hle, by simp, hflag, ⟨hloc.1, hloc.2, hloc.3, hloc.4⟩, hpos, hgran⟩
  case lastCheck =>
    simp only [AtPc, hpc] at hat
    obtain ⟨hloc, hpos⟩ := hat
    simp only [step, hpc, nextStop, reloads, Bool.false_eq_true, ite_false]
    cases hasFlag (s.flags m.peer) .sleeping
    · exact ⟨hge, hle, by simp, ⟨hloc.1, hloc.2, hloc.3, hloc.4⟩, hpos⟩
    · exact ⟨hge, hle, by simp, ⟨hloc.1, hloc.2, hloc.3, hloc.4⟩, hpos⟩
  case lastSignal =>
    simp only [AtPc, hpc] at hat
    obtain ⟨hloc, hpos⟩ := hat
    simp only [step, hpc, nextStop, reloads, Bool.false_eq_true, ite_false]
    exact ⟨hge, hle, by simp, ⟨hloc.1, hloc.2, hloc.3, hloc.4⟩, hpos⟩
  case done =>
    simp only [step, hpc, nextStop, reloads, Bool.false_eq_true, ite_false]
    exact ⟨hge, hle, by simp [hpc], hat⟩

/-- One step of the loop keeps the invariant. The own index must hold the count when it is
loaded, and the index of the peer must be the slot of a count that leaves the limit less
than one round ahead. -/
theorem Sound.step (h : Sound g m count stop t)
    (hown : t.pc = .loadRead ∨ t.pc = .loadWrite → s.index m = count % g.bufferSize)
    (hpeer : s.index m.peer = c % g.bufferSize)
    (hc : count ≤ bound g m c ∧ bound g m c < count + g.bufferSize) :
    Sound g m (count + t.copies) (t.nextStop g m c stop) (t.step g m s) := by
  by_cases hload : t.pc = .loadRead ∨ t.pc = .loadWrite
  · have hzero : t.copies = 0 := by rcases hload with hpc | hpc <;> simp [copies, hpc]
    rw [hzero, Nat.add_zero]
    exact h.step_load hload (hown hload) hpeer hc
  by_cases hpc : t.pc = .align ∨ t.pc = .words ∨ t.pc = .bytes
  · have hkeep : t.nextStop g m c stop = stop := by
      rcases hpc with hpc | hpc | hpc <;> simp [nextStop, reloads, hpc]
    rw [hkeep]
    by_cases hcopy : t.copies = 0
    · rw [hcopy, Nat.add_zero]
      exact h.step_copied hcopy hpc
    · exact h.step_copy hcopy
  · push Not at hload hpc
    have hzero : t.copies = 0 := by
      cases he : t.pc <;> simp_all [copies]
    rw [hzero, Nat.add_zero]
    exact h.step_round hpeer hc hload hpc

/-- The index loads are the first two steps of the loop. -/
theorem loadRead_of_step
    (h : (t.step g m s).pc = .loadRead ∨ (t.step g m s).pc = .loadWrite) : t.pc = .loadRead := by
  cases hpc : t.pc
  case loadRead => rfl
  case loop =>
    rcases enter_pc (g := g) (m := m) (t := t) with he | he | he <;>
      simp only [step, hpc] at h <;> split at h <;> simp [he] at h
  all_goals
    simp only [step, hpc] at h
    (repeat' split at h) <;> simp_all

/-- The loop has moved something, or there is something to move and it will. -/
def Underway (g : Geometry) (m : Mod) (count : Nat) (t : Transfer) : Prop :=
  t.current = t.userBuf →
    match t.pc with
    | .loadRead => t.userBuf < t.usrMax
    | .loadWrite => t.userBuf < t.usrMax ∧ (m = .write → t.limit ≠ count % g.bufferSize)
    | .loadFlags | .loop => t.userBuf < t.usrMax ∧ t.pos ≠ t.limit
    | .align | .words => t.current < t.minMax64
    | .bytes => t.current < t.minMax
    | _ => False

/-- A loop on a user buffer that is not empty will move something. -/
theorem underway_start (g : Geometry) (m : Mod) (count : Nat) {buf nbytes : Nat}
    (h : 0 < nbytes) : Underway g m count (start buf nbytes) :=
  fun _ => Nat.lt_add_of_pos_right h

/-- A loop that is done has moved something. -/
theorem Underway.moved (h : Underway g m count t) (hpc : t.pc = .done)
    (hge : t.userBuf ≤ t.current) : t.userBuf < t.current := by
  have hne : t.current ≠ t.userBuf := fun heq => by simpa [hpc] using h heq
  omega

/-- Once something has moved the loop is underway for good. -/
private theorem underway_of_lt (h : t.userBuf < t.current) : Underway g m count t :=
  fun heq => absurd heq (Nat.ne_of_gt h)

/-- The boundaries of the user buffer never change. -/
theorem step_user : (t.step g m s).userBuf = t.userBuf ∧ (t.step g m s).usrMax = t.usrMax := by
  cases hpc : t.pc <;> cases m <;> simp only [step, hpc] <;> (repeat' split) <;> simp

/-- Copies move the cursor in the user buffer, nothing else does. -/
theorem step_current : (t.step g m s).current = t.current + t.copies := by
  by_cases hcopy : t.copies = 0
  · rw [hcopy, Nat.add_zero]
    cases hpc : t.pc <;> cases m <;> simp only [copies, hpc] at hcopy <;>
      simp only [step, hpc] <;> (repeat' split) <;> simp_all
  · rw [step_of_copies hcopy, advance_current]

/-- A copy with a word or a byte left to move. -/
def Busy (t : Transfer) : Prop :=
  match t.pc with
  | .align | .words => t.current < t.minMax64
  | .bytes => t.current < t.minMax
  | _ => False

/-- A round that is entered with something to move moves something. -/
theorem busy_enter (h : AtPc g m count stop t) (hpc : t.pc = .loop)
    (hcur : t.current < t.usrMax) (hne : t.pos ≠ t.limit) : (t.enter g m).Busy := by
  simp only [AtPc, hpc] at h
  obtain ⟨-, -, hpos, hgran⟩ := h
  have hring : t.current < t.circMax g := by
    simp only [circMax, straight]
    split <;> omega
  have hnear : t.current < t.nearMax g := by
    have hinner : t.current < t.innerMax g := lt_min hring hcur
    unfold nearMax
    by_cases hg : t.granMax < t.innerMax g
    · rwa [if_pos hg]
    · rwa [if_neg hg]
  unfold enter
  by_cases hfast : (t.isAligned ∨ t.current % 8 = g.ringAddr m t.pos % 8) ∧
      24 < t.nearMax g - t.current
  · have hwords : t.current < t.nearMax g / 8 * 8 := by omega
    rw [if_pos hfast]
    by_cases hflag : t.isAligned = true
    · rw [if_pos hflag]
      exact hwords
    · rw [if_neg hflag]
      exact hwords
  · rw [if_neg hfast]
    exact hnear

/-- The first round of a loop with something to move moves something. -/
private theorem underway_enter (h : AtPc g m count stop t) (hpc : t.pc = .loop)
    (hcur : t.current < t.usrMax) (hne : t.pos ≠ t.limit) : Underway g m c (t.enter g m) := by
  intro _
  have hbusy := busy_enter h hpc hcur hne
  rcases enter_pc (g := g) (m := m) (t := t) with he | he | he <;>
    simpa only [Busy, he] using hbusy

/-- One step of the loop, the own index holding the count and the peer leaving something to
move when the indices are loaded. -/
theorem Underway.step (hu : Underway g m count t) (h : Sound g m count stop t)
    (hown : t.pc = .loadRead ∨ t.pc = .loadWrite → s.index m = count % g.bufferSize)
    (hpeer : s.index m.peer = c % g.bufferSize)
    (hc : bound g m c < count + g.bufferSize)
    (hready : t.pc = .loadRead ∨ t.pc = .loadWrite → count < bound g m c) :
    Underway g m (count + t.copies) (t.step g m s) := by
  have hbuf := (step_user (g := g) (m := m) (s := s) (t := t)).1
  have hstep := step_current (g := g) (m := m) (s := s) (t := t)
  have hge := h.ge
  by_cases hcur : t.current = t.userBuf
  swap
  · exact underway_of_lt (by omega)
  by_cases hcopy : t.copies = 0
  swap
  · rw [step_of_copies hcopy]
    apply underway_of_lt
    rw [advance_userBuf, advance_current]
    omega
  rw [hcopy, Nat.add_zero]
  have hat := h.atPc
  have hlim := peerLimit_mod g m c
  rw [← hpeer] at hlim
  have hne : t.pc = .loadRead ∨ t.pc = .loadWrite →
      count % g.bufferSize ≠ bound g m c % g.bufferSize := by
    intro hpc heq
    have hlt := hready hpc
    rw [mod_eq_mod_iff hlt.le hc] at heq
    omega
  have hu' := hu hcur
  cases hpc : t.pc <;> simp only [hpc] at hu' <;> simp only [copies, hpc] at hcopy
  case loadRead =>
    intro _
    cases m with
    | read => simpa [Transfer.step, hpc] using hu'
    | write =>
      have hload := hne (.inl hpc)
      simp only [Transfer.step, hpc, Shared.index, Mod.peer] at hlim ⊢
      exact ⟨hu', fun _ => hlim ▸ hload.symm⟩
  case loadWrite =>
    intro _
    have hload := hne (.inr hpc)
    simp only [AtPc, hpc] at hat
    cases m with
    | read =>
      simp only [Transfer.step, hpc, Shared.index, Mod.peer] at hlim ⊢
      exact ⟨hu'.1, by rw [hat.2, hlim]; exact hload⟩
    | write =>
      have hpos := hown (.inr hpc)
      simp only [Transfer.step, hpc, Shared.index] at hpos ⊢
      exact ⟨hu'.1, by rw [hpos]; exact (hu'.2 rfl).symm⟩
  case loadFlags =>
    intro _
    simp only [Transfer.step, hpc]
    exact hu'
  case loop =>
    have hlt : t.current < t.usrMax := by omega
    have hgo : t.pos ≠ t.limit ∧ t.current ≠ t.usrMax := ⟨hu'.2, by omega⟩
    simp only [Transfer.step, hpc, if_pos hgo]
    exact underway_enter hat hpc hlt hu'.2
  case align =>
    intro _
    by_cases hstop : t.current % 8 ≠ 0
    · simp [hstop] at hcopy
    · simp only [Transfer.step, hpc, if_neg hstop]
      exact hu'
  case words =>
    have hgo : t.current ≠ t.minMax64 := by omega
    simp [hgo] at hcopy
  case bytes =>
    have hgo : t.current ≠ t.minMax := by omega
    simp [hgo] at hcopy

end Transfer

end XenShm.Pipe
