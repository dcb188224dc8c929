import XenShm.Pipe.System
import XenShm.Pipe.TransferSound

/-!
# Stream integrity

The invariant ties the shared words to the history of the stream: each index is the
slot of the number of bytes its end has shown, every byte the writer has copied and
the reader has not released sits in its own slot, and the reader has received the
stream in order. Each end keeps its part with a stale idea of the other end, since
what the other end has shown only grows.
-/

namespace XenShm.Pipe

open XenShm.Library

/-- The points of the loop at which the stored index covers everything moved. -/
def Transfer.Synced (t : Transfer) : Prop :=
  match t.pc with
  | .align | .words | .bytes | .check | .checkSignal | .loadPeer | .storeOwn => False
  | _ => True

/-- A round of the loop ends with the store of the own index. -/
theorem Transfer.synced_step {g : Geometry} {m : Mod} {s : Shared} {t : Transfer}
    (h : (t.step g m s).Synced) : t.pc = .storeOwn ∨ t.Synced ∧ t.copies = 0 := by
  cases hpc : t.pc
  case storeOwn => exact .inl rfl
  case loadRead | loadWrite | loadFlags | loop | lastCheck | lastSignal | done =>
    exact .inr ⟨by simp [Synced, hpc], by simp [copies, hpc]⟩
  case align | words | bytes =>
    simp only [step, hpc] at h
    (repeat' split at h) <;> simp_all [Synced]
  case check =>
    simp only [step, hpc] at h
    split at h
    · cases hf : hasFlag (s.flags m.peer) .sleeping <;> simp [Synced, hf] at h
    · simp [Synced] at h
  case checkSignal | loadPeer => simp [step, hpc, Synced] at h

/-- What one end keeps: `count` bytes moved, `own` of them shown, the peer having shown `other`. -/
structure EndKept (g : Geometry) (m : Mod) (p : Proc) (count own other : Nat) : Prop where
  /-- The copying loop stops at or before what the peer has shown. -/
  loop : p.pc = .avail → ∃ stop, stop ≤ bound g m other ∧ Transfer.Sound g m count stop p.xfer
  /-- Outside a round of the loop everything moved is shown. -/
  synced : (p.pc = .avail → p.xfer.Synced) → own = count

/-- What the peer has shown may grow at any time. -/
theorem EndKept.mono {g : Geometry} {m : Mod} {p : Proc} {count own other other' : Nat}
    (h : EndKept g m p count own other) (hle : other ≤ other') :
    EndKept g m p count own other' := by
  refine ⟨fun hpc => ?_, h.synced⟩
  obtain ⟨stop, hstop, hs⟩ := h.loop hpc
  exact ⟨stop, hstop.trans (bound_mono g m hle), hs⟩

/-- What a step of one end does to its part of the stream. -/
structure EndStep (g : Geometry) (m : Mod) (p p' : Proc) (s s' : Shared)
    (count own other : Nat) : Prop where
  /-- The end keeps its own part of the invariant. -/
  kept : EndKept g m p' (count + p.copies) (if p.publishes then count else own) other
  /-- The step does not move past what the peer has shown. -/
  fits : count + p.copies ≤ bound g m other
  /-- The stored index is the slot of the shown count. -/
  index : s'.index m = (if p.publishes then count else own) % g.bufferSize
  /-- The index of the peer stays where it was. -/
  peer : s'.index m.peer = s.index m.peer
  /-- Bytes are moved through a straight run of slots that starts at the count. -/
  run : p.copies ≠ 0 → CursorAt g.bufferSize p.xfer.pos count ∧
    p.xfer.pos + p.copies ≤ g.bufferSize
  /-- The ring gets what the step has copied into it. -/
  buffer : s'.buffer = p.ringAfter m s

section EndStep

variable {g : Geometry} {m : Mod} {i : Input} {p p' : Proc} {s s' : Shared} {count own other : Nat}

/-- Outside the copying loop nothing is copied. -/
private theorem Proc.copies_of_quiet (hpc : p.pc ≠ .avail) : p.copies = 0 := by
  simp [Proc.copies, hpc]

/-- Outside the copying loop nothing is added to the stream. -/
private theorem Proc.moved_of_quiet (hpc : p.pc ≠ .avail) : p.moved m s = [] := by
  simp [Proc.moved, hpc]

/-- Outside the copying loop no index is stored. -/
private theorem Proc.publishes_of_quiet (hpc : p.pc ≠ .avail) : p.publishes = false := by
  simp [Proc.publishes, hpc]

/-- A step outside the copying loop keeps the part of the end. -/
private theorem EndKept.step_quiet (h : EndKept g m p count own other) (hpc : p.pc ≠ .avail)
    (hs : p.step g m i s = some (p', s')) (hown : s.index m = own % g.bufferSize)
    (hwin : count ≤ bound g m other ∧ bound g m other < count + g.bufferSize) :
    EndStep g m p p' s s' count own other := by
  have hq := Proc.step_quiet hpc hs
  have hsync : own = count := h.synced fun hp => absurd hp hpc
  rw [← hsync] at hwin ⊢
  refine ⟨⟨fun hp => ?_, fun _ => ?_⟩, ?_, ?_, ?_, ?_, ?_⟩
  · rw [hq.enter hp]
    exact ⟨bound g m other, le_rfl, Transfer.sound_start ..⟩
  · simp [Proc.copies_of_quiet hpc]
  · simpa [Proc.copies_of_quiet hpc] using hwin.1
  · rw [Proc.publishes_of_quiet hpc, if_neg Bool.false_ne_true, ← hown]
    cases m
    · exact hq.write
    · exact hq.read
  · cases m
    · exact hq.read
    · exact hq.write
  · simp [Proc.copies_of_quiet hpc]
  · rw [hq.buffer]
    cases m <;> simp [Proc.ringAfter, Proc.moved_of_quiet hpc]

/-- A step inside the copying loop keeps the part of the end. -/
private theorem EndKept.step_looped (h : EndKept g m p count own other) (hpc : p.pc = .avail)
    (hs : p.step g m i s = some (p', s')) (hown : s.index m = own % g.bufferSize)
    (hother : s.index m.peer = other % g.bufferSize)
    (hwin : count ≤ bound g m other ∧ bound g m other < count + g.bufferSize) :
    EndStep g m p p' s s' count own other := by
  have hl := Proc.step_looped hpc hs
  obtain ⟨stop, hstop, hsound⟩ := h.loop hpc
  have hcopies : p.copies = p.xfer.copies := by simp [Proc.copies, hpc]
  have hload : p.xfer.pc = .loadRead ∨ p.xfer.pc = .loadWrite →
      s.index m = count % g.bufferSize := by
    intro hp
    rw [hown, h.synced fun _ => by rcases hp with hp | hp <;> simp [Transfer.Synced, hp]]
  have hnext := hsound.step hload hother hwin
  have hfits : count + p.xfer.copies ≤ bound g m other := by
    by_cases hz : p.xfer.copies = 0
    · omega
    · obtain ⟨_, hspan, hle⟩ := hsound.copies_fit hz
      have := hspan.stop
      omega
  refine ⟨⟨fun hp => ?_, fun hsync => ?_⟩, ?_, ?_, hl.peer, fun hz => ?_, hl.buffer⟩
  · rcases hl.next with ⟨_, _, hx⟩ | ⟨_, hx, _⟩
    · rw [hx, hcopies]
      refine ⟨_, ?_, hnext⟩
      unfold Transfer.nextStop
      split
      · exact le_rfl
      · exact hstop
    · simp [hx] at hp
  · rcases hl.next with ⟨_, hp, hx⟩ | ⟨hdone, _, _⟩
    · rcases Transfer.synced_step (hx ▸ hsync hp) with hst | ⟨hs', hz⟩
      · simp [Proc.publishes, hpc, hst, hcopies, Transfer.copies]
      · have hpub : p.publishes = false := by
          by_contra hb
          have hst : p.xfer.pc = .storeOwn := by simpa [Proc.publishes, hpc] using hb
          simp [Transfer.Synced, hst] at hs'
        rw [hpub, if_neg Bool.false_ne_true, hcopies, hz, Nat.add_zero]
        exact h.synced fun _ => hs'
    · have hz : p.xfer.copies = 0 := by simp [Transfer.copies, hdone]
      have hpub : p.publishes = false := by simp [Proc.publishes, hdone]
      rw [hpub, if_neg Bool.false_ne_true, hcopies, hz, Nat.add_zero]
      exact h.synced fun _ => by simp [Transfer.Synced, hdone]
  · rw [hcopies]
    exact hfits
  · rw [hl.own]
    split
    · rename_i hpub
      have hst : p.xfer.pc = .storeOwn := by simpa [Proc.publishes, hpc] using hpub
      have hat := hsound.atPc
      simp only [Transfer.AtPc, hst] at hat
      exact hat.2.1.cursor.eq_mod hat.2.2.1
    · exact hown
  · rw [hcopies] at hz ⊢
    obtain ⟨hloc, hspan, hle⟩ := hsound.copies_fit hz
    have := hspan.ring
    exact ⟨hloc.cursor, by omega⟩

/-- Every step of one end keeps its part, whatever the peer has shown. -/
theorem EndKept.step (h : EndKept g m p count own other) (hs : p.step g m i s = some (p', s'))
    (hown : s.index m = own % g.bufferSize) (hother : s.index m.peer = other % g.bufferSize)
    (hwin : count ≤ bound g m other ∧ bound g m other < count + g.bufferSize) :
    EndStep g m p p' s s' count own other := by
  by_cases hpc : p.pc = .avail
  · exact h.step_looped hpc hs hown hother hwin
  · exact h.step_quiet hpc hs hown hwin

@[simp] theorem Proc.length_moved : (p.moved m s).length = p.copies := by
  unfold Proc.moved Proc.copies
  split <;> simp

end EndStep

/-- The invariant of the whole pipe, with the streams that only the proofs know. -/
structure Kept (g : Geometry) (s : System) : Prop where
  /-- The write index shows how many bytes were published. -/
  write : s.shared.write = s.published % g.bufferSize
  /-- The read index shows how many bytes were released. -/
  read : s.shared.read = s.released % g.bufferSize
  /-- Only bytes already handed over are released. -/
  released_le : s.released ≤ s.handed.length
  /-- Only published bytes are handed over. -/
  handed_le : s.handed.length ≤ s.published
  /-- Only copied bytes are published. -/
  published_le : s.published ≤ s.copied.length
  /-- One slot of the ring stays free. -/
  room : s.copied.length ≤ s.released + (g.bufferSize - 1)
  /-- Every unreleased byte is in its slot. -/
  stored : Stored g.bufferSize s.shared.buffer s.copied s.released s.copied.length
  /-- The reader has the stream from its beginning. -/
  handed : s.handed = s.copied.take s.handed.length
  /-- The part of the reader holds. -/
  reader : EndKept g .read s.reader s.handed.length s.released s.published
  /-- The part of the writer holds. -/
  writer : EndKept g .write s.writer s.copied.length s.published s.released

section Kept

variable {g : Geometry} {s t : System} {i : Input}

/-- A pipe that was just offered has nothing in its ring. -/
theorem kept_offered (g : Geometry) (conv : Conv) (buffer memReader memWriter : Nat → UInt8) :
    Kept g (.offered conv buffer memReader memWriter) := by
  have hend : ∀ (m : Mod) (pc : Pc) (mem : Nat → UInt8), pc ≠ .avail →
      EndKept g m (.init pc true mem) 0 0 0 :=
    fun m pc mem hpc => ⟨fun h => absurd h hpc, fun _ => rfl⟩
  refine ⟨?_, ?_, le_rfl, le_rfl, le_rfl, Nat.zero_le _, ?_, rfl, ?_, ?_⟩
  · cases conv <;> simp [System.offered, Shared.offered, Shared.setFlags]
  · cases conv <;> simp [System.offered, Shared.offered, Shared.setFlags]
  · intro k _ hk
    exact absurd hk (Nat.not_lt_zero k)
  · cases conv <;> exact hend _ _ _ (by decide)
  · cases conv <;> exact hend _ _ _ (by decide)

/-- A step of the reader keeps the invariant of the pipe. -/
private theorem Kept.step_read (h : Kept g s) (hs : s.step g (.read, i) = some t) : Kept g t := by
  obtain ⟨p, sh, hp, rfl⟩ := System.step_eq_some hs
  have hb := g.bufferSize_ge
  have hr := h.released_le
  have hpub := h.published_le
  have hroom := h.room
  have e := h.reader.step hp h.read h.write ⟨h.handed_le, by simp only [bound]; omega⟩
  have hfits : s.handed.length + s.reader.copies ≤ s.published := e.fits
  have hshown : s.released ≤ if s.reader.publishes then s.handed.length else s.released := by
    split <;> omega
  refine ⟨?_, ?_, ?_, ?_, hpub, ?_, ?_, ?_, ?_, ?_⟩ <;>
    simp only [System.record, List.length_append, Proc.length_moved]
  · exact e.peer.trans h.write
  · exact e.index
  · split <;> omega
  · exact hfits
  · omega
  · rw [e.buffer]
    exact h.stored.mono hshown le_rfl
  · by_cases hz : s.reader.copies = 0
    · have hnil : s.reader.moved .read s.shared = [] :=
        List.length_eq_zero_iff.mp (Proc.length_moved.trans hz)
      simpa [hnil, hz] using h.handed
    · obtain ⟨hcur, hring⟩ := e.run hz
      have hseg := h.stored.segment (c := s.handed.length) (k := s.reader.copies)
        hr (by omega) hcur hring
      have hpc : s.reader.pc = .avail := by
        by_contra hne
        exact hz (by simp [Proc.copies, hne])
      rw [← hseg, ← h.handed]
      simp [Proc.moved, Transfer.moved, Proc.copies, hpc]
  · exact e.kept
  · exact h.writer.mono hshown

/-- A step of the writer keeps the invariant of the pipe. -/
private theorem Kept.step_write (h : Kept g s) (hs : s.step g (.write, i) = some t) : Kept g t := by
  obtain ⟨p, sh, hp, rfl⟩ := System.step_eq_some hs
  have hb := g.bufferSize_ge
  have hr := h.released_le
  have hh := h.handed_le
  have hpub := h.published_le
  have e := h.writer.step hp h.write h.read ⟨h.room, by simp only [bound]; omega⟩
  have hfits : s.copied.length + s.writer.copies ≤ s.released + (g.bufferSize - 1) := e.fits
  have hshown : s.published ≤ if s.writer.publishes then s.copied.length else s.published := by
    split <;> omega
  refine ⟨?_, ?_, hr, ?_, ?_, ?_, ?_, ?_, ?_, ?_⟩ <;>
    simp only [System.record, List.length_append, Proc.length_moved]
  · exact e.index
  · exact e.peer.trans h.read
  · omega
  · split <;> omega
  · exact hfits
  · rw [e.buffer]
    by_cases hz : s.writer.copies = 0
    · have hnil : s.writer.moved .write s.shared = [] :=
        List.length_eq_zero_iff.mp (Proc.length_moved.trans hz)
      simpa [Proc.ringAfter, hnil, hz] using h.stored
    · obtain ⟨hcur, hring⟩ := e.run hz
      have happ := h.stored.append (s.writer.moved .write s.shared) hcur
        (by rwa [Proc.length_moved]) (by rw [Proc.length_moved]; omega)
      rwa [Proc.length_moved] at happ
  · rw [List.take_append_of_le_length (by omega)]
    exact h.handed
  · exact h.reader.mono hshown
  · exact e.kept

/-- A step of either end keeps the invariant of the pipe. -/
theorem Kept.step (h : Kept g s) {x : Mod × Input} (hs : s.step g x = some t) : Kept g t := by
  obtain ⟨m, i⟩ := x
  cases m
  · exact h.step_write hs
  · exact h.step_read hs

/-- The invariant of the pipe holds in every interleaving of the two ends. -/
theorem kept_of_reachable (h : System.Reachable g s) : Kept g s := by
  obtain ⟨conv, buffer, memReader, memWriter, hr⟩ := h
  exact hr.invariant (kept_offered g conv buffer memReader memWriter) fun _ _ _ hk _ hs =>
    hk.step hs

end Kept

section StreamIntegrity

variable {g : Geometry} {s t : System}

end StreamIntegrity

end XenShm.Pipe
