import XenShm.Ping.Ends

/-!
# An end and its thread

What an end does follows from what its thread has asked it for, and the stream counts the
packets of the calls that have returned. A pipe carries the packets of both threads as long as
its writer has room for what it writes.
-/

namespace XenShm.Ping

open XenShm.Library XenShm.Pipe

/-- What a thread has asked an end for. -/
inductive Duty where
  | none
  | transfer
  | flush
  deriving DecidableEq, Repr

/-- What a call of the library asks of the end it is made on. -/
def LibCall.duty : LibCall → Duty
  | .writeAll _ | .readAll _ => .transfer
  | .flush _ => .flush

/-- How an end with `n` packets behind it stands with its duty. -/
inductive Attends (g : Geometry) (c : Connection) (b : Book) (m : Mod) (n : Nat) : Duty → Prop where
  /-- The end has no duty, and `n` packets have passed through it. -/
  | resting
      (pc : (c.sys.proc m).pc = .openLoad ∨ (c.sys.proc m).pc = .openStore ∨
        (c.sys.proc m).pc = .idle)
      (stream : (c.sys.stream m).length = n * pingPacketSize) : Attends g c b m n .none
  /-- The end moves the packet behind the first `n`. -/
  | moving (busy : (c.sys.proc m).busy = true) (all : (c.sys.proc m).all = true)
      (asked : b.asked = pingPacketSize) (opened : b.opened.length = n * pingPacketSize)
      (shown : n * pingPacketSize ≤ c.sys.shown m) : Attends g c b m n .transfer
  /-- The end has moved that packet, and the call is about to return. -/
  | moved (pc : (c.sys.proc m).pc = .idle)
      (stream : (c.sys.stream m).length = (n + 1) * pingPacketSize) : Attends g c b m n .transfer
  /-- The end flushes what it has shown. -/
  | flushing (pc : (c.sys.proc m).pc = .flushTest ∨ (c.sys.proc m).pc = .flushSignal)
      (stream : (c.sys.stream m).length = n * pingPacketSize)
      (called : c.called m = bound g m.peer (c.sys.shown m)) : Attends g c b m n .flush
  /-- The end has flushed, and the call is about to return. -/
  | flushed (pc : (c.sys.proc m).pc = .idle)
      (stream : (c.sys.stream m).length = n * pingPacketSize)
      (flushed : c.flushed m.peer = bound g m.peer (c.sys.shown m)) : Attends g c b m n .flush

section Attends

variable {g : Geometry} {c d : Connection} {b : Book} {m : Mod} {n : Nat} {duty : Duty}
  {i : Pipe.Input}

/-- A step that does not concern the end. -/
theorem Attends.congr (h : Attends g c b m n duty) (hproc : d.sys.proc m = c.sys.proc m)
    (hstream : d.sys.stream m = c.sys.stream m) (hshown : d.sys.shown m = c.sys.shown m)
    (hcalled : d.called m = c.called m) (hflushed : d.flushed m.peer = c.flushed m.peer) :
    Attends g d b m n duty := by
  cases h with
  | resting hpc hmoved => exact .resting (by rwa [hproc]) (by rwa [hstream])
  | moving hbusy hall hasked hopened hle =>
    exact .moving (by rwa [hproc]) (by rwa [hproc]) hasked hopened (by rwa [hshown])
  | moved hpc hmoved => exact .moved (by rwa [hproc]) (by rwa [hstream])
  | flushing hpc hmoved hcall =>
    exact .flushing (by rwa [hproc]) (by rwa [hstream]) (by rwa [hcalled, hshown])
  | flushed hpc hmoved hflush =>
    exact .flushed (by rwa [hproc]) (by rwa [hstream]) (by rwa [hflushed, hshown])

/-- A process that is in a read or write has a packet to move. -/
theorem Attends.of_busy (h : Attends g c b m n duty) (hbusy : (c.sys.proc m).busy = true) :
    duty = .transfer ∧ b.asked = pingPacketSize ∧ b.opened.length = n * pingPacketSize := by
  cases h with
  | moving _ _ hasked hopened => exact ⟨rfl, hasked, hopened⟩
  | resting hpc => rcases hpc with hpc | hpc | hpc <;> simp [Proc.busy, hpc] at hbusy
  | flushing hpc => rcases hpc with hpc | hpc <;> simp [Proc.busy, hpc] at hbusy
  | moved hpc | flushed hpc => simp [Proc.busy, hpc] at hbusy

/-- A process that is in a flush was asked for it. -/
theorem Attends.of_flushSignal (h : Attends g c b m n duty)
    (hpc : (c.sys.proc m).pc = .flushSignal) : duty = .flush := by
  cases h with
  | moving hbusy => simp [Proc.busy, hpc] at hbusy
  | resting h => simp [hpc] at h
  | moved h => simp [hpc] at h
  | flushing | flushed => rfl

/-- The part of a call that has been done. -/
theorem length_begun {p : Proc} {stream : List UInt8} {ready : Prop}
    (h : Balanced m p b stream ready) : b.begun.length + p.nbytes = b.opened.length + b.asked := by
  have hasked := h.asked
  rw [h.begun, List.length_append, length_segment]
  omega

/-- A call moves no more than it was asked for. -/
theorem length_le_asked {p : Proc} {stream : List UInt8} {ready : Prop}
    (h : Balanced m p b stream ready)
    (hloop : p.pc = .avail → p.xfer.current ≤ p.xfer.usrMax) :
    stream.length ≤ b.opened.length + b.asked := by
  have hbegun := length_begun h
  have hcounts := h.counts
  cases hpc : p.pc <;> simp only [Proc.Counts, hpc] at hcounts
  case avail =>
    obtain ⟨hbuf, hmax, hstream, -⟩ := hcounts
    have hle := hloop hpc
    rw [hstream, List.length_append, length_segment]
    omega
  case inactiveLoad | inactiveStore | ret =>
    obtain ⟨hvalue, hstream⟩ := hcounts
    rw [hstream, List.length_append, length_segment]
    rcases hvalue with hv | ⟨-, hv⟩ | hv <;> omega
  case unwaitLoad | unwaitStore =>
    rw [hcounts.1]
    omega
  all_goals
    rw [hcounts]
    omega

/-- The stream behind the index lies between two packets. -/
theorem Attends.stream_le {book : Mod → Book} (h : Attends g c (book m) m n duty)
    (hsound : Ledger.Sound g ⟨c.sys, book⟩) :
    (c.sys.stream m).length ≤ (if duty = .transfer then n + 1 else n) * pingPacketSize := by
  cases h with
  | moving hbusy hall hasked hopened hle =>
    have hbal : Balanced m (c.sys.proc m) (book m) (c.sys.stream m) (c.sys.Ready g m) :=
      hsound.balanced m hbusy (by rw [hasked]; decide)
    have hlen := length_le_asked hbal fun hpc => by
      obtain ⟨_, _, hx⟩ := (hsound.kept.ends m).loop hpc
      exact hx.le
    rw [if_pos rfl, Nat.succ_mul]
    omega
  | moved _ hmoved => exact hmoved.le
  | resting _ hmoved | flushing _ hmoved _ | flushed _ hmoved _ => exact hmoved.le

/-- Outside the copying loop the index covers the stream. -/
theorem shown_eq {sys : System} (hkept : Kept g sys) (hpc : (sys.proc m).pc ≠ .avail) :
    sys.shown m = (sys.stream m).length :=
  (hkept.ends m).synced fun h => absurd h hpc

/-- The index covers the packets of the calls that have returned. -/
theorem Attends.le_shown (h : Attends g c b m n duty) (hkept : Kept g c.sys) :
    n * pingPacketSize ≤ c.sys.shown m := by
  have hshown := shown_eq (m := m) hkept
  cases h with
  | moving _ _ _ _ hle => exact hle
  | resting hpc hmoved =>
    rw [hshown (by rcases hpc with hpc | hpc | hpc <;> simp [hpc]), hmoved]
  | flushing hpc hmoved =>
    rw [hshown (by rcases hpc with hpc | hpc <;> simp [hpc]), hmoved]
  | moved hpc hmoved =>
    rw [hshown (by simp [hpc]), hmoved]
    exact Nat.mul_le_mul_right _ (Nat.le_succ n)
  | flushed hpc hmoved => rw [hshown (by simp [hpc]), hmoved]

/-- An idle process neither steps nor returns from an `ioctl`. -/
private theorem step_idle {p p' : Proc} {s s' : Pipe.Shared} (hpc : p.pc = .idle)
    (hi : i = .tick ∨ i = .ioctl .ok) (h : p.step g m i s = some (p', s')) : False := by
  rcases hi with rfl | rfl
  · cases m <;> simp [Proc.step, Proc.tick, hpc, Proc.waitReader, Proc.waitWriter] at h
  · simp [Proc.step, Proc.ioctlReturn, hpc] at h

/-- A step outside the copying loop moves nothing. -/
private theorem stream_step_eq {s t : System} (hs : s.step g (m, i) = some t)
    (hpc : (s.proc m).pc ≠ .avail) : t.stream m = s.stream m := by
  rw [System.stream_step hs, Proc.moved, if_neg hpc, List.append_nil]

/-- The return of a read or write that has moved something. -/
private theorem Attends.returned {book : Mod → Book} (hsound : Ledger.Sound g ⟨c.sys, book⟩)
    (hunbroken : (c.sys.proc m).Unbroken) (hpc : (c.sys.proc m).pc = .ret)
    (hall : (c.sys.proc m).all = true) (hasked : (book m).asked = pingPacketSize)
    (hopened : (book m).opened.length = n * pingPacketSize)
    (hshown : n * pingPacketSize ≤ c.sys.shown m)
    (hs : c.sys.step g (m, .tick) = some d.sys) :
    Attends g d ((book m).after (c.sys.proc m) (c.sys.stream m) .tick) m n .transfer := by
  have hbal : Balanced m (c.sys.proc m) (book m) (c.sys.stream m) (c.sys.Ready g m) :=
    hsound.balanced m (by simp [Proc.busy, hpc]) (by rw [hasked]; decide)
  have hvalue := hunbroken.value (by simp [Proc.leaving, hpc])
  have hstream := stream_step_eq hs (by simp [hpc])
  obtain ⟨-, hp, -⟩ := Proc.step_ret hpc (System.step_proc hs)
  simp only [Book.after, if_pos hpc]
  cases (c.sys.proc m).returns m with
  | plain hplain => simp [hall] at hplain
  | failed _ hle => omega
  | complete _ _ hrest hnext =>
    refine .moved (by rw [hp, hnext]; rfl) ?_
    have hbegun := length_begun hbal
    have hcounts := hbal.counts
    simp only [Proc.Counts, hpc] at hcounts
    obtain ⟨hval, hlen⟩ := hcounts
    rw [hstream, hlen, List.length_append, length_segment, Nat.succ_mul]
    rcases hval with hv | ⟨-, hv⟩ | hv <;> omega
  | again _ _ _ hnext =>
    have hbegin : ((c.sys.proc m).advanceCall (c.sys.proc m).retval.toNat).beginCall m m =
        { (c.sys.proc m).advanceCall (c.sys.proc m).retval.toNat with
          errno := none, pc := .callTest } := by
      unfold Proc.beginCall
      rw [if_neg (by simp [Proc.advanceCall, hunbroken.mapped])]
    rw [hnext, hbegin] at hp
    refine .moving (by rw [hp]; rfl) (by rw [hp]; exact hall) hasked hopened ?_
    exact hshown.trans (hsound.kept.shown_le hs m)

/-- A step of the end without a new call. -/
theorem Attends.own {book : Mod → Book} (h : Attends g c (book m) m n duty)
    (hsound : Ledger.Sound g ⟨c.sys, book⟩) (hunbroken : (c.sys.proc m).Unbroken)
    (hopen : hasFlag (c.sys.shared.flags m.peer) .closed = false)
    (hi : i = .tick ∨ i = .ioctl .ok) (hs : c.sys.step g (m, i) = some d.sys)
    (hcalled : d.called = c.called)
    (hflushed : (c.sys.proc m).pc = .flushSignal → i = .ioctl .ok →
      d.flushed m.peer = c.called m) :
    Attends g d ((book m).after (c.sys.proc m) (c.sys.stream m) i) m n duty := by
  have hstep := System.step_proc hs
  cases h with
  | moved hpc | flushed hpc => exact (step_idle hpc hi hstep).elim
  | moving hbusy hall hasked hopened hshown =>
    by_cases hpc : (c.sys.proc m).pc = .ret
    · obtain ⟨rfl, -, -⟩ := Proc.step_ret hpc hstep
      exact Attends.returned hsound hunbroken hpc hall hasked hopened hshown hs
    · have hidle : (c.sys.proc m).pc ≠ .idle := fun hidle => by simp [Proc.busy, hidle] at hbusy
      have hcont := Proc.step_continues hbusy hpc hstep
      rw [Book.after_eq hidle hpc hstep]
      exact .moving hcont.busy (hcont.all.trans hall) hasked hopened
        (hshown.trans (hsound.kept.shown_le hs m))
  | resting hpc hmoved =>
    have hstream := stream_step_eq hs (by rcases hpc with hpc | hpc | hpc <;> simp [hpc])
    rw [← hstream] at hmoved
    refine .resting ?_ hmoved
    rcases hi with rfl | rfl <;> rcases hpc with hpc | hpc | hpc
    · simp only [Proc.step, Proc.tick, hpc, Option.some.injEq, Prod.mk.injEq] at hstep
      rw [← hstep.1]
      exact .inr (.inl rfl)
    · simp only [Proc.step, Proc.tick, hpc, Option.some.injEq, Prod.mk.injEq] at hstep
      rw [← hstep.1]
      exact .inr (.inr rfl)
    · exact (step_idle hpc (.inl rfl) hstep).elim
    · simp [Proc.step, Proc.ioctlReturn, hpc] at hstep
    · simp [Proc.step, Proc.ioctlReturn, hpc] at hstep
    · exact (step_idle hpc (.inr rfl) hstep).elim
  | flushing hpc hmoved hcall =>
    have hquiet : (c.sys.proc m).pc ≠ .avail := by rcases hpc with hpc | hpc <;> simp [hpc]
    rw [← stream_step_eq hs hquiet] at hmoved
    rw [← System.shown_step hs hquiet] at hcall
    rcases hi with rfl | rfl <;> rcases hpc with hpc | hpc
    · simp only [Proc.step, Proc.tick, hpc, hopen, Bool.false_eq_true, if_false,
        Option.some.injEq, Prod.mk.injEq] at hstep
      exact .flushing (.inr (by rw [← hstep.1])) hmoved (by rwa [hcalled])
    · cases m <;> simp [Proc.step, Proc.tick, hpc, Proc.waitReader, Proc.waitWriter] at hstep
    · simp [Proc.step, Proc.ioctlReturn, hpc] at hstep
    · simp only [Proc.step, Proc.ioctlReturn, hpc, Option.map_some, Option.some.injEq,
        Prod.mk.injEq] at hstep
      exact .flushed (by rw [← hstep.1]; rfl) hmoved (by rwa [hflushed hpc rfl])

/-- When the thread asks for a packet, the end begins to move it. -/
theorem Attends.beginTransfer {addr : Nat} {mem : Nat → UInt8} (h : Attends g c b m n .none)
    (hkept : Kept g c.sys) (hmapped : (c.sys.proc m).mapped = true)
    (hs : c.sys.step g (m, .transfer m true addr pingPacketSize mem) = some d.sys) :
    Attends g d (b.after (c.sys.proc m) (c.sys.stream m)
      (.transfer m true addr pingPacketSize mem)) m n .transfer := by
  have hstep := System.step_proc hs
  simp only [Proc.step, Option.ite_none_right_eq_some] at hstep
  obtain ⟨hpc, hstep⟩ := hstep
  rw [if_neg (by decide)] at hstep
  simp only [Proc.beginCall, hmapped, not_true_eq_false, ne_eq, or_self, if_false,
    Option.some.injEq, Prod.mk.injEq] at hstep
  have hshown := System.shown_step hs (by simp [hpc])
  rw [shown_eq hkept (by simp [hpc])] at hshown
  cases h with
  | resting _ hmoved =>
    exact .moving (by rw [← hstep.1]; rfl) (by rw [← hstep.1]) rfl hmoved
      (by rw [hshown, hmoved])

/-- When the thread asks for a flush, the end begins to flush. -/
theorem Attends.beginFlush (h : Attends g c b m n .none) (hmapped : (c.sys.proc m).mapped = true)
    (hs : c.sys.step g (m, .flush) = some d.sys)
    (hcalled : d.called m = bound g m.peer (c.sys.shown m)) : Attends g d b m n .flush := by
  have hstep := System.step_proc hs
  simp only [Proc.step, Option.ite_none_right_eq_some, hmapped, if_true, Option.some.injEq,
    Prod.mk.injEq] at hstep
  obtain ⟨hpc, hstep, -⟩ := hstep
  have hshown := System.shown_step hs (by simp [hpc])
  cases h with
  | resting _ hmoved =>
    refine .flushing (.inl (by rw [← hstep])) ?_ (by rw [hcalled, hshown])
    rwa [stream_step_eq hs (by simp [hpc])]

/-- The thread takes the value of a call that has returned. -/
theorem Attends.conclude (h : Attends g c b m n duty) (hpc : (c.sys.proc m).pc = .idle) :
    Attends g c b m (if duty = .transfer then n + 1 else n) .none := by
  cases h with
  | moving hbusy => simp [Proc.busy, hpc] at hbusy
  | resting _ hmoved | moved _ hmoved | flushing _ hmoved | flushed _ hmoved =>
    exact .resting (.inr (.inr hpc)) hmoved

end Attends

end XenShm.Ping
