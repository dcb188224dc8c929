import XenShm.Pipe.Accounting

/-!
# What a call has done before it returns

The ledger tells what the calls on at least one byte have moved. For the outside view of a pipe
the other calls count as well, and the end of the stream: a read that returns 0 for
a request of some bytes has found the writer gone and the ring empty. `XSHMP_CLOSED`
may be erased, but it is never made up.
-/

namespace XenShm.Pipe

open XenShm.Library

namespace Proc

variable {g : Geometry} {m : Mod} {i : Input} {p p' : Proc} {s s' : Shared}
  {gone gone' drained drained' : Prop}

/-- What a call knows. A reader has seen `XSHMP_CLOSED` only of a writer that is `gone`, and it
ends the stream only when it is `drained`; a call on nothing moves nothing. -/
def Learns (m : Mod) (p : Proc) (gone drained : Prop) : Prop :=
  match p.pc with
  | .waitingLoad | .waitingStore | .recheck =>
    m = .read → hasFlag p.peerFlags .closed = true → gone
  | .interruptedStore => m = .read → hasFlag p.tmp .closed = true → gone
  | .avail => p.xfer.usrMax = p.xfer.userBuf + p.nbytes
  | .inactiveLoad | .inactiveStore | .ret =>
    (m = .read → p.retval = 0 → 0 < p.nbytes → gone ∧ drained) ∧
      (p.nbytes = 0 → p.retval = -1 ∨ p.retval = 0)
  | _ => True

/-- What a call has learned stays true when more is true. -/
theorem Learns.mono (h : p.Learns m gone drained) (hg : gone → gone')
    (hd : gone → drained → drained') : p.Learns m gone' drained' := by
  unfold Learns at h ⊢
  split at h
  case h_4 => exact fun hm hf => hg (h hm hf)
  case h_5 => exact h
  case h_9 => trivial
  case h_6 | h_7 | h_8 =>
    refine ⟨fun hm hr hn => ?_, h.2⟩
    obtain ⟨hgone, hdrained⟩ := h.1 hm hr hn
    exact ⟨hg hgone, hd hgone hdrained⟩
  all_goals exact fun hm hf => hg (h hm hf)

/-- A call that gives up with a failure has learned nothing. -/
private theorem learns_leaveWait (p : Proc) : (p.leaveWait (-1)).Learns m gone drained :=
  ⟨fun _ hr => by simp [leaveWait] at hr, fun _ => .inl rfl⟩

/-- A call that leaves its loop to copy has learned nothing yet. -/
private theorem learns_leaveLoop (p : Proc) : p.leaveLoop.Learns m gone drained := by
  unfold leaveLoop
  split
  · trivial
  · rfl

/-- A call that makes a further turn has learned nothing. -/
private theorem learns_turn (p : Proc) : p.turn.Learns m gone drained := by
  unfold turn
  split_ifs <;> trivial

private theorem learns_endTurn (m m' : Mod) (p : Proc) : (p.endTurn m).Learns m' gone drained := by
  cases m with
  | write => exact learns_turn p
  | read =>
    simp only [endTurn, readerTurn]
    split_ifs
    · exact learns_leaveWait p
    · exact learns_turn p

/-- A call that begins has learned nothing. -/
private theorem learns_beginCall (fn : Mod) (p : Proc) :
    (p.beginCall m fn).Learns m gone drained := by
  unfold beginCall
  split_ifs
  · exact ⟨fun _ hr => by simp at hr, fun _ => .inl rfl⟩
  · trivial

/-- A call behind its return has learned nothing. -/
private theorem learns_afterRet (p : Proc) : (p.afterRet m).Learns m gone drained := by
  unfold afterRet nextPart
  split_ifs
  · trivial
  · trivial
  · trivial
  · exact learns_beginCall m _
  · trivial

/-- What a step of the waiting loop learns is true. -/
private theorem waits_learns (hk : p.Learns m gone drained) (h : Waits g m p s p' s')
    (hgone : m = .read → hasFlag s.writerFlags .closed = true → gone)
    (hempty : m = .read → p.looping = true → p.own = s.index m.peer → gone → drained) :
    p'.Learns m gone drained := by
  cases h with
  | refused | interruptedStore => exact learns_leaveWait p
  | leaves => exact learns_leaveLoop p
  | turn => exact learns_endTurn m m p
  | loadFlags =>
    rintro rfl
    exact hgone rfl
  | waitingLoad hpc | waitingStore hpc =>
    simp only [Learns, hpc] at hk
    exact hk
  | peerClosed hpc hown hclosed =>
    simp only [Learns, hpc] at hk
    have hl : p.looping = true := by simp [looping, hpc]
    cases m with
    | write => exact learns_leaveWait p
    | read =>
      have hg := hk rfl hclosed
      exact ⟨fun _ _ _ => ⟨hg, hempty rfl hl hown hg⟩, fun _ => .inr rfl⟩
  | interruptedLoad => exact hgone
  | unwaitStore => exact rfl
  | _ => trivial

/-- What a step of the copying loop learns is true. -/
private theorem looped_learns (hpc : p.pc = .avail) (hk : p.Learns m gone drained)
    (hmoved : p.xfer.pc = .done → 0 < p.nbytes → p.xfer.userBuf < p.xfer.current)
    (hle : p.xfer.current ≤ p.xfer.usrMax) (h : p.step g m i s = some (p', s')) :
    p'.Learns m gone drained := by
  have hn := (step_continues (by simp [busy, hpc]) (by simp [hpc]) h).nbytes
  simp only [Learns, hpc] at hk
  rcases (step_looped hpc h).next with ⟨_, hpc', hx⟩ | ⟨hdone, hpc', hret⟩
  · simp only [Learns, hpc', hx, Transfer.step_user.1, Transfer.step_user.2, hn]
    exact hk
  · simp only [Learns, hpc', hret, hn]
    refine ⟨fun _ hzero hpos => ?_, fun hzero => .inr ?_⟩
    · have := hmoved hdone hpos
      omega
    · omega

/-- What a call knows after a step of its end. -/
theorem step_learns (hk : p.Learns m gone drained) (h : p.step g m i s = some (p', s'))
    (hopen : m = .read → p.gone = false → hasFlag s.readerFlags .closed = false)
    (hgone : m = .read → hasFlag s.writerFlags .closed = true → gone)
    (hempty : m = .read → p.looping = true → p.own = s.index m.peer → gone → drained)
    (hmoved : p.pc = .avail → p.xfer.pc = .done → 0 < p.nbytes → p.xfer.userBuf < p.xfer.current)
    (hle : p.pc = .avail → p.xfer.current ≤ p.xfer.usrMax) : p'.Learns m gone drained := by
  by_cases havail : p.pc = .avail
  · exact looped_learns havail hk (hmoved havail) (hle havail) h
  cases i with
  | tick =>
    simp only [step] at h
    have hwait := hk
    cases hpc : p.pc <;> simp only [tick, hpc] at h <;> simp only [Learns, hpc] at hk
    case avail => contradiction
    case callTest =>
      split at h <;> cases h
      · rename_i hclosed
        cases m with
        | write => exact ⟨fun _ hr => by simp [refuse] at hr, fun _ => .inl rfl⟩
        | read =>
          have hnot := hopen rfl (by simp [Proc.gone, hpc])
          simp [Shared.flags, hnot] at hclosed
      · trivial
    case flushTest => split at h <;> cases h <;> trivial
    case ret =>
      cases h
      exact learns_afterRet p
    case inactiveLoad | inactiveStore =>
      cases h
      exact hk
    case activeStore =>
      cases h
      cases m <;> trivial
    case openLoad | openStore | activeLoad | freeLoad | freeStore | close =>
      cases h
      trivial
    all_goals exact waits_learns hwait (waits (g := g) h) hgone hempty
  | ioctl r =>
    simp only [step, Option.map_eq_some_iff, Prod.mk.injEq] at h
    obtain ⟨q, hq, rfl, rfl⟩ := h
    cases hpc : p.pc <;> simp only [ioctlReturn, hpc, reduceCtorEq] at hq
    case avail => contradiction
    case probe =>
      split at hq
      · cases hq
        exact learns_leaveWait _
      · cases m <;> cases hq
        · exact learns_turn _
        · exact learns_endTurn .read .read _
    case signal | asleep | flushSignal =>
      cases hq
      trivial
  | transfer fn all buf nbytes mem =>
    simp only [step] at h
    split_ifs at h <;> cases h
    · trivial
    · exact learns_beginCall fn _
  | flush | free =>
    simp only [step] at h
    split_ifs at h <;> cases h
    all_goals
      try cases p.mapped
    all_goals trivial

/-- A read or write that begins is in progress. -/
theorem busy_beginCall (m fn : Mod) (p : Proc) : (p.beginCall m fn).busy = true := by
  unfold beginCall
  split_ifs <;> rfl

end Proc

/-- How the notes about the call in progress stand to it, whatever it was called with. -/
structure Noted (p : Proc) (b : Book) (stream : List UInt8) : Prop where
  /-- A plain call adds nothing up. -/
  total : p.all = false → p.total = 0
  /-- A plain call asks for everything at once. -/
  nbytes : p.all = false → p.nbytes = b.asked
  /-- A plain call moves from or to the beginning of the buffer. -/
  buffer : p.all = false → p.buffer = b.buffer
  /-- An `_all` form on nothing returns at once. -/
  all : b.asked = 0 → p.all = false
  /-- A call on nothing moves nothing. -/
  opened : b.asked = 0 → stream = b.opened

namespace Ledger

variable {g : Geometry} {l k : Ledger} {m : Mod} {i : Input}

/-- The invariant of the calls in progress, with what each of them knows. -/
structure Linked (g : Geometry) (l : Ledger) : Prop where
  /-- The ledger of the pipe is in order. -/
  sound : l.Sound g
  /-- The notes about a call in progress stand to it as they should. -/
  noted : ∀ m, (l.sys.proc m).busy = true → Noted (l.sys.proc m) (l.book m) (l.sys.stream m)
  /-- An end that is not gone has not set `XSHMP_CLOSED`. -/
  flags : ∀ m, (l.sys.proc m).gone = false → (l.sys.proc m).NotClosed m (l.sys.shared.flags m)
  /-- What the calls have learned is true. -/
  learns : ∀ m, (l.sys.proc m).Learns m (l.sys.writer.gone = true) (l.sys.handed = l.sys.copied)

/-- A pipe on which nothing was asked for yet satisfies the invariant. -/
theorem linked_opened (g : Geometry) (conv : Conv) (buffer memReader memWriter : Nat → UInt8) :
    Linked g (opened (.offered conv buffer memReader memWriter)) := by
  refine ⟨sound_opened g conv buffer memReader memWriter, fun m hb => ?_, fun m _ => ?_,
    fun m => ?_⟩
  · cases m <;> cases conv <;> exact absurd hb Bool.false_ne_true
  · cases m <;> cases conv <;>
      exact ⟨by simp [opened, System.offered, Shared.offered, Shared.setFlags, Shared.flags],
        fun h => absurd h Bool.false_ne_true⟩
  · cases m <;> cases conv <;> trivial

/-- The calls move nothing past what they were asked for. -/
theorem Linked.part (h : Linked g l) (hbusy : (l.sys.proc m).busy = true) :
    ∃ n ≤ (l.book m).asked, l.sys.stream m =
      (l.book m).opened ++ segment (l.sys.proc m).mem (l.book m).buffer n := by
  have hnoted := h.noted m hbusy
  rcases Nat.eq_zero_or_pos (l.book m).asked with hzero | hpos
  · exact ⟨0, Nat.zero_le _, by simp [hnoted.opened hzero]⟩
  have hbal := h.sound.balanced m hbusy hpos
  have hasked := hbal.asked
  -- the current read or write has moved `n` bytes
  have hmoved : ∃ n ≤ (l.sys.proc m).nbytes, l.sys.stream m =
      (l.book m).begun ++ segment (l.sys.proc m).mem (l.sys.proc m).buffer n := by
    have hcounts := hbal.counts
    cases hpc : (l.sys.proc m).pc <;> simp only [Proc.Counts, hpc] at hcounts
    case avail =>
      obtain ⟨_, _, hx⟩ := (h.sound.kept.ends m).loop hpc
      have hge := hx.ge
      have hle := hx.le
      obtain ⟨hbuf, hmax, hstream, _⟩ := hcounts
      exact ⟨_, by omega, hstream⟩
    case inactiveLoad | inactiveStore | ret =>
      obtain ⟨hval, hstream⟩ := hcounts
      refine ⟨_, ?_, hstream⟩
      rcases hval with hv | ⟨-, hv⟩ | hv <;> omega
    case unwaitLoad | unwaitStore => exact ⟨0, Nat.zero_le _, by simp [hcounts.1]⟩
    all_goals exact ⟨0, Nat.zero_le _, by simp [hcounts]⟩
  obtain ⟨n, hn, hstream⟩ := hmoved
  refine ⟨(l.sys.proc m).total + n, by omega, ?_⟩
  rw [hstream, hbal.begun, segment_add, hbal.buffer, List.append_assoc]

/-- A step of an end that is called for nothing moves nothing. -/
private theorem Linked.copies_eq_zero (h : Linked g l) (hbusy : (l.sys.proc m).busy = true)
    (hall : (l.sys.proc m).all = false) (hasked : (l.book m).asked = 0)
    (hs : l.sys.step g (m, i) = some k.sys) : (l.sys.proc m).copies = 0 := by
  by_cases hpc : (l.sys.proc m).pc = .avail
  · have hn := (h.noted m hbusy).nbytes hall
    have hlearns := h.learns m
    simp only [Proc.Learns, hpc] at hlearns
    obtain ⟨_, _, hx⟩ := (h.sound.kept.ends m).loop hpc
    have hge := hx.ge
    rw [Proc.copies, if_pos hpc]
    rcases (Proc.step_looped hpc (System.step_proc hs)).next with ⟨_, hpc', hx'⟩ | ⟨hdone, _, _⟩
    · obtain ⟨_, _, hsound⟩ := ((h.sound.kept.step hs).ends m).loop hpc'
      have hle := hsound.le
      rw [hx', Transfer.step_current, Transfer.step_user.2] at hle
      omega
    · simp [Transfer.copies, hdone]
  · simp [Proc.copies, hpc]

/-- A step of an end keeps the notes about its call in order. -/
private theorem Linked.noted_own (h : Linked g l) (hs : l.step g (m, i) = some k)
    (hbusy : (k.sys.proc m).busy = true) : Noted (k.sys.proc m) (k.book m) (k.sys.stream m) := by
  obtain ⟨hsys, hbook⟩ := step_eq_some hs
  have hstep := System.step_proc hsys
  have hstream := System.stream_step hsys
  rw [hbook, Function.update_self]
  cases hb : (l.sys.proc m).busy with
  | false =>
    obtain ⟨hpc, -, fn, all, buf, nbytes, mem, rfl, hp⟩ := Proc.busy_of_step hb hbusy hstep
    have hnil : (l.sys.proc m).moved m l.sys.shared = [] := by simp [Proc.moved, hpc]
    have hsome : nbytes = 0 → all = false := by
      rintro rfl
      by_contra hall
      simp only [Proc.step, hpc, if_true, Bool.not_eq_false] at hstep hall
      simp only [hall, and_self, if_true, Option.some.injEq, Prod.mk.injEq] at hstep
      rw [← hstep.1] at hbusy
      simp [Proc.busy, Proc.finish] at hbusy
    rw [hnil, List.append_nil] at hstream
    rw [hp, hstream]
    unfold Proc.beginCall
    split_ifs <;> exact ⟨fun _ => rfl, fun _ => rfl, fun _ => rfl, hsome, fun _ => rfl⟩
  | true =>
    have hnoted := h.noted m hb
    by_cases hpc : (l.sys.proc m).pc = .ret
    · obtain ⟨rfl, hp, -⟩ := Proc.step_ret hpc hstep
      rw [hp] at hbusy ⊢
      cases (l.sys.proc m).returns m with
      | plain _ hnext | failed _ _ hnext | complete _ _ _ hnext =>
        simp [hnext, Proc.busy, Proc.finish] at hbusy
      | again hall _ _ hnext =>
        have hne : (l.book m).asked ≠ 0 := fun hzero => by simp [hnoted.all hzero] at hall
        have hall' : ((l.sys.proc m).afterRet m).all = true := by
          rw [hnext, Proc.beginCall]
          split_ifs <;> exact hall
        simp only [Book.after, if_pos hpc]
        exact ⟨fun hf => by simp [hall'] at hf, fun hf => by simp [hall'] at hf,
          fun hf => by simp [hall'] at hf, fun hzero => absurd hzero hne,
          fun hzero => absurd hzero hne⟩
    · have hidle : (l.sys.proc m).pc ≠ .idle := by
        intro hidle
        simp [Proc.busy, hidle] at hb
      have hcont := Proc.step_continues hb hpc hstep
      rw [Book.after_eq hidle hpc hstep]
      refine ⟨?_, ?_, ?_, ?_, fun hzero => ?_⟩
      · rw [hcont.all, hcont.total]
        exact hnoted.total
      · rw [hcont.all, hcont.nbytes]
        exact hnoted.nbytes
      · rw [hcont.all, hcont.buffer]
        exact hnoted.buffer
      · rw [hcont.all]
        exact hnoted.all
      · have hcopies := h.copies_eq_zero hb (hnoted.all hzero) hzero hsys
        have hnil : (l.sys.proc m).moved m l.sys.shared = [] :=
          List.length_eq_zero_iff.mp (Proc.length_moved.trans hcopies)
        rw [hstream, hnil, List.append_nil, hnoted.opened hzero]

/-- A step keeps the flags of both ends in keeping with their handles. -/
private theorem Linked.flags_step (h : Linked g l) (hs : l.sys.step g (m, i) = some k.sys) :
    ∀ m', (k.sys.proc m').gone = false →
      (k.sys.proc m').NotClosed m' (k.sys.shared.flags m') := by
  have hf := Proc.step_flags (System.step_proc hs)
  refine Mod.forall_of m (fun hgone => ?_) fun hgone => ?_
  · have hgone' : (l.sys.proc m).gone = false := by
      by_contra hne
      simp [(hf.done (by simpa using hne)).1] at hgone
    exact hf.notClosed (h.flags m hgone') hgone
  · rw [System.proc_peer_step hs] at hgone ⊢
    have hpeer := h.flags m.peer hgone
    rcases hf.foreign with hsame | ⟨rfl, hpc, -, hst⟩
    · rw [hsame]
      exact hpeer
    · -- an interrupted reader stores what it has loaded
      have hlearns := h.learns .read
      simp only [Proc.Learns, hpc] at hlearns
      have htmp : hasFlag (l.sys.proc .read).tmp .closed = false := by
        by_contra hne
        have hw : l.sys.writer.gone = true := hlearns trivial (by simpa using hne)
        simp [System.proc, Mod.peer, hw] at hgone
      refine ⟨?_, hpeer.2⟩
      simp [Shared.flags, Mod.peer, hst, htmp]

/-- A stream that was handed over behind a writer that is gone stays so. -/
private theorem drained_step {s t : System} (hk : Kept g s) {x : Mod × Input}
    (hs : s.step g x = some t) (hgone : s.writer.gone = true) (hd : s.handed = s.copied) :
    t.handed = t.copied := by
  have ht := hk.step hs
  obtain ⟨m, i⟩ := x
  have hcopied : t.copied = s.copied := by
    obtain ⟨_, _, _, rfl⟩ := System.step_eq_some hs
    have hpc : s.writer.pc ≠ .avail := fun hpc => by simp [Proc.gone, hpc] at hgone
    cases m <;> simp [System.record, Proc.moved, hpc]
  have hgrow : s.handed.length ≤ t.handed.length := by
    obtain ⟨_, _, _, rfl⟩ := System.step_eq_some hs
    cases m <;> simp [System.record]
  rw [hd, ← hcopied] at hgrow
  rw [ht.handed, List.take_of_length_le hgrow]

/-- A step keeps what both calls have learned true. -/
private theorem Linked.learns_step (h : Linked g l) (hs : l.sys.step g (m, i) = some k.sys) :
    ∀ m', (k.sys.proc m').Learns m' (k.sys.writer.gone = true) (k.sys.handed = k.sys.copied) := by
  have hk := h.sound.kept
  have hstep := System.step_proc hs
  have hgone : l.sys.writer.gone = true → k.sys.writer.gone = true := by
    intro hg
    cases m with
    | read => rwa [show k.sys.writer = l.sys.writer from System.proc_peer_step hs]
    | write => exact ((Proc.step_flags hstep).done hg).1
  have hdrained := drained_step hk hs
  refine Mod.forall_of m (Proc.Learns.mono ?_ hgone hdrained) ?_
  · refine Proc.step_learns (h.learns m) hstep ?_ ?_ ?_ (fun hpc hdone hn => ?_) fun hpc => ?_
    · rintro rfl hopen
      exact (h.flags .read hopen).1
    · rintro rfl hclosed
      by_contra hne
      have hopen := (h.flags .write (Bool.eq_false_iff.mpr hne)).1
      simp only [Shared.flags] at hopen
      simp [hclosed] at hopen
    · rintro rfl hl hown hg
      have hempty := h.sound.alert.not_ready hk hown hl
      have hpub : l.sys.published = l.sys.copied.length := hk.writer.synced fun hpc => by
        simp [Proc.gone, hpc] at hg
      have hlo := hk.released_le
      simp only [System.Ready, System.shown, Mod.peer, bound] at hempty
      rw [hk.handed, List.take_of_length_le (by omega)]
    · have hbusy : (l.sys.proc m).busy = true := by simp [Proc.busy, hpc]
      have hpos : 0 < (l.book m).asked := by
        by_contra hzero
        have hz : (l.book m).asked = 0 := by omega
        have hnoted := h.noted m hbusy
        have := hnoted.nbytes (hnoted.all hz)
        omega
      obtain ⟨_, _, hx⟩ := (hk.ends m).loop hpc
      exact (h.sound.underway m hpos hpc).moved hdone hx.ge
    · obtain ⟨_, _, hx⟩ := (hk.ends m).loop hpc
      exact hx.le
  · rw [System.proc_peer_step hs]
    exact (h.learns m.peer).mono hgone hdrained

/-- Every step of either end keeps the invariant of the calls in progress. -/
theorem Linked.step (h : Linked g l) {x : Mod × Input} (hs : l.step g x = some k) :
    Linked g k := by
  obtain ⟨m, i⟩ := x
  obtain ⟨hsys, hbook⟩ := step_eq_some hs
  refine ⟨h.sound.step hs, Mod.forall_of m (h.noted_own hs) fun hbusy => ?_, h.flags_step hsys,
    h.learns_step hsys⟩
  have hother : k.book m.peer = l.book m.peer := by
    rw [hbook]
    exact Function.update_of_ne (Mod.peer_ne m) ..
  rw [System.proc_peer_step hsys] at hbusy ⊢
  rw [hother, System.stream_peer_step hsys]
  exact h.noted m.peer hbusy

/-- Until a call returns, its request stays as it is. -/
theorem request_stays (hs : l.step g (m, i) = some k)
    (hbusy : (l.sys.proc m).busy = true) (hbusy' : (k.sys.proc m).busy = true) :
    (k.book m).opened = (l.book m).opened ∧ (k.book m).buffer = (l.book m).buffer ∧
      (k.book m).asked = (l.book m).asked ∧ (k.sys.proc m).all = (l.sys.proc m).all ∧
      (m = .write → (k.sys.proc m).mem = (l.sys.proc m).mem) := by
  obtain ⟨hsys, hbook⟩ := step_eq_some hs
  have hstep := System.step_proc hsys
  rw [hbook, Function.update_self]
  by_cases hret : (l.sys.proc m).pc = .ret
  · obtain ⟨rfl, hp, -⟩ := Proc.step_ret hret hstep
    simp only [Book.after, if_pos hret]
    rw [hp] at hbusy' ⊢
    cases (l.sys.proc m).returns m with
    | plain _ hnext | failed _ _ hnext | complete _ _ _ hnext =>
      simp [hnext, Proc.busy, Proc.finish] at hbusy'
    | again _ _ _ hnext =>
      rw [hnext, Proc.beginCall]
      split_ifs <;> exact ⟨trivial, trivial, trivial, rfl, fun _ => rfl⟩
  · have hidle : (l.sys.proc m).pc ≠ .idle := by
      intro hidle
      simp [Proc.busy, hidle] at hbusy
    rw [Book.after_eq hidle hret hstep]
    have hcont := Proc.step_continues hbusy hret hstep
    refine ⟨rfl, rfl, rfl, hcont.all, ?_⟩
    rintro rfl
    by_cases hpc : (l.sys.proc .write).pc = .avail
    · exact Proc.mem_looped hpc hstep
    · exact hcont.mem hpc

/-- How a call stands that returns the value `r`, when it has moved `done` bytes. -/
inductive Result (m : Mod) (l : Ledger) (done : Nat) (r : Int) : Prop where
  /-- The value tells how many bytes were moved. -/
  | count (value : r = done) (some : 0 < done ∨ (l.book m).asked = 0)
  /-- The value 0 tells that the stream has ended. -/
  | ended (value : r = 0) (none : done = 0) (reads : m = .read)
      (gone : l.sys.writer.gone = true) (drained : l.sys.handed = l.sys.copied)
  /-- The value -1 tells that the call has failed. -/
  | failed (value : r = -1) (none : done = 0)

/-- The value of the last read or write, when the call has moved nothing before. -/
private theorem Linked.result_first (h : Linked g l) (hpc : (l.sys.proc m).pc = .ret)
    (hle : (l.sys.proc m).retval ≤ 0) (htotal : (l.sys.proc m).total = 0) :
    (l.sys.stream m).length = (l.book m).opened.length ∧
      Result m l 0 (l.sys.proc m).retval := by
  have hbusy : (l.sys.proc m).busy = true := by simp [Proc.busy, hpc]
  have hlearns := h.learns m
  simp only [Proc.Learns, hpc] at hlearns
  have hnoted := h.noted m hbusy
  rcases Nat.eq_zero_or_pos (l.book m).asked with hzero | hpos
  · have hn := (hnoted.nbytes (hnoted.all hzero)).trans hzero
    refine ⟨by rw [hnoted.opened hzero], ?_⟩
    rcases hlearns.2 hn with hr | hr
    · exact .failed hr rfl
    · exact .count hr (.inr hzero)
  · have hbal := h.sound.balanced m hbusy hpos
    have hcounts := hbal.counts
    simp only [Proc.Counts, hpc] at hcounts
    obtain ⟨hval, hstream⟩ := hcounts
    refine ⟨by rw [hstream, hbal.begun, htotal]; simp [Int.toNat_of_nonpos hle], ?_⟩
    rcases hval with hv | ⟨hm, hv⟩ | hv
    · exact .failed hv rfl
    · obtain ⟨hgone, hdrained⟩ := hlearns.1 hm hv hbal.pos
      exact .ended hv rfl hm hgone hdrained
    · omega

/-- What a call returns, when it has come to its return. -/
theorem Linked.result (h : Linked g l) (hpc : (l.sys.proc m).pc = .ret)
    (hidle : ((l.sys.proc m).afterRet m).busy = false) :
    Result m l ((l.sys.stream m).length - (l.book m).opened.length)
      ((l.sys.proc m).afterRet m).result := by
  have hbusy : (l.sys.proc m).busy = true := by simp [Proc.busy, hpc]
  have hnoted := h.noted m hbusy
  -- a read or write that has moved something has moved its value
  have hwhole : 0 < (l.sys.proc m).retval ∨ 0 < (l.sys.proc m).total →
      (l.sys.stream m).length - (l.book m).opened.length =
        (l.sys.proc m).total + (l.sys.proc m).retval.toNat := by
    intro hsome
    have hpos : 0 < (l.book m).asked := by
      by_contra hzero
      have hzero : (l.book m).asked = 0 := by omega
      have hall := hnoted.all hzero
      have hn := (hnoted.nbytes hall).trans hzero
      have htotal := hnoted.total hall
      have hlearns := h.learns m
      simp only [Proc.Learns, hpc] at hlearns
      rcases hlearns.2 hn with hr | hr <;> omega
    have hbal := h.sound.balanced m hbusy hpos
    have hcounts := hbal.counts
    simp only [Proc.Counts, hpc] at hcounts
    rw [hcounts.2, hbal.begun]
    simp only [List.length_append, length_segment]
    omega
  cases (l.sys.proc m).returns m with
  | plain hall hnext =>
    have htotal := hnoted.total hall
    rw [hnext]
    change Result m l _ (l.sys.proc m).retval
    by_cases hpos : 0 < (l.sys.proc m).retval
    · exact .count (by omega) (.inl (by omega))
    · obtain ⟨hlen, hresult⟩ := h.result_first hpc (by omega) htotal
      rwa [hlen, Nat.sub_self]
  | failed hall hle hnext =>
    rw [hnext]
    change Result m l _ (if (l.sys.proc m).total ≠ 0 then _ else _)
    split_ifs with htotal
    · exact .count (by omega) (.inl (by omega))
    · obtain ⟨hlen, hresult⟩ := h.result_first hpc hle (by omega)
      rwa [hlen, Nat.sub_self]
  | complete _ hpos _ hnext =>
    rw [hnext]
    change Result m l _ (((l.sys.proc m).total + (l.sys.proc m).retval.toNat : Nat) : Int)
    exact .count (by omega) (.inl (by omega))
  | again _ _ _ hnext =>
    rw [hnext, Proc.busy_beginCall] at hidle
    contradiction

end Ledger

end XenShm.Pipe
