import XenShm.Pipe.Connection
import XenShm.Pipe.Unbroken
import XenShm.Pipe.Copying

/-!
# How long an end runs without the kernel

The waiting loops spin while the peer is awake. The count of the rounds is only reset by the
`ioctl` that looks for a broken pipe, each further part of an `_all` call has moved a byte, and
the copying loop ends by itself. So an end soon is in an `ioctl` or has returned, whatever its
peer does, and does not take bytes into the kernel that it has not published.
-/

namespace XenShm.Pipe

open XenShm.Library

namespace Proc

/-- The process waits for its kernel or for its user, or is gone. -/
def resting (p : Proc) : Bool := p.syscall.isSome ∨ p.pc = .idle ∨ p.pc = .freed

/-- A turn of the waiting loop is to come. -/
def willTurn (p : Proc) : Bool :=
  match p.pc with
  | .closedTest | .loadOwn | .loopTest | .loadFlags | .signal | .sleepingLoad | .sleepingStore
  | .asleep | .wakeLoad | .wakeStore => true
  | _ => false

/-- What the length of the rest of the call depends on. -/
structure Patient (m : Mod) (p : Proc) : Prop where
  /-- The count of the rounds never wraps. -/
  count : p.willTurn = true → 1 ≤ p.loopCount
  /-- The counter of the loop is at most what it begins with. -/
  limit : p.loopCount ≤ waitLoopLimit
  /-- The copying loop works on the user buffer. -/
  copying : p.pc = .avail → p.xfer.userBuf = p.buffer ∧ p.xfer.usrMax = p.buffer + p.nbytes
  /-- The call moves at most what was asked for. -/
  value : p.leaving = true → p.retval ≤ p.nbytes
  /-- Only the writer has a test before its waiting loop. -/
  side : p.pc = .closedTest → m = .write

/-- Steps of one read or write that moves nothing: five a round, and those around the loop. -/
def partSteps : Nat := 5 * waitLoopLimit + 28

/-- A bound on the steps of the parts of a call on the last `n` bytes. -/
def partsSteps (n : Nat) : Nat := (partSteps + 16) * n

/-- A bound on the steps that are left behind the copying loop. -/
def leavingRank (p : Proc) : Nat :=
  if 0 < p.retval then partsSteps (p.nbytes - p.retval.toNat) + partSteps else 0

/-- A bound on the steps a process has left before it rests. -/
def rank (p : Proc) : Nat :=
  match p.pc with
  | .openLoad => 2
  | .openStore => 1
  | .callTest => partsSteps p.nbytes + 5 * waitLoopLimit + 28
  | .activeLoad => partsSteps p.nbytes + 5 * waitLoopLimit + 27
  | .activeStore => partsSteps p.nbytes + 5 * waitLoopLimit + 26
  | .closedTest => partsSteps p.nbytes + 5 * p.loopCount + 25
  | .wakeLoad => partsSteps p.nbytes + 5 * p.loopCount + 25
  | .loadOwn | .wakeStore => partsSteps p.nbytes + 5 * p.loopCount + 24
  | .loopTest => partsSteps p.nbytes + 5 * p.loopCount + 23
  | .loadFlags => partsSteps p.nbytes + 5 * p.loopCount + 22
  -- the count is lower by one from here on
  | .waitingLoad => partsSteps p.nbytes + 5 * p.loopCount + 26
  | .waitingStore => partsSteps p.nbytes + 5 * p.loopCount + 25
  | .recheck => partsSteps p.nbytes + 5 * p.loopCount + 24
  | .sleepingLoad => 2
  | .sleepingStore => 1
  | .interruptedLoad => 5
  | .interruptedStore => 4
  | .unwaitLoad => partsSteps p.nbytes + 21
  | .unwaitStore => partsSteps p.nbytes + 20
  | .avail =>
    partSteps * (p.xfer.usrMax - p.xfer.current) + p.xfer.rank +
      (if p.xfer.userBuf < p.xfer.current then partSteps else 0) + 4
  | .inactiveLoad => p.leavingRank + 3
  | .inactiveStore => p.leavingRank + 2
  | .ret => p.leavingRank + 1
  | .flushTest => 1
  | .freeLoad => 3
  | .freeStore => 2
  | .close => 1
  | .idle | .probe | .signal | .asleep | .flushSignal | .freed => 0

section Step

variable {g : Geometry} {m : Mod} {i : Input} {p p' : Proc} {s s' : Shared}

/-- A process behind a step on the way to its next `ioctl`. -/
structure Hurries (m : Mod) (p p' : Proc) : Prop where
  /-- The process keeps what the length of the rest depends on. -/
  patient : p'.Patient m
  /-- The process has fewer steps left. -/
  rank : p'.rank < p.rank

/-- A step from one point of the code to the next one brings the process closer. -/
private theorem Patient.move {q : Proc} (h : p.Patient m) (hcount : q.loopCount = p.loopCount)
    (hturn : q.willTurn = true → p.willTurn = true) (hpc : q.pc ≠ .avail)
    (hside : q.pc ≠ .closedTest) (hleaving : q.leaving = false) : q.Patient m where
  count hq := by
    rw [hcount]
    exact h.count (hturn hq)
  limit := hcount.le.trans h.limit
  copying hq := absurd hq hpc
  value hq := by simp [hleaving] at hq
  side hq := absurd hq hside

/-- The values that end a call without anything moved. -/
private theorem leavingRank_of_nonpos (h : p.retval ≤ 0) : p.leavingRank = 0 :=
  if_neg (by omega)

/-- The steps of a copying loop that begins, for so many bytes. -/
private theorem rank_enterAvail : p.enterAvail.rank = partsSteps p.nbytes + 19 := by
  simp only [enterAvail, rank, Transfer.start, Transfer.rank, Transfer.phase, partsSteps, partSteps,
    waitLoopLimit, Nat.lt_irrefl, if_false]
  omega

/-- A call that begins to copy keeps what the length of the rest depends on. -/
private theorem patient_enterAvail (h : p.Patient m) : p.enterAvail.Patient m :=
  ⟨fun hw => Bool.noConfusion hw, h.limit, fun _ => ⟨rfl, rfl⟩, fun hl => Bool.noConfusion hl,
    nofun⟩

/-- A call that leaves its loop has a bounded number of steps left. -/
private theorem leaveLoop_patient (h : p.Patient m) :
    p.leaveLoop.Patient m ∧ p.leaveLoop.rank ≤ partsSteps p.nbytes + 21 := by
  unfold leaveLoop
  split
  · exact ⟨⟨fun hw => Bool.noConfusion hw, h.limit, nofun, fun hl => Bool.noConfusion hl, nofun⟩,
      le_rfl⟩
  · exact ⟨patient_enterAvail h, by rw [rank_enterAvail]; omega⟩

/-- A call that gives up has three steps left. -/
private theorem leaveWait_patient (h : p.Patient m) {v : Int} (hv : v ≤ 0) :
    (p.leaveWait v).Patient m ∧ (p.leaveWait v).rank = 3 := by
  refine ⟨⟨fun hw => Bool.noConfusion hw, h.limit, nofun, fun _ => ?_, nofun⟩, ?_⟩
  · simp only [leaveWait]
    omega
  · rw [leaveWait, rank, leavingRank_of_nonpos hv]

/-- The tail of a turn goes back to the test of the loop at most. -/
private theorem turn_patient (h : p.Patient m) (hcount : p.loopCount ≠ 0) :
    p.turn.Patient m ∧ p.turn.rank ≤ partsSteps p.nbytes + 5 * p.loopCount + 23 := by
  have hlimit := h.limit
  unfold turn
  split_ifs <;> refine ⟨⟨fun _ => Nat.pos_of_ne_zero hcount, hlimit, nofun, fun hl =>
    Bool.noConfusion hl, nofun⟩, ?_⟩ <;> simp only [rank] <;> omega

/-- A call at the end of a turn has the steps of the turns that are left. -/
private theorem endTurn_patient (h : p.Patient m) (hcount : p.loopCount ≠ 0) :
    (p.endTurn m).Patient m ∧
      (p.endTurn m).rank ≤ partsSteps p.nbytes + 5 * p.loopCount + 23 := by
  cases m with
  | write => exact turn_patient h hcount
  | read =>
    simp only [endTurn, readerTurn]
    split
    · obtain ⟨hpatient, hrank⟩ := leaveWait_patient h (v := -1) (by decide)
      refine ⟨⟨hpatient.count, hpatient.limit, hpatient.copying, hpatient.value, hpatient.side⟩, ?_⟩
      have heq : (p.failWait .epipe).rank = (p.leaveWait (-1)).rank := rfl
      omega
    · exact turn_patient h hcount

/-- Every step of a waiting function brings the process closer to its next `ioctl`. -/
private theorem waits_hurries (h : p.Patient m) (hw : Waits g m p s p' s') : Hurries m p p' := by
  have hlimit := h.limit
  have hcount := h.count
  cases hw with
  | leaves hpc =>
    obtain ⟨hpatient, hrank⟩ := leaveLoop_patient h
    have hself : partsSteps p.nbytes + 23 ≤ p.rank := by
      rcases hpc with hpc | hpc <;> simp only [rank, hpc] <;> omega
    exact ⟨hpatient, by omega⟩
  | turn hpc _ _ hne =>
    obtain ⟨hpatient, hrank⟩ := endTurn_patient (m := m) h hne
    have hself : p.rank = partsSteps p.nbytes + 5 * p.loopCount + 24 := by simp only [rank, hpc]
    exact ⟨hpatient, by omega⟩
  | refused hpc | interruptedStore hpc =>
    obtain ⟨hpatient, hrank⟩ := leaveWait_patient h (v := -1) (by decide)
    have hself : 4 ≤ p.rank := by simp only [rank, hpc]; omega
    exact ⟨hpatient, by omega⟩
  | peerClosed hpc =>
    have hself : 3 < p.rank := by simp only [rank, hpc]; omega
    cases m with
    | read =>
      obtain ⟨hpatient, hrank⟩ := leaveWait_patient h (v := 0) le_rfl
      exact ⟨hpatient, hrank.trans_lt hself⟩
    | write =>
      obtain ⟨hpatient, hrank⟩ := leaveWait_patient h (v := -1) (by decide)
      exact ⟨hpatient, hrank.trans_lt hself⟩
  | unwaitStore hpc =>
    have hself : p.rank = partsSteps p.nbytes + 20 := by simp only [rank, hpc]
    exact ⟨patient_enterAvail h, by rw [rank_enterAvail]; omega⟩
  | loadFlags hpc =>
    have hpos := hcount (by simp [willTurn, hpc])
    refine ⟨⟨fun hw => Bool.noConfusion hw, (Nat.sub_le ..).trans hlimit, nofun,
      fun hl => Bool.noConfusion hl, nofun⟩, ?_⟩
    simp only [rank, hpc]
    omega
  | _ =>
    refine ⟨h.move rfl (by simp [willTurn, *]) (by simp) (by simp) rfl, ?_⟩
    simp only [rank, *]
    omega

/-- The copying loop does not touch the count. -/
private theorem tickAvail_loopCount (hs : p.tickAvail g m s = some (p', s')) :
    p'.loopCount = p.loopCount := by
  cases hx : p.xfer.pc <;> cases m <;> simp only [tickAvail, hx, reduceCtorEq] at hs <;>
    cases hs <;> rfl

/-- The steps of a round are paid for by the bytes that it copies. -/
private theorem copied_le {t : Transfer} {count stop : Nat} (h : t.Sound g m count stop) :
    partSteps * (t.usrMax - (t.current + t.copies)) +
        (if t.userBuf < t.current + t.copies then partSteps else 0) ≤
      partSteps * (t.usrMax - t.current) + (if t.userBuf < t.current then partSteps else 0) := by
  have hge := h.ge
  by_cases hcopy : t.copies = 0
  · rw [hcopy, Nat.add_zero]
  · obtain ⟨-, hspan, hfit⟩ := h.copies_fit hcopy
    have huser := hspan.user
    simp only [partSteps, waitLoopLimit]
    split_ifs <;> omega

/-- Every step of the copying loop brings the process closer to its return. -/
private theorem looped_hurries (h : p.Patient m) (hpc : p.pc = .avail) {count stop : Nat}
    (hsound : p.xfer.Sound g m count stop) (hs : p.step g m .tick s = some (p', s')) :
    Hurries m p p' := by
  have hcont := step_continues (by simp [busy, hpc]) (by simp [hpc]) hs
  have hcount : p'.loopCount = p.loopCount := by
    simp only [step, tick, hpc] at hs
    exact tickAvail_loopCount hs
  obtain ⟨hbuf, hmax⟩ := h.copying hpc
  have hge := hsound.ge
  have hle := hsound.le
  have hlimit : p'.loopCount ≤ waitLoopLimit := hcount.le.trans h.limit
  have hself : p.rank = partSteps * (p.xfer.usrMax - p.xfer.current) + p.xfer.rank +
      (if p.xfer.userBuf < p.xfer.current then partSteps else 0) + 4 := by simp only [rank, hpc]
  rcases (step_looped hpc hs).next with ⟨hdone, hpc', hx⟩ | ⟨hdone, hpc', hval⟩
  · obtain ⟨hbuf', hmax'⟩ := Transfer.step_user (g := g) (m := m) (s := s) (t := p.xfer)
    have hcur := Transfer.step_current (g := g) (m := m) (s := s) (t := p.xfer)
    have hrank := hsound.rank_step (s := s) hdone
    have hpaid := copied_le hsound
    refine ⟨⟨by simp [willTurn, hpc'], hlimit, fun _ => ?_, by simp [leaving, hpc'],
      by simp [hpc']⟩, ?_⟩
    · rw [hx, hbuf', hmax', hcont.buffer, hcont.nbytes]
      exact ⟨hbuf, hmax⟩
    · have hnext : p'.rank = partSteps * (p.xfer.usrMax - (p.xfer.current + p.xfer.copies)) +
          (p.xfer.step g m s).rank +
          (if p.xfer.userBuf < p.xfer.current + p.xfer.copies then partSteps else 0) + 4 := by
        simp only [rank, hpc', hx, hbuf', hmax', hcur]
      omega
  · have hvalue : p'.retval = (p.xfer.current - p.xfer.userBuf : Nat) := hval
    refine ⟨⟨by simp [willTurn, hpc'], hlimit, by simp [hpc'], fun _ => ?_, by simp [hpc']⟩, ?_⟩
    · rw [hvalue, hcont.nbytes]
      omega
    · have hnext : p'.rank = p'.leavingRank + 3 := by simp only [rank, hpc']
      have hrest : p.xfer.rank = 16 * (p.xfer.usrMax - p.xfer.current) := by
        simp [Transfer.rank, Transfer.phase, hdone]
      rw [hnext, hself, hrest, leavingRank, hvalue, hcont.nbytes]
      simp only [partsSteps, partSteps, waitLoopLimit]
      split_ifs <;> omega

/-- A read or write that returns without having moved anything. -/
private theorem ret_patient {q : Proc} (hlimit : q.loopCount ≤ waitLoopLimit) (hpc : q.pc = .ret)
    (hv : q.retval ≤ 0) : q.Patient m ∧ q.rank = 1 := by
  refine ⟨⟨by simp [willTurn, hpc], hlimit, by simp [hpc], fun _ => by omega,
    by simp [hpc]⟩, ?_⟩
  simp only [rank, hpc, leavingRank_of_nonpos hv]

/-- A new read or write has a bounded number of steps to its next `ioctl`. -/
private theorem beginCall_patient (hlimit : p.loopCount ≤ waitLoopLimit) (fn : Mod) :
    (p.beginCall m fn).Patient m ∧
      (p.beginCall m fn).rank ≤ partsSteps p.nbytes + partSteps := by
  unfold beginCall
  split
  · obtain ⟨hpatient, hrank⟩ := ret_patient
      (q := { p with errno := some .emediumtype, retval := -1, pc := .ret }) hlimit rfl
      (show (-1 : Int) ≤ 0 by decide)
    refine ⟨hpatient, ?_⟩
    rw [hrank, partSteps]
    omega
  · refine ⟨⟨fun hw => Bool.noConfusion hw, hlimit, nofun, fun hl => Bool.noConfusion hl, nofun⟩,
      ?_⟩
    exact Nat.le_of_eq (Nat.add_assoc ..)

/-- A call that has returned has no step left. -/
private theorem finish_patient (hlimit : p.loopCount ≤ waitLoopLimit) (v : Int) :
    (p.finish v).Patient m ∧ (p.finish v).rank = 0 :=
  ⟨⟨fun hw => Bool.noConfusion hw, hlimit, nofun, fun hl => Bool.noConfusion hl, nofun⟩, rfl⟩

/-- The return of a read or write: a further part is only asked for when this one has moved
something. -/
private theorem afterRet_hurries (h : p.Patient m) (hpc : p.pc = .ret) :
    Hurries m p (p.afterRet m) := by
  have hself : p.rank = p.leavingRank + 1 := by simp only [rank, hpc]
  have hfinish : ∀ {q : Proc} (v : Int), q.loopCount = p.loopCount → Hurries m p (q.finish v) := by
    intro q v hq
    obtain ⟨hpatient, hrank⟩ := finish_patient (hq.le.trans h.limit) v
    exact ⟨hpatient, by omega⟩
  cases p.returns m with
  | plain _ hnext | failed _ _ hnext =>
    rw [hnext]
    exact hfinish _ rfl
  | complete _ _ _ hnext =>
    rw [hnext]
    exact hfinish _ rfl
  | again _ hpos _ hnext =>
    obtain ⟨hpatient, hrank⟩ :=
      beginCall_patient (m := m) (p := p.advanceCall p.retval.toNat) h.limit m
    have hleft : p.leavingRank = partsSteps (p.nbytes - p.retval.toNat) + partSteps := if_pos hpos
    rw [hnext]
    refine ⟨hpatient, hrank.trans_lt ?_⟩
    rw [hself, hleft]
    exact Nat.lt_succ_self _

/-- A process outside its `ioctl`s comes nearer to the next one, or to its return. -/
private theorem tick_hurries (h : p.Patient m) (hsound : p.pc = .avail →
      ∃ count stop, p.xfer.Sound g m count stop) (hs : p.step g m .tick s = some (p', s')) :
    Hurries m p p' := by
  have hlimit := h.limit
  have hvalue := h.value
  cases hpc : p.pc
  case avail =>
    obtain ⟨count, stop, hx⟩ := hsound hpc
    exact looped_hurries h hpc hx hs
  case ret =>
    obtain ⟨-, rfl, -⟩ := step_ret hpc hs
    exact afterRet_hurries h hpc
  all_goals simp only [step, tick, hpc] at hs
  case callTest =>
    split at hs <;> cases hs
    · have hself : 1 < p.rank := by simp only [rank, hpc]; omega
      obtain ⟨hpatient, hrank⟩ := ret_patient (q := p.refuse m) (by cases m <;> exact hlimit)
        (by cases m <;> rfl) (by cases m <;> simp [refuse])
      exact ⟨hpatient, hrank.trans_lt hself⟩
    · refine ⟨h.move rfl (by simp [willTurn]) (by simp) (by simp) rfl, ?_⟩
      simp only [rank, hpc]
      omega
  case flushTest =>
    have hself : 0 < p.rank := by simp only [rank, hpc]; omega
    split at hs <;> cases hs
    · exact ⟨h.move rfl (by simp [willTurn, finish]) (by simp [finish]) (by simp [finish]) rfl,
        hself⟩
    · exact ⟨h.move rfl (by simp [willTurn]) (by simp) (by simp) rfl, hself⟩
  case inactiveLoad | inactiveStore =>
    cases hs
    refine ⟨⟨fun hw => Bool.noConfusion hw, hlimit, by simp,
      fun _ => hvalue (by simp [leaving, hpc]), by simp⟩, ?_⟩
    simp only [rank, hpc, leavingRank]
    omega
  case activeStore =>
    cases hs
    cases m <;> refine ⟨⟨fun _ => show 1 ≤ waitLoopLimit by decide, le_rfl, by simp,
      fun hl => Bool.noConfusion hl, by simp⟩, ?_⟩ <;> simp only [rank, hpc] <;> omega
  case openLoad | openStore | activeLoad | freeLoad | freeStore | close =>
    cases hs
    refine ⟨h.move rfl (by simp [willTurn]) (by simp) (by simp) rfl, ?_⟩
    simp only [rank, hpc]
    omega
  all_goals exact waits_hurries h (waits (g := g) hs)

/-- A call that notes an error is where it was. -/
private theorem noteErrno_patient {r : IoctlResult} (h : p.Patient m) :
    (p.noteErrno r).Patient m ∧ (p.noteErrno r).pc = p.pc := by
  cases r <;> exact ⟨⟨h.count, h.limit, h.copying, h.value, h.side⟩, rfl⟩

/-- An `ioctl` returns. The one that looks for a broken pipe starts the count again. -/
private theorem ioctl_patient {r : IoctlResult} (h : p.Patient m)
    (hs : p.ioctlReturn g m r s = some p') : p'.Patient m := by
  obtain ⟨hnoted, hsame⟩ := noteErrno_patient (r := r) h
  cases hpc : p.pc <;> rw [hpc] at hsame <;> simp only [ioctlReturn, hpc, reduceCtorEq] at hs
  case probe =>
    split at hs
    · cases hs
      have hfail := (leaveWait_patient hnoted (v := -1) (by decide)).1
      exact ⟨hfail.count, hfail.limit, hfail.copying, hfail.value, hfail.side⟩
    · have hagain : ({ p.noteErrno r with loopCount := waitLoopLimit } : Proc).Patient m :=
        ⟨fun _ => show 1 ≤ waitLoopLimit by decide, le_rfl, hnoted.copying, hnoted.value,
          hnoted.side⟩
      have hturn := (endTurn_patient hagain (show waitLoopLimit ≠ 0 by decide)).1
      cases m <;> cases hs <;> exact hturn
  case signal | asleep =>
    cases hs
    exact ⟨fun _ => hnoted.count (by simp [willTurn, hsame]), hnoted.limit, by simp,
      fun hl => Bool.noConfusion hl, by simp⟩
  case avail =>
    obtain ⟨hbuf, hmax⟩ := Transfer.step_user (g := g) (m := m) (s := s) (t := p.xfer)
    have hnext : ({ p.noteErrno r with xfer := p.xfer.step g m s } : Proc).Patient m := by
      refine ⟨hnoted.count, hnoted.limit, fun _ => ?_, hnoted.value, hnoted.side⟩
      have hcopying := h.copying hpc
      rw [← hbuf, ← hmax] at hcopying
      cases r <;> exact hcopying
    split at hs <;> cases hs <;> exact hnext
  case flushSignal =>
    cases hs
    exact (finish_patient hnoted.limit _).1

/-- Every step of a process keeps what the length of the rest depends on. -/
theorem Patient.step (h : p.Patient m) (hsound : p.pc = .avail →
      ∃ count stop, p.xfer.Sound g m count stop) (hs : p.step g m i s = some (p', s')) :
    p'.Patient m := by
  cases i with
  | tick => exact (tick_hurries h hsound hs).patient
  | ioctl r =>
    simp only [Proc.step, Option.map_eq_some_iff, Prod.mk.injEq] at hs
    obtain ⟨q, hq, rfl, rfl⟩ := hs
    exact ioctl_patient h hq
  | transfer fn all buf nbytes mem =>
    simp only [Proc.step] at hs
    split_ifs at hs <;> cases hs
    · refine (finish_patient ?_ 0).1
      exact h.limit
    · refine (beginCall_patient ?_ fn).1
      exact h.limit
  | flush =>
    simp only [Proc.step] at hs
    split_ifs at hs <;> cases hs
    · exact h.move rfl (by simp [willTurn]) (by simp) (by simp) rfl
    · exact ⟨fun hw => Bool.noConfusion hw, h.limit, by simp [finish],
        fun hl => Bool.noConfusion hl, by simp [finish]⟩
  | free =>
    simp only [Proc.step] at hs
    split_ifs at hs <;> cases hs <;> exact h.move rfl (by simp [willTurn]) (by simp) (by simp) rfl

/-- A process that does not rest goes on by itself. -/
private theorem tick_of_not_resting (h : p.Patient m) (hrest : ¬ p.resting = true) :
    (p.step g m .tick s).isSome = true := by
  simp only [resting, decide_eq_true_eq, not_or] at hrest
  obtain ⟨hcall, hidle, hfreed⟩ := hrest
  have hside := h.side
  cases hpc : p.pc <;> simp only [syscall, hpc, Option.isSome_some, not_true_eq_false] at hcall <;>
    simp only [Proc.step, tick, hpc]
  case idle | freed => contradiction
  case avail =>
    cases hx : p.xfer.pc <;> simp only [hx, Option.isSome_some, not_true_eq_false] at hcall <;>
      cases m <;> simp [tickAvail, hx]
  case callTest | flushTest => split <;> rfl
  case openLoad | openStore | activeLoad | activeStore | inactiveLoad | inactiveStore | ret |
      freeLoad | freeStore | close => rfl
  case closedTest =>
    obtain rfl := hside hpc
    simp only [waitWriter, hpc]
    split <;> rfl
  all_goals
    cases m <;> simp only [waitReader, waitWriter, hpc] <;> (repeat' split) <;> rfl

/-- The bound on the steps that are left in a call. -/
private theorem rank_le (h : p.Patient m) (hsound : p.pc = .avail →
      ∃ count stop, p.xfer.Sound g m count stop) : p.rank ≤ partsSteps (p.nbytes + 1) := by
  have hlimit := h.limit
  have hpart : partSteps = 5 * waitLoopLimit + 28 := rfl
  have hleaving : p.leavingRank ≤ partsSteps p.nbytes + partSteps := by
    unfold leavingRank
    split
    · exact Nat.add_le_add_right (Nat.mul_le_mul_left _ (Nat.sub_le ..)) _
    · exact Nat.zero_le _
  have hone : partsSteps (p.nbytes + 1) = partsSteps p.nbytes + partSteps + 16 := by
    rw [partsSteps, partsSteps, Nat.mul_succ, Nat.add_assoc]
  rw [hone]
  cases hpc : p.pc <;> simp only [rank, hpc]
  case avail =>
    obtain ⟨count, stop, hx⟩ := hsound hpc
    obtain ⟨hbuf, hmax⟩ := h.copying hpc
    have hge := hx.ge
    have hle := hx.le
    have hphase := p.xfer.phase_le
    simp only [Transfer.rank, partsSteps, partSteps, waitLoopLimit]
    split_ifs <;> omega
  all_goals omega

end Step

end Proc

namespace System

variable {g : Geometry} {s t : System} {m : Mod}

/-- The end `m` gets no answer from its kernel and no new call from its user. -/
def unserved (m : Mod) (_ : System) (x : Mod × Input) : Bool :=
  match x.2 with
  | .tick => true
  | _ => x.1 ≠ m

/-- The invariant of the pipe for the length of the calls. -/
structure Spinning (g : Geometry) (s : System) : Prop where
  /-- The streams are what the ring and the indices say. -/
  kept : Kept g s
  /-- The calls at both ends keep what their lengths depend on. -/
  patient : ∀ m, (s.proc m).Patient m

/-- A copying loop in progress is in order. -/
private theorem Spinning.sound (h : Spinning g s) (m : Mod) (hpc : (s.proc m).pc = .avail) :
    ∃ count stop, (s.proc m).xfer.Sound g m count stop := by
  obtain ⟨stop, -, hx⟩ := (h.kept.ends m).loop hpc
  exact ⟨_, stop, hx⟩

/-- Every step of either end keeps the invariant. -/
private theorem Spinning.step (h : Spinning g s) {x : Mod × Input} (hs : s.step g x = some t) :
    Spinning g t := by
  obtain ⟨m, i⟩ := x
  refine ⟨h.kept.step hs, Mod.forall_of m ?_ ?_⟩
  · exact (h.patient m).step (h.sound m) (System.step_proc hs)
  · rw [System.proc_peer_step hs]
    exact h.patient m.peer

/-- The invariant holds in every interleaving. -/
theorem spinning_of_reachable (h : Reachable g s) : Spinning g s := by
  obtain ⟨conv, buffer, memReader, memWriter, hr⟩ := h
  refine hr.invariant ⟨kept_offered g conv buffer memReader memWriter, fun m => ?_⟩
    fun _ _ _ ht _ hs => ht.step hs
  cases m <;> cases conv <;> exact ⟨fun hw => Bool.noConfusion hw, le_rfl, nofun,
    fun hl => Bool.noConfusion hl, nofun⟩

/-- Left to itself an end comes to rest, whatever its peer does: after a number of steps that
depends on what is left of its call only, it is in an `ioctl` or between two calls. Outside the
copying loop it has published all it has moved by then. -/
theorem comes_to_rest (h : Reachable g s) (m : Mod) :
    Finishes (step g) (unserved m) (fun x => x.1 = m) (fun t => (t.proc m).resting = true)
      (Proc.partsSteps ((s.proc m).nbytes + 1))
      (fun t => (t.proc m).pc ≠ .avail → t.shown m = (t.stream m).length) s := by
  refine finishes_of_rank (fun t => (t.proc m).rank) (spinning_of_reachable h)
    ?_ (fun _ _ _ h _ hs => h.step hs) ?_ ?_ ?_
  · exact Proc.rank_le ((spinning_of_reachable h).patient m) ((spinning_of_reachable h).sound m)
  · intro t x u ht hx hs
    obtain ⟨m', i⟩ := x
    by_cases hm : m' = m
    · subst hm
      obtain rfl : i = .tick := by
        cases i <;> simp [unserved] at hx ⊢
      have hrank := (Proc.tick_hurries (ht.patient m') (ht.sound m') (System.step_proc hs)).rank
      simpa [Nat.succ_le_iff] using hrank
    · obtain rfl : m = m'.peer := by cases m <;> cases m' <;> first | rfl | contradiction
      have hsame := System.proc_peer_step hs
      simp [hm, hsame]
  · intro t ht hrest
    refine ⟨(m, .tick), by simp, rfl, ?_⟩
    rw [System.step, Option.isSome_map]
    exact Proc.tick_of_not_resting (ht.patient m) hrest
  · exact fun t ht _ hpc => (ht.kept.ends m).synced fun h => absurd h hpc

/-- A read of two bytes from an empty pipe. -/
theorem comes_to_rest_emptyPipe : ∃ s, Reachable .onePage s ∧ (s.proc .read).pc = .callTest ∧
    Finishes (step .onePage) (unserved .read) (fun x => x.1 = .read)
      (fun t => (t.proc .read).resting = true) 150132
      (fun t => (t.proc .read).pc ≠ .avail → t.shown .read = (t.stream .read).length) s := by
  have htrace : (run (step .onePage) anyInput fresh
      [(.read, .transfer .read true 0 2 fun _ => 0)]).any
        (fun s => (s.proc .read).pc = .callTest ∧ (s.proc .read).nbytes = 2) = true := by decide
  obtain ⟨s, hs, htest⟩ := exists_reachable htrace
  obtain ⟨hpc, hlen⟩ := of_decide_eq_true htest
  have hrest := comes_to_rest hs .read
  rw [hlen] at hrest
  exact ⟨s, hs, hpc, hrest⟩

end System

end XenShm.Pipe
