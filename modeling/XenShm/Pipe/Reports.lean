import XenShm.Pipe.Unbroken

/-!
# What a failed call leaves in `errno`

One handle, with a peer that may do anything: the shared area is an input of every step. Next to
the handle the reason is kept for which the read or write in progress is going to fail, and
every reason asks for one value of `errno`.
-/

namespace XenShm.Pipe

open XenShm.Library

/-- Why a read or write fails, as the code finds it. -/
inductive Cause where
  /-- The handle is of the other end or has no pages. -/
  | wrongHandle
  /-- The own end was closed before the call. -/
  | ownClosed
  /-- The peer has set `XSHMP_CLOSED` in its flags. -/
  | peerClosed
  /-- The kernel has reported the pipe broken. -/
  | broken
  /-- The `ioctl` that waits failed for another reason. -/
  | ioctl (e : Errno)
  deriving DecidableEq, Repr

/-- The value of `errno` that belongs to the cause. -/
def Cause.errno : Cause → Errno
  | .wrongHandle => .emediumtype
  | .ownClosed | .peerClosed | .broken => .epipe
  | .ioctl e => e

namespace Proc

/-- The writer finds that the reader has set `XSHMP_CLOSED`, at the entry of
`__xen_shm_pipe_wait_writer` or in its loop. -/
def findsClosed (m : Mod) (p : Proc) (s : Shared) : Bool :=
  m = .write ∧ (p.pc = .closedTest ∧ hasFlag s.readerFlags .closed ∨
    p.pc = .recheck ∧ p.own = s.read ∧ hasFlag p.peerFlags .closed)

/-- The reader, which has no bytes to read and does not probe, has seen a broken pipe before. -/
def remembersBroken (m : Mod) (p : Proc) : Bool := m = .read ∧ p.sawEpipe

/-- The cause that a step outside the `ioctl`s brings to light. -/
def tickCause (m : Mod) (p : Proc) (s : Shared) : Option Cause :=
  match p.pc with
  | .callTest => if m = .write ∧ hasFlag s.writerFlags .closed then some .ownClosed else none
  | .closedTest => if p.findsClosed m s then some .peerClosed else none
  | .recheck =>
    if p.own ≠ s.index m.peer then none
    else if hasFlag p.peerFlags .closed then
      match m with
      | .read => none
      | .write => some .peerClosed
    else if p.loopCount ≠ 0 ∧ p.remembersBroken m then some .broken
    else none
  | .wakeStore =>
    match p.awaitRet with
    | .ok => none
    | .fail .epipe => if m = .write then some .broken else none
    | .fail e => some (.ioctl e)
  | .ret => if p.mapped then none else some .wrongHandle
  | _ => none

/-- The cause that a step brings to light. -/
def cause (m : Mod) (p : Proc) (i : Input) (s : Shared) : Option Cause :=
  match i with
  | .tick => p.tickCause m s
  | .ioctl r =>
    if p.pc = .probe ∧ (r = .fail .epipe ∨ p.remembersBroken m) then some .broken else none
  | .transfer fn _ _ _ _ => if fn ≠ m ∨ ¬ p.mapped then some .wrongHandle else none
  | .flush | .free => none

/-- A writer that finds the reader closed leaves its waiting function with -1. -/
theorem tick_of_findsClosed (g : Geometry) {m : Mod} {p : Proc} {s : Shared}
    (h : p.findsClosed m s = true) :
    p.tickCause m s = some .peerClosed ∧ p.tick g m s = some (p.leaveWait (-1), s) := by
  have hcases := h
  simp only [findsClosed, decide_eq_true_eq] at hcases
  obtain ⟨rfl, ⟨hpc, hclosed⟩ | ⟨hpc, hown, hclosed⟩⟩ := hcases
  · exact ⟨by simp [tickCause, hpc, h], by simp [tick, waitWriter, hpc, hclosed]⟩
  · exact ⟨by simp [tickCause, hpc, hown, hclosed, Shared.index, Mod.peer],
      by simp [tick, waitWriter, hpc, hown, hclosed]⟩

/-- For a writer that finds the reader closed, nothing else can happen before that. -/
theorem input_of_findsClosed {g : Geometry} {m : Mod} {p : Proc} {s : Shared} {i : Input}
    {r : Proc × Shared} (h : p.findsClosed m s = true) (hstep : p.step g m i s = some r) :
    i = .tick := by
  simp only [findsClosed, decide_eq_true_eq] at h
  obtain ⟨rfl, ⟨hpc, -⟩ | ⟨hpc, -⟩⟩ := h <;> cases i <;> simp [step, ioctlReturn, hpc] at hstep ⊢

end Proc

/-- A handle with the cause of failure that the read or write in progress has met. -/
structure Handle where
  /-- The handle with the call in progress. -/
  proc : Proc
  /-- The cause of failure that the call has met, if it has met one. -/
  cause : Option Cause

namespace Handle

/-- One step, with what the shared area holds at that time. A read or write begins without a
cause. -/
def step (g : Geometry) (m : Mod) (h : Handle) (i : Input × Shared) : Option Handle :=
  (h.proc.step g m i.1 i.2).map fun r =>
    ⟨r.1, if r.1.pc = .callTest then none else (h.proc.cause m i.1 i.2).or h.cause⟩

/-- `errno` was assigned in this call and tells the cause. -/
def Told (h : Handle) : Prop := ∃ c, h.cause = some c ∧ h.proc.errno = some c.errno

/-- A read or write that returns -1 has told its cause. -/
def Reports (h : Handle) : Prop := h.proc.leaving = true → h.proc.retval = -1 → h.Told

/-- The writer does not find the reader closed, unless an `ioctl` of the same call has left
`EPIPE` in `errno`. -/
def Fine (m : Mod) (h : Handle) (i : Input × Shared) : Prop :=
  h.proc.findsClosed m i.2 = true → h.proc.errno = some .epipe

/-- What is known of `errno`, by the place. -/
def Sound (h : Handle) : Prop :=
  match h.proc.pc with
  | .wakeLoad | .wakeStore => ∀ e, h.proc.awaitRet = .fail e → h.proc.errno = some e
  | .interruptedLoad | .interruptedStore => h.Told
  | .inactiveLoad | .inactiveStore | .ret => h.proc.retval = -1 → h.Told
  | _ => True

variable {g : Geometry} {m : Mod} {h h' : Handle} {i : Input × Shared}

/-- What the invariant says at the return of a call is that its failure was reported. -/
theorem Sound.reports (hs : h.Sound) : h.Reports := by
  intro hleaving hret
  unfold Sound at hs
  cases hpc : h.proc.pc <;> simp only [hpc, Proc.leaving, Bool.false_eq_true] at hleaving hs
  all_goals exact hs hret

/-- A call that leaves its loop to copy has reported nothing wrong. -/
private theorem sound_leaveLoop (p : Proc) (c : Option Cause) : Sound ⟨p.leaveLoop, c⟩ := by
  unfold Proc.leaveLoop
  split <;> trivial

/-- A call that makes a further turn has reported nothing wrong. -/
private theorem sound_turn (p : Proc) (c : Option Cause) : Sound ⟨p.turn, c⟩ := by
  unfold Proc.turn
  split_ifs <;> trivial

/-- The loop of the reader goes on, or leaves with the cause that was seen before. -/
private theorem sound_readerTurn (p : Proc) {c : Option Cause}
    (hc : p.sawEpipe = true → c = some .broken) : Sound ⟨p.readerTurn, c⟩ := by
  unfold Proc.readerTurn
  split
  · exact fun _ => ⟨.broken, hc ‹_›, rfl⟩
  · exact sound_turn p c

/-- A call that is refused is at its return at once. -/
private theorem refused_pc {fn : Mod} {p : Proc} (hrefused : fn ≠ m ∨ ¬ p.mapped) :
    (p.beginCall m fn).pc = .ret := by
  simp only [Proc.beginCall, if_pos hrefused]

/-- A read or write begins, or the handle is refused. -/
private theorem sound_beginCall (fn : Mod) (p : Proc) {c : Option Cause}
    (hc : fn ≠ m ∨ ¬ p.mapped → c = some .wrongHandle) : Sound ⟨p.beginCall m fn, c⟩ := by
  unfold Proc.beginCall
  split
  · exact fun _ => ⟨.wrongHandle, hc ‹_›, rfl⟩
  · trivial

/-- The cause kept with the handle after a step that leads to `p`. -/
private def kept (h : Handle) (m : Mod) (i : Input) (s : Shared) (p : Proc) : Option Cause :=
  if p.pc = .callTest then none else (h.proc.cause m i s).or h.cause

private theorem Told.of_kept {p : Proc} {c : Option Cause} (ht : h.Told) (hc : c = h.cause)
    (he : p.errno = h.proc.errno) : Told ⟨p, c⟩ := by
  obtain ⟨cause, hcause, herrno⟩ := ht
  exact ⟨cause, hc.trans hcause, he.trans herrno⟩

/-- A writer that finds the reader closed reports it, when `errno` happens to be right. -/
private theorem sound_findsClosed (g : Geometry) {s : Shared} (hfine : h.Fine m (.tick, s))
    (hfinds : h.proc.findsClosed m s = true) :
    Sound ⟨h.proc.leaveWait (-1), kept h m .tick s (h.proc.leaveWait (-1))⟩ := by
  refine fun _ => ⟨.peerClosed, ?_, hfine hfinds⟩
  simp [kept, Proc.leaveWait, Proc.cause, (Proc.tick_of_findsClosed g hfinds).1]

/-- A turn of the loop ends. Only a reader can leave it here. -/
private theorem sound_endTurn {s : Shared} (hpc : h.proc.pc = .recheck)
    (hown : h.proc.own = s.index m.peer) (hopen : hasFlag h.proc.peerFlags .closed = false)
    (hcount : h.proc.loopCount ≠ 0) :
    Sound ⟨h.proc.endTurn m, kept h m .tick s (h.proc.endTurn m)⟩ := by
  cases m with
  | write => exact sound_turn _ _
  | read =>
    refine sound_readerTurn _ fun hsaw => ?_
    have hpc' : (h.proc.endTurn .read).pc = .inactiveLoad := by
      simp [Proc.endTurn, Proc.readerTurn, hsaw, Proc.failWait, Proc.leaveWait]
    simp [kept, hpc', Proc.cause, Proc.tickCause, hpc, hown, hopen, hcount, Proc.remembersBroken,
      hsaw]

/-- The cause of an `ioctl` that failed is what it left in `errno`. -/
private theorem told_interrupted {s : Shared} {e : Errno} (hpc : h.proc.pc = .wakeStore)
    (hret : h.proc.awaitRet = .fail e) (hne : m = .read → e ≠ .epipe)
    (herr : h.proc.errno = some e) :
    Told ⟨{ h.proc with pc := .interruptedLoad },
      kept h m .tick s { h.proc with pc := .interruptedLoad }⟩ := by
  obtain ⟨c, hc, hce⟩ : ∃ c, h.proc.tickCause m s = some c ∧ c.errno = e := by
    cases e <;> cases m <;> simp_all [Proc.tickCause, Cause.errno]
  exact ⟨c, by simp [kept, Proc.cause, hc], by rw [hce]; exact herr⟩

/-- A step of the waiting function keeps the invariant. -/
private theorem sound_waits {s s' : Shared} {p : Proc} (hs : h.Sound)
    (hfine : h.Fine m (.tick, s)) (hw : h.proc.Waits g m s p s') :
    Sound ⟨p, kept h m .tick s p⟩ := by
  unfold Sound at hs
  cases hw
  case refused hpc hm hclosed =>
    subst hm
    exact sound_findsClosed g hfine (by simp_all [Proc.findsClosed, Shared.flags, Mod.peer])
  case peerClosed hpc hown hclosed =>
    cases m with
    | read => exact fun hret : (0 : Int) = -1 => absurd hret (by decide)
    | write =>
      exact sound_findsClosed g hfine
        (by simp_all [Proc.findsClosed, Shared.index, Mod.peer])
  case leaves => exact sound_leaveLoop _ _
  case turn hpc hown hopen hcount => exact sound_endTurn hpc hown hopen hcount
  case wakeLoad hpc =>
    simp only [hpc] at hs
    exact hs
  case interrupted e hpc hret hne =>
    simp only [hpc] at hs
    exact told_interrupted hpc hret hne (hs e hret)
  case interruptedLoad hpc =>
    simp only [hpc] at hs
    exact hs.of_kept (by simp [kept, Proc.cause, Proc.tickCause, hpc]) rfl
  case interruptedStore hpc =>
    simp only [hpc] at hs
    exact fun _ => hs.of_kept (by simp [kept, Proc.leaveWait, Proc.cause, Proc.tickCause, hpc]) rfl
  all_goals trivial

/-- A step of the process alone keeps the invariant. -/
private theorem sound_tick {s s' : Shared} {p : Proc} (hs : h.Sound)
    (hfine : h.Fine m (.tick, s)) (hp : h.proc.tick g m s = some (p, s')) :
    Sound ⟨p, kept h m .tick s p⟩ := by
  cases hpc : h.proc.pc
  case callTest =>
    simp only [Proc.tick, hpc] at hp
    split at hp <;> cases hp
    · cases m with
      | read => exact fun hret : (0 : Int) = -1 => absurd hret (by decide)
      | write =>
        rename_i hclosed
        refine fun _ => ⟨.ownClosed, ?_, rfl⟩
        simp only [Shared.flags] at hclosed
        simp [kept, Proc.refuse, Proc.cause, Proc.tickCause, hpc, hclosed]
    · trivial
  case avail =>
    simp only [Proc.tick, hpc, Proc.tickAvail] at hp
    split at hp
    · contradiction
    · contradiction
    · cases hp
      simp [Sound]
    · cases hp
      -- a number of bytes is not -1
      exact fun hret => absurd hret (by simp only []; omega)
    · cases m <;> cases hp <;> simp [Sound]
  case inactiveLoad | inactiveStore =>
    simp only [Sound, hpc] at hs
    simp only [Proc.tick, hpc] at hp
    cases hp
    exact fun hret => (hs hret).of_kept (by simp [kept, Proc.cause, Proc.tickCause, hpc]) rfl
  case ret =>
    simp only [Proc.tick, hpc] at hp
    cases hp
    unfold Proc.afterRet Proc.nextPart
    split_ifs
    · trivial
    · trivial
    · trivial
    · refine sound_beginCall m _ fun hrefused => ?_
      have hmapped : h.proc.mapped = false := by simpa [Proc.advanceCall] using hrefused
      simp [kept, refused_pc hrefused, Proc.cause, Proc.tickCause, hpc, hmapped]
    · trivial
  case activeStore =>
    simp only [Proc.tick, hpc] at hp
    cases m <;> cases hp <;> trivial
  case openLoad | openStore | activeLoad | freeLoad | freeStore | close =>
    simp only [Proc.tick, hpc] at hp
    cases hp
    trivial
  case flushTest =>
    simp only [Proc.tick, hpc] at hp
    split at hp <;> cases hp <;> trivial
  all_goals
    simp only [Proc.tick, hpc] at hp
    exact sound_waits hs hfine (Proc.waits hp)

/-- The return of an `ioctl` keeps the invariant. -/
private theorem sound_ioctl {r : IoctlResult} {s : Shared} {p : Proc}
    (hp : h.proc.ioctlReturn g m r s = some p) : Sound ⟨p, kept h m (.ioctl r) s p⟩ := by
  cases hpc : h.proc.pc <;> simp only [Proc.ioctlReturn, hpc, reduceCtorEq] at hp
  case probe =>
    split_ifs at hp with hr
    · cases hp
      refine fun _ => ⟨.broken, ?_, rfl⟩
      simp [kept, Proc.failWait, Proc.leaveWait, Proc.cause, hpc, hr]
    · cases m with
      | write =>
        cases hp
        exact sound_turn _ _
      | read =>
        cases hp
        refine sound_readerTurn _ fun hsaw => ?_
        have hbroken : h.proc.sawEpipe = true := by
          cases r <;> exact hsaw
        have hpc' : ∀ q : Proc, q.sawEpipe = true → q.readerTurn.pc = .inactiveLoad := by
          intro q hq
          simp [Proc.readerTurn, hq, Proc.failWait, Proc.leaveWait]
        simp [kept, hpc' _ hsaw, Proc.cause, hpc, Proc.remembersBroken, hbroken]
  case signal =>
    cases hp
    trivial
  case asleep =>
    cases hp
    intro e he
    simp only at he
    simp [he, Proc.noteErrno]
  case avail =>
    split at hp <;> cases hp <;> cases r <;> simp [Sound, Proc.noteErrno, hpc]
  case flushSignal =>
    cases hp
    trivial

/-- A step that is fine keeps what is known. -/
theorem Sound.step (hs : h.Sound) (hfine : h.Fine m i) (hstep : h.step g m i = some h') :
    h'.Sound := by
  obtain ⟨i, s⟩ := i
  simp only [Handle.step, Option.map_eq_some_iff] at hstep
  obtain ⟨⟨p, s'⟩, hp, rfl⟩ := hstep
  cases i with
  | tick => exact sound_tick hs hfine hp
  | ioctl r =>
    simp only [Proc.step, Option.map_eq_some_iff, Prod.mk.injEq] at hp
    obtain ⟨q, hq, rfl, -⟩ := hp
    exact sound_ioctl hq
  | transfer fn all buf nbytes mem =>
    simp only [Proc.step] at hp
    split_ifs at hp <;> cases hp
    · trivial
    · refine sound_beginCall fn _ fun hrefused => ?_
      have hcause : h.proc.cause m (.transfer fn all buf nbytes mem) s = some .wrongHandle :=
        if_pos hrefused
      simp only [refused_pc hrefused, hcause, reduceCtorEq, if_false, Option.some_or]
  | flush | free =>
    simp only [Proc.step] at hp
    split_ifs at hp <;> cases hp <;> simp [Sound, Proc.finish]

/-- A writer that finds the reader closed returns -1 at once, and nothing has told why. -/
theorem not_reports_of_not_fine (hbad : ¬ h.Fine m i) (hstep : h.step g m i = some h') :
    ¬ h'.Reports := by
  obtain ⟨i, s⟩ := i
  obtain ⟨hfinds, herrno⟩ := Classical.not_imp.mp hbad
  simp only [Handle.step, Option.map_eq_some_iff] at hstep
  obtain ⟨⟨p, s'⟩, hp, rfl⟩ := hstep
  obtain ⟨hcause, htick⟩ := Proc.tick_of_findsClosed g hfinds
  obtain rfl := Proc.input_of_findsClosed hfinds hp
  obtain ⟨rfl, rfl⟩ := Prod.mk.inj (Option.some.inj (htick.symm.trans hp))
  intro hreports
  obtain ⟨c, hc, he⟩ := hreports rfl rfl
  simp only [Proc.cause, hcause, Proc.leaveWait, reduceCtorEq, if_false, Option.some_or,
    Option.some.injEq] at hc
  subst hc
  exact herrno he

/-- Between two calls nothing has to be known. -/
theorem sound_of_idle (hidle : h.proc.pc = .idle) : h.Sound := by
  simp [Sound, hidle]

/-- The condition is on the writer only, so a reader always meets it. -/
theorem fine_read (h : Handle) (i : Input × Shared) : h.Fine .read i := by
  simp [Fine, Proc.findsClosed]

end Handle

/-- All failures of reads and writes on a handle report their cause exactly when no write finds the
reader closed before `errno` is `EPIPE`. -/
theorem failures_report_cause_iff (g : Geometry) (m : Mod) (h : Handle) (hidle : h.proc.pc = .idle)
    (is : List (Input × Shared)) :
    Always (Handle.step g m) Handle.Reports h is ↔
      Along (Handle.step g m) (Handle.Fine m) h is :=
  always_iff_along (fun _ hs => hs.reports) (fun _ _ _ hs hfine hstep => hs.step hfine hstep)
    (fun _ _ _ _ hbad hstep => Handle.not_reports_of_not_fine hbad hstep) is h
    (Handle.sound_of_idle hidle)

/-- A read that fails has always reported its cause. -/
theorem read_reports (g : Geometry) (h : Handle) (hidle : h.proc.pc = .idle)
    (is : List (Input × Shared)) : Always (Handle.step g .read) Handle.Reports h is := by
  have hfine : ∀ h, Along (Handle.step g .read) (Handle.Fine .read) h is := by
    induction is with
    | nil => exact fun _ => trivial
    | cons i is ih => exact fun h t _ => ⟨Handle.fine_read h i, ih t⟩
  exact (hfine h).always (fun _ hs => hs.reports) (fun _ _ _ hs hf hstep => hs.step hf hstep)
    (Handle.sound_of_idle hidle)

instance (m : Mod) (h : Handle) (i : Input × Shared) : Decidable (h.Fine m i) :=
  inferInstanceAs (Decidable (_ → _))

/-- A handle of the writer that was not used yet. -/
def Handle.writer : Handle := ⟨.init .idle true fun _ => 0, none⟩

/-- The area of a full ring with these flags of the reader. -/
def Shared.full (readerFlags : Flags) : Shared := ⟨0, readerFlags, 0, 1, fun _ => 0⟩

/-- A write of one byte, and `n` steps of it. -/
def writeOne (s : Shared) (n : Nat) : List (Input × Shared) :=
  (.transfer .write false 0 1 fun _ => 0, s) :: List.replicate n (.tick, s)

/-- The sleep of a writer on a full ring is ended by a broken pipe. -/
def brokenWrite : List (Input × Shared) :=
  writeOne (.full 0) 12 ++ (.ioctl (.fail .epipe), .full 0) :: List.replicate 6 (.tick, .full 0)

/-- A write whose wait finds the pipe broken reports `EPIPE`. -/
theorem failures_report_cause_brokenWrite :
    Always (Handle.step .onePage .write) Handle.Reports .writer brokenWrite :=
  (failures_report_cause_iff .onePage .write .writer rfl brokenWrite).mpr (by decide +kernel)

/-- A write to a reader that has closed returns -1 and leaves `errno` as it was. -/
theorem not_failures_report_cause : ∃ h, Reaches (Handle.step .onePage .write) (fun _ _ => true)
    .writer h ∧ h.proc.pc = .ret ∧ h.proc.retval = -1 ∧ h.cause = some .peerClosed ∧
    h.proc.errno = none := by
  have hrun : (run (Handle.step .onePage .write) (fun _ _ => true) .writer
      (writeOne (.full Flag.closed.mask) 6)).any
      (fun h => h.proc.pc = .ret ∧ h.proc.retval = -1 ∧ h.cause = some .peerClosed ∧
        h.proc.errno = none) = true := by
    decide +kernel
  obtain ⟨h, hreach, hp⟩ := exists_reaches_of_run hrun
  exact ⟨h, hreach, of_decide_eq_true hp⟩

end XenShm.Pipe
