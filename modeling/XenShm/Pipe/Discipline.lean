import XenShm.Pipe.Close

/-!
# Whose words are stored, and in what state they are left

Each end changes its own flag word by loads and separate stores, so nothing is lost
as long as nobody else stores there. A read or write lowers the bits it has raised
before it returns, except where the waiting loop is left early: when the peer has
closed or is gone `XSHMP_WAITING` stays up, and an interrupted reader lowers it in
the word of the writer.
-/

namespace XenShm.Pipe

open XenShm.Library

/-- The flags `XSHMP_WAITING` and `XSHMP_SLEEPING` are down. -/
def Low (f : Flags) : Prop := hasFlag f .waiting = false ∧ hasFlag f .sleeping = false

/-- The flags `XSHMP_WAITING`, `XSHMP_SLEEPING` and `XSHMP_ACTIVE` are down. -/
def Clear (f : Flags) : Prop := Low f ∧ hasFlag f .active = false

namespace Proc

variable {g : Geometry} {m : Mod} {i : Input} {p p' : Proc} {s s' : Shared}

/-- The end stores neither to the flags of its peer nor to its index, whatever the shared area
holds. -/
def Frames (g : Geometry) (m : Mod) (p : Proc) : Prop :=
  ∀ i s p' s', p.step g m i s = some (p', s') →
    s'.flags m.peer = s.flags m.peer ∧ s'.index m.peer = s.index m.peer

/-- The step is none of the early returns out of a waiting loop. -/
def leavesInOrder (m : Mod) (i : Input) (p : Proc) (s : Shared) : Bool :=
  match p.pc, i with
  | .recheck, .tick =>
    p.own ≠ s.index m.peer ∨ hasFlag p.peerFlags .closed = false ∧
      (p.loopCount = 0 ∨ ¬ (m = .read ∧ p.sawEpipe = true))
  | .probe, .ioctl r => r ≠ .fail .epipe ∧ ¬ (m = .read ∧ p.sawEpipe = true)
  | .asleep, .ioctl (.fail e) => m = .write ∨ e = .epipe
  | _, _ => true

/-- The own flag word at each point of a call, and the word about to be stored there. -/
def Tidy (m : Mod) (p : Proc) (f : Flags) : Prop :=
  match p.pc with
  | .openLoad | .idle | .callTest | .activeLoad | .ret | .flushTest | .flushSignal | .freeLoad
  | .close | .freed => Clear f
  | .openStore | .activeStore | .freeStore => Clear f ∧ p.tmp = f
  | .closedTest | .loadOwn | .avail | .inactiveLoad => Low f
  | .inactiveStore => Low f ∧ p.tmp = f
  | .loopTest | .loadFlags | .waitingLoad =>
    hasFlag f .sleeping = false ∧ (hasFlag f .waiting = true → p.unsetWait = true)
  | .waitingStore => hasFlag f .sleeping = false ∧ p.tmp = f
  | .recheck | .probe | .signal | .sleepingLoad =>
    hasFlag f .sleeping = false ∧ p.unsetWait = true
  | .sleepingStore => hasFlag f .sleeping = false ∧ p.unsetWait = true ∧ p.tmp = f
  | .asleep => p.unsetWait = true
  | .wakeLoad => p.unsetWait = true ∧ ∀ e, p.awaitRet = .fail e → m = .write ∨ e = .epipe
  | .wakeStore =>
    p.unsetWait = true ∧ (∀ e, p.awaitRet = .fail e → m = .write ∨ e = .epipe) ∧ p.tmp = f
  | .interruptedLoad => hasFlag f .sleeping = false ∧ m = .write
  | .interruptedStore => hasFlag f .sleeping = false ∧ m = .write ∧ p.tmp = f
  | .unwaitLoad => hasFlag f .sleeping = false
  | .unwaitStore => hasFlag f .sleeping = false ∧ p.tmp = f

/-- Nothing but the store of an interrupted reader goes to the other end. -/
theorem frames_of_ne (h : ¬ (m = .read ∧ p.pc = .interruptedStore)) : p.Frames g m := by
  intro i s p' s' hs
  constructor
  · refine (step_flags hs).foreign.resolve_right fun hf => h ⟨hf.1, hf.2.1⟩
  · by_cases hpc : p.pc = .avail
    · exact (step_looped hpc hs).peer
    · have hq := step_quiet hpc hs
      cases m
      · exact hq.read
      · exact hq.write

/-- A tidy end stores to its own words only. -/
theorem Tidy.frames {f : Flags} (h : p.Tidy m f) : p.Frames g m := by
  refine frames_of_ne fun ⟨hm, hpc⟩ => ?_
  simp only [Tidy, hpc] at h
  simp [hm] at h

/-- A loop that is left clears the flag that it has raised. -/
private theorem tidy_leaveLoop {f : Flags} (h : hasFlag f .sleeping = false)
    (hwait : hasFlag f .waiting = true → p.unsetWait = true) : p.leaveLoop.Tidy m f := by
  unfold leaveLoop
  split_ifs with hu
  · exact h
  · refine ⟨?_, h⟩
    by_contra hw
    exact hu (hwait (by simpa using hw))

/-- A further turn of the loop keeps the flags tidy. -/
private theorem tidy_turn {f : Flags} (h : hasFlag f .sleeping = false)
    (hu : p.unsetWait = true) : p.turn.Tidy m f := by
  unfold turn
  split_ifs <;> first
    | exact ⟨h, hu⟩
    | exact ⟨h, fun _ => hu⟩

/-- The end of a turn keeps the flags tidy. -/
private theorem tidy_endTurn {f : Flags} (h : hasFlag f .sleeping = false)
    (hu : p.unsetWait = true) (hsaw : ¬ (m = .read ∧ p.sawEpipe = true)) :
    (p.endTurn m).Tidy m f := by
  cases m with
  | read =>
    have hsaw : p.sawEpipe = false := by simpa using hsaw
    simp only [endTurn, readerTurn, hsaw, Bool.false_eq_true, if_false]
    exact tidy_turn h hu
  | write => exact tidy_turn h hu

/-- A step of the waiting loop that is left in order keeps the flags tidy. -/
private theorem waits_tidy (ht : p.Tidy m (s.flags m)) (ho : p.leavesInOrder m .tick s = true)
    (h : Waits g m p s p' s') : p'.Tidy m (s'.flags m) := by
  cases h with
  | refused hpc | closedTest hpc | loopTest hpc | loadFlags hpc =>
    simp only [Tidy, hpc] at ht
    exact ht
  | loadOwn _ hpc =>
    simp only [Tidy, hpc] at ht
    exact ⟨ht.2, fun hw => by simp [ht.1] at hw⟩
  | leaves hpc =>
    rcases hpc with hpc | hpc <;> simp only [Tidy, hpc] at ht
    · exact tidy_leaveLoop ht.1 ht.2
    · exact tidy_leaveLoop ht.1 fun _ => ht.2
  | waitingLoad hpc =>
    simp only [Tidy, hpc] at ht
    exact ⟨ht.1, rfl⟩
  | waitingStore hpc =>
    simp only [Tidy, hpc] at ht
    exact ⟨by simp [ht.2, ht.1], rfl⟩
  | peerClosed hpc hown hclosed =>
    simp [leavesInOrder, hpc, hown, hclosed] at ho
  | probe hpc =>
    simp only [Tidy, hpc] at ht
    exact ht
  | turn hpc hown _ hcount =>
    simp only [Tidy, hpc] at ht
    simp only [leavesInOrder, hpc, decide_eq_true_eq] at ho
    exact tidy_endTurn ht.1 ht.2 ((ho.resolve_left (not_not.mpr hown)).2.resolve_left hcount)
  | sleepingLoad hpc =>
    simp only [Tidy, hpc] at ht
    exact ⟨ht.1, ht.2, rfl⟩
  | sleepingStore hpc =>
    simp only [Tidy, hpc] at ht
    exact ht.2.1
  | wakeLoad hpc =>
    simp only [Tidy, hpc] at ht
    exact ⟨ht.1, ht.2, rfl⟩
  | woken hpc | sawEpipe hpc =>
    simp only [Tidy, hpc] at ht
    exact ⟨by simp, fun _ => ht.1⟩
  | interrupted e hpc hret hne =>
    simp only [Tidy, hpc] at ht
    refine ⟨by simp, ?_⟩
    rcases ht.2.1 e hret with hm | he
    · exact hm
    · cases m with
      | read => exact absurd he (hne rfl)
      | write => rfl
  | interruptedLoad hpc =>
    simp only [Tidy, hpc] at ht
    obtain ⟨hs, rfl⟩ := ht
    exact ⟨hs, rfl, rfl⟩
  | interruptedStore hpc =>
    simp only [Tidy, hpc] at ht
    obtain ⟨hs, rfl, htmp⟩ := ht
    exact ⟨by simp, by simp [htmp, hs]⟩
  | unwaitLoad hpc =>
    simp only [Tidy, hpc] at ht
    exact ⟨ht, rfl⟩
  | unwaitStore hpc =>
    simp only [Tidy, hpc] at ht
    exact ⟨by simp, by simp [ht.2, ht.1]⟩

/-- A call that begins with its flags down is tidy. -/
private theorem tidy_beginCall {f : Flags} (fn : Mod) (h : Clear f) :
    (p.beginCall m fn).Tidy m f := by
  unfold beginCall
  split_ifs <;> exact h

/-- A call that returns with its flags down is tidy. -/
private theorem tidy_afterRet {f : Flags} (h : Clear f) : (p.afterRet m).Tidy m f := by
  unfold afterRet nextPart
  repeat' split
  all_goals first
    | exact tidy_beginCall m h
    | exact h

/-- A step of the process alone that is in order keeps the flags tidy. -/
private theorem tick_tidy (ht : p.Tidy m (s.flags m)) (ho : p.leavesInOrder m .tick s = true)
    (h : p.tick g m s = some (p', s')) : p'.Tidy m (s'.flags m) := by
  cases hpc : p.pc
  case avail =>
    have hl := step_looped (i := .tick) hpc h
    simp only [Tidy, hpc] at ht
    rw [hl.flags]
    rcases hl.next with ⟨_, hp, _⟩ | ⟨_, hp, _⟩ <;> simp only [Tidy, hp] <;> exact ht
  all_goals
    have hwait := ht
    simp only [tick, hpc] at h
    simp only [Tidy, hpc] at ht
  case callTest | flushTest =>
    split at h <;> cases h
    · cases m <;> exact ht
    · exact ht
  case ret =>
    cases h
    exact tidy_afterRet ht
  case openLoad | activeLoad | inactiveLoad | freeLoad =>
    cases h
    exact ⟨ht, rfl⟩
  case close =>
    cases h
    exact ht
  case openStore | freeStore =>
    cases h
    obtain ⟨⟨⟨hw, hs⟩, ha⟩, htmp⟩ := ht
    refine ⟨⟨?_, ?_⟩, ?_⟩ <;> simp [htmp, hw, hs, ha]
  case activeStore =>
    cases h
    obtain ⟨⟨⟨hw, hs⟩, _⟩, htmp⟩ := ht
    cases m <;> refine ⟨?_, ?_⟩ <;> simp [htmp, hw, hs]
  case inactiveStore =>
    cases h
    obtain ⟨⟨hw, hs⟩, htmp⟩ := ht
    refine ⟨⟨?_, ?_⟩, ?_⟩ <;> simp [htmp, hw, hs]
  all_goals exact waits_tidy hwait ho (waits (g := g) h)

/-- The return of an `ioctl` that is in order keeps the flags tidy. -/
private theorem ioctl_tidy {r : IoctlResult} (ht : p.Tidy m (s.flags m))
    (ho : p.leavesInOrder m (.ioctl r) s = true) (h : p.ioctlReturn g m r s = some p') :
    p'.Tidy m (s.flags m) := by
  have hkeep : (p.noteErrno r).unsetWait = p.unsetWait ∧ (p.noteErrno r).sawEpipe = p.sawEpipe ∧
      (p.noteErrno r).pc = p.pc := by
    cases r <;> exact ⟨rfl, rfl, rfl⟩
  cases hpc : p.pc <;> simp only [ioctlReturn, hpc, reduceCtorEq] at h <;>
    simp only [Tidy, hpc] at ht
  case probe =>
    simp only [leavesInOrder, hpc, decide_eq_true_eq] at ho
    obtain ⟨hr, hsaw⟩ := ho
    rw [if_neg hr] at h
    cases m with
    | read =>
      have hsaw : (p.noteErrno r).sawEpipe = false := hkeep.2.1.trans (by simpa using hsaw)
      simp only [readerTurn, hsaw, Bool.false_eq_true, if_false] at h
      cases h
      exact tidy_turn ht.1 (hkeep.1.trans ht.2)
    | write =>
      cases h
      exact tidy_turn ht.1 (hkeep.1.trans ht.2)
  case signal =>
    cases h
    exact ⟨ht.1, fun _ => hkeep.1.trans ht.2⟩
  case asleep =>
    cases h
    refine ⟨hkeep.1.trans ht, fun e he => ?_⟩
    simp only at he
    subst he
    simpa [leavesInOrder, hpc] using ho
  case flushSignal =>
    cases h
    exact ht
  case avail =>
    split at h
    case h_3 => contradiction
    all_goals
      cases h
      simp only [Tidy, hkeep.2.2, hpc]
      exact ht

/-- A step in order keeps the own flag word tidy. -/
theorem Tidy.step (ht : p.Tidy m (s.flags m)) (ho : p.leavesInOrder m i s = true)
    (h : p.step g m i s = some (p', s')) : p'.Tidy m (s'.flags m) := by
  cases i with
  | tick => exact tick_tidy ht ho h
  | ioctl r =>
    simp only [Proc.step, Option.map_eq_some_iff, Prod.mk.injEq] at h
    obtain ⟨q, hq, rfl, rfl⟩ := h
    exact ioctl_tidy ht ho hq
  | transfer fn all buf nbytes mem =>
    simp only [Proc.step] at h
    split at h
    · rename_i hpc
      simp only [Tidy, hpc] at ht
      split at h <;> cases h
      · exact ht
      · exact tidy_beginCall fn ht
    · contradiction
  | flush =>
    simp only [Proc.step] at h
    split at h
    · rename_i hpc
      simp only [Tidy, hpc] at ht
      split at h <;> cases h <;> exact ht
    · contradiction
  | free =>
    simp only [Proc.step] at h
    split at h
    · rename_i hpc
      simp only [Tidy, hpc] at ht
      cases h
      cases hm : p.mapped <;> exact ht
    · contradiction

end Proc

namespace System

variable {g : Geometry} {s t : System} {m : Mod} {i : Input}

/-- No step of the run is an early return out of a waiting loop. -/
def leavesInOrder (s : System) (x : Mod × Input) : Bool :=
  (s.proc x.1).leavesInOrder x.1 x.2 s.shared

/-- The flag words of both ends are tidy. -/
def Tidy (s : System) : Prop := ∀ m, (s.proc m).Tidy m (s.shared.flags m)

/-- A pipe that was just connected has tidy flag words. -/
theorem tidy_offered (conv : Conv) (buffer memReader memWriter : Nat → UInt8) :
    (offered conv buffer memReader memWriter).Tidy := by
  intro m
  cases m <;> cases conv <;> simp [offered, isOfferer, proc, Proc.init, Proc.Tidy, Clear, Low,
    Shared.offered, Shared.setFlags, Shared.flags]

/-- A step of either end that is in order keeps both flag words tidy. -/
theorem Tidy.step (h : s.Tidy) {x : Mod × Input} (hx : s.leavesInOrder x = true)
    (hs : s.step g x = some t) : t.Tidy := by
  obtain ⟨m, i⟩ := x
  have hstep := step_proc hs
  refine Mod.forall_of m ?_ ?_
  · exact Proc.Tidy.step (h m) hx hstep
  · rw [proc_peer_step hs, ((h m).frames (g := g) i _ _ _ hstep).1]
    exact h m.peer

end System

/-- What each end may rely on about the words of the shared area. -/
structure FlagDiscipline (g : Geometry) (s : System) : Prop where
  /-- Neither end ever stores to the flags or the index of the other. -/
  frames : ∀ m, (s.proc m).Frames g m
  /-- No step loses a bit of the flags of the other side. -/
  kept : ∀ m i t, s.step g (m, i) = some t → t.shared.flags m.peer = s.shared.flags m.peer
  /-- A read or write that returns has lowered the bits it raised. -/
  returned : ∀ m, (s.proc m).pc = .ret → Clear (s.shared.flags m)

/-- Along every run in which no waiting loop is left by one of its early returns, the flag words
are kept apart. -/
theorem flags_kept_apart {g : Geometry} {conv : Conv} {buffer memReader memWriter : Nat → UInt8}
    {s : System} (h : Reaches (System.step g) System.leavesInOrder
      (.offered conv buffer memReader memWriter) s) : FlagDiscipline g s := by
  have ht : s.Tidy := h.invariant (System.tidy_offered conv buffer memReader memWriter)
    fun _ _ _ ht hx hs => ht.step hx hs
  refine ⟨fun m => (ht m).frames, fun m i t hs => ?_, fun m hpc => ?_⟩
  · exact ((ht m).frames i _ _ _ (System.step_proc hs)).1
  · simpa only [Proc.Tidy, hpc] using ht m

/-- A read of one byte sleeps and is woken by a write of one byte; both return. -/
private def oneByte : List (Mod × Input) :=
  System.ticks .write 2 ++ System.input .read (.transfer .read false 0 1 fun _ => 0) ++
  System.ticks .read 11 ++ System.input .write (.transfer .write false 0 1 fun _ => 65) ++
  System.ticks .write 17 ++ System.input .write (.ioctl .ok) ++ System.ticks .write 3 ++
  System.input .read (.ioctl .ok) ++ System.ticks .read 19

/-- One byte is written and read, and both ends keep their words to themselves. -/
theorem flags_kept_apart_oneByte : ∃ s : System, s.reader.pc = .ret ∧ s.handed = [65] ∧
    FlagDiscipline .onePage s := by
  have hrun : (run (System.step .onePage) System.leavesInOrder .fresh oneByte).any
      (fun s => s.reader.pc = .ret ∧ s.handed = [65]) = true := by decide +kernel
  obtain ⟨s, hs, hp⟩ := exists_reaches_of_run hrun
  obtain ⟨hpc, hhanded⟩ := of_decide_eq_true hp
  exact ⟨s, hpc, hhanded, flags_kept_apart hs⟩

/-- A sleeping reader is interrupted and loads the flags of the writer, which then closes. -/
private def interrupted : List (Mod × Input) :=
  System.ticks .write 2 ++ System.input .read (.transfer .read false 0 1 fun _ => 0) ++
  System.ticks .read 11 ++ System.input .read (.ioctl (.fail .eintr)) ++ System.ticks .read 3 ++
  System.input .write .free ++ System.ticks .write 2

/-- The store of that reader erases `XSHMP_CLOSED`, and its read returns with `XSHMP_WAITING`
still up. -/
theorem not_flags_kept_apart : ¬ ∀ s, System.Reachable .onePage s → FlagDiscipline .onePage s := by
  intro h
  have hrun : (run (System.step .onePage) System.anyInput .fresh interrupted).any
      (fun s => hasFlag s.shared.writerFlags .closed ∧
        (s.step .onePage (.read, .tick)).any fun t => ¬ hasFlag t.shared.writerFlags .closed) =
      true := by decide +kernel
  obtain ⟨s, hs, hp⟩ := System.exists_reachable hrun
  obtain ⟨hclosed, hnext⟩ := of_decide_eq_true hp
  obtain ⟨t, ht, hlost⟩ := (Option.any_eq_true _ _).mp hnext
  have hkept := (h s hs).kept .read .tick t ht
  simp_all [Shared.flags, Mod.peer]

end XenShm.Pipe
