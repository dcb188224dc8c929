import XenShm.Pipe.Sleep

/-!
# The end of the stream

`xen_shm_pipe_free` of the writer raises `XSHMP_CLOSED` and then closes the device,
after which the `ioctl`s of the reader may fail with `EPIPE`. A read that finds the
ring empty ends the stream when its snapshot of the writer's flags has the bit, and
an `EPIPE` seen while sleeping only makes it look again. Two ways around this
remain: the probe of the active loop turns `EPIPE` into an error without a second
look, and an interrupted reader stores a word loaded earlier over the flags of the
writer, which may erase the bit.
-/

namespace XenShm.Pipe

open XenShm.Library

namespace Proc

/-- The points at which a store of the own flag word is next. -/
def storesOwn (m : Mod) (p : Proc) : Bool :=
  match p.pc with
  | .openStore | .activeStore | .waitingStore | .sleepingStore | .wakeStore | .unwaitStore
  | .inactiveStore | .freeStore => true
  | .interruptedStore => m == .write
  | _ => false

/-- `XSHMP_CLOSED` is neither in the own flag word nor in a word about to be stored there. -/
def NotClosed (m : Mod) (p : Proc) (f : Flags) : Prop :=
  hasFlag f .closed = false ∧ (p.storesOwn m = true → hasFlag p.tmp .closed = false)

/-- The device is closed next, or it was closed already. -/
def gone (p : Proc) : Bool :=
  match p.pc with
  | .close | .freed => true
  | _ => false

/-- The store an interrupted reader makes to the flags of the writer. -/
def StoresForeign (m : Mod) (p p' : Proc) (s' : Shared) : Prop :=
  m = .read ∧ p.pc = .interruptedStore ∧ p'.pc = .inactiveLoad ∧
    s'.writerFlags = clearFlag p.tmp .waiting

/-- What a step of an end does to its flags and to its mapping. -/
structure FlagStep (m : Mod) (p p' : Proc) (s s' : Shared) : Prop where
  /-- The mapping of the handle stays. -/
  mapped : p'.mapped = p.mapped
  /-- Only a call of `xen_shm_pipe_free` sets `XSHMP_CLOSED`. -/
  notClosed : p.NotClosed m (s.flags m) → p'.gone = false → p'.NotClosed m (s'.flags m)
  /-- The flag `XSHMP_CLOSED` is set before the device is closed. -/
  closes : p.gone = false → p'.gone = true → p.mapped = true → hasFlag (s'.flags m) .closed = true
  /-- When the device is closed, nothing is stored any more. -/
  done : p.gone = true → p'.gone = true ∧ s' = s
  /-- One store goes to the other side. -/
  foreign : s'.flags m.peer = s.flags m.peer ∨ StoresForeign m p p' s'

variable {g : Geometry} {m : Mod} {i : Input} {p p' : Proc} {s s' : Shared}

/-- A step that stores nothing keeps the flags as they are. -/
private theorem flagStep_same (hm : p'.mapped = p.mapped) (hp : p.gone = false)
    (hp' : p'.gone = false) (hst : p'.storesOwn m = false) : FlagStep m p p' s s :=
  ⟨hm, fun h _ => ⟨h.1, by simp [hst]⟩, fun _ h => by simp [hp'] at h,
    fun h => by simp [hp] at h, .inl rfl⟩

/-- The load of a `|=` or `&=` on the own word. -/
private theorem flagStep_load (hp : p.gone = false) (pc : Pc)
    (hpc : pc ≠ .close ∧ pc ≠ .freed) :
    FlagStep m p { p with tmp := s.flags m, pc := pc } s s := by
  have hgone : ({ p with tmp := s.flags m, pc := pc } : Proc).gone = false := by
    cases pc <;> simp_all [gone]
  exact ⟨rfl, fun h _ => ⟨h.1, fun _ => h.1⟩, fun _ h => by simp [hgone] at h,
    fun h => by simp [hp] at h, .inl rfl⟩

/-- The store of a `|=` or `&=` on the own word, with a bit other than `XSHMP_CLOSED`. -/
private theorem flagStep_store {f : Flags} (b : Flag) (hb : b ≠ .closed)
    (hf : f = setFlag p.tmp b ∨ f = clearFlag p.tmp b) (hp : p.gone = false)
    (hown : p.storesOwn m = true) (hm : p'.mapped = p.mapped) (hp' : p'.gone = false)
    (hst : p'.storesOwn m = false) : FlagStep m p p' s (s.setFlags m f) := by
  refine ⟨hm, fun h _ => ⟨?_, by simp [hst]⟩, fun _ h => by simp [hp'] at h,
    fun h => by simp [hp] at h, .inl (by simp)⟩
  rw [Shared.flags_setFlags_self]
  rcases hf with rfl | rfl
  · simp [h.2 hown, hb]
  · simp [h.2 hown]

/-- A step of the waiting loop does to the flags what a step may do. -/
private theorem waits_flags (h : Waits g m p s p' s') : FlagStep m p p' s s' := by
  cases h with
  | waitingLoad hpc | sleepingLoad hpc | wakeLoad hpc | unwaitLoad hpc =>
    exact flagStep_load (by simp [gone, hpc]) _ (by simp)
  | waitingStore hpc =>
    exact flagStep_store .waiting (by simp) (.inl rfl) (by simp [gone, hpc])
      (by simp [storesOwn, hpc]) rfl rfl rfl
  | sleepingStore hpc =>
    exact flagStep_store .sleeping (by simp) (.inl rfl) (by simp [gone, hpc])
      (by simp [storesOwn, hpc]) rfl rfl rfl
  | woken hpc | sawEpipe hpc | interrupted _ hpc =>
    exact flagStep_store .sleeping (by simp) (.inr rfl) (by simp [gone, hpc])
      (by simp [storesOwn, hpc]) rfl rfl rfl
  | unwaitStore hpc =>
    exact flagStep_store .waiting (by simp) (.inr rfl) (by simp [gone, hpc])
      (by simp [storesOwn, hpc]) rfl rfl rfl
  | interruptedLoad hpc =>
    have hgone : p.gone = false := by simp [gone, hpc]
    cases m with
    | read => exact flagStep_same rfl hgone rfl rfl
    | write => exact flagStep_load hgone _ (by simp)
  | interruptedStore hpc =>
    have hgone : p.gone = false := by simp [gone, hpc]
    cases m with
    | read =>
      exact ⟨rfl, fun h _ => ⟨h.1, by simp [storesOwn, leaveWait]⟩,
        fun _ h => by simp [gone, leaveWait] at h, fun h => by simp [hgone] at h,
        .inr ⟨rfl, hpc, rfl, rfl⟩⟩
    | write =>
      exact flagStep_store (m := .write) .waiting (by simp) (.inr rfl) hgone
        (by simp [storesOwn, hpc]) rfl rfl rfl
  | leaves hpc =>
    have hgone : p.gone = false := by rcases hpc with hpc | hpc <;> simp [gone, hpc]
    unfold leaveLoop
    split <;> exact flagStep_same rfl hgone rfl rfl
  | turn hpc =>
    have hgone : p.gone = false := by simp [gone, hpc]
    cases m <;> simp only [endTurn, readerTurn, turn] <;> split_ifs <;>
      exact flagStep_same rfl hgone rfl rfl
  | refused hpc | closedTest hpc | loadOwn _ hpc | loopTest hpc | loadFlags hpc | peerClosed hpc
    | probe hpc => exact flagStep_same rfl (by simp [gone, hpc]) rfl rfl

/-- A step of the process alone does to the flags what a step may do. -/
private theorem tick_flags (h : p.tick g m s = some (p', s')) : FlagStep m p p' s s' := by
  cases hpc : p.pc
  case avail =>
    have hl := step_looped (i := .tick) hpc h
    have hgone : p.gone = false := by simp [gone, hpc]
    have hgone' : p'.gone = false ∧ p'.storesOwn m = false := by
      rcases hl.next with ⟨_, hp, _⟩ | ⟨_, hp, _⟩ <;> simp [gone, storesOwn, hp]
    refine ⟨?_, fun h _ => ⟨hl.flags m ▸ h.1, by simp [hgone'.2]⟩,
      fun _ h => by simp [hgone'.1] at h,
      fun h => by simp [hgone] at h, .inl (hl.flags m.peer)⟩
    simp only [tick, hpc, tickAvail] at h
    cases m <;> split at h <;> cases h <;> rfl
  case freed => cases m <;> simp [tick, hpc, waitReader, waitWriter] at h
  case close =>
    simp only [tick, hpc] at h
    cases h
    exact ⟨rfl, fun h _ => ⟨h.1, by simp [storesOwn]⟩, fun h => by simp [gone, hpc] at h,
      fun _ => ⟨rfl, rfl⟩, .inl rfl⟩
  all_goals
    have hgone : p.gone = false := by simp [gone, hpc]
    simp only [tick, hpc] at h
  case openLoad | activeLoad | inactiveLoad | freeLoad =>
    cases h
    exact flagStep_load hgone _ (by simp)
  case openStore =>
    cases h
    exact flagStep_store .opened (by simp) (.inl rfl) hgone (by simp [storesOwn, hpc]) rfl rfl rfl
  case activeStore =>
    cases h
    exact flagStep_store .active (by simp) (.inl rfl) hgone (by simp [storesOwn, hpc]) rfl
      (by cases m <;> rfl) (by cases m <;> rfl)
  case inactiveStore =>
    cases h
    exact flagStep_store .active (by simp) (.inr rfl) hgone (by simp [storesOwn, hpc]) rfl rfl rfl
  case freeStore =>
    cases h
    exact ⟨rfl, fun _ h => by simp [gone] at h, fun _ _ _ => by simp, fun h => by simp [hgone] at h,
      .inl (by simp)⟩
  case callTest =>
    split at h <;> cases h
    · cases m <;> exact flagStep_same rfl hgone rfl rfl
    · exact flagStep_same rfl hgone rfl rfl
  case flushTest =>
    split at h <;> cases h <;> exact flagStep_same rfl hgone rfl rfl
  case ret =>
    simp only [afterRet, nextPart, beginCall] at h
    (repeat' split at h) <;> cases h <;> exact flagStep_same rfl hgone rfl rfl
  all_goals exact waits_flags (waits (g := g) h)

/-- The return of an `ioctl` does to the flags what a step may do. -/
private theorem ioctl_flags {r : IoctlResult} (h : p.ioctlReturn g m r s = some p') :
    FlagStep m p p' s s := by
  have hkeep : (p.noteErrno r).mapped = p.mapped := by cases r <;> rfl
  cases hpc : p.pc <;> simp only [ioctlReturn, hpc, reduceCtorEq] at h
  all_goals
    have hgone : p.gone = false := by simp [gone, hpc]
  case probe =>
    cases m <;> simp only [readerTurn, turn] at h <;> (repeat' split at h) <;> cases h <;>
      exact flagStep_same hkeep hgone rfl rfl
  case signal | asleep =>
    cases h
    exact flagStep_same hkeep hgone rfl rfl
  case flushSignal =>
    cases h
    exact flagStep_same hkeep hgone rfl rfl
  case avail =>
    split at h
    case h_3 => contradiction
    all_goals
      cases h
      exact flagStep_same hkeep hgone (by cases r <;> simp [gone, noteErrno, hpc])
        (by cases r <;> simp [storesOwn, noteErrno, hpc])

/-- Every step of an end, whatever it is, does to the flags what a step may do. -/
theorem step_flags (h : p.step g m i s = some (p', s')) : FlagStep m p p' s s' := by
  cases i with
  | tick => exact tick_flags h
  | ioctl r =>
    simp only [step, Option.map_eq_some_iff, Prod.mk.injEq] at h
    obtain ⟨q, hq, rfl, rfl⟩ := h
    exact ioctl_flags hq
  | transfer fn all buf nbytes mem =>
    by_cases hpc : p.pc = .idle
    · have hgone : p.gone = false := by simp [gone, hpc]
      simp only [step, hpc, beginCall] at h
      (repeat' split at h) <;> cases h <;> exact flagStep_same rfl hgone rfl rfl
    · simp [step, hpc] at h
  | flush =>
    by_cases hpc : p.pc = .idle
    · have hgone : p.gone = false := by simp [gone, hpc]
      simp only [step, hpc] at h
      (repeat' split at h) <;> cases h <;> exact flagStep_same rfl hgone rfl rfl
    · simp [step, hpc] at h
  | free =>
    by_cases hpc : p.pc = .idle
    · have hgone : p.gone = false := by simp [gone, hpc]
      simp only [step, if_pos hpc] at h
      cases hm : p.mapped <;> simp only [hm] at h <;> cases h
      · exact ⟨hm.symm, fun h _ => ⟨h.1, by simp [storesOwn]⟩, fun _ _ h => by simp [hm] at h,
          fun h => by simp [hgone] at h, .inl rfl⟩
      · exact flagStep_same hm.symm hgone rfl rfl
    · simp [step, hpc] at h

/-- What a read in progress knows: whether the writer is `gone`, whether bytes are `ready` in the
ring, and whether all bytes were handed over, so that the stream is `drained`. -/
def Knows (p : Proc) (gone ready drained : Prop) : Prop :=
  match p.pc with
  | .waitingLoad | .waitingStore | .recheck =>
    (hasFlag p.peerFlags .closed = true → gone) ∧
      (p.sawEpipe = true → hasFlag p.peerFlags .closed = true)
  | .probe => p.sawEpipe = false
  | .wakeLoad | .wakeStore =>
    (p.awaitRet = .fail .epipe → gone) ∧ ∀ e, p.awaitRet = .fail e → p.errno = some e
  | .interruptedLoad => p.errno ≠ some .epipe
  | .interruptedStore => p.errno ≠ some .epipe ∧ (hasFlag p.tmp .closed = true → gone)
  | .unwaitLoad | .unwaitStore => ready
  | .avail => p.xfer.pc = .loadRead ∨ p.xfer.pc = .loadWrite → ready
  | .inactiveLoad | .inactiveStore | .ret =>
    (p.retval = 0 → gone ∧ drained) ∧ (p.retval = -1 → p.errno ≠ some .epipe)
  | .freeLoad | .freeStore | .close | .freed => False
  | _ => True

section Knows

variable {gone ready drained : Prop}

/-- A turn of a reader that has not seen `EPIPE`. -/
private theorem knows_turn (p : Proc) (h : p.sawEpipe = false) :
    p.readerTurn.Knows gone ready drained ∧ (p.readerTurn.sawEpipe = true → gone) := by
  have hn : ¬ p.sawEpipe = true := by simp [h]
  unfold readerTurn turn
  rw [if_neg hn]
  split_ifs <;> exact ⟨trivial, fun hs => absurd hs hn⟩

/-- A reader that leaves its loop knows no more than the loop has told it. -/
private theorem knows_leaveLoop (p : Proc) (h : ready) (hepipe : p.sawEpipe = true → gone) :
    p.leaveLoop.Knows gone ready drained ∧ (p.leaveLoop.sawEpipe = true → gone) := by
  unfold leaveLoop
  split_ifs
  · exact ⟨h, hepipe⟩
  · exact ⟨fun _ => h, hepipe⟩

/-- A step of the waiting loop keeps what the reader knows true. -/
private theorem waits_knows (hk : p.Knows gone ready drained) (h : Waits g .read p s p' s')
    (hgone : hasFlag s.writerFlags .closed = true ↔ gone) (hepipe : p.sawEpipe = true → gone)
    (hready : p.looping = true → p.own ≠ s.write → ready)
    (hempty : p.looping = true → p.own = s.write → gone → drained) :
    p'.Knows gone ready drained ∧ (p'.sawEpipe = true → gone) := by
  cases h with
  | refused _ hm | closedTest _ hm => cases hm
  | loadOwn | loopTest | sleepingLoad | sleepingStore | woken => exact ⟨trivial, hepipe⟩
  | leaves hpc hown =>
    have hl : p.looping = true := by rcases hpc with hpc | hpc <;> simp [looping, hpc]
    exact knows_leaveLoop p (hready hl hown) hepipe
  | loadFlags => exact ⟨⟨hgone.mp, fun hs => hgone.mpr (hepipe hs)⟩, hepipe⟩
  | waitingLoad hpc | waitingStore hpc | wakeLoad hpc | unwaitLoad hpc =>
    simp only [Knows, hpc] at hk
    exact ⟨hk, hepipe⟩
  | peerClosed hpc hown hclosed =>
    simp only [Knows, hpc] at hk
    have hl : p.looping = true := by simp [looping, hpc]
    have hg := hk.1 hclosed
    exact ⟨⟨fun _ => ⟨hg, hempty hl hown hg⟩, fun hr => by simp [leaveWait] at hr⟩, hepipe⟩
  | probe hpc _ hopen =>
    simp only [Knows, hpc, hopen] at hk
    exact ⟨Bool.eq_false_iff.mpr fun hs => Bool.false_ne_true (hk.2 hs), hepipe⟩
  | turn hpc _ hopen =>
    simp only [Knows, hpc, hopen] at hk
    exact knows_turn p (Bool.eq_false_iff.mpr fun hs => Bool.false_ne_true (hk.2 hs))
  | sawEpipe hpc _ hret =>
    simp only [Knows, hpc] at hk
    exact ⟨trivial, fun _ => hk.1 hret⟩
  | interrupted e hpc hret hne =>
    simp only [Knows, hpc] at hk
    refine ⟨fun he => ?_, hepipe⟩
    exact hne rfl (Option.some.inj ((hk.2 e hret).symm.trans he))
  | interruptedLoad hpc =>
    simp only [Knows, hpc] at hk
    exact ⟨⟨hk, hgone.mp⟩, hepipe⟩
  | interruptedStore hpc =>
    simp only [Knows, hpc] at hk
    exact ⟨⟨fun hr => by simp [leaveWait] at hr, fun _ => hk.1⟩, hepipe⟩
  | unwaitStore hpc =>
    simp only [Knows, hpc] at hk
    exact ⟨fun _ => hk, hepipe⟩

/-- A reader behind the return of a read knows nothing that could be wrong. -/
private theorem afterRet_knows (p : Proc) (hepipe : p.sawEpipe = true → gone) :
    (p.afterRet .read).Knows gone ready drained ∧ ((p.afterRet .read).sawEpipe = true → gone) := by
  unfold afterRet nextPart beginCall
  repeat' split
  all_goals first
    | exact ⟨trivial, hepipe⟩
    | exact ⟨⟨fun hr => by simp at hr, fun _ => by simp⟩, hepipe⟩

/-- A step of the reader alone keeps what it knows true. -/
private theorem tick_knows (hk : p.Knows gone ready drained) (h : p.tick g .read s = some (p', s'))
    (hopen : hasFlag s.readerFlags .closed = false)
    (hgone : hasFlag s.writerFlags .closed = true ↔ gone) (hepipe : p.sawEpipe = true → gone)
    (hready : p.looping = true → p.own ≠ s.write → ready)
    (hempty : p.looping = true → p.own = s.write → gone → drained)
    (hmoved : p.pc = .avail → p.xfer.pc = .done → p.xfer.userBuf < p.xfer.current) :
    p'.Knows gone ready drained ∧ (p'.sawEpipe = true → gone) := by
  have hwait := hk
  cases hpc : p.pc <;> simp only [tick, hpc] at h <;> simp only [Knows, hpc] at hk
  case openLoad | openStore | activeLoad | activeStore =>
    cases h
    exact ⟨trivial, hepipe⟩
  case callTest =>
    rw [Shared.flags, hopen, if_neg Bool.false_ne_true] at h
    cases h
    exact ⟨trivial, hepipe⟩
  case avail =>
    cases hx : p.xfer.pc <;> simp only [tickAvail, hx, reduceCtorEq] at h <;> cases h
    case done =>
      have := hmoved hpc hx
      refine ⟨⟨fun hr => ?_, fun hr => ?_⟩, hepipe⟩
      · simp only at hr
        omega
      · simp only at hr
        omega
    all_goals
      refine ⟨?_, hepipe⟩
      simp only [Knows, hpc]
      exact fun hp => hk (.inl (Transfer.loadRead_of_step hp))
  case inactiveLoad | inactiveStore =>
    cases h
    exact ⟨hk, hepipe⟩
  case ret =>
    cases h
    exact afterRet_knows p hepipe
  case flushTest =>
    split at h <;> cases h <;> exact ⟨trivial, hepipe⟩
  all_goals first
    | exact hk.elim
    | exact waits_knows hwait (waits (m := .read) (g := g) h) hgone hepipe hready hempty

/-- The return of an `ioctl` keeps what the reader knows true, if no probe has failed. -/
private theorem ioctl_knows {r : IoctlResult} (hk : p.Knows gone ready drained)
    (h : p.ioctlReturn g .read r s = some p') (hepipe : p.sawEpipe = true → gone)
    (hask : r = .fail .epipe → p.pc ≠ .probe ∧ (p.pc = .asleep → gone)) :
    p'.Knows gone ready drained ∧ (p'.sawEpipe = true → gone) := by
  have hsaw : (p.noteErrno r).sawEpipe = p.sawEpipe := by cases r <;> rfl
  cases hpc : p.pc <;> simp only [ioctlReturn, hpc, reduceCtorEq] at h <;>
    simp only [Knows, hpc] at hk
  case probe =>
    rw [if_neg fun hr => (hask hr).1 hpc] at h
    cases h
    exact knows_turn _ (hsaw.trans hk)
  case signal | flushSignal =>
    cases h
    exact ⟨trivial, fun hs => hepipe (hsaw ▸ hs)⟩
  case asleep =>
    cases h
    refine ⟨⟨fun hr => (hask hr).2 hpc, fun e hr => ?_⟩, fun hs => hepipe (hsaw ▸ hs)⟩
    simp only at hr
    subst hr
    rfl
  case avail =>
    split at h
    case h_3 => contradiction
    all_goals
      cases h
      refine ⟨?_, fun hs => hepipe (hsaw ▸ hs)⟩
      have hpc' : (p.noteErrno r).pc = .avail := by cases r <;> exact hpc
      simp only [Knows, hpc']
      exact fun hp => hk (.inl (Transfer.loadRead_of_step hp))

/-- What a reader that keeps its handle knows after a step. -/
theorem step_knows (hk : p.Knows gone ready drained) (h : p.step g .read i s = some (p', s'))
    (hfree : i ≠ .free) (hopen : hasFlag s.readerFlags .closed = false)
    (hgone : hasFlag s.writerFlags .closed = true ↔ gone) (hepipe : p.sawEpipe = true → gone)
    (hask : i = .ioctl (.fail .epipe) → p.pc ≠ .probe ∧ (p.pc = .asleep → gone))
    (hready : p.looping = true → p.own ≠ s.write → ready)
    (hempty : p.looping = true → p.own = s.write → gone → drained)
    (hmoved : p.pc = .avail → p.xfer.pc = .done → p.xfer.userBuf < p.xfer.current) :
    p'.Knows gone ready drained ∧ (p'.sawEpipe = true → gone) := by
  cases i with
  | tick => exact tick_knows hk h hopen hgone hepipe hready hempty hmoved
  | ioctl r =>
    simp only [step, Option.map_eq_some_iff, Prod.mk.injEq] at h
    obtain ⟨q, hq, rfl, rfl⟩ := h
    exact ioctl_knows hk hq hepipe fun hr => hask (by rw [hr])
  | transfer fn all buf nbytes mem =>
    simp only [step, beginCall] at h
    (repeat' split at h) <;> cases h
    all_goals first
      | exact ⟨trivial, hepipe⟩
      | exact ⟨⟨fun hr => by simp at hr, fun _ => by simp⟩, hepipe⟩
  | flush =>
    simp only [step] at h
    (repeat' split at h) <;> cases h <;> exact ⟨trivial, hepipe⟩
  | free => exact absurd rfl hfree

end Knows

/-- A read or write was called and has not returned to its caller. -/
def busy (p : Proc) : Bool :=
  match p.pc with
  | .openLoad | .openStore | .idle | .flushTest | .flushSignal
  | .freeLoad | .freeStore | .close | .freed => false
  | _ => true

/-- A step of the waiting loop leaves the length of the request. -/
private theorem waits_nbytes (h : Waits g m p s p' s') : p'.nbytes = p.nbytes ∧ p.busy = true := by
  cases h with
  | leaves hpc =>
    refine ⟨?_, by rcases hpc with hpc | hpc <;> simp [busy, hpc]⟩
    unfold leaveLoop
    split <;> rfl
  | turn hpc =>
    refine ⟨?_, by simp [busy, hpc]⟩
    cases m <;> simp only [endTurn, readerTurn, turn] <;> split_ifs <;> rfl
  | _ => exact ⟨rfl, by simp [busy, *]⟩

/-- A call that goes on behind a return has something to ask for. -/
private theorem afterRet_nbytes (p : Proc) (h : (p.afterRet m).busy = true) :
    0 < (p.afterRet m).nbytes := by
  by_cases hall : p.all = true ∧ ¬ p.retval ≤ 0 ∧ (p.advanceCall p.retval.toNat).nbytes ≠ 0
  · obtain ⟨ha, hr, hn⟩ := hall
    simp only [afterRet, ha, hr, nextPart, hn, if_true, if_false, beginCall]
    split <;> exact Nat.pos_of_ne_zero hn
  · unfold afterRet nextPart at h
    (repeat' split at h) <;> simp_all [busy, finish]

/-- A call in progress has something to ask for. -/
private theorem tick_nbytes (hb : p.busy = true → 0 < p.nbytes) (h : p.tick g m s = some (p', s'))
    (hbusy : p'.busy = true) : 0 < p'.nbytes := by
  cases hpc : p.pc <;> simp only [tick, hpc] at h
  case ret =>
    cases h
    exact afterRet_nbytes p hbusy
  case openLoad | openStore | freeLoad | freeStore | close =>
    cases h
    simp [busy] at hbusy
  case flushTest =>
    split at h <;> cases h <;> simp [busy, finish] at hbusy
  case activeLoad | activeStore | inactiveLoad | inactiveStore =>
    cases h
    exact hb (by simp [busy, hpc])
  case callTest =>
    split at h <;> cases h
    · cases m <;> exact hb (by simp [busy, hpc])
    · exact hb (by simp [busy, hpc])
  case avail =>
    have hn : p'.nbytes = p.nbytes := by
      simp only [tickAvail] at h
      cases m <;> split at h <;> cases h <;> rfl
    rw [hn]
    exact hb (by simp [busy, hpc])
  all_goals
    have hn : p'.nbytes = p.nbytes ∧ p.busy = true := waits_nbytes (waits (g := g) h)
    rw [hn.1]
    exact hb hn.2

/-- A call in progress has bytes left to move, if it was called with any. -/
theorem step_nbytes (hb : p.busy = true → 0 < p.nbytes) (h : p.step g m i s = some (p', s'))
    (hi : ∀ fn all buf nbytes mem, i = .transfer fn all buf nbytes mem → 0 < nbytes)
    (hbusy : p'.busy = true) : 0 < p'.nbytes := by
  cases i with
  | tick => exact tick_nbytes hb h hbusy
  | ioctl r =>
    simp only [step, Option.map_eq_some_iff, Prod.mk.injEq] at h
    obtain ⟨q, hq, rfl, rfl⟩ := h
    have hn : (p.noteErrno r).nbytes = p.nbytes := by cases r <;> rfl
    cases hpc : p.pc <;> simp only [ioctlReturn, hpc, reduceCtorEq] at hq
    case probe =>
      have hpos := hn ▸ hb (by simp [busy, hpc])
      cases m <;> simp only [readerTurn, turn] at hq <;> (repeat' split at hq) <;> cases hq <;>
        exact hpos
    case signal | asleep =>
      cases hq
      exact hn ▸ hb (by simp [busy, hpc])
    case flushSignal =>
      cases hq
      simp [busy, finish] at hbusy
    case avail =>
      have hpos := hn ▸ hb (by simp [busy, hpc])
      split at hq
      case h_3 => contradiction
      all_goals
        cases hq
        exact hpos
  | transfer fn all buf nbytes mem =>
    have hpos := hi fn all buf nbytes mem rfl
    simp only [step, beginCall] at h
    (repeat' split at h) <;> cases h <;> exact hpos
  | flush | free =>
    simp only [step] at h
    (repeat' split at h) <;> cases h <;> simp [busy, finish] at hbusy

/-- What the process knows stays true while the other side moves on. -/
theorem Knows.mono {gone ready drained gone' ready' drained' : Prop}
    (h : p.Knows gone ready drained) (hg : gone → gone') (hr : ready → ready')
    (hd : gone → drained → drained') : p.Knows gone' ready' drained' := by
  unfold Knows at h ⊢
  split at h
  · exact ⟨fun hf => hg (h.1 hf), h.2⟩
  · exact ⟨fun hf => hg (h.1 hf), h.2⟩
  · exact ⟨fun hf => hg (h.1 hf), h.2⟩
  · exact h
  · exact ⟨fun hf => hg (h.1 hf), h.2⟩
  · exact ⟨fun hf => hg (h.1 hf), h.2⟩
  · exact h
  · exact ⟨h.1, fun hf => hg (h.2 hf)⟩
  · exact hr h
  · exact hr h
  · exact fun hx => hr (h hx)
  · exact ⟨fun hz => ⟨hg (h.1 hz).1, hd (h.1 hz).1 (h.1 hz).2⟩, h.2⟩
  · exact ⟨fun hz => ⟨hg (h.1 hz).1, hd (h.1 hz).1 (h.1 hz).2⟩, h.2⟩
  · exact ⟨fun hz => ⟨hg (h.1 hz).1, hd (h.1 hz).1 (h.1 hz).2⟩, h.2⟩
  all_goals trivial

end Proc

namespace System

/-- The runs in which a stream ends: the reader keeps its handle and reads with `nbytes > 0`, and
its `XEN_SHM_IOCTL_AWAIT` fails with `EPIPE` only after the writer has closed the device. -/
def endingInput (s : System) (x : Mod × Input) : Bool :=
  match x with
  | (.write, _) => true
  | (.read, .free) => false
  | (.read, .transfer _ _ _ nbytes _) => 0 < nbytes
  | (.read, .ioctl (.fail .epipe)) =>
    s.writer.pc == .freed || !(s.reader.pc == .asleep || s.reader.pc == .probe)
  | (.read, _) => true

/-- The probe of the active loop does not report a broken pipe, and an interrupted reader does not
overwrite `XSHMP_CLOSED` with the word it loaded before. -/
def keepsLooking (s : System) (x : Mod × Input) : Bool :=
  match x with
  | (.read, .ioctl (.fail .epipe)) => s.reader.pc != .probe
  | (.read, .tick) =>
    !(s.reader.pc == .interruptedStore && hasFlag s.shared.writerFlags .closed &&
      !hasFlag s.reader.tmp .closed)
  | _ => true

/-- What the reader can rely on when a read returns. -/
structure EndsGracefully (s : System) : Prop where
  /-- A read returns 0 only at the end of the stream. -/
  eof : s.reader.pc = .ret → s.reader.retval = 0 →
    hasFlag s.shared.writerFlags .closed = true ∧ s.writer.gone = true ∧ s.handed = s.copied
  /-- No read fails with `EPIPE`. -/
  epipe : s.reader.pc = .ret → s.reader.retval = -1 → s.reader.errno ≠ some .epipe

end System

/-- The invariant of a pipe whose writer may free it. -/
structure Ending (g : Geometry) (s : System) : Prop where
  /-- The streams are what the ring and the indices say. -/
  kept : Kept g s
  /-- The way of an end to its sleep has the marks it needs. -/
  alert : Alert g s
  /-- The writer has its mapping, also while it frees the pipe. -/
  mapped : s.writer.mapped = true
  /-- A writer that is gone has left its flag. -/
  closed : s.writer.gone = true → hasFlag s.shared.writerFlags .closed = true
  /-- A writer that is not gone has not set it. -/
  writerOpen : s.writer.gone = false → s.writer.NotClosed .write s.shared.writerFlags
  /-- The reader has not set its own. -/
  readerOpen : s.reader.NotClosed .read s.shared.readerFlags
  /-- `EPIPE` was seen only from a writer that is gone. -/
  saw : s.reader.sawEpipe = true → s.writer.gone = true
  /-- What the reader knows about the writer and the ring is true. -/
  knows : s.reader.Knows (s.writer.gone = true) (s.Ready g .read) (s.handed = s.copied)
  /-- The reader has bytes to ask for. -/
  nbytes : s.reader.busy = true → 0 < s.reader.nbytes
  /-- The copying loop of the reader moves something. -/
  underway : s.reader.pc = .avail → s.reader.xfer.Underway g .read s.handed.length

section Ending

variable {g : Geometry} {s t : System} {i : Input}

/-- A pipe that was just connected satisfies the invariant. -/
theorem ending_offered (g : Geometry) (conv : Conv) (buffer memReader memWriter : Nat → UInt8) :
    Ending g (.offered conv buffer memReader memWriter) := by
  refine ⟨kept_offered .., .offered .., ?_, ?_, ?_, ?_, ?_, ?_, ?_, ?_⟩
  · cases conv <;> rfl
  · cases conv <;> exact fun h => absurd h Bool.false_ne_true
  · cases conv <;> exact fun _ => ⟨by simp [System.offered, Shared.offered, Shared.setFlags],
      fun h => absurd h Bool.false_ne_true⟩
  · cases conv <;> exact ⟨by simp [System.offered, Shared.offered, Shared.setFlags],
      fun h => absurd h Bool.false_ne_true⟩
  · cases conv <;> exact fun h => absurd h Bool.false_ne_true
  · cases conv <;> exact trivial
  · cases conv <;> exact fun h => absurd h Bool.false_ne_true
  · cases conv <;> exact fun h => Pc.noConfusion h

/-- The flag of the writer says whether it is gone. -/
private theorem Ending.closed_iff (h : Ending g s) :
    hasFlag s.shared.writerFlags .closed = true ↔ s.writer.gone = true := by
  refine ⟨fun hf => ?_, h.closed⟩
  by_contra hg
  have hopen := (h.writerOpen (Bool.eq_false_iff.mpr hg)).1
  simp [hf] at hopen

/-- When the ring is empty behind a writer that is gone, everything was handed over. -/
private theorem Ending.drained (h : Ending g s) (hempty : ¬ s.Ready g .read)
    (hgone : s.writer.gone = true) : s.handed = s.copied := by
  have hk := h.kept
  have hpub : s.published = s.copied.length := hk.writer.synced fun hpc => by
    simp [Proc.gone, hpc] at hgone
  have hlo := hk.released_le
  have hhi := hk.handed_le
  simp only [System.Ready, System.shown, Mod.peer, bound] at hempty
  rw [hk.handed, List.take_of_length_le (by omega)]

/-- The ring is empty, so the reader has nothing to read. -/
private theorem Ending.step_write (h : Ending g s) (hs : s.step g (.write, i) = some t) :
    Ending g t := by
  have hp := System.step_proc hs
  have hf := Proc.step_flags hp
  have hreader : t.reader = s.reader := System.proc_peer_step hs
  have hhanded : t.handed = s.handed := by
    obtain ⟨_, _, _, rfl⟩ := System.step_eq_some hs
    rfl
  have hflags : t.shared.readerFlags = s.shared.readerFlags :=
    hf.foreign.resolve_right fun hx => Mod.noConfusion hx.1
  have hgone : s.writer.gone = true → t.writer.gone = true := fun hg => (hf.done hg).1
  have hcopied : s.writer.gone = true → t.copied = s.copied := by
    intro hg
    obtain ⟨_, _, _, rfl⟩ := System.step_eq_some hs
    have hpc : s.writer.pc ≠ .avail := fun hpc => by simp [Proc.gone, hpc] at hg
    simp [System.record, Proc.moved, hpc]
  refine ⟨h.kept.step hs, h.alert.step h.kept hs, hf.mapped.trans h.mapped, fun hg => ?_,
    fun hg => ?_,
    ?_, fun hsaw => ?_, ?_, ?_, ?_⟩
  · cases hg' : s.writer.gone
    · exact hf.closes hg' hg h.mapped
    · rw [(hf.done hg').2]
      exact h.closed hg'
  · have hg' : s.writer.gone = false := by
      by_contra hne
      simp [hgone (by simpa using hne)] at hg
    exact hf.notClosed (h.writerOpen hg') hg
  · rw [hreader, hflags]
    exact h.readerOpen
  · exact hgone (h.saw (hreader ▸ hsaw))
  · rw [hreader]
    refine h.knows.mono hgone (h.kept.ready_peer_step hs) fun hg hd => ?_
    rw [hhanded, hcopied hg, hd]
  · rw [hreader]
    exact h.nbytes
  · rw [hreader, hhanded]
    exact h.underway

/-- The store of an interrupted reader leaves `XSHMP_CLOSED` as it is. -/
private theorem Ending.closed_step_read (h : Ending g s)
    (hlook : s.keepsLooking (.read, i) = true) (hs : s.step g (.read, i) = some t) :
    hasFlag t.shared.writerFlags .closed = hasFlag s.shared.writerFlags .closed := by
  have hp := System.step_proc hs
  rcases (Proc.step_flags hp).foreign with hsame | ⟨-, hpc, -, hst⟩
  · exact congrArg (hasFlag · .closed) hsame
  · have hpc' : (s.proc .read).pc = .interruptedStore := hpc
    have hknows := h.knows
    simp only [Proc.Knows, show s.reader.pc = .interruptedStore from hpc] at hknows
    have hi : i = .tick := by
      cases i <;> simp [Proc.step, Proc.ioctlReturn, hpc'] at hp ⊢
    subst hi
    rw [hst]
    have htmp : hasFlag s.reader.tmp .closed = hasFlag s.shared.writerFlags .closed := by
      cases hf : hasFlag s.reader.tmp .closed
      · simp only [System.keepsLooking, show s.reader.pc = .interruptedStore from hpc, hf,
          beq_self_eq_true, Bool.true_and, Bool.not_false, Bool.and_true,
          Bool.not_eq_true'] at hlook
        exact hlook.symm
      · exact (h.closed (hknows.2 hf)).symm
    rw [hasFlag_clearFlag]
    exact htmp

/-- An end that does not store its index keeps what it has to move. -/
theorem System.ready_of_publishes {m : Mod} (hs : s.step g (m, i) = some t)
    (hpub : (s.proc m).publishes = false) (hr : s.Ready g m) : t.Ready g m := by
  obtain ⟨p, sh, _, rfl⟩ := System.step_eq_some hs
  cases m <;> simp only [System.proc] at hpub <;>
    simpa [System.Ready, System.shown, System.record, hpub, Mod.peer] using hr

/-- What the reader knows after its step, about the state before. -/
private theorem Ending.step_knows (h : Ending g s) (hi : s.endingInput (.read, i) = true)
    (hlook : s.keepsLooking (.read, i) = true) (hs : s.step g (.read, i) = some t) :
    t.reader.Knows (s.writer.gone = true) (s.Ready g .read) (s.handed = s.copied) ∧
      (t.reader.sawEpipe = true → s.writer.gone = true) := by
  have hk := h.kept
  have hmark : s.reader.looping = true → (s.reader.own = s.shared.write ↔ ¬ s.Ready g .read) := by
    intro hl
    rw [hk.ready_iff .read, ← h.alert.mark .read hl]
    simp [System.proc, Shared.index, Mod.peer]
  refine Proc.step_knows h.knows (System.step_proc hs) ?_ h.readerOpen.1 h.closed_iff h.saw ?_
    (fun hl hne => ?_) (fun hl heq hg => h.drained ((hmark hl).mp heq) hg) fun hpc hdone => ?_
  · rintro rfl
    simp [System.endingInput] at hi
  · rintro rfl
    simp only [System.keepsLooking, bne_iff_ne, ne_eq] at hlook
    refine ⟨hlook, fun hpc => ?_⟩
    have hfreed : s.writer.pc = .freed := by
      simpa [System.endingInput, show s.reader.pc = .asleep from hpc] using hi
    simp [Proc.gone, hfreed]
  · by_contra hr
    exact hne ((hmark hl).mpr hr)
  · obtain ⟨_, _, hsound⟩ := hk.reader.loop hpc
    exact (h.underway hpc).moved hdone hsound.ge

/-- The copying loop of the reader after a step. -/
private theorem Ending.step_underway (h : Ending g s) (hs : s.step g (.read, i) = some t)
    (hnbytes : t.reader.busy = true → 0 < t.reader.nbytes) (hpc' : t.reader.pc = .avail) :
    t.reader.xfer.Underway g .read t.handed.length := by
  have hk := h.kept
  have hp := System.step_proc hs
  have hhanded : t.handed.length = s.handed.length + s.reader.copies := by
    obtain ⟨_, _, _, rfl⟩ := System.step_eq_some hs
    simp [System.record]
  by_cases hpc : s.reader.pc = .avail
  · obtain ⟨stop, _, hsound⟩ := hk.reader.loop hpc
    have hcopies : s.reader.copies = s.reader.xfer.copies := by simp [Proc.copies, hpc]
    have hload : s.reader.xfer.pc = .loadRead ∨ s.reader.xfer.pc = .loadWrite →
        s.released = s.handed.length ∧ s.released < s.published := by
      intro hx
      refine ⟨hk.reader.synced fun _ => ?_, ?_⟩
      · rcases hx with hx | hx <;> simp [Transfer.Synced, hx]
      · have hknows := h.knows
        simp only [Proc.Knows, hpc] at hknows
        exact hknows hx
    rcases (Proc.step_looped hpc hp).next with ⟨_, _, hx⟩ | ⟨_, hx, _⟩
    · rw [hhanded, hcopies, show t.reader.xfer = _ from hx]
      refine (h.underway hpc).step hsound (fun hx => ?_) hk.write ?_ fun hx => ?_
      · rw [← (hload hx).1]
        exact hk.read
      · have hb := g.bufferSize_ge
        have := hk.room
        have := hk.published_le
        have := hk.released_le
        simp only [bound]
        omega
      · have := hload hx
        simp only [bound]
        omega
    · rw [show t.reader.pc = _ from hx] at hpc'
      contradiction
  · rw [show t.reader.xfer = _ from (Proc.step_quiet hpc hp).enter hpc']
    exact Transfer.underway_start g .read _ (hnbytes (by simp [Proc.busy, hpc']))

/-- A step of the reader that does not stop looking keeps the invariant. -/
private theorem Ending.step_read (h : Ending g s) (hi : s.endingInput (.read, i) = true)
    (hlook : s.keepsLooking (.read, i) = true) (hs : s.step g (.read, i) = some t) :
    Ending g t := by
  have hp := System.step_proc hs
  have hf := Proc.step_flags hp
  have hk := h.kept
  have ht := hk.step hs
  have hwriter : t.writer = s.writer := System.proc_peer_step hs
  have hcopied : t.copied = s.copied := by
    obtain ⟨_, _, _, rfl⟩ := System.step_eq_some hs
    rfl
  have hclosed := h.closed_step_read hlook hs
  obtain ⟨hknows, hsaw⟩ := h.step_knows hi hlook hs
  have hnbytes : t.reader.busy = true → 0 < t.reader.nbytes := by
    refine Proc.step_nbytes h.nbytes hp ?_
    rintro fn all buf nbytes mem rfl
    simpa [System.endingInput] using hi
  have hstays : t.reader.gone = false := by
    have hk' := hknows
    cases hpc : t.reader.pc <;> simp [Proc.gone, hpc] <;> simp [Proc.Knows, hpc] at hk'
  refine ⟨ht, h.alert.step hk hs, hwriter ▸ h.mapped, ?_, ?_, hf.notClosed h.readerOpen hstays,
    ?_, ?_,
    hnbytes, h.step_underway hs hnbytes⟩
  · rw [hwriter, hclosed]
    exact h.closed
  · rw [hwriter]
    exact fun hg => ⟨hclosed.trans (h.writerOpen hg).1, (h.writerOpen hg).2⟩
  · rw [hwriter]
    exact hsaw
  · rw [hwriter]
    cases hpub : s.reader.publishes
    · refine Proc.Knows.mono hknows id (System.ready_of_publishes hs hpub) fun _ hd => ?_
      have hgrow : s.handed.length ≤ t.handed.length := by
        obtain ⟨_, _, _, rfl⟩ := System.step_eq_some hs
        simp [System.record]
      have hle := ht.handed_le.trans ht.published_le
      rw [hd, ← hcopied] at hgrow
      rw [ht.handed, List.take_of_length_le hgrow]
    · -- the index is stored between two rounds of the loop
      simp only [Proc.publishes, decide_eq_true_eq] at hpub
      rcases (Proc.step_looped hpub.1 hp).next with ⟨_, hpc, hx⟩ | ⟨hdone, _, _⟩
      · simp only [Proc.Knows, show t.reader.pc = .avail from hpc, show t.reader.xfer = _ from hx]
        intro hload
        simp [Transfer.step, hpub.2] at hload
      · rw [show s.reader.xfer.pc = _ from hpub.2] at hdone
        contradiction

/-- Every step of a run that keeps looking. -/
theorem Ending.step (h : Ending g s) {x : Mod × Input} (hi : s.endingInput x = true)
    (hlook : s.keepsLooking x = true) (hs : s.step g x = some t) : Ending g t := by
  obtain ⟨m, i⟩ := x
  cases m
  · exact h.step_write hs
  · exact h.step_read hi hlook hs

/-- A stream ends gracefully in every run whose steps keep looking: a read returns 0 only when the
writer has closed and everything was delivered, and no read fails with `EPIPE`. -/
theorem ends_gracefully {conv : Conv} {buffer memReader memWriter : Nat → UInt8}
    (h : Reaches (System.step g) (fun s x => s.endingInput x && s.keepsLooking x)
      (.offered conv buffer memReader memWriter) s) : s.EndsGracefully := by
  have he : Ending g s := by
    apply h.invariant (ending_offered g conv buffer memReader memWriter)
    intro s x t he hx hs
    rw [Bool.and_eq_true] at hx
    exact he.step hx.1 hx.2 hs
  refine ⟨fun hpc hzero => ?_, fun hpc hfail => ?_⟩
  · have hknows := he.knows
    simp only [Proc.Knows, hpc] at hknows
    obtain ⟨hgone, hdrained⟩ := hknows.1 hzero
    exact ⟨he.closed hgone, hgone, hdrained⟩
  · have hknows := he.knows
    simp only [Proc.Knows, hpc] at hknows
    exact hknows.2 hfail

/-- The user of the reader asks for one byte. -/
private def readOneByte : List (Mod × Input) :=
  System.input .read (.transfer .read false 0 1 fun _ => 0)

/-- The writer is active, so the reader does not fall asleep. -/
private def oneByteThenEnd : List (Mod × Input) :=
  System.ticks .write 2 ++ System.input .write (.transfer .write false 0 1 fun _ => 65) ++
  System.ticks .write 21 ++ System.input .write .free ++ System.ticks .write 3 ++ readOneByte ++
  System.ticks .read 20 ++ readOneByte ++ System.ticks .read 11

/-- One byte is written and read, the writer frees the pipe, and the next read returns the end of
file. -/
theorem ends_gracefully_oneByte : ∃ s : System, s.reader.pc = .ret ∧ s.reader.retval = 0 ∧
    s.handed = [65] ∧ s.EndsGracefully := by
  have hrun : (run (System.step .onePage) (fun s x => s.endingInput x && s.keepsLooking x)
      (.offered .readerOffers (fun _ => 0) (fun _ => 0) fun _ => 0) oneByteThenEnd).any
      (fun s => s.reader.pc = .ret ∧ s.reader.retval = 0 ∧ s.handed = [65]) = true := by
    decide +kernel
  obtain ⟨s, hs, hp⟩ := exists_reaches_of_run hrun
  obtain ⟨hpc, hret, hhanded⟩ := of_decide_eq_true hp
  exact ⟨s, hpc, hret, hhanded, ends_gracefully hs⟩

end Ending

/-- A reader in the active loop beside a writer that is active and does not get on. -/
structure Spins (s : System) : Prop where
  /-- The reader is at the condition of the loop. -/
  pc : s.reader.pc = .loopTest
  /-- The ring is empty. -/
  empty : s.reader.own = s.shared.write
  /-- The last snapshot of the flags of the writer is up to date. -/
  seen : s.reader.peerFlags = s.shared.writerFlags
  /-- The last load of the own word. -/
  tmp : s.reader.tmp = s.shared.readerFlags
  /-- The own flag of the reader is raised. -/
  raised : setFlag s.shared.readerFlags .waiting = s.shared.readerFlags
  /-- The own flag of the reader will be cleared. -/
  unset : s.reader.unsetWait = true
  /-- The reader has not met `EPIPE` so far. -/
  saw : s.reader.sawEpipe = false
  /-- The writer has not closed the pipe. -/
  closed : hasFlag s.shared.writerFlags .closed = false
  /-- The writer does not sleep. -/
  sleeping : hasFlag s.shared.writerFlags .sleeping = false
  /-- The writer does not wait. -/
  waiting : hasFlag s.shared.writerFlags .waiting = false
  /-- The writer is active. -/
  active : hasFlag s.shared.writerFlags .active = true

/-- The same pipe with the local variables of the reader replaced. -/
def System.withReader (s : System) (p : Proc) : System := { s with reader := p }

/-- The process with `n` turns left on both of its counters. -/
def Proc.turnsLeft (p : Proc) (n : Nat) : Proc := { p with loopCount := n, activeCount := n }

/-- A process with so many turns left on both counters is itself. -/
private theorem Proc.turnsLeft_self {p : Proc} {n : Nat} (hloop : p.loopCount = n)
    (hactive : p.activeCount = n) : p.turnsLeft n = p := by
  subst hloop
  obtain ⟨_⟩ := p
  simp_all [turnsLeft]

/-- A step of the reader that stores nothing and copies nothing. -/
private theorem reaches_readerTick {g : Geometry} {s : System} {p p' : Proc} (hpc : p.pc ≠ .avail)
    (h : p.tick g .read s.shared = some (p', s.shared)) :
    Reaches (System.step g) System.endingInput (s.withReader p) (s.withReader p') := by
  refine .single ⟨(.read, .tick), rfl, ?_⟩
  simp [System.step, System.proc, Proc.step, System.withReader, h, System.record, Proc.moved,
    Proc.publishes, hpc]

/-- One turn of the active loop takes one from both counters and leaves the rest. -/
private theorem Spins.turn {g : Geometry} {s : System} (h : Spins s) (n : Nat) :
    Reaches (System.step g) System.endingInput (s.withReader (s.reader.turnsLeft (n + 2)))
      (s.withReader (s.reader.turnsLeft (n + 1))) := by
  obtain ⟨hpc, hempty, hseen, htmp, hraised, hunset, hsaw, hclosed, hsleeping, hwaiting,
    hactive⟩ := h
  let p := s.reader.turnsLeft (n + 2)
  let q := { s.reader.turnsLeft (n + 2) with loopCount := n + 1 }
  have htest : Reaches (System.step g) System.endingInput (s.withReader p)
      (s.withReader { p with pc := .loadFlags }) :=
    reaches_readerTick (by simp [p, Proc.turnsLeft, hpc])
      (by simp [p, Proc.turnsLeft, Proc.tick, Proc.waitReader, hpc, hempty])
  have hlook : Reaches (System.step g) System.endingInput (s.withReader { p with pc := .loadFlags })
      (s.withReader { q with pc := .waitingLoad }) :=
    reaches_readerTick (by simp)
      (by simp [p, q, Proc.turnsLeft, Proc.tick, Proc.waitReader, hseen])
  have hload : Reaches (System.step g) System.endingInput
      (s.withReader { q with pc := .waitingLoad })
      (s.withReader { q with pc := .waitingStore }) :=
    reaches_readerTick (by simp) (by simp [q, Proc.turnsLeft, Proc.tick, Proc.waitReader, htmp])
  have hstore : Reaches (System.step g) System.endingInput
      (s.withReader { q with pc := .waitingStore })
      (s.withReader { q with pc := .recheck }) :=
    reaches_readerTick (by simp)
      (by simp [q, Proc.turnsLeft, Proc.tick, Proc.waitReader, htmp, hraised, hunset])
  have hcheck : Reaches (System.step g) System.endingInput (s.withReader { q with pc := .recheck })
      (s.withReader (s.reader.turnsLeft (n + 1))) :=
    reaches_readerTick (by simp)
      (by simp [q, Proc.turnsLeft, Proc.tick, Proc.waitReader, Proc.readerTurn, Proc.turn, hpc,
        hempty,
        hseen, hclosed, hsleeping, hwaiting, hactive, hsaw])
  exact htest.trans (hlook.trans (hload.trans (hstore.trans hcheck)))

/-- The active loop runs until its last turn is left. -/
private theorem Spins.lastTurn {g : Geometry} {s : System} (h : Spins s) (n : Nat) :
    Reaches (System.step g) System.endingInput (s.withReader (s.reader.turnsLeft (n + 1)))
      (s.withReader (s.reader.turnsLeft 1)) := by
  induction n with
  | zero => exact .refl
  | succ n ih => exact (h.turn n).trans ih

/-- A sleeping reader is interrupted, and the writer closes between the load and the store of its
flags by that reader; the next read sees `EPIPE` but no `XSHMP_CLOSED`. -/
private def lostClosed : List (Mod × Input) :=
  System.ticks .write 2 ++ readOneByte ++ System.ticks .read 11 ++
  System.input .read (.ioctl (.fail .eintr)) ++ System.ticks .read 3 ++
  System.input .write .free ++ System.ticks .write 3 ++ System.ticks .read 4 ++ readOneByte ++
  System.ticks .read 11 ++ System.input .read (.ioctl (.fail .epipe)) ++ System.ticks .read 9

/-- A writer stops inside a write of one byte, and the reader makes its first two turns. -/
private def firstTurns : List (Mod × Input) :=
  System.ticks .write 2 ++ System.input .write (.transfer .write false 0 1 fun _ => 65) ++
  System.ticks .write 6 ++ readOneByte ++ System.ticks .read 14

/-- In its last turn the reader makes the probe; the writer finishes its write and closes first. -/
private def lastTurn : List (Mod × Input) :=
  System.ticks .read 5 ++ System.ticks .write 15 ++ System.input .write .free ++
  System.ticks .write 3 ++ System.input .read (.ioctl (.fail .epipe)) ++ System.ticks .read 2

/-- The pipe when the reader has made the first turns of its active loop. -/
private def spinning : System :=
  (run (System.step .onePage) System.endingInput .fresh firstTurns).get (by decide +kernel)

/-- The reader of this pipe spins. -/
private theorem spinning_spins : Spins spinning := by
  constructor <;> decide +kernel

/-- All turns of the active loop but the last are reached. -/
private theorem reaches_lastTurn : Reaches (System.step .onePage) System.endingInput .fresh
    (spinning.withReader (spinning.reader.turnsLeft 1)) := by
  have hfirst : Reaches (System.step .onePage) System.endingInput .fresh spinning :=
    reaches_of_run (Option.some_get _).symm
  have hself : spinning.reader.turnsLeft (9997 + 1) = spinning.reader :=
    Proc.turnsLeft_self (by decide +kernel) (by decide +kernel)
  have hspin := spinning_spins.lastTurn (g := .onePage) 9997
  rw [hself] at hspin
  exact hfirst.trans hspin

/-- A stream does not always end gracefully: a read that wakes up after `XSHMP_CLOSED` was
overwritten fails with `EPIPE`, and so does one whose probe finds the device closed, with a byte
left in the ring. -/
theorem not_always_ends_gracefully :
    (∃ s, Reaches (System.step .onePage) System.endingInput .fresh s ∧ s.writer.pc = .freed ∧
      hasFlag s.shared.writerFlags .closed = false ∧ ¬ s.EndsGracefully) ∧
    ∃ s, Reaches (System.step .onePage) System.endingInput .fresh s ∧ s.writer.pc = .freed ∧
      hasFlag s.shared.writerFlags .closed = true ∧ s.handed = [] ∧ s.copied = [65] ∧
      ¬ s.EndsGracefully := by
  have hfails : ∀ s : System, s.reader.pc = .ret ∧ s.reader.retval = -1 ∧
      s.reader.errno = some .epipe → ¬ s.EndsGracefully :=
    fun s hp h => h.epipe hp.1 hp.2.1 hp.2.2
  constructor
  · have hrun : (run (System.step .onePage) System.endingInput .fresh lostClosed).any
        (fun s => s.writer.pc = .freed ∧ hasFlag s.shared.writerFlags .closed = false ∧
          s.reader.pc = .ret ∧ s.reader.retval = -1 ∧ s.reader.errno = some .epipe) = true := by
      decide +kernel
    obtain ⟨s, hs, hp⟩ := exists_reaches_of_run hrun
    obtain ⟨hw, hc, hr⟩ := of_decide_eq_true hp
    exact ⟨s, hs, hw, hc, hfails s hr⟩
  · have hrun : (run (System.step .onePage) System.endingInput
        (spinning.withReader (spinning.reader.turnsLeft 1)) lastTurn).any
        (fun s => s.writer.pc = .freed ∧ hasFlag s.shared.writerFlags .closed = true ∧
          s.handed = [] ∧ s.copied = [65] ∧
          s.reader.pc = .ret ∧ s.reader.retval = -1 ∧ s.reader.errno = some .epipe) = true := by
      decide +kernel
    obtain ⟨s, hs, hp⟩ := exists_reaches_of_run hrun
    obtain ⟨hw, hc, hhanded, hcopied, hr⟩ := of_decide_eq_true hp
    exact ⟨s, reaches_lastTurn.trans hs, hw, hc, hhanded, hcopied, hfails s hr⟩

end XenShm.Pipe
