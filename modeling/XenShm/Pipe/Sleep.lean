import XenShm.Pipe.Integrity

/-!
# The two ends never sleep together

An end that is about to sleep has looked at the flags of its peer, raised its own
`XSHMP_WAITING` and then tested the ring again. The invariant follows this
decision: once it is taken, the flag stays raised until the call ends, so a peer
that looks later stays awake, and a peer that looked before finds something to
move when it tests the ring again, since the ring is not both empty and full.
-/

namespace XenShm.Pipe

open XenShm.Library

/-- How far an end has come on its way to sleep. -/
inductive Phase where
  /-- Not on the way, or kept from it by the flags it saw. -/
  | awake
  /-- The flags of the peer were read without `XSHMP_WAITING`. -/
  | looked
  /-- The own flag is raised and the second test of the ring is next. -/
  | checking
  /-- The second test for something to move has failed. -/
  | resolved
  deriving DecidableEq, Repr

namespace Proc

/-- Whether the snapshot of the flags keeps the process awake, or else the given phase. -/
def unlessWaiting (p : Proc) (f : Phase) : Phase :=
  if hasFlag p.peerFlags .waiting then .awake else f

/-- The phase of a process on its way to sleep, by where it stands. -/
def phase (p : Proc) : Phase :=
  match p.pc with
  | .waitingLoad | .waitingStore => p.unlessWaiting .looked
  | .recheck => p.unlessWaiting .checking
  | .probe => p.unlessWaiting .resolved
  | .sleepingLoad | .sleepingStore | .asleep | .wakeLoad | .wakeStore
  | .interruptedLoad | .interruptedStore => .resolved
  | _ => .awake

/-- The points of the waiting loop, where `read_p` or `write_p` is set. -/
def looping (p : Proc) : Bool :=
  match p.pc with
  | .loopTest | .loadFlags | .waitingLoad | .waitingStore | .recheck | .probe | .signal
  | .sleepingLoad | .sleepingStore | .asleep | .wakeLoad | .wakeStore => true
  | _ => false

/-- The own flag is raised, and so is the flag in the word about to be stored. -/
def Raised (p : Proc) (f : Flags) : Prop :=
  hasFlag f .waiting = true ∧
    (p.pc = .sleepingStore ∨ p.pc = .wakeStore → hasFlag p.tmp .waiting = true)

end Proc

/-- The value the index of the peer has when there is nothing to move. -/
def waitMark (g : Geometry) (m : Mod) (i : Nat) : Nat :=
  match m with
  | .read => i
  | .write => if i + 1 = g.bufferSize then 0 else i + 1

/-- The end has something to move: published bytes, or free slots. -/
def System.Ready (g : Geometry) (s : System) (m : Mod) : Prop :=
  s.shown m < bound g m (s.shown m.peer)

/-- What one step of the end `m` does on the way to sleep. -/
inductive PhaseStep (m : Mod) (p p' : Proc) (s s' : Shared) : Prop where
  /-- The end is awake afterwards. Only an interrupted reader touches the flags of its peer. -/
  | wakes (next : p'.phase = .awake)
      (peer : s'.flags m.peer = s.flags m.peer ∨ p.phase = .resolved)
  /-- The end looks at its peer and takes a snapshot of its flags. -/
  | looks (next : p'.phase = .looked) (same : s' = s)
      (seen : hasFlag (s.flags m.peer) .waiting = false)
  /-- Between the look and the store of the own flag. -/
  | stays (cur : p.phase = .looked) (next : p'.phase = .looked) (same : s' = s)
  /-- The own flag is raised for the peer to see. -/
  | raises (cur : p.phase = .looked) (next : p'.phase = .checking)
      (own : hasFlag (s'.flags m) .waiting = true) (peer : s'.flags m.peer = s.flags m.peer)
  /-- The second test of the ring fails. -/
  | resolves (cur : p.phase = .checking) (next : p'.phase = .resolved) (same : s' = s)
      (test : p.own = s.index m.peer) (loop : p.looping = true)
      (own : hasFlag (s.flags m) .waiting = true → p'.Raised (s.flags m))
  /-- The end is going to sleep, sleeping or waking up. -/
  | keeps (cur : p.phase = .resolved) (next : p'.phase = .resolved)
      (own : p.Raised (s.flags m) → p'.Raised (s'.flags m))
      (peer : s'.flags m.peer = s.flags m.peer)

namespace Proc

variable {g : Geometry} {m : Mod} {i : Input} {p p' : Proc} {s s' : Shared}

/-- An end that leaves its loop is not on its way to sleep. -/
private theorem leaveLoop_phase (p : Proc) : p.leaveLoop.phase = .awake := by
  unfold leaveLoop
  split_ifs <;> rfl

/-- The tail of a turn decides to sleep only without `XSHMP_WAITING` in the snapshot. -/
private theorem turn_phase (p : Proc) :
    p.turn.phase = .awake ∨
      hasFlag p.peerFlags .waiting = false ∧ p.turn = { p with pc := .sleepingLoad } := by
  unfold turn
  split_ifs with h1 h2 h3
  · exact .inl rfl
  · exact .inl rfl
  · exact .inl rfl
  · exact .inr ⟨by simpa using h2, rfl⟩

/-- A reader goes to sleep only when it saw that its peer does not wait. -/
private theorem readerTurn_phase (p : Proc) :
    p.readerTurn.phase = .awake ∨
      hasFlag p.peerFlags .waiting = false ∧ p.readerTurn = { p with pc := .sleepingLoad } := by
  unfold readerTurn
  split_ifs
  · exact .inl rfl
  · exact turn_phase p

/-- A turn taken after the second test of the ring, from a process with the same snapshot. -/
private theorem phaseStep_turn {q q' : Proc} (hpc : p.pc = .recheck)
    (hq : q.peerFlags = p.peerFlags) (test : p.own = s.index m.peer)
    (hturn : q'.phase = .awake ∨ hasFlag q.peerFlags .waiting = false ∧
      q' = { q with pc := .sleepingLoad }) : PhaseStep m p q' s s := by
  rcases hturn with h | ⟨hw, rfl⟩
  · exact .wakes h (.inl rfl)
  · rw [hq] at hw
    refine .resolves ?_ rfl rfl test (by simp [looping, hpc]) fun hf => ⟨hf, by simp⟩
    simp [phase, hpc, unlessWaiting, hw]

/-- The second test of the ring has failed when a probe is made. -/
private theorem phaseStep_probe (hpc : p.pc = .recheck) (test : p.own = s.index m.peer) :
    PhaseStep m p { p with pc := .probe } s s := by
  by_cases hw : hasFlag p.peerFlags .waiting = true
  · exact .wakes (by simp [phase, unlessWaiting, hw]) (.inl rfl)
  · refine .resolves ?_ ?_ rfl test (by simp [looping, hpc]) fun hf => ⟨hf, by simp⟩
    · simp [phase, hpc, unlessWaiting, hw]
    · simp [phase, unlessWaiting, hw]

/-- The end that takes the snapshot of the flags has looked. -/
private theorem phaseStep_look (n : Nat) :
    PhaseStep m p
      { p with peerFlags := s.flags m.peer, loopCount := n, pc := .waitingLoad } s s := by
  by_cases hw : hasFlag (s.flags m.peer) .waiting = true
  · exact .wakes (by simp [phase, unlessWaiting, hw]) (.inl rfl)
  · exact .looks (by simp [phase, unlessWaiting, hw]) rfl (by simpa using hw)

/-- The own flag word is loaded, to be stored with `XSHMP_WAITING` raised. -/
private theorem phaseStep_load (f : Flags) (hpc : p.pc = .waitingLoad) :
    PhaseStep m p { p with tmp := f, pc := .waitingStore } s s := by
  by_cases hw : hasFlag p.peerFlags .waiting = true
  · exact .wakes (by simp [phase, unlessWaiting, hw]) (.inl rfl)
  · refine .stays ?_ ?_ rfl
    · simp [phase, hpc, unlessWaiting, hw]
    · simp [phase, unlessWaiting, hw]

/-- The end that raises its own flag goes on to the second test. -/
private theorem phaseStep_raise (hpc : p.pc = .waitingStore) :
    PhaseStep m p { p with unsetWait := true, pc := .recheck } s
      (s.setFlags m (setFlag p.tmp .waiting)) := by
  by_cases hw : hasFlag p.peerFlags .waiting = true
  · exact .wakes (by simp [phase, unlessWaiting, hw]) (.inl (by simp))
  · refine .raises ?_ ?_ (by simp) (by simp)
    · simp [phase, hpc, unlessWaiting, hw]
    · simp [phase, unlessWaiting, hw]

/-- An end goes to sleep only when it saw that its peer does not wait. -/
private theorem endTurn_phase (m : Mod) (p : Proc) : (p.endTurn m).phase = .awake ∨
    hasFlag p.peerFlags .waiting = false ∧ p.endTurn m = { p with pc := .sleepingLoad } := by
  cases m with
  | read => exact readerTurn_phase p
  | write => exact turn_phase p

/-- Every access of a waiting function is one of these steps. -/
private theorem waits_phase (h : Waits g m p s p' s') : PhaseStep m p p' s s' := by
  cases h with
  | leaves => exact .wakes (leaveLoop_phase p) (.inl rfl)
  | loadFlags => exact phaseStep_look _
  | waitingLoad hpc => exact phaseStep_load _ hpc
  | waitingStore hpc => exact phaseStep_raise hpc
  | probe hpc hown => exact phaseStep_probe hpc hown
  | turn hpc hown => exact phaseStep_turn hpc rfl hown (endTurn_phase m p)
  | sleepingLoad hpc | wakeLoad hpc =>
    exact .keeps (by simp [phase, hpc]) rfl (fun hr => ⟨hr.1, fun _ => hr.1⟩) rfl
  | sleepingStore hpc =>
    refine .keeps (by simp [phase, hpc]) rfl (fun hr => ⟨?_, by simp⟩) (by simp)
    simpa using hr.2 (.inl hpc)
  | interrupted e hpc =>
    refine .keeps (by simp [phase, hpc]) rfl (fun hr => ⟨?_, by simp⟩) (by simp)
    simpa using hr.2 (.inr hpc)
  | interruptedLoad hpc =>
    exact .keeps (by simp [phase, hpc]) rfl (fun hr => ⟨hr.1, by simp⟩) rfl
  -- a reader has touched the flags of its peer
  | interruptedStore hpc => exact .wakes rfl (.inr (by simp [phase, hpc]))
  | woken | sawEpipe | unwaitStore => exact .wakes rfl (.inl (by simp))
  | _ => exact .wakes rfl (.inl rfl)

/-- Outside the waiting loop nobody is on the way to sleep. -/
private theorem phaseStep_awake (h : p'.phase = .awake) (f : Flags) :
    PhaseStep m p p' s (s.setFlags m f) :=
  .wakes h (.inl (by simp))

/-- A call that begins is not on its way to sleep. -/
private theorem beginCall_phase (m fn : Mod) (p : Proc) : (p.beginCall m fn).phase = .awake := by
  unfold beginCall
  split_ifs <;> rfl

/-- A call that returns is not on its way to sleep. -/
private theorem afterRet_phase (m : Mod) (p : Proc) : (p.afterRet m).phase = .awake := by
  unfold afterRet nextPart
  repeat' split
  all_goals first
    | exact beginCall_phase _ _ _
    | rfl

/-- Every step of the process alone is one of these steps. -/
private theorem tick_phase (h : p.tick g m s = some (p', s')) : PhaseStep m p p' s s' := by
  cases hpc : p.pc
  case avail =>
    have hl := step_looped (i := .tick) hpc h
    refine .wakes ?_ (.inl (hl.flags m.peer))
    rcases hl.next with ⟨_, hp, _⟩ | ⟨_, hp, _⟩ <;> simp [phase, hp]
  all_goals simp only [tick, hpc] at h
  case callTest | flushTest =>
    split at h <;> simp only [Option.some.injEq, Prod.mk.injEq] at h <;> obtain ⟨rfl, rfl⟩ := h
    · exact .wakes (by cases m <;> rfl) (.inl rfl)
    · exact .wakes rfl (.inl rfl)
  case ret =>
    simp only [Option.some.injEq, Prod.mk.injEq] at h
    obtain ⟨rfl, rfl⟩ := h
    exact .wakes (afterRet_phase m p) (.inl rfl)
  case openLoad | activeLoad | inactiveLoad | freeLoad | close =>
    simp only [Option.some.injEq, Prod.mk.injEq] at h
    obtain ⟨rfl, rfl⟩ := h
    exact .wakes rfl (.inl rfl)
  case openStore | activeStore | inactiveStore | freeStore =>
    simp only [Option.some.injEq, Prod.mk.injEq] at h
    obtain ⟨rfl, rfl⟩ := h
    exact phaseStep_awake (by cases m <;> rfl) _
  all_goals exact waits_phase (waits (g := g) h)

/-- The return of an `ioctl` is one of these steps. -/
private theorem ioctl_phase {r : IoctlResult} (h : p.ioctlReturn g m r s = some p') :
    PhaseStep m p p' s s := by
  have hkeep : (p.noteErrno r).peerFlags = p.peerFlags := by cases r <;> rfl
  unfold ioctlReturn at h
  split at h
  case h_1 hpc =>
    split_ifs at h
    · cases h
      exact .wakes rfl (.inl rfl)
    · have hturn : ∀ q : Proc, q.phase = .awake ∨ hasFlag p.peerFlags .waiting = false ∧
          q.pc = .sleepingLoad → PhaseStep m p q s s := by
        rintro q (hq | ⟨hw, hq⟩)
        · exact .wakes hq (.inl rfl)
        · refine .keeps ?_ ?_ (fun hr => ⟨hr.1, by simp [hq]⟩) rfl
          · simp [phase, hpc, unlessWaiting, hw]
          · simp [phase, hq]
      apply hturn
      cases m <;> cases h
      · rcases turn_phase { p.noteErrno r with loopCount := waitLoopLimit } with h | ⟨hw, h⟩
        · exact .inl h
        · exact .inr ⟨hkeep ▸ hw, by rw [h]⟩
      · rcases readerTurn_phase { p.noteErrno r with loopCount := waitLoopLimit } with h | ⟨hw, h⟩
        · exact .inl h
        · exact .inr ⟨hkeep ▸ hw, by rw [h]⟩
  case h_3 hpc =>
    cases h
    exact .keeps (by simp [phase, hpc]) rfl (fun hr => ⟨hr.1, by simp⟩) rfl
  case h_4 hpc =>
    split at h
    case h_3 => contradiction
    all_goals
      cases h
      exact .wakes (by cases r <;> simp [phase, noteErrno, hpc]) (.inl rfl)
  case h_6 => contradiction
  all_goals
    cases h
    exact .wakes rfl (.inl rfl)

/-- Every step of an end on its way to sleep. -/
theorem step_phase (h : p.step g m i s = some (p', s')) : PhaseStep m p p' s s' := by
  cases i with
  | tick => exact tick_phase h
  | ioctl r =>
    simp only [step, Option.map_eq_some_iff, Prod.mk.injEq] at h
    obtain ⟨q, hq, rfl, rfl⟩ := h
    exact ioctl_phase hq
  | transfer fn all buf nbytes mem =>
    simp only [step] at h
    split_ifs at h <;> simp only [Option.some.injEq, Prod.mk.injEq] at h <;>
      obtain ⟨rfl, rfl⟩ := h
    · exact .wakes rfl (.inl rfl)
    · exact .wakes (beginCall_phase _ _ _) (.inl rfl)
  | flush | free =>
    simp only [step] at h
    split_ifs at h <;> simp only [Option.some.injEq, Prod.mk.injEq] at h <;>
      obtain ⟨rfl, rfl⟩ := h <;> exact .wakes rfl (.inl rfl)

private theorem leaveLoop_looping (p : Proc) : p.leaveLoop.looping = false := by
  unfold leaveLoop
  split_ifs <;> rfl

/-- A further turn keeps the index that was loaded. -/
private theorem turn_own (p : Proc) : p.turn.own = p.own := by
  unfold turn
  split_ifs <;> rfl

/-- A further turn of the reader keeps the index that was loaded. -/
private theorem readerTurn_own (p : Proc) : p.readerTurn.own = p.own := by
  unfold readerTurn
  split_ifs
  · rfl
  · exact turn_own p

/-- The end of a turn keeps the index that was loaded. -/
private theorem endTurn_own (m : Mod) (p : Proc) : (p.endTurn m).own = p.own := by
  cases m with
  | read => exact readerTurn_own p
  | write => exact turn_own p

/-- Inside the loop the end knows the index by which it waits, from its load on. -/
private theorem waits_own (h : Waits g m p s p' s') (hl : p'.looping = true) :
    p'.own = waitMark g m (s.index m) ∨ p.looping = true ∧ p'.own = p.own := by
  cases h with
  | loadOwn own _ hread hwrite =>
    refine .inl ?_
    cases m with
    | read => exact hread rfl
    | write => exact hwrite rfl
  | loopTest hpc | loadFlags hpc | waitingLoad hpc | waitingStore hpc | probe hpc | sleepingLoad hpc
    | sleepingStore hpc | wakeLoad hpc | woken hpc | sawEpipe hpc =>
    exact .inr ⟨by simp [looping, hpc], rfl⟩
  | turn hpc => exact .inr ⟨by simp [looping, hpc], endTurn_own m p⟩
  | leaves => exact absurd ((leaveLoop_looping p).symm.trans hl) Bool.false_ne_true
  | _ => exact absurd hl Bool.false_ne_true

private theorem beginCall_looping (m fn : Mod) (p : Proc) : (p.beginCall m fn).looping = false := by
  unfold beginCall
  split_ifs <;> rfl

private theorem afterRet_looping (m : Mod) (p : Proc) : (p.afterRet m).looping = false := by
  unfold afterRet nextPart
  repeat' split
  all_goals first
    | exact beginCall_looping _ _ _
    | rfl

/-- Inside the loop the end knows the index by which it waits, whatever step it takes. -/
private theorem tick_own (h : p.tick g m s = some (p', s')) (hl : p'.looping = true) :
    p'.own = waitMark g m (s.index m) ∨ p.looping = true ∧ p'.own = p.own := by
  cases hpc : p.pc
  case avail =>
    rcases (step_looped (i := .tick) hpc h).next with ⟨_, hp, _⟩ | ⟨_, hp, _⟩ <;>
      simp [looping, hp] at hl
  all_goals simp only [tick, hpc] at h
  case callTest | flushTest | openLoad | activeLoad | inactiveLoad | freeLoad | close | openStore
      | activeStore | inactiveStore | freeStore | ret =>
    cases m <;> (repeat' split at h) <;> simp only [Option.some.injEq, Prod.mk.injEq] at h <;>
      obtain ⟨rfl, rfl⟩ := h <;> first
    | exact absurd hl Bool.false_ne_true
    | exact absurd ((afterRet_looping _ p).symm.trans hl) Bool.false_ne_true
  all_goals exact waits_own (waits (g := g) h) hl

/-- The mark of the waiting loop is computed from the own index when the loop is entered. -/
theorem step_own (h : p.step g m i s = some (p', s')) (hl : p'.looping = true) :
    p'.own = waitMark g m (s.index m) ∨ p.looping = true ∧ p'.own = p.own := by
  cases i with
  | tick => exact tick_own h hl
  | ioctl r =>
    simp only [step, Option.map_eq_some_iff, Prod.mk.injEq] at h
    obtain ⟨q, hq, rfl, rfl⟩ := h
    have hkeep : (p.noteErrno r).own = p.own := by cases r <;> rfl
    unfold ioctlReturn at hq
    split at hq
    case h_1 hpc =>
      refine .inr ⟨by simp [looping, hpc], ?_⟩
      split_ifs at hq
      · cases hq
        exact hkeep
      · cases m <;> cases hq
        · exact (turn_own _).trans hkeep
        · exact (readerTurn_own _).trans hkeep
    case h_2 hpc | h_3 hpc =>
      cases hq
      exact .inr ⟨by simp [looping, hpc], hkeep⟩
    case h_4 hpc =>
      split at hq <;> cases hq <;> cases r <;> simp [looping, noteErrno, hpc] at hl
    case h_5 =>
      cases hq
      simp [looping, finish] at hl
    case h_6 => contradiction
  | transfer fn all buf nbytes mem =>
    simp only [step] at h
    split_ifs at h <;> simp only [Option.some.injEq, Prod.mk.injEq] at h <;>
      obtain ⟨rfl, rfl⟩ := h
    · exact absurd hl Bool.false_ne_true
    · exact absurd hl (by simp [beginCall_looping])
  | flush | free =>
    simp only [step] at h
    split_ifs at h <;> simp only [Option.some.injEq, Prod.mk.injEq] at h <;>
      obtain ⟨rfl, rfl⟩ := h <;> exact absurd hl Bool.false_ne_true

end Proc

/-- What the invariant says about the way to sleep. -/
structure Alert (g : Geometry) (s : System) : Prop where
  /-- The mark belongs to the own index. -/
  mark : ∀ m, (s.proc m).looping = true → (s.proc m).own = waitMark g m (s.shared.index m)
  /-- An end that has taken the decision shows it. -/
  raised : ∀ m, (s.proc m).phase = .resolved → (s.proc m).Raised (s.shared.flags m)
  /-- Only one end at a time takes the decision to sleep. -/
  alone : ∀ m, (s.proc m).phase = .resolved → (s.proc m.peer).phase ≠ .resolved
  /-- When one end has decided, the other one has something to move if it looked before. -/
  ready : ∀ m, (s.proc m).phase = .resolved →
    (s.proc m.peer).phase = .looked ∨ (s.proc m.peer).phase = .checking → s.Ready g m.peer
  /-- Before the second test the flag is raised, unless there is something to move. -/
  shown : ∀ m, (s.proc m).phase = .checking →
    hasFlag (s.shared.flags m) .waiting = true ∨ s.Ready g m

section Alert

variable {g : Geometry} {s t : System} {m : Mod} {i : Input}

/-- The mark is reached where the limit of the copying loop is. -/
theorem waitMark_eq_iff {j k : Nat} (hj : j < g.bufferSize) (hk : k < g.bufferSize) :
    waitMark g m j = k ↔ j = peerLimit g m k := by
  cases m with
  | read => rfl
  | write =>
    simp only [waitMark, peerLimit]
    split_ifs <;> omega

/-- The index of an end is what it has shown, within one round. -/
theorem Kept.index (h : Kept g s) (m : Mod) : s.shared.index m = s.shown m % g.bufferSize := by
  cases m
  · exact h.write
  · exact h.read

/-- What an end has shown is within one ring of what it may show. -/
theorem Kept.window (h : Kept g s) (m : Mod) :
    s.shown m ≤ bound g m (s.shown m.peer) ∧
      bound g m (s.shown m.peer) < s.shown m + g.bufferSize := by
  have hb := g.bufferSize_ge
  have hpub := h.published_le
  have hroom := h.room
  have hr := h.released_le
  have hh := h.handed_le
  cases m <;> simp only [System.shown, Mod.peer, bound] <;> omega

/-- At the mark there is nothing to move. -/
theorem Kept.ready_iff (h : Kept g s) (m : Mod) :
    s.Ready g m ↔ waitMark g m (s.shared.index m) ≠ s.shared.index m.peer := by
  have hn := g.bufferSize_pos
  obtain ⟨hlo, hhi⟩ := h.window m
  rw [ne_eq, h.index, h.index, waitMark_eq_iff (Nat.mod_lt _ hn) (Nat.mod_lt _ hn), peerLimit_mod,
    mod_eq_mod_iff hlo hhi, System.Ready]
  omega

/-- The ring is not both empty and full. -/
theorem System.ready_or (g : Geometry) (s : System) (m : Mod) : s.Ready g m ∨ s.Ready g m.peer := by
  have hb := g.bufferSize_ge
  cases m <;> simp only [System.Ready, System.shown, Mod.peer, bound] <;> omega

/-- What an end has shown only grows. -/
theorem Kept.shown_le (h : Kept g s) {x : Mod × Input} (hs : s.step g x = some t) (m : Mod) :
    s.shown m ≤ t.shown m := by
  obtain ⟨p, sh, _, rfl⟩ := System.step_eq_some hs
  have hpub := h.published_le
  have hr := h.released_le
  obtain ⟨m', i⟩ := x
  cases m <;> cases m' <;> simp only [System.shown, System.record] <;> (try split) <;> omega

/-- An end outside the copying loop shows nothing new. -/
theorem System.shown_step (hs : s.step g (m, i) = some t) (hpc : (s.proc m).pc ≠ .avail) :
    t.shown m = s.shown m := by
  obtain ⟨p, sh, _, rfl⟩ := System.step_eq_some hs
  cases m <;> simp only [System.proc] at hpc <;>
    simp [System.shown, System.record, Proc.publishes, hpc]

/-- A step of one end leaves what the other one has shown. -/
theorem System.shown_peer_step (hs : s.step g (m, i) = some t) :
    t.shown m.peer = s.shown m.peer := by
  obtain ⟨p, sh, _, rfl⟩ := System.step_eq_some hs
  cases m <;> rfl

/-- A step of one end leaves the process at the other one. -/
theorem System.proc_peer_step (hs : s.step g (m, i) = some t) :
    t.proc m.peer = s.proc m.peer := by
  obtain ⟨p, sh, _, rfl⟩ := System.step_eq_some hs
  cases m <;> rfl

/-- A step of the pipe is a step of the process at that end. -/
theorem System.step_proc (hs : s.step g (m, i) = some t) :
    (s.proc m).step g m i s.shared = some (t.proc m, t.shared) := by
  obtain ⟨p, sh, hp, rfl⟩ := System.step_eq_some hs
  cases m <;> exact hp

/-- A peer that has something to move keeps it while this end moves. -/
theorem Kept.ready_peer_step (h : Kept g s) (hs : s.step g (m, i) = some t)
    (hr : s.Ready g m.peer) : t.Ready g m.peer := by
  have hgrow := bound_mono g m.peer (h.shown_le hs m)
  simp only [System.Ready, Mod.peer_peer] at hr ⊢
  rw [System.shown_peer_step hs]
  omega

/-- An end that does not move anything keeps what it has to move. -/
theorem System.ready_step (hs : s.step g (m, i) = some t) (hpc : (s.proc m).pc ≠ .avail)
    (hr : s.Ready g m) : t.Ready g m := by
  simp only [System.Ready] at hr ⊢
  rwa [System.shown_step hs hpc, System.shown_peer_step hs]

/-- What holds of one end and of its peer holds of both ends. -/
theorem Mod.forall_of {P : Mod → Prop} (m : Mod) (h : P m) (hpeer : P m.peer) (m' : Mod) :
    P m' := by
  cases m <;> cases m' <;> assumption

/-- An end on its way to sleep is not in the copying loop. -/
theorem Proc.pc_of_phase {p : Proc} (h : p.phase ≠ .awake) : p.pc ≠ .avail := by
  intro hpc
  exact h (by simp [Proc.phase, hpc])

/-- A step that leaves a process in the waiting loop is taken outside the copying loop. -/
private theorem Proc.pc_of_looping {p p' : Proc} {sh sh' : Shared}
    (h : p.step g m i sh = some (p', sh')) (hl : p'.looping = true) : p.pc ≠ .avail := by
  intro hpc
  rcases (Proc.step_looped hpc h).next with ⟨_, hp, _⟩ | ⟨_, hp, _⟩ <;>
    simp [Proc.looping, hp] at hl

/-- A pipe that was just offered has no end on its way to sleep. -/
theorem Alert.offered (g : Geometry) (conv : Conv) (buffer memReader memWriter : Nat → UInt8) :
    Alert g (.offered conv buffer memReader memWriter) := by
  have hphase : ∀ m, ((System.offered conv buffer memReader memWriter).proc m).phase = .awake := by
    intro m
    cases m <;> cases conv <;> rfl
  refine ⟨?_, ?_, ?_, ?_, ?_⟩
  · intro m h
    cases m <;> cases conv <;> exact absurd h Bool.false_ne_true
  all_goals
    intro m h
    simp [hphase] at h

/-- An end whose second test fails has nothing to move. -/
theorem Alert.not_ready (h : Alert g s) (hk : Kept g s)
    (test : (s.proc m).own = s.shared.index m.peer) (loop : (s.proc m).looping = true) :
    ¬ s.Ready g m := by
  rw [hk.ready_iff, ← h.mark m loop]
  exact not_not_intro test

/-- A step keeps the index by which an end waits the one it has loaded. -/
private theorem Alert.step_mark (h : Alert g s) (hk : Kept g s) (hs : s.step g (m, i) = some t)
    (m' : Mod) (hl : (t.proc m').looping = true) :
    (t.proc m').own = waitMark g m' (t.shared.index m') := by
  have ht := hk.step hs
  revert m'
  refine Mod.forall_of m (fun hl => ?_) fun hl => ?_
  · have hp := System.step_proc hs
    have hidx : t.shared.index m = s.shared.index m := by
      rw [ht.index, hk.index, System.shown_step hs (Proc.pc_of_looping hp hl)]
    rw [hidx]
    rcases Proc.step_own hp hl with heq | ⟨hl', heq⟩
    · exact heq
    · exact heq.trans (h.mark m hl')
  · have hidx : t.shared.index m.peer = s.shared.index m.peer := by
      rw [ht.index, hk.index, System.shown_peer_step hs]
    rw [System.proc_peer_step hs] at hl ⊢
    rw [hidx]
    exact h.mark m.peer hl

/-- Every step of either end keeps the invariant of the way to sleep. -/
theorem Alert.step (h : Alert g s) (hk : Kept g s) (hs : s.step g (m, i) = some t) :
    Alert g t := by
  have hst := Proc.step_phase (System.step_proc hs)
  have hpeer := System.proc_peer_step hs
  -- the only foreign store is made by an end that has taken the decision
  have hflags : (s.proc m.peer).phase = .resolved →
      t.shared.flags m.peer = s.shared.flags m.peer := by
    intro hp
    have hne : (s.proc m).phase ≠ .resolved := fun hr => h.alone m hr hp
    cases hst with
    | wakes _ peer => exact peer.resolve_right hne
    | looks _ same _ => rw [same]
    | stays _ _ same => rw [same]
    | raises _ _ _ peer => exact peer
    | resolves _ _ same => rw [same]
    | keeps cur => exact absurd cur hne
  have halone : (t.proc m).phase = .resolved → (t.proc m.peer).phase ≠ .resolved := by
    rw [hpeer]
    intro hr hp
    cases hst with
    | wakes next _ | looks next _ _ | stays _ next _ | raises _ next _ _ => simp [next] at hr
    | resolves cur _ _ test loop _ =>
      have hready := h.ready m.peer hp (by simp [cur])
      rw [Mod.peer_peer] at hready
      exact h.not_ready hk test loop hready
    | keeps cur _ _ _ => exact h.alone m cur hp
  refine ⟨h.step_mark hk hs, ?_, ?_, ?_, ?_⟩
  · refine Mod.forall_of m (fun hr => ?_) fun hr => ?_
    · cases hst with
      | wakes next _ | looks next _ _ | stays _ next _ | raises _ next _ _ => simp [next] at hr
      | resolves cur _ same test loop own =>
        rw [same]
        exact own ((h.shown m cur).resolve_right (h.not_ready hk test loop))
      | keeps cur _ own _ => exact own (h.raised m cur)
    · rw [hpeer] at hr ⊢
      rw [hflags hr]
      exact h.raised m.peer hr
  · refine Mod.forall_of m halone fun hr hp => ?_
    rw [Mod.peer_peer] at hp
    exact halone hp hr
  · refine Mod.forall_of m (fun hr hp => ?_) fun hr hp => ?_
    · rw [hpeer] at hp
      apply hk.ready_peer_step hs
      cases hst with
      | wakes next _ | looks next _ _ | stays _ next _ | raises _ next _ _ => simp [next] at hr
      | resolves cur _ _ test loop _ =>
        exact (System.ready_or g s m).resolve_left (h.not_ready hk test loop)
      | keeps cur _ _ _ => exact h.ready m cur hp
    · rw [hpeer] at hr
      rw [Mod.peer_peer] at hp ⊢
      cases hst with
      | wakes next _ | resolves _ next _ _ _ _ | keeps _ next _ _ => simp [next] at hp
      | looks _ _ seen => simp [(h.raised m.peer hr).1] at seen
      | stays cur _ _ | raises cur _ _ _ =>
        refine System.ready_step hs (Proc.pc_of_phase (by simp [cur])) ?_
        simpa using h.ready m.peer hr (by simp [cur])
  · refine Mod.forall_of m (fun hc => ?_) fun hc => ?_
    · cases hst with
      | raises _ _ own _ => exact .inl own
      | wakes next _ | looks next _ _ | stays _ next _ | resolves _ next _ _ _ _
      | keeps _ next _ _ => simp [next] at hc
    · rw [hpeer] at hc
      have hshown : t.shared.flags m.peer = s.shared.flags m.peer ∨
          (s.proc m).phase = .resolved := by
        cases hst with
        | wakes _ peer => exact peer
        | looks _ same _ | stays _ _ same | resolves _ _ same _ _ _ => exact .inl (by rw [same])
        | raises _ _ _ peer | keeps _ _ _ peer => exact .inl peer
      rcases hshown with hf | hr
      · rw [hf]
        exact (h.shown m.peer hc).imp_right (hk.ready_peer_step hs)
      · exact .inr (hk.ready_peer_step hs (h.ready m hr (by simp [hc])))

/-- The invariant of the way to sleep holds in every interleaving. -/
theorem alert_of_reachable (h : System.Reachable g s) : Alert g s := by
  obtain ⟨conv, buffer, memReader, memWriter, hr⟩ := h
  have hboth : Kept g s ∧ Alert g s := by
    apply hr.invariant
    · exact ⟨kept_offered g conv buffer memReader memWriter, .offered ..⟩
    · rintro _ _ _ ⟨hk, ha⟩ _ hs
      exact ⟨hk.step hs, ha.step hk hs⟩
  exact hboth.2

/-- In no interleaving are both ends inside the `ioctl` of `__xen_shm_pipe_wait_signal`. -/
theorem never_both_asleep (h : System.Reachable g s) :
    ¬ (s.reader.pc = .asleep ∧ s.writer.pc = .asleep) := by
  rintro ⟨hr, hw⟩
  have hreader : (s.proc .read).phase = .resolved := by simp [System.proc, Proc.phase, hr]
  have hwriter : (s.proc .write).phase = .resolved := by simp [System.proc, Proc.phase, hw]
  exact (alert_of_reachable h).alone .read hreader hwriter

/-- A reader alone on an empty pipe goes to sleep. -/
theorem never_both_asleep_loneReader : ∃ s : System, s.reader.pc = .asleep ∧
    ¬ (s.reader.pc = .asleep ∧ s.writer.pc = .asleep) := by
  have hrun : (run (System.step .onePage) System.anyInput .fresh
      (System.input .read (.transfer .read false 0 1 fun _ => 0) ++ System.ticks .read 11)).any
      (fun s => s.reader.pc = .asleep) = true := by decide +kernel
  obtain ⟨s, hs, hpc⟩ := System.exists_reachable hrun
  exact ⟨s, of_decide_eq_true hpc, never_both_asleep hs⟩

end Alert

end XenShm.Pipe
