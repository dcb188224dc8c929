import XenShm.Kernel.Ticks

/-!
# Waiting for events

One call of `__xen_shm_ioctl_await` and one run of `xen_shm_event_handler`, cut into
their accesses to what they share: the signals of the instance and the header page.
Everything else runs in between.
-/

namespace XenShm.Kernel

/-- `struct xen_shm_ioctlarg_await`, with its request flags as separate fields. -/
structure Request where
  /-- `XEN_SHM_IOCTL_AWAIT_USER`, to wait for a signal that arrives from now on. -/
  user : Bool
  /-- `XEN_SHM_IOCTL_AWAIT_INIT`, to wait for the first event of the peer. -/
  init : Bool
  /-- `XEN_SHM_IOCTL_AWAIT_MUTEX`, to let no other such call wait at the same time. -/
  mutex : Bool
  /-- `XEN_SHM_IOCTL_AWAIT_LATENT_USER`, to wait for a signal that may have arrived already. -/
  latentUser : Bool
  /-- The timeout in milliseconds, 0 for none. -/
  timeoutMs : Nat
  deriving DecidableEq, Repr

/-- The argument of the AWAIT that `xen_shm_pipe_wait` makes, and with a timeout of 1 of the one
that `__xen_shm_pipe_prone_for_epipe` makes. -/
def Request.pipeWait (timeoutMs : Nat) : Request := ⟨false, true, false, false, timeoutMs⟩

/-- A call that takes user signals clears the latch when its wait is over. -/
def Request.takesSignals (r : Request) : Bool := r.user || r.latentUser

/-- `__xen_shm_is_broken_pipe`: one of the two ends is closed in the header page. -/
def Header.isBrokenPipe (h : Header) : Bool :=
  h.offererState = .closed ∨ h.receiverState = .closed

/-- Where a call is, named by what it does next. -/
inductive AwaitPc where
  /-- Check the state of the instance and whether the pipe is broken. -/
  | start
  /-- Take the mutex by counting it down, or find it taken. -/
  | takeMutex
  /-- Give back the mutex that was not taken. -/
  | refuse
  /-- `user_signal = 0`, before the wait begins. -/
  | reset
  /-- Enter the wait queue, so that a handler can wake the call. -/
  | prepare
  /-- Evaluate the condition of the wait, `user_signal` first. -/
  | checkUser
  /-- Evaluate the condition of the wait, at `initial_signal`. -/
  | checkInit
  /-- Evaluate the condition of the wait, at `latent_user_signal`. -/
  | checkLatent
  /-- Evaluate the condition of the wait, at the states of the two ends. -/
  | checkBroken
  /-- Sleep until woken, interrupted or out of time. -/
  | asleep
  /-- `latent_user_signal = 0`, behind the wait. -/
  | clear
  /-- Read the states of the peers again. -/
  | recheck
  /-- Give back the mutex and return the result. -/
  | unlock (r : Result)
  /-- The call has returned the result to the process. -/
  | done (r : Result)
  deriving DecidableEq, Repr

/-- The call is between its reset of `user_signal` and the end of its wait. -/
def AwaitPc.waiting : AwaitPc → Bool
  | .prepare | .checkUser | .checkInit | .checkLatent | .checkBroken | .asleep => true
  | _ => false

/-- The wait of the call is over, and its result is made. -/
def AwaitPc.behind : AwaitPc → Bool
  | .clear | .recheck | .unlock _ | .done _ => true
  | _ => false

/-- One call of `__xen_shm_ioctl_await` that is in progress. -/
structure Call where
  /-- The argument the process has passed. -/
  req : Request
  pc : AwaitPc
  /-- Whether a handler has woken the call since it entered the wait queue. -/
  woken : Bool
  /-- The ticks left of its timeout when its wait was over, 0 if the timeout has ended it. -/
  left : Option Nat
  deriving DecidableEq, Repr

/-- A call whose first access is still to come. -/
def Call.enter (req : Request) : Call := ⟨req, .start, false, none⟩

/-- The timeout has ended the wait of the call. -/
def Call.timedOut (c : Call) : Bool := c.left = some 0

/-- `remaining_ms` of a call that has assigned it. -/
def Call.remaining (hz : Nat) (c : Call) : Option Nat :=
  c.left.map fun left : Nat => remainingMs hz c.req.timeoutMs (waitRetval left)

/-- How a call goes on, where the code alone does not decide it. -/
inductive Choice where
  /-- The call makes its next access. -/
  | proceed
  /-- A signal for the process ends its wait. -/
  | interrupt
  /-- The timeout ends the wait of the call. -/
  | timeout
  /-- The call finds its condition true, and so many ticks of its timeout are left. -/
  | ends (left : Nat)
  deriving DecidableEq, Repr

/-- How a call goes on that finds its condition true, `left` being the ticks left when it has a
timeout. -/
def Choice.ofLeft : Option Nat → Choice
  | none => .proceed
  | some left => .ends left

/-- The ticks left become the number of this error as an `int`. -/
def Choice.readsAs (e : Errno) : Choice → Bool
  | .ends left => waitRetval left = e.value
  | .proceed | .interrupt | .timeout => false

/-- `wake_up_interruptible`, as the call notices it. -/
def Call.wake (c : Call) : Call := { c with woken := true }

/-- What a call shares with the handler, with the peer and with other calls. -/
structure Shared where
  state : State
  signals : Signals
  header : Header

/-- The store `data->user_signal = b`. -/
def Shared.setUser (s : Shared) (b : Bool) : Shared :=
  { s with signals := { s.signals with userSignal := b } }

/-- The store `data->latent_user_signal = b`. -/
def Shared.setLatent (s : Shared) (b : Bool) : Shared :=
  { s with signals := { s.signals with latentUserSignal := b } }

/-- The store `data->initial_signal = 1`, which nothing ever takes back. -/
def Shared.setInitial (s : Shared) : Shared :=
  { s with signals := { s.signals with initialSignal := true } }

/-- Add a number to the count of the mutex in the header page. -/
def Shared.addMutex (s : Shared) (n : Int) : Shared :=
  { s with header := { s.header with ecMutexCount := s.header.ecMutexCount + n } }

@[simp] theorem Shared.addMutex_signals (s : Shared) (n : Int) :
    (s.addMutex n).signals = s.signals := rfl

@[simp] theorem Shared.addMutex_isBrokenPipe (s : Shared) (n : Int) :
    (s.addMutex n).header.isBrokenPipe = s.header.isBrokenPipe := rfl

/-- Where a call goes when its wait is over. Behind a timed wait, too many ticks are a negative
`int`, which the code takes for an error: it leaves the latch alone and does not look at the pipe
again. -/
def AwaitPc.afterWait : Option Nat → AwaitPc
  | none => .clear
  | some left =>
    if waitRetval left < 0 then .unlock (.error (.ofValue (waitRetval left))) else .clear

/-- The wait of a call is over, with so many ticks left of a timeout. -/
def Call.over (c : Call) (left : Option Nat) : Call :=
  { c with pc := .afterWait left, left := left }

/-- The part of the condition that the call tests next is true. -/
def Call.met (s : Shared) (c : Call) : Bool :=
  match c.pc with
  | .checkUser => c.req.user && s.signals.userSignal
  | .checkInit => c.req.init && s.signals.initialSignal
  | .checkLatent => c.req.latentUser && s.signals.latentUserSignal
  | .checkBroken => s.header.isBrokenPipe
  | _ => false

/-- The call tests a part of the condition. What is left of a timeout is not in its hands, see
`Choice.ends`. -/
def Call.test (s : Shared) (c : Call) (next : AwaitPc) : Option (Shared × Call) :=
  if ¬ c.met s then some (s, { c with pc := next })
  else if c.req.timeoutMs = 0 then some (s, c.over none)
  else none

/-- One step of a call that is not ended from outside. -/
def Call.proceed (s : Shared) (c : Call) : Option (Shared × Call) :=
  match c.pc with
  | .start =>
    if s.state = .opened then some (s, { c with pc := .done (.error .enotty) })
    else if s.header.isBrokenPipe then some (s, { c with pc := .done (.error .epipe) })
    else some (s, { c with pc := .takeMutex })
  | .takeMutex =>
    if ¬ c.req.mutex then some (s, { c with pc := .reset })
    else if s.header.ecMutexCount - 1 = 0 then some (s.addMutex (-1), { c with pc := .reset })
    else some (s.addMutex (-1), { c with pc := .refuse })
  | .refuse => some (s.addMutex 1, { c with pc := .done (.error .edeadlk) })
  | .reset => some (s.setUser false, { c with pc := .prepare })
  | .prepare => some (s, { c with pc := .checkUser, woken := false })
  | .checkUser => c.test s .checkInit
  | .checkInit => c.test s .checkLatent
  | .checkLatent => c.test s .checkBroken
  | .checkBroken => c.test s .asleep
  | .asleep => if c.woken then some (s, { c with pc := .prepare }) else none
  | .clear =>
    some (if c.req.takesSignals then s.setLatent false else s, { c with pc := .recheck })
  | .recheck =>
    some (s, { c with pc := .unlock (if s.header.isBrokenPipe then .error .epipe else .ok) })
  | .unlock r => some (if c.req.mutex then s.addMutex 1 else s, { c with pc := .done r })
  | .done _ => none

/-- One step of a call. A timed wait that its condition ends has at least one tick left, and not
more than were asked for: with at most 1000 ticks a second that is one a millisecond. -/
def Call.step (s : Shared) (c : Call) : Choice → Option (Shared × Call)
  | .proceed => c.proceed s
  | .interrupt =>
    if c.pc = .asleep then some (s, { c with pc := .unlock (.error .erestartsys) }) else none
  | .timeout =>
    if c.pc = .asleep ∧ c.req.timeoutMs ≠ 0 then some (s, c.over (some 0)) else none
  | .ends left =>
    if c.met s ∧ c.req.timeoutMs ≠ 0 ∧ 0 < left ∧ left ≤ max 1 c.req.timeoutMs then
      some (s, c.over (some left))
    else none

/-- The call has not come to its wait yet. -/
def AwaitPc.early : AwaitPc → Bool
  | .start | .takeMutex | .refuse | .reset => true
  | _ => false

/-- The call has found `user_signal` reset in this round. -/
def AwaitPc.foundReset : AwaitPc → Bool
  | .checkInit | .checkLatent | .checkBroken | .asleep => true
  | _ => false

section Places

variable {pc : AwaitPc}

/-- A call in front of its wait is not inside it. -/
theorem AwaitPc.waiting_of_early (h : pc.early = true) : pc.waiting = false := by
  cases pc <;> first | rfl | cases h

/-- A call in front of its wait is not behind it. -/
theorem AwaitPc.behind_of_early (h : pc.early = true) : pc.behind = false := by
  cases pc <;> first | rfl | cases h

/-- A call in front of its wait has not reset the user signal. -/
theorem AwaitPc.foundReset_of_early (h : pc.early = true) : pc.foundReset = false := by
  cases pc <;> first | rfl | cases h

/-- A call inside its wait is not behind it. -/
theorem AwaitPc.behind_of_waiting (h : pc.waiting = true) : pc.behind = false := by
  cases pc <;> first | rfl | cases h

end Places

/-- The ticks of the timeout that are left when the condition ends the wait, none without a
timeout. -/
def Call.HasLeft (c : Call) : Option Nat → Prop
  | none => c.req.timeoutMs = 0
  | some left => c.req.timeoutMs ≠ 0 ∧ 0 < left ∧ left ≤ max 1 c.req.timeoutMs

/-- What a step of a call does to the signals, and how it comes to the end of its wait. -/
inductive Call.Goes (s : Shared) (c : Call) : Choice → Shared → Call → Prop where
  /-- Towards the wait, or to an error. -/
  | early (shared : Shared) (pc : AwaitPc) (hpc : c.pc.early = true) (hreset : c.pc ≠ .reset)
      (hnext : pc.early = true ∨ ∃ e, pc = .done (.error e))
      (hsignals : shared.signals = s.signals)
      (hstates : shared.header.offererState = s.header.offererState ∧
        shared.header.receiverState = s.header.receiverState) :
      Goes s c .proceed shared { c with pc := pc }
  /-- The wait begins, and forgets the user signals that came before. -/
  | reset (hpc : c.pc = .reset) : Goes s c .proceed (s.setUser false) { c with pc := .prepare }
  /-- The call goes from one place inside its wait to another. -/
  | waits (pc : AwaitPc) (woken : Bool) (hpc : c.pc.waiting = true) (hnext : pc.waiting = true)
      (hfound : pc.foundReset = true → c.req.user = true →
        c.pc.foundReset = true ∧ woken = c.woken ∨ s.signals.userSignal = false) :
      Goes s c .proceed s { c with pc := pc, woken := woken }
  | user (left : Option Nat) (hpc : c.pc = .checkUser) (hreq : c.req.user = true)
      (hset : s.signals.userSignal = true) (hleft : c.HasLeft left) :
      Goes s c (.ofLeft left) s (c.over left)
  /-- The wait is ended by `initial_signal`. -/
  | initial (left : Option Nat) (hpc : c.pc = .checkInit) (hreq : c.req.init = true)
      (hset : s.signals.initialSignal = true) (hleft : c.HasLeft left) :
      Goes s c (.ofLeft left) s (c.over left)
  /-- The wait is ended by `latent_user_signal`. -/
  | latent (left : Option Nat) (hpc : c.pc = .checkLatent) (hreq : c.req.latentUser = true)
      (hset : s.signals.latentUserSignal = true) (hleft : c.HasLeft left) :
      Goes s c (.ofLeft left) s (c.over left)
  /-- The wait is ended by a broken pipe. -/
  | broken (left : Option Nat) (hpc : c.pc = .checkBroken) (hbroken : s.header.isBrokenPipe = true)
      (hleft : c.HasLeft left) : Goes s c (.ofLeft left) s (c.over left)
  /-- The wait is ended by its timeout. -/
  | timeout (hpc : c.pc = .asleep) (htimeout : c.req.timeoutMs ≠ 0) :
      Goes s c .timeout s (c.over (some 0))
  /-- The wait is ended by a signal for the process. -/
  | interrupt (hpc : c.pc = .asleep) :
      Goes s c .interrupt s { c with pc := .unlock (.error .erestartsys) }
  /-- The latch is cleared by a call that takes user signals. -/
  | clear (hpc : c.pc = .clear) : Goes s c .proceed
      (if c.req.takesSignals then s.setLatent false else s) { c with pc := .recheck }
  /-- The pipe is tested again behind the wait. -/
  | recheck (hpc : c.pc = .recheck) : Goes s c .proceed s
      { c with pc := .unlock (if s.header.isBrokenPipe then .error .epipe else .ok) }
  /-- The call gives back the mutex and returns. -/
  | unlock (shared : Shared) (r : Result) (hpc : c.pc = .unlock r)
      (hsignals : shared.signals = s.signals)
      (hstates : shared.header.offererState = s.header.offererState ∧
        shared.header.receiverState = s.header.receiverState) :
      Goes s c .proceed shared { c with pc := .done r }

section Over

variable {s s' : Shared} {c c' : Call} {left : Option Nat} {next : AwaitPc}

@[simp] theorem Call.over_req (c : Call) (left : Option Nat) : (c.over left).req = c.req := rfl

@[simp] theorem Call.over_left (c : Call) (left : Option Nat) : (c.over left).left = left := rfl

@[simp] theorem Call.over_pc (c : Call) (left : Option Nat) :
    (c.over left).pc = .afterWait left := rfl

/-- A wait that is over leads to the clear of the latch, or to the error that a negative `int`
stands for. -/
theorem AwaitPc.afterWait_cases (left : Option Nat) : afterWait left = .clear ∨
    ∃ ticks, left = some ticks ∧ waitRetval ticks < 0 ∧
      afterWait left = .unlock (.error (.ofValue (waitRetval ticks))) := by
  cases left with
  | none => exact .inl rfl
  | some ticks =>
    simp only [afterWait]
    split_ifs with hneg
    · exact .inr ⟨ticks, rfl, hneg, rfl⟩
    · exact .inl rfl

/-- The error that a wait ends with is what the ticks left read as. -/
theorem AwaitPc.readsAs_of_afterWait {e : Errno} (h : afterWait left = .unlock (.error e)) :
    (Choice.ofLeft left).readsAs e = true := by
  obtain hclear | ⟨ticks, rfl, -, hcode⟩ := afterWait_cases left
  · cases hclear.symm.trans h
  · have hread := hcode.symm.trans h
    simp only [AwaitPc.unlock.injEq, Result.error.injEq] at hread
    simp only [Choice.ofLeft, Choice.readsAs, decide_eq_true_eq]
    rw [← hread, Errno.value_ofValue]

/-- When nothing is left, the code goes on as after a wait without a timeout. -/
@[simp] theorem AwaitPc.afterWait_zero : afterWait (some 0) = .clear := by simp [afterWait]

/-- Whatever is left of the timeout, a wait that is over leads to a place behind it. -/
theorem AwaitPc.behind_afterWait (left : Option Nat) : (afterWait left).behind = true := by
  obtain h | ⟨_, -, -, h⟩ := afterWait_cases left <;> rw [h] <;> rfl

/-- A call whose condition was true is behind its wait. -/
theorem Call.over_behind (c : Call) (left : Option Nat) : (c.over left).pc.behind = true :=
  AwaitPc.behind_afterWait left

/-- A test either goes on to the next place or finds the condition true, and then there is no
timeout. -/
theorem Call.test_cases (h : c.test s next = some (s', c')) :
    s' = s ∧ (c.met s = false ∧ c' = { c with pc := next } ∨
      c.met s = true ∧ c.HasLeft none ∧ c' = c.over none) := by
  unfold test at h
  split_ifs at h with hmet hnone <;> obtain ⟨rfl, rfl⟩ := Prod.mk.inj (Option.some.inj h)
  · exact ⟨rfl, .inr ⟨hmet, hnone, rfl⟩⟩
  · exact ⟨rfl, .inl ⟨by simpa using hmet, rfl⟩⟩

/-- A condition that is true has ended the wait by the part that was tested. -/
theorem Call.goes_met (hmet : c.met s = true) (hleft : c.HasLeft left) :
    c.Goes s (.ofLeft left) s (c.over left) := by
  unfold met at hmet
  split at hmet
  · exact .user left ‹_› (Bool.and_eq_true_iff.mp hmet).1 (Bool.and_eq_true_iff.mp hmet).2 hleft
  · exact .initial left ‹_› (Bool.and_eq_true_iff.mp hmet).1 (Bool.and_eq_true_iff.mp hmet).2 hleft
  · exact .latent left ‹_› (Bool.and_eq_true_iff.mp hmet).1 (Bool.and_eq_true_iff.mp hmet).2 hleft
  · exact .broken left ‹_› hmet hleft
  · cases hmet

/-- A part of the condition that is not true lets the wait go on. -/
theorem Call.goes_test (hpc : c.pc.waiting = true) (hnext : next.waiting = true)
    (hfound : c.met s = false → next.foundReset = true → c.req.user = true →
      c.pc.foundReset = true ∨ s.signals.userSignal = false)
    (h : c.test s next = some (s', c')) : c.Goes s .proceed s' c' := by
  obtain ⟨rfl, ⟨hmet, rfl⟩ | ⟨hmet, hleft, rfl⟩⟩ := test_cases h
  · exact .waits _ _ hpc hnext fun hf hu => (hfound hmet hf hu).imp_left fun hf => ⟨hf, rfl⟩
  · exact goes_met hmet hleft

end Over

/-- Every step of a call, wherever the call is, does one of these to the signals. -/
theorem Call.goes {s s' : Shared} {c c' : Call} {choice : Choice}
    (h : c.step s choice = some (s', c')) : c.Goes s choice s' c' := by
  cases choice with
  | interrupt =>
    simp only [step, Option.ite_none_right_eq_some, Option.some.injEq, Prod.mk.injEq] at h
    obtain ⟨hpc, rfl, rfl⟩ := h
    exact .interrupt hpc
  | timeout =>
    simp only [step, Option.ite_none_right_eq_some, Option.some.injEq, Prod.mk.injEq] at h
    obtain ⟨⟨hpc, htimeout⟩, rfl, rfl⟩ := h
    exact .timeout hpc htimeout
  | ends left =>
    simp only [step, Option.ite_none_right_eq_some, Option.some.injEq, Prod.mk.injEq] at h
    obtain ⟨⟨hmet, hleft⟩, rfl, rfl⟩ := h
    have hhas : c.HasLeft (some left) := hleft
    exact goes_met hmet hhas
  | proceed =>
    simp only [step, proceed] at h
    cases hpc : c.pc <;> simp only [hpc, reduceCtorEq] at h
    case start =>
      (repeat' split at h) <;> obtain ⟨rfl, rfl⟩ := Prod.mk.inj (Option.some.inj h)
      · exact .early _ _ (by rw [hpc]; rfl) (by simp [hpc]) (.inr ⟨_, rfl⟩) rfl ⟨rfl, rfl⟩
      · exact .early _ _ (by rw [hpc]; rfl) (by simp [hpc]) (.inr ⟨_, rfl⟩) rfl ⟨rfl, rfl⟩
      · exact .early _ _ (by rw [hpc]; rfl) (by simp [hpc]) (.inl rfl) rfl ⟨rfl, rfl⟩
    case takeMutex =>
      (repeat' split at h) <;> obtain ⟨rfl, rfl⟩ := Prod.mk.inj (Option.some.inj h) <;>
        exact .early _ _ (by rw [hpc]; rfl) (by simp [hpc]) (.inl rfl) rfl ⟨rfl, rfl⟩
    case refuse =>
      obtain ⟨rfl, rfl⟩ := Prod.mk.inj (Option.some.inj h)
      exact .early _ _ (by rw [hpc]; rfl) (by simp [hpc]) (.inr ⟨_, rfl⟩) rfl ⟨rfl, rfl⟩
    case reset =>
      obtain ⟨rfl, rfl⟩ := Prod.mk.inj (Option.some.inj h)
      exact .reset hpc
    case prepare =>
      obtain ⟨rfl, rfl⟩ := Prod.mk.inj (Option.some.inj h)
      exact .waits _ _ (by rw [hpc]; rfl) rfl (by simp [AwaitPc.foundReset])
    case checkUser =>
      refine goes_test (by rw [hpc]; rfl) rfl (fun hmet _ huser => .inr ?_) h
      simpa [met, hpc, huser] using hmet
    case checkInit | checkLatent | checkBroken =>
      exact goes_test (by rw [hpc]; rfl) rfl (fun _ _ _ => .inl (by rw [hpc]; rfl)) h
    case asleep =>
      split at h
      · obtain ⟨rfl, rfl⟩ := Prod.mk.inj (Option.some.inj h)
        exact .waits _ _ (by rw [hpc]; rfl) rfl (by simp [AwaitPc.foundReset])
      · cases h
    case clear =>
      obtain ⟨rfl, rfl⟩ := Prod.mk.inj (Option.some.inj h)
      exact .clear hpc
    case recheck =>
      obtain ⟨rfl, rfl⟩ := Prod.mk.inj (Option.some.inj h)
      exact .recheck hpc
    case unlock r =>
      obtain ⟨rfl, rfl⟩ := Prod.mk.inj (Option.some.inj h)
      exact .unlock _ r hpc (by split <;> rfl) (by split <;> exact ⟨rfl, rfl⟩)

/-- What no step of a call changes: what it asked for, and the first event of the peer. -/
structure Call.Frame (s s' : Shared) (c c' : Call) : Prop where
  req : c'.req = c.req
  initial : s'.signals.initialSignal = s.signals.initialSignal
  /-- A call that is behind its wait does not wait again. -/
  behind : c.pc.behind = true → c'.pc.behind = true
  /-- The latch is only cleared at one place. -/
  latent : c.pc ≠ .clear ∨ c.req.takesSignals = false →
    s'.signals.latentUserSignal = s.signals.latentUserSignal

/-- A step of a call keeps its request and never forgets the first event. -/
theorem Call.step_frame {s s' : Shared} {c c' : Call} {choice : Choice}
    (h : c.step s choice = some (s', c')) : c.Frame s s' c' := by
  cases Call.goes h with
  | early shared pc hpc _ _ hsignals _ =>
    exact ⟨rfl, by rw [hsignals], by simp [AwaitPc.behind_of_early hpc], fun _ => by rw [hsignals]⟩
  | reset hpc => exact ⟨rfl, rfl, by simp [hpc, AwaitPc.behind], fun _ => rfl⟩
  | waits pc woken hpc _ _ =>
    exact ⟨rfl, rfl, by simp [AwaitPc.behind_of_waiting hpc], fun _ => rfl⟩
  | user | initial | latent | broken | timeout =>
    exact ⟨rfl, rfl, fun _ => Call.over_behind .., fun _ => rfl⟩
  | interrupt | recheck => exact ⟨rfl, rfl, fun _ => rfl, fun _ => rfl⟩
  | clear hpc =>
    refine ⟨rfl, by split <;> rfl, fun _ => rfl, fun hkeep => ?_⟩
    rw [hkeep.resolve_left (not_not_intro hpc)]
    rfl
  | unlock shared r _ hsignals _ =>
    exact ⟨rfl, by rw [hsignals], fun _ => rfl, fun _ => by rw [hsignals]⟩

/-- Where a run of the handler is, named by what it does next. -/
inductive HandlerPc where
  /-- Read `initial_signal` to tell the first event from later ones. -/
  | start
  /-- Answer the first event of the receiver with an event of the offerer. -/
  | answer
  /-- The store `initial_signal = 1`, which only the handler of a first event makes. -/
  | setInitial
  /-- The store `user_signal = 1`, for the calls that wait at this moment. -/
  | setUser
  /-- The store `latent_user_signal = 1`, for a call that is made later. -/
  | setLatent
  /-- Wake the calls in the wait queue. -/
  | wakeUp
  deriving DecidableEq, Repr

/-- One step of `xen_shm_event_handler`: what it writes and where it goes, `none` at its end. -/
def HandlerPc.step (s : Shared) : HandlerPc → Shared × Option HandlerPc
  | .start =>
    if s.signals.initialSignal then (s, some .setUser)
    else if s.state = .offerer then (s, some .answer)
    else (s, some .setInitial)
  | .answer => (s, some .setInitial)
  | .setInitial => (s.setInitial, some .wakeUp)
  | .setUser => (s.setUser true, some .setLatent)
  | .setLatent => (s.setLatent true, some .wakeUp)
  | .wakeUp => (s, none)

end XenShm.Kernel
