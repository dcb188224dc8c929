import XenShm.Kernel.Waiter

/-!
# The WAIT ioctl

WAIT is AWAIT with flags of its own: it asks for the initial signal as well as for user signals,
and leaves the timeout as it was on the stack. The initial signal is never taken back, so it ends
every later wait too.
-/

namespace XenShm.Kernel

open Library

/-- The argument that WAIT builds, with what the stack holds as its timeout. -/
def waitRequest (timeoutMs : Nat) : Request := ⟨true, true, false, false, timeoutMs⟩

/-- WAIT returns 0 only for an event that was handled since it was called, and each time for
another. -/
structure ReturnsForSignal (s : Waiter) : Prop where
  /-- One was handled since the call began. -/
  since : ∀ c, s.current = some c → c.call.pc = .done .ok → c.since < s.handled
  /-- No event makes two calls return. -/
  count : s.returned ≤ s.handled

/-- When no event was handled since the call began, its wait is not ended by the timeout nor by the
initial signal, and a pipe that has ended its wait is still broken when it is tested again. -/
def EndedBySignal (s : Waiter) : Waiter.Input → Prop
  | .call choice =>
    ∀ c ∈ s.current, c.since = s.handled → choice ≠ .timeout ∧
      (c.call.pc = .checkInit → s.shared.signals.initialSignal = false) ∧
      (c.call.pc = .recheck → c.ended = some .broken → s.shared.header.isBrokenPipe = true)
  | _ => True

instance EndedBySignal.decidable (s : Waiter) : (i : Waiter.Input) → Decidable (EndedBySignal s i)
  | .call _ => inferInstanceAs (Decidable (∀ c ∈ s.current, _))
  | .enter _ | .deliver | .handler | .wake | .resetUser | .clearLatent | .peer _ => isTrue trivial

/-- What is known of a call of WAIT, at whatever place it is. -/
structure Earns (s : Waiter) (c : WaitCall) : Prop where
  /-- The only requests are those of WAIT. -/
  req : c.call.req = waitRequest c.call.req.timeoutMs
  /-- The events that the call has found handled stay handled. -/
  since : c.since ≤ s.handled
  /-- The calls before it have returned for events handled before it began. -/
  before : c.call.pc.isDone = false → s.returned ≤ c.since
  /-- `user_signal` was reset by it or by a later call. -/
  user : c.call.pc.waiting = true → s.shared.signals.userSignal = true → c.since < s.handled
  /-- The wait was ended by an event or by a broken pipe. -/
  ended : c.call.pc = .clear ∨ c.call.pc = .recheck →
    c.since < s.handled ∨ c.ended = some .broken
  /-- The call returns 0 for an event that was handled since it began. -/
  ok : c.call.pc = .unlock .ok ∨ c.call.pc = .done .ok → c.since < s.handled

/-- The invariant: events and returns are counted, and all that is known of the last call. -/
structure Earned (s : Waiter) : Prop where
  /-- No event makes two calls return. -/
  count : s.returned ≤ s.handled
  /-- What is known of the last call holds. -/
  current : ∀ c, s.current = some c → Earns s c

section Steps

variable {s t : Waiter} {c : WaitCall} {shared : Shared}

/-- When the invariant holds, every call that has returned 0 has done so for an event. -/
theorem Earned.returnsForSignal (h : Earned s) : ReturnsForSignal s where
  since c hc hpc := (h.current c hc).ok (.inr hpc)
  count := h.count

/-- What is known of a call stays known when events are handled, and when nobody sets
`user_signal` but the handler. -/
theorem Earns.mono (h : Earns s c) (hreturned : t.returned = s.returned)
    (hhandled : s.handled ≤ t.handled)
    (huser : t.shared.signals.userSignal = true →
      s.shared.signals.userSignal = true ∨ s.handled < t.handled) : Earns t c where
  req := h.req
  since := h.since.trans hhandled
  before hpc := hreturned ▸ h.before hpc
  user hpc hset := by
    have hsince := h.since
    rcases huser hset with hset | hmore
    · exact (h.user hpc hset).trans_le hhandled
    · omega
  ended hpc := (h.ended hpc).imp_left fun hlt => hlt.trans_le hhandled
  ok hpc := (h.ok hpc).trans_le hhandled

/-- To wake a call changes nothing of what is known of it. -/
theorem Earns.wake (h : Earns s c) : Earns s { c with call := c.call.wake } :=
  ⟨h.req, h.since, h.before, h.user, h.ended, h.ok⟩

/-- To wake the caller keeps the invariant. -/
theorem Earned.wake (h : Earned s) : Earned s.wake where
  count := h.count
  current := by
    intro c hc
    obtain ⟨d, hd, rfl⟩ := Option.map_eq_some_iff.mp hc
    exact (h.current d hd).wake.mono rfl le_rfl .inl

/-- Before its wait has ended, a call has to keep only the reset. -/
theorem Earns.of_not_behind (hreq : c.call.req = waitRequest c.call.req.timeoutMs)
    (hsince : c.since ≤ s.handled) (hbefore : s.returned ≤ c.since)
    (hpc : c.call.pc.behind = false)
    (huser : c.call.pc.waiting = true → s.shared.signals.userSignal = true → c.since < s.handled) :
    Earns s c :=
  ⟨hreq, hsince, fun _ => hbefore, huser,
    fun h => by rcases h with h | h <;> simp [h, AwaitPc.behind] at hpc,
    fun h => by rcases h with h | h <;> simp [h, AwaitPc.behind] at hpc⟩

/-- A step that does not make the call return. -/
theorem Earned.move {call : Call} {d : WaitCall} (h : Earned s) (hdone : call.pc ≠ .done .ok)
    (hd : Earns { s with shared := shared, current := some d } d) : Earned { s with
      shared := shared
      current := some d
      returned := s.returned + if call.pc = .done .ok then 1 else 0 } := by
  rw [if_neg hdone]
  exact ⟨h.count, fun e he => Option.some.inj he ▸ hd.mono rfl le_rfl .inl⟩

/-- The wait of the call is over, for an event or for a broken pipe. -/
theorem Earned.over {choice : Choice} {left : Option Nat} {connected : Bool} (h : Earned s)
    (hc : s.current = some c) (hpc : c.call.pc.waiting = true)
    (hearned : c.since < s.handled ∨ c.call.endedBy choice = .broken) : Earned { s with
      current := some (c.record (c.call.over left) choice connected)
      returned := s.returned + if (c.call.over left).pc = .done .ok then 1 else 0 } := by
  have hatt := h.current c hc
  have hreturned : s.returned ≤ c.since :=
    hatt.before (AwaitPc.isDone_of_not_behind (AwaitPc.behind_of_waiting hpc))
  have hreq : (c.call.over left).req = c.call.req := rfl
  obtain hover | ⟨_, -, -, hover⟩ := AwaitPc.afterWait_cases left <;>
    rw [← c.call.over_pc left] at hover <;> generalize c.call.over left = call at hreq hover ⊢
  · refine h.move (by simp [hover]) ?_
    rw [WaitCall.record_clear hover]
    refine ⟨by rw [hreq]; exact hatt.req, hatt.since, fun _ => hreturned,
      by simp [hover, AwaitPc.waiting], fun _ => hearned.imp_right fun hb => by rw [hb],
      by simp [hover]⟩
  · refine h.move (by simp [hover]) ?_
    rw [WaitCall.record_of_ne (by simp [hover])]
    exact ⟨by rw [hreq]; exact hatt.req, hatt.since, fun _ => hreturned,
      by simp [hover, AwaitPc.waiting], by simp [hover], by simp [hover]⟩

/-- A step of the call keeps the invariant, if its wait is ended as the condition asks. -/
theorem Earned.callStep {call : Call} {choice : Choice} (h : Earned s)
    (hc : s.current = some c) (hstep : c.call.step s.shared choice = some (shared, call))
    (hfine : EndedBySignal s (.call choice)) : Earned { s with
      shared := shared
      current := some (c.record call choice s.shared.signals.initialSignal)
      returned := s.returned + if call.pc = .done .ok then 1 else 0 } := by
  have hatt := h.current c hc
  have hsince := hatt.since
  have hbefore : c.call.pc.behind = false → s.returned ≤ c.since :=
    fun hpc => hatt.before (AwaitPc.isDone_of_not_behind hpc)
  -- what the condition says when no event was handled since the call began
  have hnone : ¬ c.since < s.handled → choice ≠ .timeout ∧
      (c.call.pc = .checkInit → s.shared.signals.initialSignal = false) ∧
      (c.call.pc = .recheck → c.ended = some .broken → s.shared.header.isBrokenPipe = true) :=
    fun hlt => hfine c hc (by omega)
  cases Call.goes hstep with
  | early _ pc hpc _ hnext _ _ =>
    have hreturned := hbefore (AwaitPc.behind_of_early hpc)
    rcases hnext with hnext | ⟨e, rfl⟩
    · refine h.move (by rintro rfl; cases hnext) ?_
      rw [WaitCall.record_of_ne (by rintro rfl; cases hnext)]
      refine .of_not_behind hatt.req hsince hreturned (AwaitPc.behind_of_early hnext) fun hw => ?_
      exact absurd hw (by simp [AwaitPc.waiting_of_early hnext])
    · refine h.move (by simp) ?_
      rw [WaitCall.record_of_ne (by simp)]
      exact ⟨hatt.req, hsince, by simp [AwaitPc.isDone], by simp [AwaitPc.waiting], by simp,
        by simp⟩
  | reset hpc =>
    refine h.move (by simp) ?_
    rw [WaitCall.record_of_ne (by simp)]
    exact .of_not_behind hatt.req hsince (hbefore (by rw [hpc]; rfl)) rfl
      (by simp [Shared.setUser])
  | waits pc woken hpc hnext _ =>
    refine h.move (by rintro rfl; cases hnext) ?_
    rw [WaitCall.record_of_ne (by rintro rfl; cases hnext)]
    exact .of_not_behind hatt.req hsince (hbefore (AwaitPc.behind_of_waiting hpc))
      (AwaitPc.behind_of_waiting hnext) fun _ => hatt.user hpc
  | user left hpc hreq hset =>
    have hwaiting : c.call.pc.waiting = true := by rw [hpc]; rfl
    exact h.over hc hwaiting (.inl (hatt.user hwaiting hset))
  | initial left hpc hreq hset =>
    refine h.over hc (by rw [hpc]; rfl) (.inl ?_)
    by_contra hlt
    rw [(hnone hlt).2.1 hpc] at hset
    cases hset
  | latent left hpc hreq hset =>
    rw [hatt.req] at hreq
    cases hreq
  | broken left hpc hbroken =>
    refine h.over hc (by rw [hpc]; rfl) (.inr ?_)
    cases left <;> simp [Call.endedBy, Choice.ofLeft, hpc]
  | timeout hpc htimeout =>
    refine h.over hc (by rw [hpc]; rfl) (.inl ?_)
    by_contra hlt
    exact (hnone hlt).1 rfl
  | interrupt hpc =>
    refine h.move (by simp) ?_
    rw [WaitCall.record_of_ne (by simp)]
    exact ⟨hatt.req, hsince, fun _ => hbefore (by rw [hpc]; rfl),
      by simp [AwaitPc.waiting], by simp, by simp⟩
  | clear hpc =>
    refine h.move (by simp) ?_
    rw [WaitCall.record_of_ne (by simp)]
    exact ⟨hatt.req, hsince, fun _ => hatt.before (by rw [hpc]; rfl),
      by simp [AwaitPc.waiting],
      fun _ => hatt.ended (.inl hpc), by simp⟩
  | recheck hpc =>
    refine h.move (by simp) ?_
    rw [WaitCall.record_of_ne (by simp)]
    have hreturned := hatt.before (by rw [hpc]; rfl)
    refine ⟨hatt.req, hsince, fun _ => hreturned, by simp [AwaitPc.waiting], by simp,
      fun hok => ?_⟩
    by_contra hlt
    -- the pipe that has ended the wait is whole again
    have hbroken := (hnone hlt).2.2 hpc ((hatt.ended (.inr hpc)).resolve_left hlt)
    simp [hbroken] at hok
  | unlock _ r hpc _ _ =>
    rw [WaitCall.record_of_ne (by simp)]
    have hreturned := hatt.before (by rw [hpc]; rfl)
    have hok : r = .ok → c.since < s.handled := fun hr => hatt.ok (.inl (hr ▸ hpc))
    refine ⟨?_, fun d hd => ?_⟩
    · by_cases hr : r = .ok
      · have hearned := hok hr
        simp only [hr, if_true]
        omega
      · simpa [hr] using h.count
    · obtain rfl := Option.some.inj hd
      exact ⟨hatt.req, hsince, by simp [AwaitPc.isDone], by simp [AwaitPc.waiting], by simp,
        fun hpc => hok (by simpa using hpc)⟩

/-- A step of the handler counts an event when it sets a signal that a WAIT waits for. -/
theorem HandlerPc.step_user (pc : HandlerPc) (shared : Shared)
    (h : (pc.step shared).1.signals.userSignal = true) :
    shared.signals.userSignal = true ∨ pc.handles = true := by
  cases pc with
  | start =>
    simp only [HandlerPc.step] at h
    split_ifs at h <;> exact .inl h
  | answer => exact .inl h
  | setInitial => exact .inr rfl
  | setUser => exact .inr rfl
  | setLatent => exact .inl h
  | wakeUp => exact .inl h

/-- A step of the handler keeps the invariant. -/
theorem Earned.handlerStep (h : Earned s) (pc : HandlerPc) : Earned (s.afterHandler pc) where
  count := h.count.trans (Nat.le_add_right _ _)
  current := by
    intro c hc
    refine (h.current c hc).mono rfl (Nat.le_add_right _ _) fun hset => ?_
    refine (pc.step_user s.shared hset).imp_right fun hhandles => ?_
    simp [Waiter.afterHandler, hhandles]

/-- One step of the caller or of its surroundings keeps the invariant. -/
theorem Earned.step {input : Waiter.Input} (h : Earned s) (hfine : EndedBySignal s input)
    (hstep : s.step waitRequest input = some t) : Earned t := by
  cases Waiter.steps hstep with
  | enter timeoutMs =>
    refine ⟨h.count, fun c hc => ?_⟩
    obtain rfl := Option.some.inj hc
    refine .of_not_behind rfl le_rfl h.count rfl fun hwaiting => ?_
    simp [WaitCall.enter, Call.enter, AwaitPc.waiting] at hwaiting
  | call _ _ _ _ hc hcall => exact h.callStep hc hcall hfine
  | handler pc => exact h.handlerStep pc
  | wakeUp pc => exact (h.handlerStep pc).wake
  | wake => exact h.wake
  | other _ _ hcurrent hhandled hreturned _ huser =>
    refine ⟨by rw [hreturned, hhandled]; exact h.count, fun c hc => ?_⟩
    exact (h.current c (hcurrent ▸ hc)).mono hreturned hhandled.ge fun hset => .inl (huser hset)

/-- Before the first call nothing has returned. -/
theorem earned_initial (shared : Shared) (handler : Option HandlerPc) :
    Earned (.initial shared handler) :=
  ⟨Nat.le_refl 0, fun c hc => by simp [Waiter.initial] at hc⟩

end Steps

/-- In every run of calls of WAIT that are ended by nothing but signals, each of them returns 0 only
for an event that was handled since it began, and never more of them than events were handled. -/
theorem wait_returns_for_signal (shared : Shared) (handler : Option HandlerPc)
    (inputs : List Waiter.Input)
    (hfine : Along (Waiter.step waitRequest) EndedBySignal (.initial shared handler) inputs) :
    Always (Waiter.step waitRequest) ReturnsForSignal (.initial shared handler) inputs :=
  hfine.always (fun _ (h : Earned _) => h.returnsForSignal)
    (fun _ _ _ h hfine hstep => h.step hfine hstep) (earned_initial shared handler)

/-- The call proceeds `n` times in a row. -/
def Waiter.proceeds (n : Nat) : List Waiter.Input := .replicate n (.call .proceed)

/-- A connected offerer, with or without the initial signal. -/
def Shared.connected (initial : Bool) : Shared :=
  ⟨.offerer, ⟨initial, false, false⟩,
    { Header.zero with offererState := .opened, receiverState := .opened }⟩

/-- A call before the first event: it falls asleep, the event wakes it, and its wait is over when it
finds the initial signal, which with a timeout is the choice `.ends`. -/
def firstEvent (found : Choice) : List Waiter.Input :=
  .enter 0 :: (Waiter.proceeds 8 ++ .deliver :: (.replicate 4 .handler ++ Waiter.proceeds 3 ++
    .call found :: Waiter.proceeds 3))

/-- A further WAIT, which proceeds until it has returned. -/
def laterWait : List Waiter.Input := .enter 0 :: Waiter.proceeds 9

/-- The first event is handled while a WAIT sleeps, and the call returns for it. -/
theorem wait_returns_for_signal_firstEvent :
    Always (Waiter.step waitRequest) ReturnsForSignal (.initial (.connected false) none)
      (firstEvent .proceed) :=
  wait_returns_for_signal (.connected false) none (firstEvent .proceed) (by decide +kernel)

/-- Behind the first event, WAIT returns at once. -/
theorem not_wait_returns_for_signal :
    ∃ s, Reaches (Waiter.step waitRequest) (fun _ _ => true) (.initial (.connected true) none) s ∧
      s.returned = 1 ∧ s.handled = 0 ∧ ¬ ReturnsForSignal s := by
  have hrun : (run (Waiter.step waitRequest) (fun _ _ => true)
      (.initial (.connected true) none) laterWait).any
        (fun s => s.returned = 1 ∧ s.handled = 0) = true := by decide +kernel
  obtain ⟨s, hs, hcount⟩ := exists_reaches_of_run hrun
  obtain ⟨hreturned, hhandled⟩ := of_decide_eq_true hcount
  refine ⟨s, hs, hreturned, hhandled, fun h => ?_⟩
  have hle := h.count
  omega

end XenShm.Kernel
