import XenShm.Pipe.Connection

/-!
# Flushing

A flush sends one event, so that a peer which is about to sleep on data or space that it
has not seen is woken. The event has to end up in the latch of the peer: the handler of an
end that was not yet greeted takes the first event as the greeting.
-/

namespace XenShm.Pipe

open XenShm.Library

/-- The end has decided to sleep and the decision still stands. -/
def Proc.headed (p : Proc) : Bool :=
  p.phase = .resolved ∧ (p.pc = .probe ∨ p.pc = .sleepingLoad ∨ p.pc = .sleepingStore ∨
    p.pc = .asleep)

/-- The kernel lets its process sleep in AWAIT. -/
def Task.sleeps : Task → Bool
  | .await call => call.pc = .asleep
  | _ => false

namespace KernelEnd

variable (k : KernelEnd)

/-- The wait of a sleeping process has ended. -/
def woken (p : Proc) : Bool :=
  decide (p.pc = .asleep) &&
    match k.task with
    | .await call => call.pc.behind
    | .ret _ => true
    | _ => false

/-- An event is on its way into the latch or there. -/
def Token : Prop :=
  k.pending = true ∨
    (k.handler = some .start ∨ k.handler = some .setUser ∨ k.handler = some .setLatent) ∨
    k.signals.latentUserSignal = true

end KernelEnd

namespace Connection

variable (g : Geometry) (conv : Conv) (c : Connection)

/-- The end sleeps in the kernel or is on its way there. -/
def Committed (m : Mod) : Prop :=
  (c.sys.proc m).headed = true ∧ (c.kernel m).woken (c.sys.proc m) = false

/-- The end is blocked in its wait, and no event will end it. -/
def Stuck (m : Mod) : Prop :=
  (c.sys.proc m).pc = .asleep ∧ (c.kernel m).task.sleeps = true ∧
    (c.kernel m).pending = false ∧ (c.kernel m).handler = none ∧
    (c.kernel m).signals.latentUserSignal = false

/-- No end is stuck before it has moved what it could move when its peer flushed. -/
def FlushesReach : Prop := ∀ m, c.sys.shown m < c.flushed m → ¬ c.Stuck m

/-- The event of a flush is sent only towards an end that was greeted. -/
def FlushesGreeted : Connection.Input → Prop
  | .kernel m _ => (c.kernel m).task = .ssigNotify → (c.sys.proc m).pc = .flushSignal →
    (c.kernel m.peer).signals.initialSignal = true
  | _ => True

/-- Only the wait of a process that goes to sleep takes note of user signals. -/
def Waits (p : Proc) (call : Kernel.Call) : Prop :=
  p.pc = .asleep ∨ (p.pc = .probe ∨ p.pc = .idle) ∧ call.req.takesSignals = false

instance : DecidablePred c.Stuck := fun _ => inferInstanceAs (Decidable (_ ∧ _))

instance : (i : Connection.Input) → Decidable (c.FlushesGreeted i)
  | .kernel _ _ => inferInstanceAs (Decidable (_ → _))
  | .user _ _ | .enter _ | .wait _ _ | .deliver _ | .handler _ => isTrue trivial

/-- The invariant of the flushes. -/
structure Marked : Prop where
  /-- The streams are what the ring and the indices say. -/
  kept : Kept g c.sys
  /-- The way of an end to its sleep has the marks it needs. -/
  alert : Alert g c.sys
  /-- What could be moved when a flush was called can be moved now. -/
  called : ∀ m, c.called m ≤ bound g m.peer (c.sys.shown m)
  /-- What could be moved when an event was sent can be moved now. -/
  sent : ∀ m, c.sent m ≤ bound g m (c.sys.shown m.peer)
  /-- A flush that has returned has sent its event. -/
  flushed : ∀ m, c.flushed m ≤ c.sent m
  /-- An end that was sent the event of a flush was greeted before. -/
  greeted : ∀ m, 0 < c.sent m → (c.kernel m).signals.initialSignal = true
  /-- Nothing reaches an end that is not bound. -/
  unbound : ∀ m, (c.kernel m).task = .initReceiver →
    (c.kernel m).signals.initialSignal = false ∧ (c.kernel m).pending = false ∧
      (c.kernel m).handler = none
  /-- Only the wait for latent signals can clear the latch. -/
  waits : ∀ m call, (c.kernel m).task = .await call → Waits (c.sys.proc m) call
  /-- A flush that is about to return has sent its event. -/
  returned : ∀ m, (c.kernel m).task = .ret .ok → (c.sys.proc m).pc = .flushSignal →
    c.called m ≤ c.sent m.peer
  /-- An end that sleeps on something it was sent an event for will get it. -/
  token : ∀ m, c.Committed m → c.sys.shown m < c.sent m → (c.kernel m).Token

end Connection

namespace Proc

variable {g : Geometry} {m : Mod} {i : Input} {p p' : Proc} {s s' : Shared}

/-- A process decides to sleep when the second test of the ring fails. -/
theorem step_headed (h : p.step g m i s = some (p', s')) (hh : p'.headed = true) :
    p.headed = true ∨ p.own = s.index m.peer ∧ p.looping = true := by
  obtain ⟨hphase, hpc'⟩ := of_decide_eq_true hh
  cases step_phase h with
  | wakes next _ | looks next _ _ | stays _ next _ | raises _ next _ _ => simp [next] at hphase
  | resolves _ _ _ test loop _ => exact .inr ⟨test, loop⟩
  | keeps cur _ _ _ =>
    refine .inl (decide_eq_true ⟨cur, ?_⟩)
    cases hpc : p.pc <;> simp only [phase, hpc, reduceCtorEq] at cur
    case probe | sleepingLoad | sleepingStore | asleep => simp
    case waitingLoad | waitingStore | recheck =>
      unfold unlessWaiting at cur
      split at cur <;> cases cur
    -- behind the sleep nobody decides again without a new test
    all_goals exfalso
    all_goals
      cases i <;> simp only [step, tick, ioctlReturn, hpc, reduceCtorEq, if_false,
        Option.map_none] at h
      cases waits (g := g) h <;> simp_all [leaveWait]

end Proc

namespace Connection

variable {g : Geometry} {conv : Conv} {c d : Connection} {m m' : Mod}

section Frames

variable {k : KernelEnd} {t : Task}

@[simp] theorem setKernel_sys : (c.setKernel m k).sys = c.sys := rfl

@[simp] theorem setKernel_self : (c.setKernel m k).kernel m = k := by simp [setKernel]

/-- To replace the kernel of one end leaves the other one. -/
theorem setKernel_of_ne (h : m' ≠ m) : (c.setKernel m k).kernel m' = c.kernel m' := by
  simp [setKernel, h]

@[simp] theorem setKernel_peer : (c.setKernel m k).kernel m.peer = c.kernel m.peer :=
  setKernel_of_ne m.peer_ne

@[simp] theorem setTask_sys : (c.setTask m t).sys = c.sys := rfl

@[simp] theorem setTask_sent : (c.setTask m t).sent = c.sent := rfl

@[simp] theorem setTask_self :
    (c.setTask m t).kernel m = { c.kernel m with task := t } := setKernel_self

@[simp] theorem setTask_peer : (c.setTask m t).kernel m.peer = c.kernel m.peer := setKernel_peer

end Frames

/-- What an end has decided and not moved before a step of the pipe it had decided and not moved
after it. -/
theorem Marked.headed_before {i : Pipe.Input} {sys : System} (h : Marked g c)
    (hs : c.sys.step g (m, i) = some sys) (m' : Mod) (hheaded : (sys.proc m').headed = true)
    (hless : sys.shown m' < c.sent m') :
    (c.sys.proc m').headed = true ∧ c.sys.shown m' < c.sent m' := by
  refine ⟨?_, (h.kept.shown_le hs m').trans_lt hless⟩
  revert m'
  refine Mod.forall_of m (fun hheaded hless => ?_) fun hheaded _ => ?_
  · rcases Proc.step_headed (System.step_proc hs) hheaded with hbefore | ⟨test, loop⟩
    · exact hbefore
    · -- the second test has just failed, so there is nothing to move
      have hready := h.alert.not_ready h.kept test loop
      have hsent := h.sent m
      have hshown := h.kept.shown_le hs m
      simp only [System.Ready, not_lt] at hready
      omega
  · rwa [System.proc_peer_step hs] at hheaded

/-- The invariant depends on the pipe, the kernels and the marks only. -/
theorem Marked.congr (h : Marked g c) (hsys : d.sys = c.sys) (hkernel : d.kernel = c.kernel)
    (hcalled : d.called = c.called) (hsent : d.sent = c.sent) (hflushed : d.flushed = c.flushed) :
    Marked g d := by
  obtain ⟨h₁, h₂, h₃, h₄, h₅, h₆, h₇, h₈, h₉, h₁₀⟩ := h
  unfold Committed at h₁₀
  rw [← hsys] at h₁ h₂
  simp only [← hsys, ← hkernel, ← hcalled, ← hsent, ← hflushed] at h₃ h₄ h₅ h₆ h₇ h₈ h₉ h₁₀
  exact ⟨h₁, h₂, h₃, h₄, h₅, h₆, h₇, h₈, h₉, h₁₀⟩

/-- A change in the kernel of one end. -/
theorem Marked.setKernel {k : KernelEnd} (h : Marked g c)
    (hgreeted : (c.kernel m).signals.initialSignal = true → k.signals.initialSignal = true)
    (hunbound : k.task ≠ .initReceiver)
    (hwaits : ∀ call, k.task = .await call → Waits (c.sys.proc m) call)
    (hreturned : k.task = .ret .ok → (c.sys.proc m).pc = .flushSignal → c.called m ≤ c.sent m.peer)
    (htoken : k.woken (c.sys.proc m) = false → 0 < c.sent m →
      k.Token ∨ (c.kernel m).woken (c.sys.proc m) = false ∧ ((c.kernel m).Token → k.Token)) :
    Marked g (c.setKernel m k) where
  kept := h.kept
  alert := h.alert
  called := h.called
  sent := h.sent
  flushed := h.flushed
  greeted := by
    refine Mod.forall_of m (fun hpos => ?_) fun hpos => ?_
    · rw [setKernel_self]
      exact hgreeted (h.greeted m hpos)
    · rw [setKernel_peer]
      exact h.greeted m.peer hpos
  unbound := by
    refine Mod.forall_of m ?_ ?_
    · rw [setKernel_self]
      exact fun ht => absurd ht hunbound
    · rw [setKernel_peer]
      exact h.unbound m.peer
  waits := by
    refine Mod.forall_of m ?_ ?_
    · rw [setKernel_self]
      exact hwaits
    · rw [setKernel_peer]
      exact h.waits m.peer
  returned := by
    refine Mod.forall_of m ?_ ?_
    · rw [setKernel_self]
      exact hreturned
    · rw [setKernel_peer]
      exact h.returned m.peer
  token := by
    unfold Committed
    refine Mod.forall_of m ?_ ?_
    · rw [setKernel_self]
      rintro ⟨hheaded, hwoken⟩ hless
      rcases htoken hwoken (Nat.zero_lt_of_lt hless) with htoken | ⟨hbefore, hkeeps⟩
      · exact htoken
      · exact hkeeps (h.token m ⟨hheaded, hbefore⟩ hless)
    · rw [setKernel_peer]
      exact h.token m.peer

/-- An event that is sent keeps the invariant. -/
theorem Marked.notify (h : Marked g c) (m : Mod) : Marked g (c.notify m) := by
  unfold Connection.notify
  split
  · exact h
  · rename_i hbound
    exact h.setKernel id hbound (h.waits m) (h.returned m) fun _ _ => .inl (.inl rfl)

/-- The kernel of one end takes up something else. -/
theorem Marked.setTask {t : Task} (h : Marked g c) (hunbound : t ≠ .initReceiver)
    (hwaits : ∀ call, t = .await call → Waits (c.sys.proc m) call)
    (hreturned : t = .ret .ok → (c.sys.proc m).pc = .flushSignal → c.called m ≤ c.sent m.peer)
    (hwoken : KernelEnd.woken { c.kernel m with task := t } (c.sys.proc m) = false →
      (c.kernel m).woken (c.sys.proc m) = false) :
    Marked g (c.setTask m t) :=
  h.setKernel id hunbound hwaits hreturned fun hw _ => .inr ⟨hwoken hw, id⟩

/-- A step of the processes that leaves its kernel idle. -/
theorem Marked.sys {i : Pipe.Input} {sys : System} (h : Marked g c)
    (hs : c.sys.step g (m, i) = some sys)
    (hwoken : (sys.proc m).headed = true → (c.kernel m).woken (c.sys.proc m) = false) :
    Marked g ({ c with sys := sys }.setTask m .idle) where
  kept := h.kept.step hs
  alert := h.alert.step h.kept hs
  called := fun m' => (h.called m').trans (bound_mono g _ (h.kept.shown_le hs m'))
  sent := fun m' => (h.sent m').trans (bound_mono g _ (h.kept.shown_le hs m'.peer))
  flushed := h.flushed
  greeted := by
    refine Mod.forall_of m ?_ ?_
    · rw [setTask_self]
      exact h.greeted m
    · rw [setTask_peer]
      exact h.greeted m.peer
  unbound := by
    refine Mod.forall_of m ?_ ?_
    · simp
    · rw [setTask_peer]
      exact h.unbound m.peer
  waits := by
    refine Mod.forall_of m ?_ ?_
    · simp
    · rw [setTask_peer, setTask_sys, System.proc_peer_step hs]
      exact h.waits m.peer
  returned := by
    refine Mod.forall_of m ?_ ?_
    · simp
    · rw [setTask_peer, setTask_sys, System.proc_peer_step hs]
      exact h.returned m.peer
  token := by
    unfold Committed
    intro m' hcommitted hless
    obtain ⟨hheaded, hless⟩ := h.headed_before hs m' hcommitted.1 hless
    have hbefore : (c.kernel m').woken (c.sys.proc m') = false := by
      clear hheaded hless
      revert m'
      refine Mod.forall_of m (fun hcommitted _ => hwoken hcommitted.1) ?_
      rw [setTask_peer, setTask_sys, System.proc_peer_step hs]
      exact fun hcommitted _ => hcommitted.2
    have htoken := h.token m' ⟨hheaded, hbefore⟩ hless
    revert m'
    refine Mod.forall_of m ?_ ?_
    · rw [setTask_self]
      exact fun _ _ _ _ _ htoken => htoken
    · rw [setTask_peer]
      exact fun _ _ _ _ _ htoken => htoken

/-- A process that is in user space stays there. -/
theorem setTask_idle (h : (c.kernel m).task = .idle) : c.setTask m .idle = c := by
  rw [setTask, ← h, setKernel, Function.update_eq_self]

/-- An event changes only the kernel that it is sent to. -/
theorem notify_of_ne (h : m' ≠ m) : (c.notify m).kernel m' = c.kernel m' := by
  unfold Connection.notify
  split
  · rfl
  · exact setKernel_of_ne h

/-- A process that is neither in AWAIT nor about to return was not woken. -/
theorem woken_of_task {k : KernelEnd} {p : Proc} (hwait : ∀ call, k.task ≠ .await call)
    (hret : ∀ r, k.task ≠ .ret r) : k.woken p = false := by
  unfold KernelEnd.woken
  cases ht : k.task <;> simp_all

/-- The end that calls flush records what its peer can move. -/
theorem Marked.setCalled {n : Nat} (h : Marked g c) (hn : n ≤ bound g m.peer (c.sys.shown m))
    (hret : (c.kernel m).task ≠ .ret .ok) :
    Marked g { c with called := Function.update c.called m n } where
  kept := h.kept
  alert := h.alert
  called := by
    refine Mod.forall_of m ?_ ?_
    · simpa using hn
    · simpa using h.called m.peer
  sent := h.sent
  flushed := h.flushed
  greeted := h.greeted
  unbound := h.unbound
  waits := h.waits
  returned := by
    refine Mod.forall_of m (fun ht => absurd ht hret) ?_
    simpa using h.returned m.peer
  token := h.token

/-- A step of the user or of the library. -/
theorem Marked.user {i : Pipe.Input} {sys : System} (h : Marked g c)
    (hidle : (c.kernel m).task = .idle) (hs : c.sys.step g (m, i) = some sys) :
    Marked g (c.afterUser g conv m i sys) := by
  have hsys : Marked g { c with sys := sys } := by
    have hnext := h.sys hs fun _ => woken_of_task (by simp [hidle]) (by simp [hidle])
    rwa [setTask_idle (by exact hidle)] at hnext
  unfold afterUser
  by_cases hclose : (c.sys.proc m).pc = .close
  · rw [if_pos hclose]
    have hheader : Marked g (setHeaderState conv { c with sys := sys } m .closed) := by
      unfold setHeaderState
      split <;> exact hsys.congr rfl rfl rfl rfl rfl
    have hkernel : (setHeaderState conv { c with sys := sys } m .closed).kernel = c.kernel := by
      unfold setHeaderState
      split <;> rfl
    exact hheader.setTask (by simp) (by simp) (by simp) fun _ =>
      woken_of_task (by simp [hkernel, hidle]) (by simp [hkernel, hidle])
  · rw [if_neg hclose]
    cases i with
    | flush =>
      exact hsys.setCalled (bound_mono g _ (h.kept.shown_le hs m)) (by simp [hidle])
    | _ => exact hsys

/-- A library that enters an `ioctl` keeps the invariant. -/
theorem Marked.enter {t : Task} (h : Marked g c) (hidle : (c.kernel m).task = .idle)
    (ht : (c.sys.proc m).syscall = some t) : Marked g (c.setTask m t) := by
  have hwoken : (c.kernel m).woken (c.sys.proc m) = false :=
    woken_of_task (by simp [hidle]) (by simp [hidle])
  unfold Proc.syscall at ht
  split at ht
  case h_1 hpc =>
    cases ht
    refine h.setTask (by simp) (fun call heq => ?_) (by simp) fun _ => hwoken
    obtain rfl := Task.await.inj heq
    exact .inr ⟨.inl hpc, rfl⟩
  case h_2 hpc =>
    cases ht
    exact h.setTask (by simp) (fun _ _ => .inl hpc) (by simp) fun _ => hwoken
  case h_5 =>
    split at ht <;> cases ht <;> exact h.setTask (by simp) (by simp) (by simp) fun _ => hwoken
  case h_6 => cases ht
  all_goals
    cases ht
    exact h.setTask (by simp) (by simp) (by simp) fun _ => hwoken

/-- A task of AWAIT is not that of INIT_RECEIVER. -/
theorem Task.ofCall_ne (call : Kernel.Call) : Task.ofCall call ≠ .initReceiver := by
  unfold Task.ofCall
  split <;> simp

/-- The task of AWAIT tells the call it belongs to. -/
theorem Task.eq_of_ofCall {call call' : Kernel.Call} (h : Task.ofCall call = .await call') :
    call' = call := by
  unfold Task.ofCall at h
  split at h
  · cases h
  · exact (Task.await.inj h).symm

/-- A process in AWAIT was woken when its wait is over. -/
theorem woken_ofCall {k : KernelEnd} {p : Proc} {call : Kernel.Call} (h : k.task = .ofCall call) :
    k.woken p = (decide (p.pc = .asleep) && call.pc.behind) := by
  unfold KernelEnd.woken
  rw [h, Task.ofCall]
  cases hpc : call.pc <;> simp [hpc, Kernel.AwaitPc.behind]

/-- A step of AWAIT keeps the invariant. -/
theorem Marked.await {choice : Kernel.Choice} {sh : Kernel.Shared} {call call' : Kernel.Call}
    (h : Marked g c) (ht : (c.kernel m).task = .await call)
    (hs : call.step (c.seenBy conv m) choice = some (sh, call')) :
    Marked g (c.afterAwait m sh call') := by
  obtain ⟨hreq, hinitial, hbehind, hlatent⟩ := Kernel.Call.step_frame hs
  have hwaits := h.waits m call ht
  have hheader : Marked g { c with header := sh.header } := h.congr rfl rfl rfl rfl rfl
  refine hheader.setKernel (fun hg => hinitial.trans hg) (Task.ofCall_ne call')
    (fun next heq => ?_) (fun _ hpc => ?_) fun hw _ => .inr ?_
  · rw [Task.eq_of_ofCall heq]
    exact hwaits.imp_right fun hp => ⟨hp.1, by
      rw [Kernel.Request.takesSignals, hreq]
      exact hp.2⟩
  · rcases hwaits with hp | ⟨hp | hp, -⟩ <;> exact absurd (hp.symm.trans hpc) (by decide)
  · -- a wait that has not ended leaves the latch alone
    rw [woken_ofCall rfl] at hw
    have hbefore : (c.kernel m).woken (c.sys.proc m) = false := by
      simp only [KernelEnd.woken, ht]
      by_contra hb
      simp only [Bool.not_eq_false, Bool.and_eq_true] at hb
      have := hbehind hb.2
      simp [hb.1, this] at hw
    have hlatch := hlatent <| hwaits.imp (fun hp hclear => by
      have := hbehind (by rw [hclear]; rfl)
      simp [hp, this] at hw) And.right
    refine ⟨hbefore, fun htoken => ?_⟩
    unfold KernelEnd.Token at htoken ⊢
    rwa [hlatch]

section Notify

variable (c m)

@[simp] theorem notify_sys : (c.notify m).sys = c.sys := by
  unfold Connection.notify
  split <;> rfl

@[simp] theorem notify_called : (c.notify m).called = c.called := by
  unfold Connection.notify
  split <;> rfl

@[simp] theorem notify_sent : (c.notify m).sent = c.sent := by
  unfold Connection.notify
  split <;> rfl

@[simp] theorem notify_peer : (c.notify m.peer).kernel m = c.kernel m :=
  notify_of_ne m.peer_ne.symm

/-- An end that is bound gets the event. -/
theorem notify_pending (h : (c.kernel m).task ≠ .initReceiver) :
    ((c.notify m).kernel m).pending = true := by
  simp [Connection.notify, h]

@[simp] theorem notify_signals :
    ((c.notify m).kernel m).signals = (c.kernel m).signals := by
  unfold Connection.notify
  split <;> simp

end Notify

/-- An event of a flush is on its way, or not needed. -/
theorem Marked.setSent {n : Nat} (h : Marked g c) (hn : n ≤ bound g m (c.sys.shown m.peer))
    (hle : c.sent m ≤ n) (hgreeted : (c.kernel m).signals.initialSignal = true)
    (htoken : c.Committed m → (c.kernel m).Token) :
    Marked g { c with sent := Function.update c.sent m n } where
  kept := h.kept
  alert := h.alert
  called := h.called
  sent := by
    refine Mod.forall_of m ?_ ?_
    · simpa using hn
    · simpa using h.sent m.peer
  flushed := by
    refine Mod.forall_of m ?_ ?_
    · simpa using (h.flushed m).trans hle
    · simpa using h.flushed m.peer
  greeted := by
    refine Mod.forall_of m (fun _ => hgreeted) ?_
    simpa using h.greeted m.peer
  unbound := h.unbound
  waits := h.waits
  returned := by
    refine Mod.forall_of m ?_ fun ht hpc => ?_
    · simpa using h.returned m
    · simpa using (h.returned m.peer ht hpc).trans (by simpa using hle)
  token := by
    refine Mod.forall_of m (fun hcommitted _ => htoken hcommitted) fun hcommitted hless => ?_
    exact h.token m.peer hcommitted (by simpa using hless)

/-- The event of an SSIG is sent, for a flush towards an end that was greeted. -/
theorem Marked.ssig (h : Marked g c) (ht : (c.kernel m).task = .ssigNotify)
    (hgreeted : (c.sys.proc m).pc = .flushSignal →
      (c.kernel m.peer).signals.initialSignal = true) : Marked g (c.afterSsig m) := by
  have hnotify := h.notify m.peer
  have hwoken : ((c.notify m.peer).kernel m).woken ((c.notify m.peer).sys.proc m) = false :=
    woken_of_task (by simp [ht]) (by simp [ht])
  unfold afterSsig
  by_cases hflush : (c.sys.proc m).pc = .flushSignal
  swap
  · rw [if_neg hflush]
    exact hnotify.setTask (by simp) (by simp) (fun _ hpc => absurd (by simpa using hpc) hflush)
      fun _ => hwoken
  · rw [if_pos hflush]
    have hbound : (c.kernel m.peer).task ≠ .initReceiver := fun hinit => by
      simpa [(h.unbound m.peer hinit).1] using hgreeted hflush
    have hsent := hnotify.setSent (m := m.peer) (n := max (c.sent m.peer) (c.called m))
      (max_le (by simpa using h.sent m.peer) (by simpa using h.called m)) (by simp)
      (by simpa using hgreeted hflush) fun _ => .inl (notify_pending c m.peer hbound)
    rw [notify_sent] at hsent
    exact hsent.setTask (t := .ret .ok) (by simp) (by simp) (fun _ _ => by simp) fun _ => hwoken

/-- An `ioctl` that returns keeps the invariant. -/
theorem Marked.ret {r : Kernel.Result} {sys : System} (h : Marked g c)
    (ht : (c.kernel m).task = .ret r)
    (hs : c.sys.step g (m, .ioctl (.ofKernel r)) = some sys) : Marked g (c.afterRet m r sys) := by
  have hsys : Marked g ({ c with sys := sys }.setTask m .idle) := by
    refine h.sys hs fun hheaded => ?_
    -- a process whose wait has returned looks at the ring again
    have hpc : (c.sys.proc m).pc ≠ .asleep := fun hpc => by
      have hstep := System.step_proc hs
      simp only [Proc.step, Proc.ioctlReturn, hpc, Option.map_some, Option.some.injEq,
        Prod.mk.injEq] at hstep
      rw [← hstep.1] at hheaded
      simp [Proc.headed] at hheaded
    simp [KernelEnd.woken, hpc]
  unfold afterRet
  by_cases hflush : (c.sys.proc m).pc = .flushSignal ∧ r = .ok
  · rw [if_pos hflush]
    have hreturned := h.returned m (by rw [ht, hflush.2]) hflush.1
    refine ⟨hsys.kept, hsys.alert, hsys.called, hsys.sent, ?_, hsys.greeted, hsys.unbound,
      hsys.waits, hsys.returned, hsys.token⟩
    refine Mod.forall_of m ?_ ?_
    · simpa [Function.update_of_ne m.peer_ne.symm] using h.flushed m
    · simpa using hreturned
  · rw [if_neg hflush]
    exact hsys

/-- A step of a kernel for its process keeps the invariant, if it flushes to greeted ends only. -/
theorem Marked.stepTask {choice : Kernel.Choice} (h : Marked g c)
    (hfine : FlushesGreeted c (.kernel m choice)) (hs : c.stepTask g conv m choice = some d) :
    Marked g d := by
  unfold Connection.stepTask at hs
  cases ht : (c.kernel m).task <;> simp only [ht, reduceCtorEq] at hs
  case initReceiver =>
    obtain rfl := Option.some.inj hs
    have hheader : Marked g (setHeaderState conv c m .opened) := by
      unfold setHeaderState
      split <;> exact h.congr rfl rfl rfl rfl rfl
    have hkernel : (setHeaderState conv c m .opened).kernel = c.kernel := by
      unfold setHeaderState
      split <;> rfl
    exact hheader.setTask (by simp) (by simp) (by simp) fun _ =>
      woken_of_task (by simp [hkernel, ht]) (by simp [hkernel, ht])
  case initNotify | closeNotify =>
    obtain rfl := Option.some.inj hs
    exact (h.notify m.peer).setTask (by simp) (by simp) (by simp) fun _ =>
      woken_of_task (by simp [ht]) (by simp [ht])
  case await call =>
    obtain ⟨next, hnext, rfl⟩ := Option.map_eq_some_iff.mp hs
    exact h.await ht hnext
  case ssig =>
    obtain rfl := Option.some.inj hs
    have hwoken : (c.kernel m).woken (c.sys.proc m) = false :=
      woken_of_task (by simp [ht]) (by simp [ht])
    split
    · exact h.setTask (by simp) (by simp) (by simp) fun _ => hwoken
    · exact h.setTask (by simp) (by simp) (by simp) fun _ => hwoken
  case ssigNotify =>
    obtain rfl := Option.some.inj hs
    exact h.ssig ht (hfine ht)
  case ret r =>
    split at hs
    · rename_i hpc
      obtain rfl := Option.some.inj hs
      exact h.setTask (by simp) (by simp) (by simp) fun _ => by simp [KernelEnd.woken, hpc]
    · obtain ⟨sys, hsys, rfl⟩ := Option.map_eq_some_iff.mp hs
      exact h.ret ht hsys

/-- A step of an event handler keeps the invariant. -/
theorem Marked.stepHandler {pc : Kernel.HandlerPc} (h : Marked g c)
    (hpc : (c.kernel m).handler = some pc) : Marked g (c.stepHandler conv m pc) := by
  have hbound : (c.kernel m).task ≠ .initReceiver := fun ht => by
    simp [(h.unbound m ht).2.2] at hpc
  have hwaits := h.waits m
  have hreturned := h.returned m
  have hmove : ∀ (signals : Kernel.Signals) (next : Option Kernel.HandlerPc),
      ((c.kernel m).signals.initialSignal = true → signals.initialSignal = true) →
      (0 < c.sent m → (c.kernel m).Token →
        KernelEnd.Token { c.kernel m with signals := signals, handler := next }) →
      Marked g (c.setKernel m { c.kernel m with signals := signals, handler := next }) :=
    fun signals next hg htoken => h.setKernel hg hbound hwaits hreturned
      fun hw hpos => .inr ⟨hw, htoken hpos⟩
  unfold Connection.stepHandler
  cases pc with
  | start =>
    simp only [Kernel.HandlerPc.step]
    split
    · exact hmove _ _ id fun _ _ => .inr (.inl (.inr (.inl rfl)))
    · rename_i hnot
      have hzero : ¬ 0 < c.sent m := fun hpos => hnot (h.greeted m hpos)
      split <;> exact hmove _ _ id fun hpos => absurd hpos hzero
  | answer =>
    refine (hmove _ _ id fun _ htoken => ?_).notify m.peer
    simpa [KernelEnd.Token, hpc] using htoken
  | setInitial =>
    refine hmove _ _ (fun _ => rfl) fun _ htoken => ?_
    simpa [KernelEnd.Token, hpc, Kernel.Shared.setInitial, seenBy] using htoken
  | setUser => exact hmove _ _ id fun _ _ => .inr (.inl (.inr (.inr rfl)))
  | setLatent => exact hmove _ _ id fun _ _ => .inr (.inr rfl)
  | wakeUp =>
    have hnext : Marked g (c.setKernel m { c.kernel m with handler := none }) :=
      hmove _ _ id fun _ htoken => by simpa [KernelEnd.Token, hpc] using htoken
    simp only [Kernel.HandlerPc.step, seenBy]
    cases ht : (c.kernel m).task with
    | await call =>
      have hcall := hwaits call ht
      have hwake := hnext.setTask (m := m) (t := .await call.wake) (by simp)
        (fun call' heq => by
          obtain rfl := Task.await.inj heq
          exact hcall) (by simp)
        (by simp [KernelEnd.woken, ht, Kernel.Call.wake])
      simpa [Connection.setTask, Connection.setKernel, KernelEnd.wake, ht] using hwake
    | _ => simpa [KernelEnd.wake, ht] using hnext

/-- A step in which no flush is taken for the greeting. -/
theorem Marked.step {i : Connection.Input} (h : Marked g c) (hfine : FlushesGreeted c i)
    (hs : c.step g conv i = some d) : Marked g d := by
  cases Connection.steps hs with
  | user m i sys hidle hsys => exact h.user hidle hsys
  | enter m t hidle hcall => exact h.enter hidle hcall
  | wait m timeoutMs hidle hpc =>
    refine h.setTask (by simp) (fun call heq => ?_) (by simp) fun _ =>
      woken_of_task (by simp [hidle]) (by simp [hidle])
    obtain rfl := Task.await.inj heq
    exact .inr ⟨.inr hpc, rfl⟩
  | kernel m choice _ htask => exact h.stepTask hfine htask
  | deliver m hpending =>
    have hbound : (c.kernel m).task ≠ .initReceiver := fun ht => by
      simp [(h.unbound m ht).2.1] at hpending
    exact h.setKernel id hbound (h.waits m) (h.returned m) fun _ _ => .inl (.inr (.inl (.inl rfl)))
  | handler m pc hpc => exact h.stepHandler hpc

/-- A pipe on which no flush was called satisfies the invariant. -/
theorem marked_offered (g : Geometry) (conv : Conv) (buffer memReader memWriter : Nat → UInt8) :
    Marked g (.offered conv buffer memReader memWriter) where
  kept := kept_offered g conv buffer memReader memWriter
  alert := Alert.offered g conv buffer memReader memWriter
  called := fun _ => Nat.zero_le _
  sent := fun _ => Nat.zero_le _
  flushed := fun _ => le_rfl
  greeted := fun _ hpos => absurd hpos (lt_irrefl 0)
  unbound := fun _ _ => ⟨rfl, rfl, rfl⟩
  waits := fun m call ht => by
    simp only [Connection.offered] at ht
    split at ht <;> cases ht
  returned := fun _ _ _ => le_rfl
  token := fun _ _ hless => absurd hless (Nat.not_lt_zero _)

/-- An end that is stuck is committed, and no event is on its way. -/
theorem Stuck.committed (h : c.Stuck m) : c.Committed m ∧ ¬ (c.kernel m).Token := by
  obtain ⟨hpc, hsleeps, hpending, hhandler, hlatch⟩ := h
  have hphase : (c.sys.proc m).phase = .resolved := by simp [Proc.phase, hpc]
  have hwoken : (c.kernel m).woken (c.sys.proc m) = false := by
    cases ht : (c.kernel m).task with
    | await call =>
      rw [ht] at hsleeps
      simp [KernelEnd.woken, ht, of_decide_eq_true hsleeps, Kernel.AwaitPc.behind]
    | _ => simp [ht, Task.sleeps] at hsleeps
  refine ⟨⟨by simp [Proc.headed, hphase, hpc], hwoken⟩, ?_⟩
  simp [KernelEnd.Token, hpending, hhandler, hlatch]

/-- An end that is stuck has moved everything it was sent an event for. -/
theorem Marked.sent_le (h : Marked g c) (hs : c.Stuck m) : c.sent m ≤ c.sys.shown m := by
  obtain ⟨hcommitted, htoken⟩ := hs.committed
  by_contra hless
  exact htoken (h.token m hcommitted (not_le.mp hless))

/-- An end that is stuck has no event on its way. -/
theorem Marked.flushesReach (h : Marked g c) : c.FlushesReach := by
  intro m hless hs
  have hsent := h.sent_le hs
  have hflushed := h.flushed m
  omega

/-- When every flush finds its peer greeted, no flush leaves the peer asleep. -/
theorem flush_wakes (g : Geometry) (conv : Conv) (buffer memReader memWriter : Nat → UInt8)
    (inputs : List Connection.Input)
    (hgreeted : Along (Connection.step g conv) FlushesGreeted
      (.offered conv buffer memReader memWriter) inputs) :
    Always (Connection.step g conv) FlushesReach
      (.offered conv buffer memReader memWriter) inputs :=
  hgreeted.always (fun _ (h : Marked g _) => h.flushesReach)
    (fun _ _ _ h hfine hs => h.step hfine hs)
    (marked_offered g conv buffer memReader memWriter)

/-- A pipe offered by the reader over zeroed pages. -/
def fresh : Connection := offered .readerOffers (fun _ => 0) (fun _ => 0) fun _ => 0

/-- The same input `n` times in a row. -/
def repeated (n : Nat) (i : Connection.Input) : List Connection.Input := .replicate n i

/-- The writer connects and sets its flag, in as many steps as that takes. -/
def connecting : List Connection.Input :=
  repeated 2 (.kernel .write .proceed) ++ repeated 2 (.user .write .tick)

/-- The writer flushes, in as many steps as that takes. -/
def flushing : List Connection.Input :=
  .user .write .flush :: .user .write .tick :: .enter .write :: repeated 3 (.kernel .write .proceed)

/-- The handler of the reader takes an event. -/
def handling : List Connection.Input := .deliver .read :: repeated 4 (.handler .read)

/-- The reader is greeted and decides to sleep on the empty pipe. Before it has raised its flag the
writer writes a byte to the end of its call, which sends no event, and then the reader sleeps over
the byte. -/
def sleepsOverByte : List Connection.Input :=
  connecting ++ handling ++ .user .read (.transfer .read false 0 1 fun _ => 0) ::
    (repeated 9 (.user .read .tick) ++ .user .write (.transfer .write false 0 1 fun _ => 7) ::
      (repeated 21 (.user .write .tick) ++ repeated 2 (.user .read .tick) ++
        .enter .read :: repeated 8 (.kernel .read .proceed)))

/-- The flush behind the byte wakes the reader, which reads it. -/
theorem flush_wakes_sleepsOverByte :
    (∃ c, Reaches (Connection.step .onePage .readerOffers) (fun _ _ => true) fresh c ∧
      c.Stuck .read ∧ c.sys.shown .read < c.sys.published) ∧
    Always (Connection.step .onePage .readerOffers) FlushesReach fresh
      (sleepsOverByte ++ flushing ++ handling ++ repeated 9 (.kernel .read .proceed) ++
        repeated 20 (.user .read .tick)) := by
  have hrun : (run (Connection.step .onePage .readerOffers) (fun _ _ => true) fresh
      sleepsOverByte).any
        (fun c => c.Stuck .read ∧ c.sys.shown .read < c.sys.published) = true := by
    decide +kernel
  obtain ⟨c, hc, htest⟩ := exists_reaches_of_run hrun
  exact ⟨⟨c, hc, of_decide_eq_true htest⟩,
    flush_wakes .onePage .readerOffers _ _ _ _ (by decide +kernel)⟩

/-- The reader goes to sleep on the empty pipe; the writer connects, writes one byte and flushes
before the reader is greeted. -/
def greetedTooLate : List Connection.Input :=
  .user .read (.transfer .read false 0 1 fun _ => 0) :: (repeated 11 (.user .read .tick) ++
    .enter .read :: (repeated 8 (.kernel .read .proceed) ++ connecting ++
      .user .write (.transfer .write false 0 1 fun _ => 7) :: (repeated 17 (.user .write .tick) ++
        .enter .write :: (repeated 3 (.kernel .write .proceed) ++ repeated 4 (.user .write .tick) ++
          flushing ++ handling ++ repeated 6 (.kernel .read .proceed)))))

/-- The event of the flush is taken for the greeting, and the reader is stuck although the byte
is there. -/
theorem not_flush_wakes :
    ∃ c, Reaches (Connection.step .onePage .readerOffers) (fun _ _ => true) fresh c ∧
      ¬ c.FlushesReach := by
  have hrun : (run (Connection.step .onePage .readerOffers) (fun _ _ => true) fresh
      greetedTooLate).any
        (fun c => c.sys.shown .read < c.flushed .read ∧ c.Stuck .read) = true := by
    decide +kernel
  obtain ⟨c, hc, htest⟩ := exists_reaches_of_run hrun
  obtain ⟨hless, hstuck⟩ := of_decide_eq_true htest
  exact ⟨c, hc, fun h => h .read hless hstuck⟩

end Connection

end XenShm.Pipe
