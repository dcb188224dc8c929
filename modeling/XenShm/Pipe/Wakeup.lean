import XenShm.Pipe.Freed

/-!
# Reads and writes wake a sleeping peer

An end raises `XSHMP_SLEEPING` before it enters AWAIT, and the flag stays up as long as it sleeps:
an interrupted reader, which stores into the flags of its peer, is not on its way while the writer
sleeps. A read or write that begins meanwhile comes to a look at this flag, behind its copying loop
or in the turn of its waiting loop, and then to a signal. The event of the signal ends up in the
latch of the peer or ends its wait.
-/

namespace XenShm.Pipe

open XenShm.Library

/-- A copying loop does not end before it has looked at the peer once more. -/
private theorem Transfer.step_rousing {g : Geometry} {m : Mod} {s : Shared} {t : Transfer}
    (hdone : t.pc ≠ .done) (hsignal : t.pc ≠ .lastSignal)
    (hflag : hasFlag (s.flags m.peer) .sleeping = true) : (t.step g m s).pc ≠ .done := by
  cases he : t.pc <;> simp only [step, he, ne_eq, reduceCtorEq, not_true_eq_false, hflag,
    if_true] at hdone hsignal ⊢
  case loop =>
    split
    · rcases t.enter_pc (g := g) (m := m) with hpc | hpc | hpc <;> simp [hpc]
    · simp
  case loadRead | loadWrite => cases m <;> simp
  case align | bytes | check => split <;> simp [he]
  case words => (repeat' split) <;> simp [he]
  all_goals simp

namespace Proc

/-- A read or write that began while its peer slept, and has not waked it yet. `unsent` says that
the event of the signal in progress is still to be sent. -/
def Rousing (p : Proc) (unsent : Prop) : Prop :=
  match p.pc with
  | .callTest | .activeLoad | .activeStore | .closedTest | .loadOwn | .loopTest | .loadFlags
  | .unwaitLoad | .unwaitStore => True
  | .waitingLoad | .waitingStore | .recheck | .probe => hasFlag p.peerFlags .sleeping = true
  | .signal => unsent
  | .avail => p.xfer.pc ≠ .done ∧ (p.xfer.pc = .lastSignal → unsent)
  | _ => False

/-- The process is at the signal that ends its read or write. -/
def lastSignals (p : Proc) : Prop := p.pc = .signal ∨ p.pc = .avail ∧ p.xfer.pc = .lastSignal

variable {g : Geometry} {m : Mod} {i : Input} {p p' : Proc} {s s' : Shared}

/-- An end that falls asleep has raised its flag before. -/
private theorem waits_asleep (h : Waits g m p s p' s') (hpc' : p'.pc = .asleep) :
    hasFlag (s'.flags m) .sleeping = true := by
  cases h with
  | sleepingStore => simp
  | leaves =>
    unfold leaveLoop at hpc'
    split at hpc' <;> simp [enterAvail] at hpc'
  | turn =>
    cases m <;> simp only [endTurn, readerTurn, turn] at hpc' <;> (split_ifs at hpc' <;> cases hpc')
  | refused | peerClosed | interruptedStore => simp [leaveWait] at hpc'
  | unwaitStore => simp [enterAvail] at hpc'
  | _ => simp at hpc'

/-- A process that goes to sleep has just raised `XSHMP_SLEEPING`. -/
private theorem step_asleep (h : p.step g m i s = some (p', s')) (hpc' : p'.pc = .asleep) :
    hasFlag (s'.flags m) .sleeping = true := by
  have hphase : p'.phase = .resolved := by simp [phase, hpc']
  have hcur : p.phase = .checking ∨ p.phase = .resolved := by
    cases step_phase h with
    | wakes next | looks next | stays _ next | raises _ next => simp [next] at hphase
    | resolves cur => exact .inl cur
    | keeps cur => exact .inr cur
  cases hpc : p.pc <;> simp only [phase, hpc, reduceCtorEq, or_self] at hcur
  case waitingLoad | waitingStore =>
    unfold unlessWaiting at hcur
    split at hcur <;> simp at hcur
  case probe =>
    cases i <;> simp only [step, tick, ioctlReturn, hpc, reduceCtorEq, if_false] at h
    case tick => cases m <;> simp [waitReader, waitWriter, hpc] at h
    case ioctl r =>
      simp only [readerTurn, turn] at h
      cases m <;> (repeat' split at h) <;> cases h <;> simp [failWait, leaveWait] at hpc'
  all_goals
    cases i <;> simp only [step, tick, ioctlReturn, hpc, reduceCtorEq, if_false, Option.map_none,
      Option.map_some] at h
  case asleep.ioctl r =>
    cases h
    simp at hpc'
  all_goals exact waits_asleep (waits (g := g) h) hpc'

section Rousing

variable {unsent unsent' : Prop}

/-- A call that will rouse its peer will do so whatever else is unsent. -/
theorem Rousing.mono (h : p.Rousing unsent) (hu : unsent → unsent') : p.Rousing unsent' := by
  cases hpc : p.pc <;> simp only [Rousing, hpc] at h ⊢
  case signal => exact hu h
  case avail => exact h.imp_right fun hlast hx => hu (hlast hx)
  all_goals exact h

/-- A call that will rouse its peer belongs to a handle that is not freed. -/
theorem Rousing.gone (h : p.Rousing unsent) : p.gone = false := by
  cases hpc : p.pc <;> simp only [Rousing, hpc] at h <;> simp only [Proc.gone, hpc]

/-- A call that has nothing unsent is not at its last signal. -/
theorem Rousing.not_lastSignals (h : p.Rousing unsent) (hu : ¬ unsent) : ¬ p.lastSignals := by
  rintro (hpc | ⟨hpc, hx⟩) <;> simp only [Rousing, hpc] at h
  · exact hu h
  · exact hu (h.2 hx)

/-- The `ioctl` that wakes the peer is entered. -/
theorem Rousing.enter {t : Task} (h : p.Rousing unsent) (hcall : p.syscall = some t)
    (ht : t = .ssig → unsent') : p.Rousing unsent' := by
  cases hpc : p.pc <;> simp only [Rousing, hpc] at h ⊢ <;> simp only [syscall, hpc] at hcall
  case signal => exact ht (Option.some.inj hcall).symm
  case avail =>
    refine h.imp_right fun _ hx => ?_
    rw [hx] at hcall
    exact ht (Option.some.inj hcall).symm
  all_goals exact h

/-- A copying loop that begins will rouse the peer. -/
private theorem rousing_enterAvail (p : Proc) : p.enterAvail.Rousing unsent := by
  simp [Rousing, enterAvail, Transfer.start]

/-- A loop that is left for the copying loop will rouse the peer. -/
private theorem rousing_leaveLoop (p : Proc) : p.leaveLoop.Rousing unsent := by
  unfold leaveLoop
  split
  · trivial
  · exact rousing_enterAvail p

/-- The turn of a waiting loop ends with the signal. -/
private theorem rousing_endTurn (hsaw : p.sawEpipe = false)
    (hflag : hasFlag p.peerFlags .sleeping = true) (hu : unsent) :
    (p.endTurn m).Rousing unsent := by
  cases m <;> simp only [endTurn, readerTurn, hsaw, Bool.false_eq_true, if_false, turn, hflag,
    if_true] <;> exact hu

/-- A waiting function does not go to sleep beside a peer that sleeps. -/
private theorem rousing_waits (h : p.Rousing unsent) (hheard : p.heard = false)
    (hopen : hasFlag (s.flags m.peer) .closed = false)
    (hflag : hasFlag (s.flags m.peer) .sleeping = true) (hw : Waits g m p s p' s') (hu : unsent') :
    p'.Rousing unsent' := by
  obtain ⟨hsaw, -, -, hclosed⟩ := heard_eq_false.mp hheard
  cases hw with
  | refused _ _ hfound => exact absurd (hopen.symm.trans hfound) Bool.false_ne_true
  | peerClosed _ _ hfound => exact absurd (hclosed.symm.trans hfound) Bool.false_ne_true
  | closedTest | loadOwn | loopTest | unwaitLoad | woken | sawEpipe => trivial
  | leaves => exact rousing_leaveLoop p
  | loadFlags => exact hflag
  | waitingLoad hpc | waitingStore hpc | probe hpc =>
    simp only [Rousing, hpc] at h
    exact h
  | turn hpc =>
    simp only [Rousing, hpc] at h
    exact rousing_endTurn hsaw h hu
  | unwaitStore => exact rousing_enterAvail p
  | sleepingLoad hpc | sleepingStore hpc | wakeLoad hpc | interrupted _ hpc | interruptedLoad hpc
  | interruptedStore hpc =>
    simp only [Rousing, hpc] at h

/-- A step of the process keeps its call rousing while the peer sleeps and both ends are open. -/
private theorem rousing_tick (h : p.Rousing unsent) (hheard : p.heard = false)
    (hopen : ∀ m, hasFlag (s.flags m) .closed = false)
    (hflag : hasFlag (s.flags m.peer) .sleeping = true) (hloop : p.pc ≠ .avail)
    (hs : p.tick g m s = some (p', s')) (hu : unsent') : p'.Rousing unsent' := by
  have hrousing := h
  cases hpc : p.pc <;> simp only [Rousing, hpc] at h <;> simp only [tick, hpc] at hs
  case avail => exact absurd hpc hloop
  case callTest =>
    rw [hopen, if_neg Bool.false_ne_true] at hs
    cases hs
    trivial
  case activeLoad =>
    cases hs
    trivial
  case activeStore =>
    cases hs
    cases m <;> trivial
  all_goals exact rousing_waits hrousing hheard (hopen m.peer) hflag (waits (g := g) hs) hu

/-- A step of a read or write that has not waked its peer yet, but the return of the signal. -/
theorem Rousing.step_rousing (h : p.Rousing unsent) (hheard : p.heard = false)
    (hopen : ∀ m, hasFlag (s.flags m) .closed = false)
    (hflag : hasFlag (s.flags m.peer) .sleeping = true) (hsignal : ¬ p.lastSignals)
    (hi : i ≠ .ioctl (.fail .epipe)) (hs : p.step g m i s = some (p', s')) (hu : unsent') :
    p'.Rousing unsent' := by
  by_cases hpc : p.pc = .avail
  · have hnext : ¬ p.xfer.pc = .lastSignal := fun hx => hsignal (.inr ⟨hpc, hx⟩)
    simp only [Rousing, hpc] at h
    rcases (step_looped hpc hs).next with ⟨-, hpc', hx⟩ | ⟨hx, -⟩
    · simp only [Rousing, hpc', hx]
      exact ⟨Transfer.step_rousing h.1 hnext hflag, fun _ => hu⟩
    · exact absurd hx h.1
  cases i with
  | tick => exact rousing_tick h hheard hopen hflag hpc hs hu
  | transfer | flush | free =>
    cases hpc : p.pc <;> simp only [Rousing, hpc] at h <;>
      simp only [step, hpc, reduceCtorEq, if_false] at hs
  | ioctl r =>
    cases hpc : p.pc <;> simp only [Rousing, hpc] at h <;>
      simp only [step, ioctlReturn, hpc, Option.map_none, reduceCtorEq] at hs
    case probe =>
      rw [if_neg fun hr => hi (by rw [hr])] at hs
      have hsaw : (p.noteErrno r).sawEpipe = false := by
        cases r <;> exact (heard_eq_false.mp hheard).1
      have hseen : hasFlag (p.noteErrno r).peerFlags .sleeping = true := by cases r <;> exact h
      let probed : Proc := { p.noteErrno r with loopCount := waitLoopLimit }
      have hturn : (probed.endTurn m).Rousing unsent' := rousing_endTurn hsaw hseen hu
      cases m <;> cases hs <;> exact hturn
    case signal => exact absurd (.inl hpc) hsignal
    all_goals contradiction

end Rousing

end Proc

namespace System

variable {g : Geometry} {s t : System} {m : Mod}

/-- An end that sleeps shows it in its flags. -/
structure Shows (g : Geometry) (s : System) : Prop where
  /-- The streams are what the ring and the indices say. -/
  kept : Kept g s
  /-- The way of an end to its sleep has the marks it needs. -/
  alert : Alert g s
  /-- The flag of an end that sleeps is raised. -/
  shown : ∀ m, (s.proc m).pc = .asleep → hasFlag (s.shared.flags m) .sleeping = true

/-- Every step of either end keeps it so that who sleeps shows it. -/
private theorem Shows.step {x : Mod × Input} (h : Shows g s) (hs : s.step g x = some t) :
    Shows g t := by
  obtain ⟨m, i⟩ := x
  have hstep := step_proc hs
  refine ⟨h.kept.step hs, h.alert.step h.kept hs, Mod.forall_of m (Proc.step_asleep hstep) ?_⟩
  rw [proc_peer_step hs]
  intro hpc
  have hflags : t.shared.flags m.peer = s.shared.flags m.peer ∨ (s.proc m).phase = .resolved := by
    cases Proc.step_phase hstep with
    | wakes _ peer => exact peer
    | looks _ same | stays _ _ same | resolves _ _ same => exact .inl (by rw [same])
    | raises _ _ _ peer | keeps _ _ _ peer => exact .inl peer
  rcases hflags with hsame | hresolved
  · rw [hsame]
    exact h.shown m.peer hpc
  · -- only one end is on its way to or from its sleep
    exact absurd (by simp [Proc.phase, hpc]) (h.alert.alone m hresolved)

/-- In every interleaving an end that sleeps shows it. -/
theorem shows_of_reachable (h : Reachable g s) : Shows g s := by
  obtain ⟨conv, buffer, memReader, memWriter, hr⟩ := h
  refine hr.invariant ⟨kept_offered g conv buffer memReader memWriter,
    .offered g conv buffer memReader memWriter, fun m hpc => ?_⟩ fun _ _ _ h _ hs => h.step hs
  cases conv <;> cases m <;> cases hpc

end System

/-- To wake a call changes no signal. -/
theorem KernelEnd.wake_signals (k : KernelEnd) : k.wake.signals = k.signals := by
  unfold KernelEnd.wake
  split <;> rfl

/-- To wake a call that is over changes nothing for its process. -/
theorem KernelEnd.wake_woken (k : KernelEnd) (p : Proc) : k.wake.woken p = k.woken p := by
  unfold KernelEnd.wake
  cases ht : k.task <;> simp [KernelEnd.woken, ht, Kernel.Call.wake]

/-- To wake a call keeps what will wake the process. -/
theorem KernelEnd.wake_token (k : KernelEnd) : k.wake.Token ↔ k.Token := by
  unfold KernelEnd.wake
  split <;> rfl

/-- The event of an SSIG has not been sent yet. -/
def Task.unsent : Task → Bool
  | .idle | .ssig | .ssigNotify => true
  | _ => false

/-- To wake a call sends nothing. -/
theorem KernelEnd.wake_unsent (k : KernelEnd) : k.wake.task.unsent = k.task.unsent := by
  unfold KernelEnd.wake
  split <;> simp [*, Task.unsent]

/-- No step of the handler forgets a greeting. -/
private theorem handlerPc_greeted {s : Kernel.Shared} (pc : Kernel.HandlerPc)
    (hg : s.signals.initialSignal = true) : (pc.step s).1.signals.initialSignal = true := by
  cases pc <;> simp [Kernel.HandlerPc.step, hg, Kernel.Shared.setInitial, Kernel.Shared.setUser,
    Kernel.Shared.setLatent]

namespace Connection

variable {g : Geometry} {conv : Conv} {c d : Connection} {m m' : Mod}

/-- Nothing reaches an end before it is bound. -/
def Unbound (c : Connection) : Prop := ∀ m, (c.kernel m).task = .initReceiver →
  (c.kernel m).signals.initialSignal = false ∧ (c.kernel m).pending = false ∧
    (c.kernel m).handler = none

/-- Whether an end is bound depends on its kernel alone. -/
theorem Unbound.congr (h : Unbound c) (hkernel : d.kernel = c.kernel) : Unbound d := by
  unfold Unbound
  rwa [hkernel]

/-- The kernel of an end that is bound. -/
theorem Unbound.setKernel {k : KernelEnd} (h : Unbound c) (hk : k.task ≠ .initReceiver) :
    Unbound (c.setKernel m k) := by
  refine Mod.forall_of m (fun ht => ?_) ?_
  · rw [setKernel_self] at ht
    exact absurd ht hk
  · rw [setKernel_peer]
    exact h m.peer

/-- An event binds no end. -/
theorem Unbound.notify (h : Unbound c) (m : Mod) : Unbound (c.notify m) := by
  unfold Connection.notify
  split
  · exact h
  · rename_i hbound
    exact h.setKernel hbound

/-- A step of a task keeps an end that is not bound without signals. -/
private theorem Unbound.stepTask {choice : Kernel.Choice} (h : Unbound c)
    (hs : c.stepTask g conv m choice = some d) : Unbound d := by
  unfold Connection.stepTask at hs
  cases ht : (c.kernel m).task <;> simp only [ht, reduceCtorEq] at hs
  case initReceiver =>
    obtain rfl := Option.some.inj hs
    have hheader : Unbound (c.setHeaderState conv m .opened) := h.congr (by simp)
    exact hheader.setKernel (by simp)
  case initNotify | closeNotify =>
    obtain rfl := Option.some.inj hs
    exact (h.notify m.peer).setKernel (by simp)
  case await call =>
    obtain ⟨next, -, rfl⟩ := Option.map_eq_some_iff.mp hs
    have hheader : Unbound { c with header := next.1.header } := h.congr rfl
    exact hheader.setKernel (Task.ofCall_ne next.2)
  case ssig =>
    obtain rfl := Option.some.inj hs
    split <;> exact h.setKernel (by simp)
  case ssigNotify =>
    obtain rfl := Option.some.inj hs
    have hnext : Unbound ((c.notify m.peer).setTask m (.ret .ok)) :=
      (h.notify m.peer).setKernel (by simp)
    unfold afterSsig
    split
    · exact hnext.congr rfl
    · exact hnext
  case ret r =>
    split at hs
    · obtain rfl := Option.some.inj hs
      exact h.setKernel (by simp)
    · obtain ⟨sys, -, rfl⟩ := Option.map_eq_some_iff.mp hs
      have hsys : Unbound { c with sys := sys } := h.congr rfl
      have hnext : Unbound ({ c with sys := sys }.setTask m .idle) := hsys.setKernel (by simp)
      unfold afterRet
      split
      · exact hnext.congr rfl
      · exact hnext

/-- Every step of the connection keeps an end that is not bound without signals. -/
theorem Unbound.step {i : Connection.Input} (h : Unbound c) (hs : c.step g conv i = some d) :
    Unbound d := by
  cases Connection.steps hs with
  | user m i sys =>
    have hsys : Unbound { c with sys := sys } := h.congr rfl
    unfold afterUser
    split
    · have hheader : Unbound (setHeaderState conv { c with sys := sys } m .closed) :=
        hsys.congr (by simp)
      exact hheader.setKernel (by simp)
    · cases i with
      | flush => exact hsys.congr rfl
      | _ => exact hsys
  | enter m t _ hcall =>
    refine h.setKernel ?_
    rintro rfl
    unfold Proc.syscall at hcall
    (repeat' split at hcall) <;> cases hcall
  | wait m timeoutMs => exact h.setKernel (by simp)
  | kernel m choice _ htask => exact h.stepTask htask
  | deliver m hpending =>
    refine h.setKernel fun ht => ?_
    rw [(h m ht).2.1] at hpending
    cases hpending
  | handler m pc hpc =>
    have hbound : (c.kernel m).task ≠ .initReceiver := fun ht => by
      rw [(h m ht).2.2] at hpc
      cases hpc
    unfold Connection.stepHandler
    cases pc with
    | answer =>
      refine Unbound.notify ?_ m.peer
      exact h.setKernel hbound
    | wakeUp =>
      refine h.setKernel fun ht => hbound ?_
      unfold KernelEnd.wake at ht
      split at ht
      · cases ht
      · exact ht
    | _ => exact h.setKernel hbound

theorem unbound_offered (conv : Conv) (buffer memReader memWriter : Nat → UInt8) :
    Unbound (.offered conv buffer memReader memWriter) := fun _ _ => ⟨rfl, rfl, rfl⟩

/-- An end that was greeted is bound. -/
theorem Unbound.bound (h : Unbound c) (hgreeted : (c.kernel m).signals.initialSignal = true) :
    (c.kernel m).task ≠ .initReceiver := fun ht =>
  Bool.false_ne_true ((h m ht).1.symm.trans hgreeted)

/-- The wait of an end has ended, or an event will end it. -/
def Roused (k : KernelEnd) (p : Proc) : Prop := k.woken p = true ∨ k.Token

/-- An end that sleeps is going to be woken. -/
def Due (c : Connection) (m : Mod) : Prop :=
  (c.sys.proc m.peer).Rousing ((c.kernel m.peer).task.unsent = true) ∨
    Roused (c.kernel m) (c.sys.proc m)

/-- An end that is stuck has nothing that would rouse it. -/
theorem Stuck.not_roused (h : c.Stuck m) : ¬ Roused (c.kernel m) (c.sys.proc m) := by
  obtain ⟨⟨-, hwoken⟩, htoken⟩ := h.committed
  rintro (hw | ht)
  · exact Bool.false_ne_true (hwoken.symm.trans hw)
  · exact htoken ht

/-- An event that is sent towards an end is due there. -/
theorem due_sent {t : Task} (hbound : (c.kernel m.peer).task ≠ .initReceiver) :
    Due ((c.notify m.peer).setTask m t) m.peer := by
  refine .inr (.inr (.inl ?_))
  rw [setTask_peer]
  exact notify_pending c m.peer hbound

/-- A change in the kernel of the end itself. -/
theorem Due.setKernel {k : KernelEnd} (h : Due c m)
    (hk : Roused (c.kernel m) (c.sys.proc m) → Roused k (c.sys.proc m)) :
    Due (c.setKernel m k) m := by
  refine h.imp (fun hr => ?_) fun hr => ?_
  · rwa [setKernel_peer]
  · rw [setKernel_self]
    exact hk hr

/-- A change in the kernel of its peer. -/
theorem Due.setKernel_peer {k : KernelEnd} (h : Due c m.peer)
    (hk : (c.sys.proc m).Rousing ((c.kernel m).task.unsent = true) →
      (c.sys.proc m).Rousing (k.task.unsent = true)) : Due (c.setKernel m k) m.peer := by
  refine h.imp (fun hr => ?_) fun hr => ?_
  · rw [Mod.peer_peer] at hr ⊢
    rw [setKernel_self]
    exact hk hr
  · rwa [Connection.setKernel_peer]

/-- An event that is sent somewhere else keeps what is due. -/
theorem Due.notify (h : Due c m') (m : Mod) : Due (c.notify m) m' := by
  unfold Connection.notify
  split
  · exact h
  · rcases eq_or_ne m' m with rfl | hne
    · exact h.setKernel fun hr => .inr (.inl rfl)
    · obtain rfl : m' = m.peer := by cases m <;> cases m' <;> first | rfl | contradiction
      exact h.setKernel_peer id

/-- What is due at an end depends on its kernel and on the processes. -/
theorem Due.congr (h : Due c m) (hkernel : d.kernel = c.kernel) (hsys : d.sys = c.sys) :
    Due d m := by
  unfold Due
  rwa [hkernel, hsys]

/-- The kernel of the end takes up something else than its wait. -/
theorem Due.setTask {t : Task} (h : Due c m) (hwait : ∀ call, (c.kernel m).task ≠ .await call)
    (hret : ∀ r, (c.kernel m).task ≠ .ret r) : Due (c.setTask m t) m :=
  h.setKernel fun hr =>
    .inr (hr.resolve_left (by rw [woken_of_task hwait hret]; exact Bool.false_ne_true))

/-- When the wait of the end goes on, what was due is still due or was noticed. -/
theorem Due.await {choice : Kernel.Choice} {sh : Kernel.Shared} {call call' : Kernel.Call}
    (h : Due c m) (hpc : (c.sys.proc m).pc = .asleep) (ht : (c.kernel m).task = .await call)
    (hs : call.step (c.seenBy conv m) choice = some (sh, call')) :
    Due (c.afterAwait m sh call') m := by
  obtain ⟨-, -, hbehind, hlatent⟩ := Kernel.Call.step_frame hs
  have hheader : Due { c with header := sh.header } m := h.congr rfl rfl
  refine hheader.setKernel fun hr => ?_
  let k : KernelEnd := { c.kernel m with signals := sh.signals, task := .ofCall call' }
  have hwoken : call.pc.behind = true → k.woken (c.sys.proc m) = true := fun hb => by
    have htask : k.task = .ofCall call' := rfl
    rw [woken_ofCall htask, hpc, hbehind hb]
    rfl
  rcases hr with hw | htoken
  · exact .inl (hwoken (by simpa [KernelEnd.woken, ht, hpc] using hw))
  · -- only a wait that is over clears the latch
    by_cases hclear : call.pc = .clear
    · exact .inl (hwoken (by rw [hclear]; rfl))
    · have hlatch := hlatent (.inl hclear)
      refine .inr ?_
      unfold KernelEnd.Token at htoken ⊢
      rwa [hlatch]

/-- The handler of an end that was greeted goes on. -/
theorem Due.stepHandler {pc : Kernel.HandlerPc} (h : Due c m) (hpc : (c.kernel m).handler = some pc)
    (hgreeted : (c.kernel m).signals.initialSignal = true) : Due (c.stepHandler conv m pc) m := by
  have hmove : ∀ (signals : Kernel.Signals) (next : Option Kernel.HandlerPc),
      ((c.kernel m).Token →
        KernelEnd.Token { c.kernel m with signals := signals, handler := next }) →
      Due (c.setKernel m { c.kernel m with signals := signals, handler := next }) m :=
    fun _ _ htoken => h.setKernel (Or.imp_right htoken)
  unfold Connection.stepHandler
  cases pc with
  | start =>
    simp only [Kernel.HandlerPc.step, seenBy, hgreeted, if_true]
    exact hmove _ _ fun _ => .inr (.inl (.inr (.inl rfl)))
  | answer =>
    refine (hmove _ _ fun htoken => ?_).notify m.peer
    simpa [KernelEnd.Token, hpc, seenBy] using htoken
  | setInitial =>
    refine hmove _ _ fun htoken => ?_
    simpa [KernelEnd.Token, hpc, Kernel.Shared.setInitial, seenBy] using htoken
  | setUser => exact hmove _ _ fun _ => .inr (.inl (.inr (.inr rfl)))
  | setLatent => exact hmove _ _ fun _ => .inr (.inr rfl)
  | wakeUp =>
    refine h.setKernel (Or.imp (fun hw => ?_) fun htoken => ?_)
    · rw [KernelEnd.wake_woken]
      exact hw
    · rw [KernelEnd.wake_token]
      simpa [KernelEnd.Token, hpc, Kernel.HandlerPc.step, seenBy] using htoken

/-- When the handler of its peer goes on, what was due at the end is still due. -/
theorem Due.stepHandler_peer {pc : Kernel.HandlerPc} (h : Due c m.peer) :
    Due (c.stepHandler conv m pc) m.peer := by
  unfold Connection.stepHandler
  cases pc with
  | answer =>
    refine Due.notify ?_ m.peer
    exact h.setKernel_peer id
  | wakeUp =>
    refine h.setKernel_peer fun hr => ?_
    rwa [KernelEnd.wake_unsent]
  | _ => exact h.setKernel_peer id

/-- A step of the kernel of an end that sleeps. -/
theorem Due.stepTask {choice : Kernel.Choice} (h : Due c m)
    (hbound : (c.kernel m).task ≠ .initReceiver) (hpc : (c.sys.proc m).pc = .asleep)
    (hpc' : (d.sys.proc m).pc = .asleep) (hs : c.stepTask g conv m choice = some d) : Due d m := by
  unfold Connection.stepTask at hs
  cases ht : (c.kernel m).task <;> simp only [ht, reduceCtorEq] at hs
  case initReceiver => exact absurd ht hbound
  case initNotify | closeNotify =>
    obtain rfl := Option.some.inj hs
    exact (h.notify m.peer).setTask (by simp [ht]) (by simp [ht])
  case await call =>
    obtain ⟨_, hnext, rfl⟩ := Option.map_eq_some_iff.mp hs
    exact h.await hpc ht hnext
  case ssig =>
    obtain rfl := Option.some.inj hs
    split <;> exact h.setTask (by simp [ht]) (by simp [ht])
  case ssigNotify =>
    obtain rfl := Option.some.inj hs
    have hnext : Due ((c.notify m.peer).setTask m (.ret .ok)) m :=
      (h.notify m.peer).setTask (by simp [ht]) (by simp [ht])
    unfold afterSsig
    split <;> exact hnext
  case ret r =>
    -- the sleep ends when the wait returns
    rw [if_neg (by simp [hpc])] at hs
    obtain ⟨sys, hsys, rfl⟩ := Option.map_eq_some_iff.mp hs
    have hstep := System.step_proc hsys
    simp only [Proc.step, Proc.ioctlReturn, hpc, Option.map_some, Option.some.injEq,
      Prod.mk.injEq] at hstep
    have hwakes : ((c.afterRet m r sys).sys.proc m).pc = .wakeLoad := by
      unfold afterRet
      split <;> simp [← hstep.1, Connection.setTask]
    rw [hwakes] at hpc'
    cases hpc'

/-- When the task of its peer changes and sends no less, what was due is still due. -/
theorem Due.setTask_peer {t : Task} (h : Due c m.peer)
    (ht : (c.kernel m).task.unsent = true → t.unsent = true) : Due (c.setTask m t) m.peer :=
  h.setKernel_peer fun hr => hr.mono ht

/-- An end that sleeps was not freed, and neither was its peer in a read or write. -/
private theorem Orderly.of_rousing {unsent : Prop} (ho : Orderly g c)
    (hpc : (c.sys.proc m.peer).pc = .asleep) (hr : (c.sys.proc m).Rousing unsent) : Intact c :=
  ho.intact (Mod.forall_of m hr.gone (by simp [Proc.gone, hpc]))

/-- The peer of an end that sleeps takes a step, but not in a signal that is already sent. -/
theorem Due.sys {i : Pipe.Input} {sys : System} (h : Due c m.peer) (ho : Orderly g c)
    (hpc : (c.sys.proc m.peer).pc = .asleep) (hs : c.sys.step g (m, i) = some sys)
    (hi : Intact c → i ≠ .ioctl (.fail .epipe))
    (hsignal : (c.sys.proc m).Rousing ((c.kernel m).task.unsent = true) →
      ¬ (c.sys.proc m).lastSignals) : Due ({ c with sys := sys }.setTask m .idle) m.peer := by
  refine h.imp (fun hr => ?_) fun hr => ?_
  · rw [Mod.peer_peer] at hr ⊢
    rw [setTask_self]
    have hintact := ho.of_rousing hpc hr
    have hheld : c.sys.Held := Mod.forall_of m hr.gone (by simp [Proc.gone, hpc])
    exact hr.step_rousing (hintact.proc m) (hheld.open ho.reachable)
      ((System.shows_of_reachable ho.reachable).shown m.peer hpc) (hsignal hr) (hi hintact)
      (System.step_proc hs) rfl
  · rw [Connection.setTask_peer, setTask_sys, System.proc_peer_step hs]
    exact hr

/-- A step of the kernel of its peer. -/
theorem Due.stepTask_peer {choice : Kernel.Choice} (h : Due c m.peer) (ho : Orderly g c)
    (hbound : (c.kernel m.peer).task ≠ .initReceiver) (hpc : (c.sys.proc m.peer).pc = .asleep)
    (hs : c.stepTask g conv m choice = some d) : Due d m.peer := by
  unfold Connection.stepTask at hs
  cases ht : (c.kernel m).task <;> simp only [ht, reduceCtorEq] at hs
  case initReceiver =>
    obtain rfl := Option.some.inj hs
    have hheader : Due (c.setHeaderState conv m .opened) m.peer :=
      h.congr (setHeaderState_kernel conv c m .opened) (setHeaderState_sys conv c m .opened)
    exact hheader.setTask_peer (by simp [ht, Task.unsent])
  case initNotify | closeNotify =>
    obtain rfl := Option.some.inj hs
    exact due_sent hbound
  case await call =>
    obtain ⟨next, -, rfl⟩ := Option.map_eq_some_iff.mp hs
    have hheader : Due { c with header := next.1.header } m.peer := h.congr rfl rfl
    exact hheader.setKernel_peer fun hr => hr.mono (by simp [ht, Task.unsent])
  case ssig =>
    obtain rfl := Option.some.inj hs
    split
    · rename_i hbroken
      refine h.setKernel_peer fun hr => ?_
      have hheader := (ho.of_rousing hpc hr).header
      exact absurd (hheader.symm.trans hbroken) Bool.false_ne_true
    · exact h.setTask_peer fun _ => rfl
  case ssigNotify =>
    obtain rfl := Option.some.inj hs
    have hnext : Due ((c.notify m.peer).setTask m (.ret .ok)) m.peer := due_sent hbound
    unfold afterSsig
    split <;> exact hnext
  case ret r =>
    split at hs
    · obtain rfl := Option.some.inj hs
      exact h.setTask_peer fun _ => rfl
    · rename_i hbusy
      obtain ⟨sys, hsys, rfl⟩ := Option.map_eq_some_iff.mp hs
      have hnext : Due ({ c with sys := sys }.setTask m .idle) m.peer := by
        refine h.sys ho hpc hsys (fun hintact => ?_) fun hr => ?_
        · have hfound := (hintact.task m).resolve_right hbusy
          rw [ht] at hfound
          exact ofKernel_ne_epipe hfound
        · exact hr.not_lastSignals (by simp [ht, Task.unsent])
      unfold afterRet
      split <;> exact hnext

/-- A step of the user or of the library at the peer. -/
theorem Due.user {i : Pipe.Input} {sys : System} (h : Due c m.peer) (ho : Orderly g c)
    (hpc : (c.sys.proc m.peer).pc = .asleep) (hidle : (c.kernel m).task = .idle)
    (hi : ∀ r, i ≠ .ioctl r) (hs : c.sys.step g (m, i) = some sys) :
    Due (c.afterUser g conv m i sys) m.peer := by
  have hsys : Due { c with sys := sys } m.peer := by
    have hnext := h.sys ho hpc hs (fun _ => hi _) fun _ => ?_
    · rwa [setTask_idle (by exact hidle)] at hnext
    · -- the signal is an `ioctl`
      have hstep := System.step_proc hs
      rintro (hsignal | hlast)
      · cases i <;> cases m <;> simp [Proc.step, Proc.tick, Proc.waitReader, Proc.waitWriter,
          hsignal] at hstep hi
      · cases i <;> simp [Proc.step, Proc.tick, Proc.tickAvail, hlast.1, hlast.2] at hstep hi
  unfold afterUser
  by_cases hclose : (c.sys.proc m).pc = .close
  · rw [if_pos hclose]
    have hheader : Due (setHeaderState conv { c with sys := sys } m .closed) m.peer :=
      hsys.congr (by simp) (by simp)
    refine hheader.setKernel_peer fun hr => ?_
    -- a handle that is gone is in no call
    have hgone := ((Proc.step_flags (System.step_proc hs)).done (by simp [Proc.gone, hclose])).1
    have hheld := hr.gone
    rw [setHeaderState_sys] at hheld
    exact absurd (hheld.symm.trans hgone) Bool.false_ne_true
  · rw [if_neg hclose]
    cases i <;> exact hsys

/-- A kernel that has taken the greeting keeps it. -/
theorem setKernel_greeted {k : KernelEnd} (hg : (c.kernel m).signals.initialSignal = true)
    (hk : (c.kernel m').signals.initialSignal = true → k.signals.initialSignal = true) :
    ((c.setKernel m' k).kernel m).signals.initialSignal = true := by
  rcases eq_or_ne m m' with rfl | hne
  · rw [setKernel_self]
    exact hk hg
  · rwa [setKernel_of_ne hne]

/-- An event makes no end forget its greeting. -/
theorem notify_greeted (hg : (c.kernel m).signals.initialSignal = true) (m' : Mod) :
    ((c.notify m').kernel m).signals.initialSignal = true := by
  unfold Connection.notify
  split
  · exact hg
  · exact setKernel_greeted hg id

/-- A step of a kernel forgets no greeting. -/
private theorem stepTask_greeted {choice : Kernel.Choice}
    (hg : (c.kernel m).signals.initialSignal = true)
    (hs : c.stepTask g conv m' choice = some d) : (d.kernel m).signals.initialSignal = true := by
  unfold Connection.stepTask at hs
  cases ht : (c.kernel m').task <;> simp only [ht, reduceCtorEq] at hs
  case initReceiver =>
    obtain rfl := Option.some.inj hs
    refine setKernel_greeted ?_ id
    rwa [setHeaderState_kernel]
  case initNotify | closeNotify =>
    obtain rfl := Option.some.inj hs
    exact setKernel_greeted (notify_greeted hg _) id
  case await call =>
    obtain ⟨_, hnext, rfl⟩ := Option.map_eq_some_iff.mp hs
    exact setKernel_greeted hg fun hg => (Kernel.Call.step_frame hnext).initial.trans hg
  case ssig =>
    obtain rfl := Option.some.inj hs
    split <;> exact setKernel_greeted hg id
  case ssigNotify =>
    obtain rfl := Option.some.inj hs
    unfold afterSsig
    split <;> exact setKernel_greeted (notify_greeted hg _) id
  case ret r =>
    split at hs
    · obtain rfl := Option.some.inj hs
      exact setKernel_greeted hg id
    · obtain ⟨sys, -, rfl⟩ := Option.map_eq_some_iff.mp hs
      unfold afterRet
      split <;> exact setKernel_greeted hg id

/-- No step of the connection forgets a greeting. -/
theorem greeted_step {i : Connection.Input} (hg : (c.kernel m).signals.initialSignal = true)
    (hs : c.step g conv i = some d) : (d.kernel m).signals.initialSignal = true := by
  cases Connection.steps hs with
  | user m' i sys =>
    unfold afterUser
    split
    · refine setKernel_greeted ?_ id
      rwa [setHeaderState_kernel]
    · cases i <;> exact hg
  | enter | wait | deliver => exact setKernel_greeted hg id
  | kernel m' choice _ htask => exact stepTask_greeted hg htask
  | handler m' pc =>
    have hsignals : (c.kernel m').signals.initialSignal = true →
        (pc.step (c.seenBy conv m')).1.signals.initialSignal = true :=
      handlerPc_greeted (s := c.seenBy conv m') pc
    unfold Connection.stepHandler
    cases pc with
    | answer =>
      refine notify_greeted ?_ m'.peer
      exact setKernel_greeted hg id
    | wakeUp => exact setKernel_greeted hg fun hg => by rwa [KernelEnd.wake_signals]
    | _ => exact setKernel_greeted hg hsignals

/-- What holds after a read or write has begun at the peer of an end, as long as this end
sleeps. -/
structure Watched (g : Geometry) (c : Connection) (m : Mod) : Prop where
  /-- The connection is in order. -/
  orderly : Orderly g c
  /-- An end whose channel is not bound has no signals. -/
  unbound : Unbound c
  /-- The end was greeted. -/
  greeted : (c.kernel m).signals.initialSignal = true
  /-- The end will be woken as long as it sleeps. -/
  due : (c.sys.proc m).pc = .asleep → Due c m

/-- Whoever takes the step, an end that sleeps on will still be woken. -/
theorem due_step {i : Connection.Input} (hs : c.step g conv i = some d) :
    ∀ m, Watched g c m → (c.sys.proc m).pc = .asleep → (d.sys.proc m).pc = .asleep → Due d m := by
  cases Connection.steps hs with
  | user a i sys hidle hsys =>
    have hi : ∀ r, i ≠ .ioctl r := by
      rintro r rfl
      simp [Connection.step] at hs
    refine Mod.forall_of a (fun h hpc hpc' => ?_) fun h hpc _ =>
      (h.due hpc).user h.orderly hpc hidle hi hsys
    -- a process that sleeps is inside an `ioctl`
    have hstep := System.step_proc hsys
    cases i <;> simp only [Proc.step, Proc.tick, hpc, reduceCtorEq, if_false] at hstep
    case tick => cases a <;> simp [Proc.waitReader, Proc.waitWriter, hpc] at hstep
    case ioctl r => exact absurd rfl (hi r)
  | enter a t hidle hcall =>
    refine Mod.forall_of a (fun h hpc hpc' => ?_) fun h hpc _ => ?_
    · exact (h.due hpc).setTask (by simp [hidle]) (by simp [hidle])
    · refine (h.due hpc).setKernel_peer fun hr => hr.enter hcall ?_
      rintro rfl
      rfl
  | wait a timeoutMs hidle hidlePc =>
    refine Mod.forall_of a (fun h hpc hpc' => ?_) fun h hpc _ => ?_
    · exact (h.due hpc).setTask (by simp [hidle]) (by simp [hidle])
    · refine (h.due hpc).setKernel_peer fun hr => ?_
      simp only [Proc.Rousing, hidlePc] at hr
  | kernel a choice _ htask =>
    refine Mod.forall_of a (fun h hpc hpc' => ?_) fun h hpc _ => ?_
    · exact (h.due hpc).stepTask (h.unbound.bound h.greeted) hpc hpc' htask
    · exact (h.due hpc).stepTask_peer h.orderly (h.unbound.bound h.greeted) hpc htask
  | deliver a hpending =>
    refine Mod.forall_of a (fun h hpc hpc' => ?_) fun h hpc _ => ?_
    · exact (h.due hpc).setKernel fun _ => .inr (.inr (.inl (.inl rfl)))
    · exact (h.due hpc).setKernel_peer id
  | handler a pc hhandler =>
    refine Mod.forall_of a (fun h hpc hpc' => ?_) fun h hpc _ => ?_
    · exact (h.due hpc).stepHandler hhandler h.greeted
    · exact (h.due hpc).stepHandler_peer

/-- A step beside which the end sleeps keeps it watched. -/
theorem Watched.step {i : Connection.Input} (h : Watched g c m) (hpc : (c.sys.proc m).pc = .asleep)
    (hs : c.step g conv i = some d) : Watched g d m :=
  ⟨h.orderly.step hs, h.unbound.step hs, greeted_step h.greeted hs, due_step hs m h hpc⟩

/-- A read or write whose call, or whose copying loop, begins while the other end sleeps, does not
come back without having waked this end: it is not stuck, whatever else happens meanwhile and as
long as its sleep lasts. -/
theorem calls_wake {buffer memReader memWriter : Nat → UInt8}
    (hreach : Reaches (Connection.step g conv) (fun _ _ => true)
      (.offered conv buffer memReader memWriter) c)
    (hgreeted : (c.kernel m).signals.initialSignal = true)
    (hbegins : (c.sys.proc m.peer).pc = .callTest ∨
      (c.sys.proc m.peer).pc = .avail ∧ (c.sys.proc m.peer).xfer.pc = .loadRead)
    (hsleeps : Reaches (Connection.step g conv) (fun c _ => (c.sys.proc m).pc = .asleep) c d)
    (hret : (d.sys.proc m.peer).pc = .ret) : ¬ d.Stuck m := by
  have horderly : Orderly g c :=
    hreach.invariant (orderly_offered g conv buffer memReader memWriter)
      fun _ _ _ h _ hs => h.step hs
  have hunbound : Unbound c :=
    hreach.invariant (unbound_offered conv buffer memReader memWriter)
      fun _ _ _ h _ hs => h.step hs
  have hrousing : (c.sys.proc m.peer).Rousing ((c.kernel m.peer).task.unsent = true) := by
    rcases hbegins with hpc | hloop
    · simp only [Proc.Rousing, hpc]
    · simp [Proc.Rousing, hloop.1, hloop.2]
  have hbegun : Watched g c m := ⟨horderly, hunbound, hgreeted, fun _ => .inl hrousing⟩
  have hwatched : Watched g d m :=
    hsleeps.invariant hbegun fun _ _ _ (h : Watched g _ m) hpc hs =>
      h.step (of_decide_eq_true hpc) hs
  intro hstuck
  rcases hwatched.due hstuck.1 with hr | hroused
  · simp only [Proc.Rousing, hret] at hr
  · exact hstuck.not_roused hroused

/-- The reader is greeted and goes to sleep on the empty pipe, and the writer asks for one byte. -/
private def sleepsGreeted : List Connection.Input :=
  connecting ++ handling ++ .user .read (.transfer .read false 0 1 fun _ => 0) ::
    (repeated 11 (.user .read .tick) ++ .enter .read :: (repeated 8 (.kernel .read .proceed) ++
      [.user .write (.transfer .write false 0 1 fun _ => 7)]))

/-- The writer writes the byte and signals it. -/
private def writesByte : List Connection.Input :=
  repeated 17 (.user .write .tick) ++ .enter .write :: (repeated 3 (.kernel .write .proceed) ++
    repeated 3 (.user .write .tick))

/-- A reader that sleeps on the empty pipe is woken by the byte. -/
theorem calls_wake_oneByte : ∃ c d : Connection, c.Stuck .read ∧
    (c.sys.published = 0 ∧ d.sys.published = 1) ∧ ¬ d.Stuck .read := by
  have hrun : (run (Connection.step .onePage .readerOffers) (fun _ _ => true) fresh
      sleepsGreeted).any (fun c =>
        (c.Stuck .read ∧ c.sys.published = 0 ∧ (c.kernel .read).signals.initialSignal = true ∧
          (c.sys.proc .write).pc = .callTest) ∧
        (run (Connection.step .onePage .readerOffers) (fun c _ => (c.sys.proc .read).pc = .asleep)
          c writesByte).any fun d =>
            d.sys.published = 1 ∧ (d.sys.proc .write).pc = .ret) = true := by
    decide +kernel
  obtain ⟨c, hreach, htest⟩ := exists_reaches_of_run hrun
  obtain ⟨⟨hstuck, hempty, hgreeted, hpc⟩, hwrites⟩ := of_decide_eq_true htest
  obtain ⟨d, hsleeps, htest⟩ := exists_reaches_of_run hwrites
  obtain ⟨hpublished, hret⟩ := of_decide_eq_true htest
  exact ⟨c, d, hstuck, ⟨hempty, hpublished⟩,
    calls_wake (m := .read) hreach hgreeted (.inl hpc) hsleeps hret⟩

end Connection

end XenShm.Pipe
