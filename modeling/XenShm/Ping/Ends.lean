import XenShm.Ping.Handlers
import XenShm.Pipe.Unbroken

/-!
# What goes on at a pipe during a call

Between two actions of the threads a pipe goes on by itself: a process takes a step, an `ioctl`
returns, or only the kernels and the event channel move.
-/

namespace XenShm.Ping

open XenShm.Library XenShm.Pipe

variable {g : Geometry} {conv : Conv} {c d : Connection} {m : Mod} {i : Connection.Input}

/-- What an internal step does to the processes and to the marks of the flushes. -/
inductive Effect (g : Geometry) (c d : Connection) : Connection.Input → Prop where
  /-- The kernels or the event channel move, and the processes do not. -/
  | kernels {i : Connection.Input} (sys : d.sys = c.sys) (called : d.called = c.called)
      (flushed : d.flushed = c.flushed) : Effect g c d i
  /-- A process takes a step of its own. -/
  | tick (m : Mod) (idle : (c.kernel m).task = .idle)
      (sys : c.sys.step g (m, .tick) = some d.sys) (called : d.called = c.called)
      (flushed : d.flushed = c.flushed) : Effect g c d (.user m .tick)
  /-- An `ioctl` returns to its process. -/
  | ioctl (m : Mod) (choice : Kernel.Choice) (r : Kernel.Result)
      (task : (c.kernel m).task = .ret r)
      (sys : c.sys.step g (m, .ioctl (.ofKernel r)) = some d.sys) (called : d.called = c.called)
      (flushed : d.flushed = if (c.sys.proc m).pc = .flushSignal ∧ r = .ok then
        Function.update c.flushed m.peer (c.called m) else c.flushed) :
      Effect g c d (.kernel m choice)

/-- To send an event changes no mark of a flush. -/
private theorem notify_flushed (c : Connection) (m : Mod) : (c.notify m).flushed = c.flushed := by
  unfold Connection.notify
  split <;> rfl

/-- To set a state in the header page changes neither processes nor marks. -/
private theorem setHeaderState_frame (conv : Conv) (c : Connection) (m : Mod)
    (st : Kernel.MetaState) : (c.setHeaderState conv m st).sys = c.sys ∧
      (c.setHeaderState conv m st).called = c.called ∧
      (c.setHeaderState conv m st).flushed = c.flushed ∧
      (c.setHeaderState conv m st).kernel = c.kernel := by
  unfold Connection.setHeaderState
  split <;> exact ⟨rfl, rfl, rfl, rfl⟩

/-- What a step of the user does outside the processes. -/
private theorem afterUser_frame (g : Geometry) (conv : Conv) (c : Connection) (m : Mod)
    (i : Pipe.Input) (sys : System) (hflush : i ≠ .flush) : (c.afterUser g conv m i sys).sys = sys ∧
      (c.afterUser g conv m i sys).called = c.called ∧
      (c.afterUser g conv m i sys).flushed = c.flushed := by
  unfold Connection.afterUser
  split
  · obtain ⟨hsys, hcalled, hflushed, -⟩ := setHeaderState_frame conv { c with sys := sys } m .closed
    exact ⟨hsys, hcalled, hflushed⟩
  · cases i with
    | flush => contradiction
    | _ => exact ⟨rfl, rfl, rfl⟩

/-- A step of a task in the kernel has one of these effects. -/
private theorem effect_task {choice : Kernel.Choice} (h : c.stepTask g conv m choice = some d) :
    Effect g c d (.kernel m choice) := by
  unfold Connection.stepTask at h
  cases ht : (c.kernel m).task <;> simp only [ht, reduceCtorEq] at h
  case initReceiver =>
    cases h
    obtain ⟨hsys, hcalled, hflushed, -⟩ := setHeaderState_frame conv c m .opened
    exact .kernels hsys hcalled hflushed
  case initNotify | closeNotify =>
    cases h
    exact .kernels (by simp) (Connection.notify_called ..) (notify_flushed ..)
  case await call =>
    obtain ⟨next, -, rfl⟩ := Option.map_eq_some_iff.mp h
    exact .kernels rfl rfl rfl
  case ssig =>
    cases h
    split <;> exact .kernels rfl rfl rfl
  case ssigNotify =>
    cases h
    unfold Connection.afterSsig
    split <;> exact .kernels (by simp) (Connection.notify_called ..) (notify_flushed ..)
  case ret r =>
    split at h
    · cases h
      exact .kernels rfl rfl rfl
    · obtain ⟨sys, hsys, rfl⟩ := Option.map_eq_some_iff.mp h
      refine .ioctl m choice r ht ?_ ?_ ?_ <;> unfold Connection.afterRet <;> split
      · exact hsys
      · exact hsys
      · rfl
      · rfl
      · rfl
      · rfl

/-- Every internal step has one of these effects. -/
theorem effect (hi : internal i = true) (h : c.step g conv i = some d) : Effect g c d i := by
  cases Connection.steps h with
  | user m i sys hidle hsys =>
    cases i with
    | tick =>
      obtain ⟨hs, hcalled, hflushed⟩ := afterUser_frame g conv c m .tick sys (by simp)
      exact .tick m hidle (by rw [hs]; exact hsys) hcalled hflushed
    | _ => cases hi
  | enter => exact .kernels rfl rfl rfl
  | wait => cases hi
  | kernel m choice _ htask => exact effect_task htask
  | deliver => exact .kernels rfl rfl rfl
  | handler m pc _ =>
    unfold Connection.stepHandler
    cases pc with
    | answer => exact .kernels (by simp) (Connection.notify_called ..) (notify_flushed ..)
    | _ => exact .kernels rfl rfl rfl

/-- The same connection with other marks of the events that were sent. -/
def withSent (c : Connection) (sent : Mod → Nat) : Connection := { c with sent := sent }

section WithSent

variable (c : Connection) (sent : Mod → Nat) (m : Mod)

@[simp] theorem withSent_sys : (withSent c sent).sys = c.sys := rfl

@[simp] theorem withSent_kernel : (withSent c sent).kernel = c.kernel := rfl

@[simp] theorem withSent_called : (withSent c sent).called = c.called := rfl

@[simp] theorem withSent_sent : (withSent c sent).sent = sent := rfl

@[simp] theorem withSent_withSent (sent' : Mod → Nat) :
    withSent (withSent c sent) sent' = withSent c sent' := rfl

theorem withSent_setTask (t : Task) :
    (withSent c sent).setTask m t = withSent (c.setTask m t) sent := rfl

theorem withSent_notify : (withSent c sent).notify m = withSent (c.notify m) sent := by
  unfold Connection.notify
  rw [withSent_kernel]
  split <;> rfl

theorem withSent_setHeaderState (conv : Conv) (st : Kernel.MetaState) :
    (withSent c sent).setHeaderState conv m st = withSent (c.setHeaderState conv m st) sent := by
  unfold Connection.setHeaderState
  split <;> rfl

theorem withSent_afterUser (g : Geometry) (conv : Conv) (i : Pipe.Input) (sys : System) :
    (withSent c sent).afterUser g conv m i sys = withSent (c.afterUser g conv m i sys) sent := by
  have hclose := withSent_setHeaderState { c with sys := sys } sent m conv .closed
  unfold Connection.afterUser
  rw [withSent_sys]
  split
  · exact congrArg (Connection.setTask · m .closeNotify) hclose
  · cases i <;> rfl

theorem withSent_stepHandler (conv : Conv) (pc : Kernel.HandlerPc) :
    (withSent c sent).stepHandler conv m pc = withSent (c.stepHandler conv m pc) sent := by
  cases pc with
  | answer =>
    unfold Connection.stepHandler
    exact withSent_notify (c.setKernel m _) sent m.peer
  | _ => rfl

end WithSent

/-- The kernel goes on in the same way. -/
private theorem stepTask_withSent {choice : Kernel.Choice} (sent : Mod → Nat)
    (h : c.stepTask g conv m choice = some d) :
    ∃ sent', (withSent c sent).stepTask g conv m choice = some (withSent d sent') ∧
      ∀ m, sent m ≤ sent' m := by
  unfold Connection.stepTask at h ⊢
  simp only [withSent_kernel, withSent_sys]
  cases ht : (c.kernel m).task <;> simp only [ht, reduceCtorEq] at h
  case initReceiver =>
    cases h
    exact ⟨sent, by rw [withSent_setHeaderState, withSent_setTask], fun _ => le_rfl⟩
  case initNotify | closeNotify =>
    cases h
    exact ⟨sent, by rw [withSent_notify, withSent_setTask], fun _ => le_rfl⟩
  case await call =>
    obtain ⟨next, hnext, rfl⟩ := Option.map_eq_some_iff.mp h
    exact ⟨sent, Option.map_eq_some_iff.mpr ⟨next, hnext, rfl⟩, fun _ => le_rfl⟩
  case ssig =>
    cases h
    refine ⟨sent, ?_, fun _ => le_rfl⟩
    change some (if c.header.isBrokenPipe = true then _ else _) = _
    split <;> rfl
  case ssigNotify =>
    cases h
    unfold Connection.afterSsig
    simp only [withSent_notify, withSent_setTask, withSent_sys, withSent_sent, withSent_called]
    split
    · refine ⟨Function.update sent m.peer (max (sent m.peer) (c.called m)), rfl, ?_⟩
      refine Mod.forall_of m ?_ (by simp)
      rw [Function.update_of_ne m.peer_ne.symm]
    · exact ⟨sent, rfl, fun _ => le_rfl⟩
  case ret r =>
    refine ⟨sent, ?_, fun _ => le_rfl⟩
    split at h
    · rename_i hpc
      cases h
      exact if_pos hpc
    · rename_i hpc
      obtain ⟨sys, hsys, rfl⟩ := Option.map_eq_some_iff.mp h
      refine (if_neg hpc).trans (Option.map_eq_some_iff.mpr ⟨sys, hsys, ?_⟩)
      unfold Connection.afterRet
      rw [withSent_sys]
      split <;> rfl

/-- The marks of the events sent may be put higher without any effect on a step. -/
theorem step_withSent (sent : Mod → Nat) (h : c.step g conv i = some d) :
    ∃ sent', (withSent c sent).step g conv i = some (withSent d sent') ∧
      ∀ m, sent m ≤ sent' m := by
  cases i with
  | user m i =>
    have hcases : (c.kernel m).task = .idle ∧
        ∃ sys, c.sys.step g (m, i) = some sys ∧ c.afterUser g conv m i sys = d := by
      cases i <;> simp only [Connection.step, reduceCtorEq, Option.ite_none_right_eq_some,
        Option.map_eq_some_iff] at h <;> exact h
    obtain ⟨hidle, sys, hsys, rfl⟩ := hcases
    refine ⟨sent, ?_, fun _ => le_rfl⟩
    cases i <;> simp only [Connection.step, reduceCtorEq] at h ⊢ <;>
      simp only [withSent_kernel, withSent_sys, hidle, if_true, hsys, Option.map_some,
        withSent_afterUser]
  | enter m =>
    simp only [Connection.step, Option.ite_none_right_eq_some, Option.map_eq_some_iff] at h
    obtain ⟨hidle, t, ht, rfl⟩ := h
    refine ⟨sent, ?_, fun _ => le_rfl⟩
    simp only [Connection.step, withSent_kernel, withSent_sys, hidle, if_true, ht, Option.map_some,
      withSent_setTask]
  | wait m timeoutMs =>
    simp only [Connection.step, Option.ite_none_right_eq_some, Option.some.injEq] at h
    obtain ⟨hcan, rfl⟩ := h
    exact ⟨sent, if_pos hcan, fun _ => le_rfl⟩
  | kernel m choice => exact stepTask_withSent sent h
  | deliver m =>
    simp only [Connection.step, Option.ite_none_right_eq_some, Option.some.injEq] at h
    obtain ⟨hcan, rfl⟩ := h
    exact ⟨sent, if_pos hcan, fun _ => le_rfl⟩
  | handler m =>
    obtain ⟨pc, hpc, rfl⟩ := Option.map_eq_some_iff.mp h
    exact ⟨sent, Option.map_eq_some_iff.mpr ⟨pc, hpc, withSent_stepHandler c sent m conv pc⟩,
      fun _ => le_rfl⟩

/-- A wait past its test of `initial_signal` and not yet at its end. -/
def parked : Kernel.AwaitPc → Bool
  | .checkLatent | .checkBroken | .asleep => true
  | _ => false

/-- A wait that is over is not one of these. -/
private theorem parked_of_behind {pc : Kernel.AwaitPc} (h : pc.behind = true) :
    parked pc = false := by
  cases pc <;> first | rfl | cases h

/-- A wait that has not begun, or has failed before, is none of these. -/
private theorem parked_of_early {pc : Kernel.AwaitPc}
    (h : pc.early = true ∨ ∃ e, pc = .done (.error e)) : parked pc = false := by
  obtain h | ⟨e, rfl⟩ := h
  · cases pc <;> first | rfl | cases h
  · rfl

/-- A wait is that of a process that goes to sleep, or the probe, which does not wait at an end
that was greeted. -/
def Probes (k : KernelEnd) (p : Proc) : Prop :=
  ∀ call, k.task = .await call → p.pc = .asleep ∨
    k.signals.initialSignal = true ∧ call.req.init = true ∧ parked call.pc = false

/-- How the kernel of one end may change. -/
structure Tends (k k' : KernelEnd) (p p' : Proc) : Prop where
  /-- An end that was greeted stays greeted. -/
  greeted : k.signals.initialSignal = true → k'.signals.initialSignal = true
  /-- A probe that does not wait goes on so. -/
  probes : Probes k p → Probes k' p'

section Tends

variable {k k' : KernelEnd} {p p' : Proc}

/-- While the task stays, the kernel of the end changes as it may. -/
private theorem tends_of_task (htask : k'.task = k.task) (hp : p' = p)
    (hgreeted : k.signals.initialSignal = true → k'.signals.initialSignal = true) :
    Tends k k' p p' := by
  refine ⟨hgreeted, fun h call ht => ?_⟩
  rw [hp]
  exact (h call (htask ▸ ht)).imp_right fun hprobe => ⟨hgreeted hprobe.1, hprobe.2⟩

/-- A task that is not a wait is no concern of the probes. -/
private theorem tends_of_ne (htask : ∀ call, k'.task ≠ .await call)
    (hsignals : k'.signals = k.signals) : Tends k k' p p' :=
  ⟨fun h => by rw [hsignals]; exact h, fun _ call ht => absurd ht (htask call)⟩

/-- A kernel that does not change has changed as it may. -/
private theorem tends_refl (k : KernelEnd) (p : Proc) : Tends k k p p := tends_of_task rfl rfl id

/-- A step of AWAIT changes the kernel of its end as it may. -/
private theorem tends_await {choice : Kernel.Choice} {sh sh' : Kernel.Shared}
    {call call' : Kernel.Call} (htask : k.task = .await call) (hsh : sh.signals = k.signals)
    (hs : call.step sh choice = some (sh', call')) :
    Tends k { k with signals := sh'.signals, task := .ofCall call' } p p := by
  obtain ⟨hreq, hinitial, -, -⟩ := Kernel.Call.step_frame hs
  have hgreeted : sh'.signals.initialSignal = k.signals.initialSignal := by rw [hinitial, hsh]
  refine ⟨fun h => hgreeted.trans h, fun h next ht => ?_⟩
  obtain rfl := Connection.Task.eq_of_ofCall ht
  rcases h call htask with hasleep | ⟨hinit, hprobe, hpc⟩
  · exact .inl hasleep
  refine .inr ⟨hgreeted.trans hinit, by rw [hreq]; exact hprobe, ?_⟩
  -- the test of `initial_signal` ends the wait
  cases Kernel.Call.goes hs with
  | waits pc woken hwaits hnext hfound =>
    simp only [Kernel.Call.step, Kernel.Call.proceed] at hs
    cases hcall : call.pc <;>
      simp only [hcall, parked, Kernel.AwaitPc.waiting, Bool.true_eq_false, Bool.false_eq_true]
        at hs hpc hwaits
    case prepare =>
      cases hs
      rfl
    case checkUser =>
      obtain ⟨-, ⟨-, hgo⟩ | ⟨-, -, hgo⟩⟩ := Kernel.Call.test_cases hs
      · rw [hgo]
        rfl
      · rw [hgo]
        exact parked_of_behind (Kernel.Call.over_behind ..)
    case checkInit =>
      have hmet : call.met sh = true := by simp [Kernel.Call.met, hcall, hprobe, hsh, hinit]
      obtain ⟨-, ⟨hunmet, -⟩ | ⟨-, -, hgo⟩⟩ := Kernel.Call.test_cases hs
      · rw [hmet] at hunmet
        cases hunmet
      · rw [hgo]
        exact parked_of_behind (Kernel.Call.over_behind ..)
  | early shared pc _ _ hnext _ _ => exact parked_of_early hnext
  | reset => rfl
  | user | initial | latent | broken | timeout =>
    exact parked_of_behind (Kernel.Call.over_behind ..)
  | interrupt | clear | recheck | unlock => rfl

/-- To wake the wait is a change that a kernel may make. -/
private theorem tends_wake (h : Tends k k' p p') : Tends k k'.wake p p' := by
  unfold KernelEnd.wake
  split
  · rename_i call ht
    refine ⟨h.greeted, fun hp next heq => ?_⟩
    obtain rfl := Task.await.inj heq
    exact h.probes hp call ht
  · exact h

end Tends

/-- The kernels of both ends change as they may. -/
def Tend (c d : Connection) : Prop :=
  ∀ m, Tends (c.kernel m) (d.kernel m) (c.sys.proc m) (d.sys.proc m)

/-- A process steps while its kernel is idle. -/
private theorem tend_user {sys : System} (hidle : (c.kernel m).task = .idle)
    (hsys : c.sys.step g (m, .tick) = some sys) : Tend c (c.afterUser g conv m .tick sys) := by
  have hpeer := System.proc_peer_step hsys
  unfold Connection.afterUser
  split
  · obtain ⟨hnext, -, -, hkernel⟩ := setHeaderState_frame conv { c with sys := sys } m .closed
    refine Mod.forall_of m ?_ ?_
    · rw [Connection.setTask_self, hkernel]
      exact tends_of_ne (by simp) rfl
    · rw [Connection.setTask_peer, hkernel, Connection.setTask_sys, hnext]
      exact tends_of_task rfl hpeer id
  · refine Mod.forall_of m ?_ ?_
    · exact tends_of_ne (by simp [hidle]) rfl
    · exact tends_of_task rfl hpeer id

/-- The kernel that takes the step takes up a task other than a wait. -/
private theorem tend_setTask {t : Task} (ht : ∀ call, t ≠ .await call) :
    Tend c (c.setTask m t) := by
  refine Mod.forall_of m ?_ ?_
  · rw [Connection.setTask_self]
    exact tends_of_ne ht rfl
  · rw [Connection.setTask_peer]
    exact tends_refl _ _

/-- To send an event is a change that both kernels may make. -/
private theorem tend_notify (c : Connection) (m : Mod) : Tend c (c.notify m) := by
  refine Mod.forall_of m ?_ ?_
  · refine tends_of_task ?_ (by rw [Connection.notify_sys])
      (by rw [Connection.notify_signals]; exact id)
    unfold Connection.notify
    split
    · rfl
    · rw [Connection.setKernel_self]
  · rw [Connection.notify_of_ne m.peer_ne, Connection.notify_sys]
    exact tends_refl _ _

/-- Two changes that both kernels may make are one. -/
private theorem Tend.trans {b : Connection} (h : Tend c d) (h' : Tend d b) : Tend c b :=
  fun m => ⟨fun hg => (h' m).greeted ((h m).greeted hg), fun hp => (h' m).probes ((h m).probes hp)⟩

/-- A step of a task in the kernel is a change that both kernels may make. -/
private theorem tend_task {choice : Kernel.Choice} (h : c.stepTask g conv m choice = some d) :
    Tend c d := by
  unfold Connection.stepTask at h
  cases ht : (c.kernel m).task <;> simp only [ht, reduceCtorEq] at h
  case initReceiver =>
    cases h
    obtain ⟨hsys, -, -, hkernel⟩ := setHeaderState_frame conv c m .opened
    have hopened : Tend c (c.setHeaderState conv m .opened) := by
      intro m'
      rw [hsys, hkernel]
      exact tends_refl _ _
    exact hopened.trans (tend_setTask (by simp))
  case initNotify | closeNotify =>
    cases h
    exact (tend_notify c m.peer).trans (tend_setTask (by simp))
  case await call =>
    obtain ⟨⟨sh, call'⟩, hcall, rfl⟩ := Option.map_eq_some_iff.mp h
    refine Mod.forall_of m ?_ ?_
    · simp only [Connection.afterAwait, Connection.setKernel_self]
      exact tends_await ht rfl hcall
    · simp only [Connection.afterAwait, Connection.setKernel_peer]
      exact tends_refl _ _
  case ssig =>
    cases h
    split <;> exact tend_setTask (by simp)
  case ssigNotify =>
    cases h
    have hnext : Tend c ((c.notify m.peer).setTask m (.ret .ok)) :=
      (tend_notify c m.peer).trans (tend_setTask (by simp))
    unfold Connection.afterSsig
    split <;> exact hnext
  case ret r =>
    split at h
    · cases h
      exact tend_setTask (by simp)
    · obtain ⟨sys, hsys, rfl⟩ := Option.map_eq_some_iff.mp h
      have hnext : Tend c (({ c with sys := sys } : Connection).setTask m .idle) := by
        refine Mod.forall_of m ?_ ?_
        · rw [Connection.setTask_self]
          exact tends_of_ne (by simp) rfl
        · rw [Connection.setTask_peer, Connection.setTask_sys]
          exact tends_of_task rfl (System.proc_peer_step hsys) id
      unfold Connection.afterRet
      split <;> exact hnext

/-- A step of the handler is a change that both kernels may make. -/
private theorem tend_handler (c : Connection) (m : Mod) (pc : Kernel.HandlerPc) :
    Tend c (c.stepHandler conv m pc) := by
  have hself : ∀ (signals : Kernel.Signals) (next : Option Kernel.HandlerPc),
      ((c.kernel m).signals.initialSignal = true → signals.initialSignal = true) →
      Tend c (c.setKernel m { c.kernel m with signals := signals, handler := next }) := by
    intro signals next hgreeted
    refine Mod.forall_of m ?_ ?_
    · rw [Connection.setKernel_self]
      exact tends_of_task rfl rfl hgreeted
    · rw [Connection.setKernel_peer]
      exact tends_refl _ _
  unfold Connection.stepHandler
  cases pc with
  | start =>
    simp only [Kernel.HandlerPc.step]
    (repeat' split) <;> exact hself _ _ id
  | answer => exact (hself _ _ id).trans (tend_notify _ m.peer)
  | setInitial => exact hself _ _ fun _ => rfl
  | setUser | setLatent => exact hself _ _ id
  | wakeUp =>
    refine Mod.forall_of m ?_ ?_
    · rw [Connection.setKernel_self, Connection.setKernel_sys]
      exact tends_wake (tends_of_task rfl rfl id)
    · rw [Connection.setKernel_peer]
      exact tends_refl _ _

/-- The kernels during an internal step. A probe is only begun at an end that was greeted. -/
theorem tend (hi : internal i = true) (h : c.step g conv i = some d)
    (hprobe : ∀ m, i = .enter m → (c.sys.proc m).pc = .probe →
      (c.kernel m).signals.initialSignal = true) : Tend c d := by
  cases Connection.steps h with
  | user m i sys hidle hsys =>
    cases i with
    | tick => exact tend_user hidle hsys
    | _ => cases hi
  | enter m t _ ht =>
    refine Mod.forall_of m ?_ ?_
    · rw [Connection.setTask_self]
      refine ⟨id, fun _ call hcall => ?_⟩
      change t = .await call at hcall
      subst hcall
      unfold Proc.syscall at ht
      split at ht <;> (try split at ht) <;> cases ht
      · rename_i hpc
        exact .inr ⟨hprobe m rfl hpc, rfl, rfl⟩
      · rename_i hpc
        exact .inl hpc
    · rw [Connection.setTask_peer]
      exact tends_refl _ _
  | wait => cases hi
  | kernel m choice _ htask => exact tend_task htask
  | deliver m _ =>
    refine Mod.forall_of m ?_ ?_
    · rw [Connection.setKernel_self]
      exact tends_of_task rfl rfl id
    · rw [Connection.setKernel_peer]
      exact tends_refl _ _
  | handler m pc _ => exact tend_handler c m pc

end XenShm.Ping
