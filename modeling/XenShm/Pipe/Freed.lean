import XenShm.Kernel.Stages
import XenShm.Pipe.Flush
import XenShm.Pipe.Prompt

/-!
# `EPIPE` and the handles that are freed

A broken pipe is heard of in many ways: from the states in the header page, from an `ioctl` that
found them, from the flags in the shared area and from what a handle remembers of all these. All
of them go back to a handle that was freed. So a process that finds `EPIPE` in `errno` has a peer
that is gone.
-/

namespace XenShm.Pipe

open XenShm.Library

namespace Proc

/-- The handle has heard of a closed peer or of a broken pipe. -/
def heard (p : Proc) : Bool :=
  p.sawEpipe || p.awaitRet == .fail .epipe || p.errno == some .epipe || hasFlag p.peerFlags .closed

/-- A process has heard of a broken pipe in one of four ways, or not at all. -/
theorem heard_eq_false {p : Proc} : p.heard = false ↔ p.sawEpipe = false ∧
    p.awaitRet ≠ .fail .epipe ∧ p.errno ≠ some .epipe ∧ hasFlag p.peerFlags .closed = false := by
  simp [heard, and_assoc]

/-- A handle that was just opened has heard nothing. -/
theorem heard_init (pc : Pc) (mapped : Bool) (mem : Nat → UInt8) :
    (init pc mapped mem).heard = false := by
  simp [heard, init]

variable {g : Geometry} {m : Mod} {i : Input} {p p' : Proc} {s s' : Shared}

/-- What a step leaves as it is says nothing new. -/
private theorem heard_congr {q : Proc} (h : p.heard = false) (hsaw : q.sawEpipe = p.sawEpipe)
    (hawait : q.awaitRet = p.awaitRet) (herrno : q.errno = p.errno)
    (hpeer : q.peerFlags = p.peerFlags) : q.heard = false := by
  rwa [heard, hsaw, hawait, herrno, hpeer]

private theorem heard_leaveLoop (h : p.heard = false) : p.leaveLoop.heard = false := by
  unfold leaveLoop
  split <;> exact heard_congr h rfl rfl rfl rfl

private theorem heard_turn (h : p.heard = false) : p.turn.heard = false := by
  unfold turn
  split_ifs <;> exact heard_congr h rfl rfl rfl rfl

private theorem heard_readerTurn (h : p.heard = false) : p.readerTurn.heard = false := by
  unfold readerTurn
  rw [(heard_eq_false.mp h).1, if_neg Bool.false_ne_true]
  exact heard_turn h

/-- A waiting function hears nothing while the flags of the peer are up to date. -/
private theorem heard_waits (h : p.heard = false)
    (hpeer : hasFlag (s.flags m.peer) .closed = false) (hw : Waits g m p s p' s') :
    p'.heard = false := by
  obtain ⟨hsaw, hawait, herrno, hflags⟩ := heard_eq_false.mp h
  cases hw with
  | leaves => exact heard_leaveLoop h
  | loadFlags => exact heard_eq_false.mpr ⟨hsaw, hawait, herrno, hpeer⟩
  | turn =>
    cases m with
    | read => exact heard_readerTurn h
    | write => exact heard_turn h
  | sawEpipe _ _ hret => exact absurd hret hawait
  | _ => exact heard_congr h rfl rfl rfl rfl

private theorem heard_beginCall (fn : Mod) (h : p.heard = false) :
    (p.beginCall m fn).heard = false := by
  obtain ⟨hsaw, hawait, herrno, hflags⟩ := heard_eq_false.mp h
  unfold beginCall
  split <;> exact heard_eq_false.mpr ⟨hsaw, hawait, by simp, hflags⟩

private theorem heard_afterRet (h : p.heard = false) : (p.afterRet m).heard = false := by
  unfold afterRet nextPart
  (repeat' split) <;> first
    | exact heard_beginCall m h
    | exact heard_congr h rfl rfl rfl rfl

private theorem heard_tickAvail (h : p.heard = false) (hs : p.tickAvail g m s = some (p', s')) :
    p'.heard = false := by
  cases hx : p.xfer.pc <;> cases m <;> simp only [tickAvail, hx, reduceCtorEq] at hs <;>
    cases hs <;> exact heard_congr h rfl rfl rfl rfl

/-- A step of the process alone hears nothing while neither end is closed. -/
private theorem heard_tick (h : p.heard = false)
    (hopen : ∀ m, hasFlag (s.flags m) .closed = false) (hs : p.tick g m s = some (p', s')) :
    p'.heard = false := by
  cases hpc : p.pc <;> simp only [tick, hpc] at hs
  case avail => exact heard_tickAvail h hs
  case callTest | flushTest =>
    rw [hopen, if_neg Bool.false_ne_true] at hs
    cases hs
    exact heard_congr h rfl rfl rfl rfl
  case ret =>
    cases hs
    exact heard_afterRet h
  case openLoad | openStore | activeLoad | activeStore | inactiveLoad | inactiveStore | freeLoad |
      freeStore | close =>
    cases hs
    exact heard_congr h rfl rfl rfl rfl
  all_goals exact heard_waits h (hopen m.peer) (waits (g := g) hs)

private theorem heard_noteErrno {r : IoctlResult} (h : p.heard = false) (hr : r ≠ .fail .epipe) :
    (p.noteErrno r).heard = false := by
  obtain ⟨hsaw, hawait, herrno, hflags⟩ := heard_eq_false.mp h
  cases r with
  | ok => exact h
  | fail e => exact heard_eq_false.mpr ⟨hsaw, hawait, fun he => hr (by cases he; rfl), hflags⟩

/-- An `ioctl` that does not fail with `EPIPE` tells the process nothing. -/
private theorem heard_ioctl {r : IoctlResult} (h : p.heard = false) (hr : r ≠ .fail .epipe)
    (hs : p.ioctlReturn g m r s = some p') : p'.heard = false := by
  have hnoted := heard_noteErrno h hr
  cases hpc : p.pc <;> simp only [ioctlReturn, hpc, reduceCtorEq] at hs
  case probe =>
    rw [if_neg hr] at hs
    have hprobed : ({ p.noteErrno r with loopCount := waitLoopLimit } : Proc).heard = false :=
      heard_congr hnoted rfl rfl rfl rfl
    cases m <;> cases hs
    · exact heard_turn hprobed
    · exact heard_readerTurn hprobed
  case asleep =>
    cases hs
    obtain ⟨hsaw, -, herrno, hflags⟩ := heard_eq_false.mp hnoted
    exact heard_eq_false.mpr ⟨hsaw, hr, herrno, hflags⟩
  case avail =>
    split at hs <;> cases hs <;> exact heard_congr hnoted rfl rfl rfl rfl
  case signal | flushSignal =>
    cases hs
    exact heard_congr hnoted rfl rfl rfl rfl

/-- As long as no flag is closed and no `ioctl` fails with `EPIPE` a handle hears nothing. -/
theorem step_heard (h : p.heard = false) (hopen : ∀ m, hasFlag (s.flags m) .closed = false)
    (hi : i ≠ .ioctl (.fail .epipe)) (hs : p.step g m i s = some (p', s')) :
    p'.heard = false := by
  cases i with
  | tick => exact heard_tick h hopen hs
  | ioctl r =>
    simp only [step, Option.map_eq_some_iff, Prod.mk.injEq] at hs
    obtain ⟨q, hq, rfl, -⟩ := hs
    exact heard_ioctl h (fun hr => hi (by rw [hr])) hq
  | transfer fn all buf nbytes mem =>
    have hasked : ({ p with
        all := all, buffer := buf, nbytes := nbytes, total := 0, mem := mem } : Proc).heard =
        false := heard_congr h rfl rfl rfl rfl
    simp only [step] at hs
    (repeat' split at hs) <;> cases hs
    · exact heard_congr hasked rfl rfl rfl rfl
    · exact heard_beginCall _ hasked
  | flush =>
    obtain ⟨hsaw, hawait, herrno, hflags⟩ := heard_eq_false.mp h
    simp only [step] at hs
    (repeat' split at hs) <;> cases hs
    · exact heard_congr h rfl rfl rfl rfl
    · exact heard_eq_false.mpr ⟨hsaw, hawait, by simp, hflags⟩
  | free =>
    simp only [step] at hs
    (repeat' split at hs) <;> cases hs <;> exact heard_congr h rfl rfl rfl rfl

end Proc

namespace System

variable {g : Geometry} {s t : System} {m : Mod}

/-- Neither handle was freed, and neither is about to be closed. -/
def Held (s : System) : Prop := ∀ m, (s.proc m).gone = false

/-- A handle that was freed stays so, so one that is held was held before. -/
theorem held_of_step {x : Mod × Input} (h : t.Held) (hs : s.step g x = some t) : s.Held := by
  refine Mod.forall_of x.1 ?_ ?_
  · by_contra hgone
    have hfreed := ((Proc.step_flags (step_proc hs)).done (by simpa using hgone)).1
    exact Bool.false_ne_true ((h x.1).symm.trans hfreed)
  · rw [← proc_peer_step hs]
    exact h x.1.peer

/-- As long as both handles are held, neither end is closed in its flags. -/
theorem Held.open (h : s.Held) (hreach : Reachable g s) (m : Mod) :
    hasFlag (s.shared.flags m) .closed = false := by
  by_contra hclosed
  have hgone := gone_of_closed hreach (by simpa using hclosed)
  exact Bool.false_ne_true ((h m).symm.trans hgone)

end System

/-- The `ioctl` of the task has found a broken pipe. -/
def Task.foundBroken : Task → Bool
  | .await call => call.pc = .unlock (.error .epipe)
  | .ret r => r = .error .epipe
  | _ => false

/-- The library gets `EPIPE` only from an `ioctl` that has found a broken pipe. -/
theorem ofKernel_ne_epipe {r : Kernel.Result} (h : (Task.ret r).foundBroken = false) :
    Input.ioctl (.ofKernel r) ≠ .ioctl (.fail .epipe) := by
  have hr : r ≠ .error .epipe := of_decide_eq_false h
  intro he
  cases r with
  | ok => cases he
  | error e => cases e <;> simp [IoctlResult.ofKernel] at he hr

/-- Waking a wait does not change its request. -/
theorem KernelEnd.wake_await {k : KernelEnd} {call : Kernel.Call} (h : k.wake.task = .await call) :
    ∃ before, k.task = .await before ∧ call.req = before.req := by
  unfold KernelEnd.wake at h
  split at h
  · rename_i before ht
    obtain rfl := Task.await.inj h
    exact ⟨before, ht, rfl⟩
  · exact ⟨call, h, rfl⟩

@[simp] theorem KernelEnd.wake_foundBroken (k : KernelEnd) :
    k.wake.task.foundBroken = k.task.foundBroken := by
  unfold KernelEnd.wake
  split
  · rename_i call ht
    rw [ht]
    rfl
  · rfl

/-- As long as the pipe is not broken AWAIT does not find it so, unless the ticks left of its
timeout read as if it had. -/
theorem Task.foundBroken_step {s s' : Kernel.Shared} {call call' : Kernel.Call}
    {choice : Kernel.Choice} (h : (Task.await call).foundBroken = false)
    (hheader : s.header.isBrokenPipe = false) (hticks : choice.readsAs .epipe = false)
    (hs : call.step s choice = some (s', call')) : (Task.ofCall call').foundBroken = false := by
  have hpc : call.pc ≠ .unlock (.error .epipe) := of_decide_eq_false h
  suffices hnext : call'.pc ≠ .unlock (.error .epipe) ∧ call'.pc ≠ .done (.error .epipe) by
    unfold Task.ofCall
    split
    · rename_i r hr
      exact decide_eq_false fun he => hnext.2 (hr.trans (congrArg _ he))
    · exact decide_eq_false hnext.1
  have hover : ∀ left, (Kernel.Choice.ofLeft left).readsAs .epipe = false →
      (call.over left).pc ≠ .unlock (.error .epipe) ∧
        (call.over left).pc ≠ .done (.error .epipe) := by
    intro left hleft
    have hbehind := call.over_pc left
    refine ⟨fun he => ?_, fun he => ?_⟩
    · simp [Kernel.AwaitPc.readsAs_of_afterWait (hbehind.symm.trans he)] at hleft
    · obtain hclear | ⟨_, -, -, hcode⟩ := Kernel.AwaitPc.afterWait_cases left
      · cases hclear.symm.trans (hbehind.symm.trans he)
      · cases hcode.symm.trans (hbehind.symm.trans he)
  cases choice with
  | interrupt =>
    simp only [Kernel.Call.step, Option.ite_none_right_eq_some, Option.some.injEq,
      Prod.mk.injEq] at hs
    obtain ⟨-, -, rfl⟩ := hs
    simp
  | timeout =>
    simp only [Kernel.Call.step, Option.ite_none_right_eq_some, Option.some.injEq,
      Prod.mk.injEq] at hs
    obtain ⟨-, -, rfl⟩ := hs
    simp
  | ends left =>
    simp only [Kernel.Call.step, Option.ite_none_right_eq_some, Option.some.injEq,
      Prod.mk.injEq] at hs
    obtain ⟨-, -, rfl⟩ := hs
    exact hover (some left) hticks
  | proceed =>
    cases he : call.pc <;>
      simp only [Kernel.Call.step, Kernel.Call.proceed, he, hheader, Bool.false_eq_true, if_false,
        reduceCtorEq] at hs
    case unlock r =>
      cases hs
      simpa [he] using hpc
    case checkUser | checkInit | checkLatent | checkBroken =>
      obtain ⟨-, ⟨-, rfl⟩ | ⟨-, -, rfl⟩⟩ := Kernel.Call.test_cases hs
      · simp
      · exact hover none rfl
    all_goals
      (repeat' split at hs) <;> cases hs <;> simp

/-- The ticks left of a timeout of at most a millisecond are one, and read as no error. -/
theorem readsAs_of_short {s : Kernel.Shared} {call : Kernel.Call} {choice : Kernel.Choice}
    {next : Kernel.Shared × Kernel.Call} (hshort : call.req.timeoutMs ≤ 1)
    (hs : call.step s choice = some next) : choice.readsAs .epipe = false := by
  cases choice with
  | ends left =>
    simp only [Kernel.Call.step, Option.ite_none_right_eq_some] at hs
    obtain rfl : left = 1 := by
      have hle : left ≤ max 1 call.req.timeoutMs := hs.1.2.2.2
      have hpos := hs.1.2.2.1
      omega
    have hone : Kernel.waitRetval 1 = 1 := by rw [Kernel.waitRetval]; rfl
    simp [Kernel.Choice.readsAs, hone, Kernel.Errno.value]
  | _ => rfl

namespace Connection

variable {g : Geometry} {conv : Conv} {c d : Connection} {m : Mod}

section Frames

variable (conv c m) (st : Kernel.MetaState)

@[simp] theorem setHeaderState_sys : (setHeaderState conv c m st).sys = c.sys := by
  unfold setHeaderState
  split <;> rfl

@[simp] theorem setHeaderState_kernel : (setHeaderState conv c m st).kernel = c.kernel := by
  unfold setHeaderState
  split <;> rfl

/-- To open the state of one end does not break the pipe. -/
theorem isBrokenPipe_opened (h : c.header.isBrokenPipe = false) :
    (setHeaderState conv c m .opened).header.isBrokenPipe = false := by
  unfold setHeaderState
  split <;> simp_all [Kernel.Header.isBrokenPipe]

@[simp] theorem notify_header : (c.notify m).header = c.header := by
  unfold Connection.notify
  split <;> rfl

@[simp] theorem notify_task (m' : Mod) : ((c.notify m).kernel m').task = (c.kernel m').task := by
  unfold Connection.notify
  split
  · rfl
  · by_cases h : m' = m
    · subst h
      rw [setKernel_self]
    · rw [setKernel_of_ne h]

end Frames

/-- A step of the connection is a step of one process, or of the kernels only. -/
theorem step_sys {i : Connection.Input} (hs : c.step g conv i = some d) :
    d.sys = c.sys ∨ ∃ x, c.sys.step g x = some d.sys := by
  cases Connection.steps hs with
  | user a j sys hidle hsys =>
    refine .inr ⟨(a, j), ?_⟩
    unfold afterUser
    split
    · simpa using hsys
    · cases j <;> exact hsys
  | enter | wait | deliver => exact .inl rfl
  | kernel a choice _ hs =>
    unfold Connection.stepTask at hs
    cases ht : (c.kernel a).task <;> simp only [ht, reduceCtorEq] at hs
    case initReceiver | initNotify | closeNotify =>
      obtain rfl := Option.some.inj hs
      exact .inl (by simp)
    case await call =>
      obtain ⟨_, -, rfl⟩ := Option.map_eq_some_iff.mp hs
      exact .inl rfl
    case ssig =>
      obtain rfl := Option.some.inj hs
      split <;> exact .inl rfl
    case ssigNotify =>
      obtain rfl := Option.some.inj hs
      unfold afterSsig
      split <;> exact .inl (by simp)
    case ret r =>
      split at hs
      · obtain rfl := Option.some.inj hs
        exact .inl rfl
      · obtain ⟨sys, hsys, rfl⟩ := Option.map_eq_some_iff.mp hs
        refine .inr ⟨(a, .ioctl (.ofKernel r)), ?_⟩
        unfold afterRet
        split <;> exact hsys
  | handler a pc =>
    unfold Connection.stepHandler
    cases pc with
    | answer => exact .inl (by simp)
    | _ => exact .inl rfl

/-- Nobody has heard of a broken pipe, in the kernels or in the processes. -/
structure Intact (c : Connection) : Prop where
  /-- The header page shows no closed end. -/
  header : c.header.isBrokenPipe = false
  /-- Only `xen_shm_pipe_wait` has a timeout of its own, and its process is between two calls. -/
  short : ∀ m call, (c.kernel m).task = .await call →
    call.req.timeoutMs ≤ 1 ∨ (c.sys.proc m).pc = .idle
  /-- The kernels have found no broken pipe, except for a wait of the user. -/
  task : ∀ m, (c.kernel m).task.foundBroken = false ∨ (c.sys.proc m).pc = .idle
  /-- The processes have heard of no broken pipe. -/
  proc : ∀ m, (c.sys.proc m).heard = false

/-- A kernel that takes up something else keeps the connection intact. -/
theorem Intact.setKernel {k : KernelEnd} (h : Intact c)
    (hshort : ∀ call, k.task = .await call →
      call.req.timeoutMs ≤ 1 ∨ (c.sys.proc m).pc = .idle)
    (hk : k.task.foundBroken = false ∨ (c.sys.proc m).pc = .idle) : Intact (c.setKernel m k) := by
  refine ⟨h.header, Mod.forall_of m ?_ ?_, Mod.forall_of m ?_ ?_, h.proc⟩
  · rwa [setKernel_self]
  · rw [setKernel_peer]
    exact h.short m.peer
  · rwa [setKernel_self]
  · rw [setKernel_peer]
    exact h.task m.peer

/-- A task that is not a wait keeps the connection intact. -/
theorem Intact.setTask {t : Task} (h : Intact c) (hwait : ∀ call, t ≠ .await call)
    (ht : t.foundBroken = false) : Intact (c.setTask m t) :=
  h.setKernel (fun call hcall => absurd hcall (hwait call)) (.inl ht)

/-- An event that is sent keeps the connection intact. -/
theorem Intact.notify (h : Intact c) (m : Mod) : Intact (c.notify m) :=
  ⟨by rw [notify_header]; exact h.header,
    fun m' => by rw [notify_task, notify_sys]; exact h.short m',
    fun m' => by rw [notify_task, notify_sys]; exact h.task m',
    by rw [notify_sys]; exact h.proc⟩

/-- A step of a process whose kernel has nothing to do then. -/
theorem Intact.sys {i : Pipe.Input} {sys : System} (h : Intact c)
    (hopen : ∀ m, hasFlag (c.sys.shared.flags m) .closed = false)
    (hi : i ≠ .ioctl (.fail .epipe)) (hs : c.sys.step g (m, i) = some sys) :
    Intact ({ c with sys := sys }.setTask m .idle) := by
  have hpeer := System.proc_peer_step hs
  refine ⟨h.header, Mod.forall_of m ?_ ?_, Mod.forall_of m ?_ ?_, Mod.forall_of m ?_ ?_⟩
  · simp [Connection.setTask, setKernel_self]
  · rw [Connection.setTask, setKernel_peer]
    show ∀ call, _ → _ ∨ (sys.proc m.peer).pc = .idle
    rw [hpeer]
    exact h.short m.peer
  · exact .inl (by rw [Connection.setTask, setKernel_self]; rfl)
  · rw [Connection.setTask, setKernel_peer]
    show _ ∨ (sys.proc m.peer).pc = .idle
    rw [hpeer]
    exact h.task m.peer
  · exact Proc.step_heard (h.proc m) hopen hi (System.step_proc hs)
  · show (sys.proc m.peer).heard = false
    rw [hpeer]
    exact h.proc m.peer

/-- A step of a kernel for its process keeps the connection intact while both handles are held. -/
private theorem Intact.stepTask {choice : Kernel.Choice} (h : Intact c)
    (hopen : ∀ m, hasFlag (c.sys.shared.flags m) .closed = false)
    (hs : c.stepTask g conv m choice = some d) : Intact d := by
  have hfound := h.task m
  unfold Connection.stepTask at hs
  cases ht : (c.kernel m).task <;> simp only [ht, reduceCtorEq] at hs hfound
  case initReceiver =>
    obtain rfl := Option.some.inj hs
    have hheader : Intact (c.setHeaderState conv m .opened) :=
      ⟨isBrokenPipe_opened conv c m h.header, by simpa using h.short, by simpa using h.task,
        by simpa using h.proc⟩
    exact hheader.setTask (by simp) rfl
  case initNotify | closeNotify =>
    obtain rfl := Option.some.inj hs
    exact (h.notify m.peer).setTask (by simp) rfl
  case await call =>
    obtain ⟨⟨sh, call'⟩, hnext, rfl⟩ := Option.map_eq_some_iff.mp hs
    obtain ⟨hofferer, hreceiver⟩ := Kernel.Call.step_header hnext
    have hheader : Intact { c with header := sh.header } := by
      refine ⟨?_, h.short, h.task, h.proc⟩
      simpa only [Kernel.Header.isBrokenPipe, hofferer, hreceiver, seenBy] using h.header
    have hshort := h.short m call ht
    refine hheader.setKernel (fun next hcall => ?_) ?_
    · have hreq : next = call' := by
        unfold Task.ofCall at hcall
        split at hcall <;> cases hcall
        rfl
      rw [hreq, (Kernel.Call.step_frame hnext).req]
      exact hshort
    · rcases hfound with hfound | hidle
      · rcases hshort with hshort | hidle
        · exact .inl (Task.foundBroken_step hfound h.header (readsAs_of_short hshort hnext) hnext)
        · exact .inr hidle
      · exact .inr hidle
  case ssig =>
    obtain rfl := Option.some.inj hs
    rw [h.header, if_neg Bool.false_ne_true]
    exact h.setTask (by simp) rfl
  case ssigNotify =>
    obtain rfl := Option.some.inj hs
    have hnext : Intact ((c.notify m.peer).setTask m (.ret .ok)) :=
      (h.notify m.peer).setTask (by simp) rfl
    unfold afterSsig
    split
    · exact ⟨hnext.header, hnext.short, hnext.task, hnext.proc⟩
    · exact hnext
  case ret r =>
    split at hs
    · obtain rfl := Option.some.inj hs
      exact h.setTask (by simp) rfl
    · rename_i hpc
      obtain ⟨sys, hsys, rfl⟩ := Option.map_eq_some_iff.mp hs
      have hnext := h.sys hopen (ofKernel_ne_epipe (hfound.resolve_right hpc)) hsys
      unfold afterRet
      split
      · exact ⟨hnext.header, hnext.short, hnext.task, hnext.proc⟩
      · exact hnext

/-- The `ioctl` that the library enters has found nothing yet. -/
private theorem syscall_quiet {p : Proc} {t : Task} (h : p.syscall = some t) :
    t.foundBroken = false ∧ ∀ call, t = .await call → call.req.timeoutMs ≤ 1 := by
  unfold Proc.syscall at h
  (repeat' split at h) <;> cases h <;>
    exact ⟨rfl, fun call hcall => by cases hcall <;> decide⟩

/-- While no handle is freed nobody hears of a broken pipe. -/
theorem Intact.step {i : Connection.Input} (h : Intact c) (hreach : System.Reachable g c.sys)
    (hheld : c.sys.Held) (hs : c.step g conv i = some d) : Intact d := by
  have hopen := hheld.open hreach
  cases Connection.steps hs with
  | user m i sys hidle hsys =>
    have hi : i ≠ .ioctl (.fail .epipe) := by
      rintro rfl
      simp [Connection.step] at hs
    have hnext : Intact { c with sys := sys } := by
      have htask := h.sys hopen hi hsys
      rwa [setTask_idle (by exact hidle)] at htask
    have hclose : (c.sys.proc m).pc ≠ .close := fun hpc => by
      simpa [Proc.gone, hpc] using hheld m
    unfold afterUser
    rw [if_neg hclose]
    cases i with
    | flush => exact ⟨hnext.header, hnext.short, hnext.task, hnext.proc⟩
    | _ => exact hnext
  | enter m t _ hcall =>
    obtain ⟨hfound, hshort⟩ := syscall_quiet hcall
    exact h.setKernel (fun call hcall => .inl (hshort call hcall)) (.inl hfound)
  | wait m timeoutMs _ hpc => exact h.setKernel (fun _ _ => .inr hpc) (.inr hpc)
  | kernel m choice _ htask => exact h.stepTask hopen htask
  | deliver m => exact h.setKernel (h.short m) (h.task m)
  | handler m pc =>
    unfold Connection.stepHandler
    cases pc with
    | answer =>
      refine Intact.notify ?_ m.peer
      exact h.setKernel (h.short m) (h.task m)
    | wakeUp =>
      refine h.setKernel (fun call hcall => ?_) ?_
      · obtain ⟨before, hbefore, hreq⟩ := KernelEnd.wake_await hcall
        rw [hreq]
        exact h.short m before hbefore
      · rw [KernelEnd.wake_foundBroken]
        exact h.task m
    | _ => exact h.setKernel (h.short m) (h.task m)

/-- What holds of a connection in every run. -/
structure Orderly (g : Geometry) (c : Connection) : Prop where
  /-- The processes and the shared area are those of a run of the pipe. -/
  reachable : System.Reachable g c.sys
  /-- The pipe is broken by a release only. -/
  intact : c.sys.Held → Intact c

/-- Every step of the connection keeps it in order. -/
theorem Orderly.step {i : Connection.Input} (h : Orderly g c) (hs : c.step g conv i = some d) :
    Orderly g d := by
  rcases step_sys hs with hsys | ⟨x, hsys⟩
  · refine ⟨hsys ▸ h.reachable, fun hheld => ?_⟩
    rw [hsys] at hheld
    exact (h.intact hheld).step h.reachable hheld hs
  · refine ⟨?_, fun hheld => ?_⟩
    · obtain ⟨conv, buffer, memReader, memWriter, hr⟩ := h.reachable
      exact ⟨conv, buffer, memReader, memWriter, hr.snoc x rfl hsys⟩
    · have hbefore := System.held_of_step hheld hsys
      exact (h.intact hbefore).step h.reachable hbefore hs

/-- A pipe on which nothing was done yet is in order. -/
theorem orderly_offered (g : Geometry) (conv : Conv) (buffer memReader memWriter : Nat → UInt8) :
    Orderly g (.offered conv buffer memReader memWriter) := by
  refine ⟨⟨conv, buffer, memReader, memWriter, .refl⟩,
    fun _ => ⟨?_, fun m call => ?_, fun m => ?_, fun m => ?_⟩⟩
  · simp [Connection.offered, Kernel.Header.isBrokenPipe, Kernel.Header.zero]
  · cases conv <;> cases m <;> simp [Connection.offered, isOfferer]
  · cases conv <;> cases m <;> exact .inl rfl
  · cases conv <;> cases m <;>
      exact Proc.heard_init _ _ _

/-- When both processes live, `EPIPE` is left in `errno` and given to a call of the library only
when the handle of the peer is freed. -/
theorem epipe_of_freed {buffer memReader memWriter : Nat → UInt8}
    (h : Reaches (Connection.step g conv) (fun _ _ => true)
      (.offered conv buffer memReader memWriter) c)
    (hheld : (c.sys.proc m).gone = false)
    (hepipe : (c.sys.proc m).errno = some .epipe ∨
      (c.kernel m).task = .ret (.error .epipe) ∧ (c.sys.proc m).pc ≠ .idle) :
    (c.sys.proc m.peer).gone = true := by
  have horderly : Orderly g c :=
    h.invariant (orderly_offered g conv buffer memReader memWriter) fun _ _ _ h _ hs => h.step hs
  by_contra hpeer
  have hall : c.sys.Held := Mod.forall_of m hheld (by simpa using hpeer)
  have hintact := horderly.intact hall
  rcases hepipe with herrno | ⟨htask, hpc⟩
  · exact (Proc.heard_eq_false.mp (hintact.proc m)).2.2.1 herrno
  · have hfound := (hintact.task m).resolve_right hpc
    simp [htask, Task.foundBroken] at hfound

/-- The process that takes this step, if it is a step of a process. -/
def Input.process : Connection.Input → Option Mod
  | .user m _ | .enter m | .wait m _ => some m
  | .kernel _ _ | .deliver _ | .handler _ => none

end Connection

/-- A pipe whose processes can end. A process that ends, killed or not, does not free its handle:
its kernel releases the descriptor, which closes the state in the header page and sends an event,
but the flags in the shared area stay as they are. -/
structure Mortal where
  /-- The pipe with its kernels. -/
  pipe : Connection
  /-- The process of this end has ended. -/
  ended : Mod → Bool

namespace Mortal

/-- What happens next at the pipe or to its processes, in any order. -/
inductive Input where
  /-- A step of the pipe, which needs a process that has not ended. -/
  | pipe (i : Connection.Input)
  /-- A process ends, outside of its `ioctl`s or when one of them is about to return: a signal that
  kills the process ends the wait of an AWAIT first. -/
  | exit (m : Mod)

variable (g : Geometry) (conv : Conv)

/-- The release of the descriptor of a process that ends, unless `xen_shm_pipe_free` has closed
it. -/
def release (c : Connection) (m : Mod) : Connection :=
  if (c.sys.proc m).pc = .freed then c.setTask m .idle
  else (c.setHeaderState conv m .closed).setTask m .closeNotify

/-- One step, of the pipe or of the end of a process. -/
def step (k : Mortal) : Input → Option Mortal
  | .pipe i =>
    if i.process.any k.ended then none
    else (k.pipe.step g conv i).map fun c => { k with pipe := c }
  | .exit m =>
    match (k.pipe.kernel m).task with
    | .idle | .ret _ =>
      if k.ended m then none
      else some ⟨release conv k.pipe m, Function.update k.ended m true⟩
    | _ => none

/-- The pipe when `xen_shm_pipe_offers` has returned, with both processes alive. -/
def offered (buffer memReader memWriter : Nat → UInt8) : Mortal :=
  ⟨.offered conv buffer memReader memWriter, fun _ => false⟩

variable {g : Geometry} {conv : Conv} {k l : Mortal} {m : Mod}

/-- A step of a pipe both of whose processes live afterwards is a step of the pipe alone. -/
theorem pipe_of_step {i : Mortal.Input} (hlive : ∀ m, l.ended m = false)
    (hs : k.step g conv i = some l) :
    (∀ m, k.ended m = false) ∧ ∃ j, k.pipe.step g conv j = some l.pipe := by
  cases i with
  | pipe i =>
    simp only [step, Option.ite_none_left_eq_some, Option.map_eq_some_iff] at hs
    obtain ⟨-, c, hc, rfl⟩ := hs
    exact ⟨hlive, i, hc⟩
  | exit m =>
    simp only [step] at hs
    (repeat' split at hs) <;> cases hs <;> simpa using hlive m

/-- A run of a pipe both of whose processes live at its end is a run of the pipe alone. -/
theorem pipe_of_reaches (h : Reaches (step g conv) (fun _ _ => true) k l)
    (hlive : ∀ m, l.ended m = false) :
    Reaches (Connection.step g conv) (fun _ _ => true) k.pipe l.pipe := by
  induction h with
  | refl => exact .refl
  | tail _ hm ih =>
    obtain ⟨i, -, hi⟩ := hm
    obtain ⟨hbefore, j, hj⟩ := pipe_of_step hlive hi
    exact (ih hbefore).snoc j rfl hj

/-- A live process that has not freed its handle finds `EPIPE` in `errno`, or gets it from an
`ioctl` of a read, a write or a flush, only when its peer has freed its handle or has ended. -/
theorem epipe_of_gone {buffer memReader memWriter : Nat → UInt8}
    (h : Reaches (step g conv) (fun _ _ => true) (.offered conv buffer memReader memWriter) k)
    (hlives : k.ended m = false) (hheld : (k.pipe.sys.proc m).gone = false)
    (hepipe : (k.pipe.sys.proc m).errno = some .epipe ∨
      (k.pipe.kernel m).task = .ret (.error .epipe) ∧ (k.pipe.sys.proc m).pc ≠ .idle) :
    (k.pipe.sys.proc m.peer).gone = true ∨ k.ended m.peer = true := by
  by_contra hpeer
  simp only [not_or, Bool.not_eq_true] at hpeer
  have hlive : ∀ m, k.ended m = false := Mod.forall_of m hlives hpeer.2
  have hgone := Connection.epipe_of_freed (pipe_of_reaches h hlive) hheld hepipe
  exact Bool.false_ne_true (hpeer.1.symm.trans hgone)

/-- The reader is killed while the writer is about to flush, and the SSIG of the flush fails. -/
private def killedThenFlush : List Mortal.Input :=
  Connection.connecting.map .pipe ++
    [.pipe (.user .write .flush), .pipe (.user .write .tick), .exit .read,
      .pipe (.enter .write), .pipe (.kernel .write .proceed), .pipe (.kernel .write .proceed)]

/-- The reader is killed, its kernel releases the descriptor, and a write fails with `EPIPE`. -/
theorem epipe_of_gone_killed : ∃ k : Mortal, (k.pipe.sys.proc .write).errno = some .epipe ∧
    (k.pipe.sys.proc .read).gone = false ∧
    ((k.pipe.sys.proc .read).gone = true ∨ k.ended .read = true) := by
  have hrun : (run (step .onePage .readerOffers) (fun _ _ => true)
      (.offered .readerOffers (fun _ => 0) (fun _ => 0) fun _ => 0) killedThenFlush).any (fun k =>
        (k.pipe.sys.proc .write).errno = some .epipe ∧ (k.pipe.sys.proc .write).gone = false ∧
          k.ended .write = false ∧ (k.pipe.sys.proc .read).gone = false) = true := by
    decide +kernel
  obtain ⟨k, hreach, htest⟩ := exists_reaches_of_run hrun
  obtain ⟨herrno, hheld, hlives, hread⟩ := of_decide_eq_true htest
  exact ⟨k, herrno, hread, epipe_of_gone (m := .write) hreach hlives hheld (.inl herrno)⟩

end Mortal

end XenShm.Pipe
