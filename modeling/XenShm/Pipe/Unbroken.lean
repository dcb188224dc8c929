import XenShm.Pipe.Accounting

/-!
# Calls that do not fail

As long as no `ioctl` fails and nobody frees a handle, nothing is closed, no wait is left for a
failure, and every read or write returns the positive number of bytes it has moved.
-/

namespace XenShm.Pipe

open XenShm.Library

/-- An input of a user who keeps to the own end and does not free it, or of a kernel that does
not fail. -/
def Input.regular (m : Mod) : Input → Bool
  | .tick | .flush => true
  | .ioctl r => r = .ok
  | .transfer fn _ _ _ _ => fn = m
  | .free => false

namespace Proc

/-- The handle is neither freed nor on its way out of a failed wait. -/
def inUse (p : Proc) : Bool :=
  match p.pc with
  | .freeLoad | .freeStore | .close | .freed | .interruptedLoad | .interruptedStore => false
  | _ => true

/-- A read or write on its way to its return. -/
def leaving (p : Proc) : Bool :=
  match p.pc with
  | .inactiveLoad | .inactiveStore | .ret => true
  | _ => false

/-- The process has met no failure since its handle was connected. -/
structure Unbroken (p : Proc) : Prop where
  /-- The pages of the pipe are mapped. -/
  mapped : p.mapped = true
  /-- The peer was not seen closed. -/
  peer : hasFlag p.peerFlags .closed = false
  /-- The last wait has not failed. -/
  await : p.awaitRet = .ok
  /-- None was ended by a broken pipe. -/
  epipe : p.sawEpipe = false
  /-- The handle is in use and was not freed. -/
  inUse : p.inUse = true
  /-- A read or write has moved something. -/
  value : p.leaving = true → 0 < p.retval
  /-- The last call has not failed. -/
  result : 0 ≤ p.result

variable {g : Geometry} {m : Mod} {i : Input} {p p' : Proc} {s s' : Shared}

/-- A step that looks at nothing new and does not leave. -/
private theorem Unbroken.move {q : Proc} (h : p.Unbroken)
    (hkept : q.mapped = p.mapped ∧ q.awaitRet = p.awaitRet ∧ q.sawEpipe = p.sawEpipe ∧
      q.result = p.result) (hpeer : hasFlag q.peerFlags .closed = false)
    (hpc : q.inUse = true ∧ q.leaving = false) : q.Unbroken where
  mapped := hkept.1.trans h.mapped
  peer := hpeer
  await := hkept.2.1.trans h.await
  epipe := hkept.2.2.1.trans h.epipe
  inUse := hpc.1
  value hleaving := by simp [hpc.2] at hleaving
  result := hkept.2.2.2 ▸ h.result

private theorem Unbroken.turn (h : p.Unbroken) : p.turn.Unbroken := by
  unfold Proc.turn
  split_ifs <;> exact h.move ⟨rfl, rfl, rfl, rfl⟩ h.peer ⟨rfl, rfl⟩

private theorem Unbroken.readerTurn (h : p.Unbroken) : p.readerTurn.Unbroken := by
  simp only [Proc.readerTurn, h.epipe, Bool.false_eq_true, if_false]
  exact h.turn

private theorem Unbroken.leaveLoop (h : p.Unbroken) : p.leaveLoop.Unbroken := by
  unfold Proc.leaveLoop
  split_ifs <;> exact h.move ⟨rfl, rfl, rfl, rfl⟩ h.peer ⟨rfl, rfl⟩

private theorem Unbroken.endTurn (h : p.Unbroken) : (p.endTurn m).Unbroken := by
  cases m with
  | read => exact h.readerTurn
  | write => exact h.turn

/-- A waiting function meets no failure while the peer is open. -/
private theorem waits_unbroken (hp : p.Unbroken)
    (hopen : hasFlag (s.flags m.peer) .closed = false) (h : Waits g m p s p' s') :
    p'.Unbroken := by
  have hinUse := hp.inUse
  cases h with
  | refused _ _ hclosed => exact absurd (hopen.symm.trans hclosed) Bool.false_ne_true
  | peerClosed _ _ hclosed => exact absurd (hp.peer.symm.trans hclosed) Bool.false_ne_true
  | leaves => exact hp.leaveLoop
  | loadFlags => exact hp.move ⟨rfl, rfl, rfl, rfl⟩ hopen ⟨rfl, rfl⟩
  | turn => exact hp.endTurn
  | sawEpipe _ _ hret | interrupted _ _ hret => cases hp.await.symm.trans hret
  | interruptedLoad hpc | interruptedStore hpc => simp [inUse, hpc] at hinUse
  | _ => exact hp.move ⟨rfl, rfl, rfl, rfl⟩ hp.peer ⟨rfl, rfl⟩

private theorem Unbroken.beginCall (h : p.Unbroken) (m : Mod) : (p.beginCall m m).Unbroken := by
  have hmapped := h.mapped
  unfold Proc.beginCall
  rw [if_neg (by simp [hmapped])]
  exact h.move ⟨rfl, rfl, rfl, rfl⟩ h.peer ⟨rfl, rfl⟩

private theorem Unbroken.finish (h : p.Unbroken) {v : Int} (hv : 0 ≤ v) : (p.finish v).Unbroken :=
  ⟨h.mapped, h.peer, h.await, h.epipe, rfl, nofun, hv⟩

private theorem Unbroken.afterRet (h : p.Unbroken) (hpc : p.pc = .ret) (m : Mod) :
    (p.afterRet m).Unbroken := by
  have hvalue := h.value (by simp [leaving, hpc])
  have hadvanced : (p.advanceCall p.retval.toNat).Unbroken :=
    ⟨h.mapped, h.peer, h.await, h.epipe, h.inUse, h.value, h.result⟩
  cases p.returns m with
  | plain _ next =>
    rw [next]
    exact h.finish hvalue.le
  | failed _ hle _ => omega
  | complete _ _ _ next =>
    rw [next]
    exact hadvanced.finish (Int.natCast_nonneg _)
  | again _ _ _ next =>
    rw [next]
    exact hadvanced.beginCall m

/-- The copying loop meets no failure when it moves something. -/
private theorem looped_unbroken (hp : p.Unbroken)
    (hmoved : p.xfer.pc = .done → p.xfer.userBuf < p.xfer.current)
    (h : p.tickAvail g m s = some (p', s')) : p'.Unbroken := by
  cases hx : p.xfer.pc <;> cases m <;> simp only [tickAvail, hx, reduceCtorEq] at h <;> cases h
  case done.write | done.read =>
    have hlt := hmoved hx
    exact ⟨hp.mapped, hp.peer, hp.await, hp.epipe, rfl,
      fun _ => Int.natCast_pos.mpr (Nat.sub_pos_of_lt hlt), hp.result⟩
  all_goals
    exact ⟨hp.mapped, hp.peer, hp.await, hp.epipe, hp.inUse, hp.value, hp.result⟩

/-- A step of the process alone meets no failure while both ends are open. -/
private theorem tick_unbroken (hp : p.Unbroken) (hopen : ∀ m, hasFlag (s.flags m) .closed = false)
    (hmoved : p.pc = .avail → p.xfer.pc = .done → p.xfer.userBuf < p.xfer.current)
    (h : p.tick g m s = some (p', s')) : p'.Unbroken := by
  have hinUse := hp.inUse
  cases hpc : p.pc <;> simp only [tick, hpc] at h <;>
    simp only [inUse, hpc, Bool.false_eq_true] at hinUse
  case avail => exact looped_unbroken hp (hmoved hpc) h
  case callTest | flushTest =>
    simp only [hopen, Bool.false_eq_true, if_false] at h
    cases h
    exact hp.move ⟨rfl, rfl, rfl, rfl⟩ hp.peer ⟨rfl, rfl⟩
  case ret =>
    cases h
    exact hp.afterRet hpc m
  case inactiveLoad | inactiveStore =>
    have hvalue := hp.value (by simp [leaving, hpc])
    cases h
    exact ⟨hp.mapped, hp.peer, hp.await, hp.epipe, rfl, fun _ => hvalue, hp.result⟩
  case activeStore =>
    cases h
    cases m <;> exact hp.move ⟨rfl, rfl, rfl, rfl⟩ hp.peer ⟨rfl, rfl⟩
  case openLoad | openStore | activeLoad =>
    cases h
    exact hp.move ⟨rfl, rfl, rfl, rfl⟩ hp.peer ⟨rfl, rfl⟩
  all_goals exact waits_unbroken hp (hopen m.peer) (waits (g := g) h)

/-- An `ioctl` that succeeds is no failure. -/
private theorem ioctl_unbroken (hp : p.Unbroken) (h : p.ioctlReturn g m .ok s = some p') :
    p'.Unbroken := by
  cases hpc : p.pc <;>
    simp only [ioctlReturn, noteErrno, hpc, reduceCtorEq, if_false, if_true] at h
  case probe =>
    have hprobed : ({ p with loopCount := waitLoopLimit } : Proc).Unbroken :=
      ⟨hp.mapped, hp.peer, hp.await, hp.epipe, hp.inUse, hp.value, hp.result⟩
    cases m <;> cases h
    · exact hprobed.turn
    · exact hprobed.readerTurn
  case signal =>
    cases h
    exact hp.move ⟨rfl, rfl, rfl, rfl⟩ hp.peer ⟨rfl, rfl⟩
  case asleep =>
    cases h
    exact hp.move ⟨rfl, hp.await.symm, rfl, rfl⟩ hp.peer ⟨rfl, rfl⟩
  case avail =>
    split at h <;> cases h <;>
      exact hp.move ⟨rfl, rfl, rfl, rfl⟩ hp.peer ⟨rfl, rfl⟩
  case flushSignal =>
    cases h
    exact hp.finish le_rfl

/-- One step on a regular input, when neither end is closed. -/
theorem Unbroken.step (hp : p.Unbroken) (hopen : ∀ m, hasFlag (s.flags m) .closed = false)
    (hmoved : p.pc = .avail → p.xfer.pc = .done → p.xfer.userBuf < p.xfer.current)
    (hi : i.regular m = true) (h : p.step g m i s = some (p', s')) : p'.Unbroken := by
  cases i with
  | tick => exact tick_unbroken hp hopen hmoved h
  | ioctl r =>
    obtain rfl := of_decide_eq_true hi
    simp only [Proc.step, Option.map_eq_some_iff, Prod.mk.injEq] at h
    obtain ⟨q, hq, rfl, rfl⟩ := h
    exact ioctl_unbroken hp hq
  | transfer fn all buf nbytes mem =>
    obtain rfl := of_decide_eq_true hi
    have hasked : ({ p with all := all, buffer := buf, nbytes := nbytes, total := 0, mem := mem } :
        Proc).Unbroken := ⟨hp.mapped, hp.peer, hp.await, hp.epipe, hp.inUse, hp.value, hp.result⟩
    simp only [Proc.step] at h
    (repeat' split at h) <;> cases h
    · exact hasked.finish le_rfl
    · exact hasked.beginCall _
  | flush =>
    simp only [Proc.step, hp.mapped, if_true] at h
    split at h <;> cases h
    exact hp.move ⟨hp.mapped.symm, rfl, rfl, rfl⟩ hp.peer ⟨rfl, rfl⟩
  | free => cases hi

end Proc

/-- Neither process has met a failure, and nothing is closed. -/
structure System.Unbroken (s : System) : Prop where
  /-- The processes at both ends have met no failure. -/
  proc : ∀ m, (s.proc m).Unbroken
  /-- The flags of neither end tell that it is closed. -/
  notClosed : ∀ m, (s.proc m).NotClosed m (s.shared.flags m)

/-- On a pipe that was just offered nobody has met a failure. -/
theorem System.unbroken_offered (conv : Conv) (buffer memReader memWriter : Nat → UInt8) :
    (System.offered conv buffer memReader memWriter).Unbroken where
  proc := by
    intro m
    cases m <;> cases conv <;> exact ⟨rfl, hasFlag_zero .closed, rfl, rfl, rfl, nofun, le_rfl⟩
  notClosed := by
    intro m
    cases m <;> cases conv <;>
      simp [Proc.NotClosed, System.offered, System.proc, isOfferer, Proc.init, Shared.offered,
        Shared.flags, Shared.setFlags]

/-- A step of one end whose `ioctl` has not failed meets no failure. -/
theorem System.Unbroken.step {g : Geometry} {m : Mod} {i : Input} {s t : System} (h : s.Unbroken)
    (hmoved : (s.proc m).pc = .avail → (s.proc m).xfer.pc = .done →
      (s.proc m).xfer.userBuf < (s.proc m).xfer.current)
    (hi : i.regular m = true) (hs : s.step g (m, i) = some t) : t.Unbroken := by
  have hstep := System.step_proc hs
  have hflags := Proc.step_flags hstep
  have hnext := (h.proc m).step (fun m' => (h.notClosed m').1) hmoved hi hstep
  have hinUse := hnext.inUse
  have hgone : (t.proc m).gone = false := by
    cases hpc : (t.proc m).pc <;> simp_all [Proc.gone, Proc.inUse]
  refine ⟨Mod.forall_of m hnext ?_, Mod.forall_of m (hflags.notClosed (h.notClosed m) hgone) ?_⟩
  · rw [System.proc_peer_step hs]
    exact h.proc m.peer
  · rw [System.proc_peer_step hs]
    rcases hflags.foreign with hsame | ⟨-, hpc, -, -⟩
    · rw [hsame]
      exact h.notClosed m.peer
    · have := (h.proc m).inUse
      simp [Proc.inUse, hpc] at this

end XenShm.Pipe
