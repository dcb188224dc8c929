import XenShm.Pipe.Connection
import XenShm.Pipe.Copying
import XenShm.Pipe.Linked

/-!
# Calls that find something to move

A read that begins behind published bytes, or a write that begins with free slots, leaves the
waiting loop at its first test, since the peer can only add to what there is to move. What follows
is a number of own accesses that is linear in what was asked for, with no `ioctl` but the one that
wakes the peer, whether the peer runs, sleeps or has stopped for good.
-/

namespace XenShm.Pipe

open XenShm.Library

namespace Proc

/-- A read or write of the end `m` that has found something to move. `ready` says that it is still
there, `count` is the length of the stream, and `gone` says that the reader has been freed. -/
def Prompt (g : Geometry) (m : Mod) (ready gone : Prop) (count : Nat) (p : Proc) : Prop :=
  match p.pc with
  | .callTest | .activeLoad | .activeStore => ready ∧ 0 < p.nbytes
  | .closedTest => ready ∧ 0 < p.nbytes ∧ p.unsetWait = false ∧ m = .write
  | .loadOwn | .loopTest => ready ∧ 0 < p.nbytes ∧ p.unsetWait = false
  | .avail => (p.xfer.pc = .loadRead ∨ p.xfer.pc = .loadWrite → ready) ∧ p.xfer.Underway g m count
  | .inactiveLoad | .inactiveStore | .ret => 0 < p.retval ∨ m = .write ∧ p.retval = -1 ∧ gone
  | _ => False

/-- A bound on the steps that are left before the return. -/
def promptRank (p : Proc) : Nat :=
  match p.pc with
  | .callTest => 16 * p.nbytes + 24
  | .activeLoad => 16 * p.nbytes + 23
  | .activeStore => 16 * p.nbytes + 22
  | .closedTest => 16 * p.nbytes + 21
  | .loadOwn => 16 * p.nbytes + 20
  | .loopTest => 16 * p.nbytes + 19
  | .avail => p.xfer.rank + 3
  | .inactiveLoad => 2
  | .inactiveStore => 1
  | _ => 0

variable {g : Geometry} {m : Mod} {i : Input} {p p' : Proc} {s s' : Shared} {count : Nat}
  {ready ready' gone gone' : Prop}

/-- What the peer does in between does not matter. -/
theorem Prompt.mono (h : p.Prompt g m ready gone count) (hready : ready → ready')
    (hgone : gone → gone') : p.Prompt g m ready' gone' count := by
  cases hpc : p.pc <;> simp only [Prompt, hpc] at h ⊢
  case callTest | activeLoad | activeStore | closedTest | loadOwn | loopTest =>
    exact h.imp_left hready
  case avail => exact h.imp_left fun hload hx => hready (hload hx)
  case inactiveLoad | inactiveStore | ret =>
    exact h.imp_right fun hfail => ⟨hfail.1, hfail.2.1, hgone hfail.2.2⟩

/-- Only a wake-up is asked of the kernel. -/
theorem Prompt.syscall (h : p.Prompt g m ready gone count) {task : Task}
    (htask : p.syscall = some task) : task = .ssig := by
  cases hpc : p.pc <;> simp only [Prompt, hpc] at h <;>
    simp only [Proc.syscall, hpc, reduceCtorEq] at htask
  case avail =>
    split at htask <;> cases htask <;> rfl

/-- Behind a test that finds something to move the copying loop begins. -/
private theorem prompt_leaveLoop (hready : ready) (hlen : 0 < p.nbytes)
    (hunset : p.unsetWait = false) : p.leaveLoop.Prompt g m ready gone count ∧
      p.leaveLoop.promptRank = 16 * p.nbytes + 18 := by
  rw [leaveLoop, hunset, if_neg Bool.false_ne_true]
  refine ⟨⟨fun _ => hready, Transfer.underway_start g m count hlen⟩, ?_⟩
  simp [enterAvail, promptRank, Transfer.start, Transfer.rank, Transfer.phase]

/-- A step outside the copying loop keeps the call prompt. -/
theorem Prompt.step (h : p.Prompt g m ready gone count) (hloop : p.pc ≠ .avail)
    (hret : p.pc ≠ .ret) (hown : p.pc = .callTest → hasFlag (s.flags m) .closed = false)
    (hpeer : p.pc = .closedTest → hasFlag (s.flags m.peer) .closed = true → gone)
    (hmark : p.pc = .loopTest → p.own ≠ s.index m.peer) (hs : p.step g m i s = some (p', s')) :
    p'.Prompt g m ready gone count ∧ p'.promptRank < p.promptRank := by
  cases i with
  | transfer | flush | free =>
    cases hpc : p.pc <;> simp only [Prompt, hpc] at h <;>
      simp only [Proc.step, hpc, reduceCtorEq, if_false] at hs
  | ioctl r =>
    cases hpc : p.pc <;> simp only [Prompt, hpc] at h <;>
      simp only [Proc.step, ioctlReturn, hpc, Option.map_none, reduceCtorEq] at hs
    contradiction
  | tick =>
    cases hpc : p.pc <;> simp only [Prompt, hpc] at h <;> simp only [Proc.step, tick, hpc] at hs
    case avail | ret => contradiction
    case callTest =>
      rw [hown hpc, if_neg Bool.false_ne_true] at hs
      cases hs
      exact ⟨h, by simp [promptRank, hpc]⟩
    case activeLoad =>
      cases hs
      exact ⟨h, by simp [promptRank, hpc]⟩
    case activeStore =>
      cases hs
      cases m with
      | read => exact ⟨⟨h.1, h.2, rfl⟩, by simp [promptRank, hpc]⟩
      | write => exact ⟨⟨h.1, h.2, rfl, rfl⟩, by simp [promptRank, hpc]⟩
    case inactiveLoad | inactiveStore =>
      cases hs
      exact ⟨h, by simp [promptRank, hpc]⟩
    case closedTest =>
      obtain ⟨hready, hlen, hunset, rfl⟩ := h
      simp only [waitWriter, hpc] at hs
      split at hs <;> cases hs
      · rename_i hclosed
        exact ⟨.inr ⟨rfl, rfl, hpeer hpc hclosed⟩, by simp [promptRank, leaveWait, hpc]⟩
      · exact ⟨⟨hready, hlen, hunset⟩, by simp [promptRank, hpc]⟩
    case loadOwn =>
      cases m <;> simp only [waitReader, waitWriter, hpc] at hs <;> cases hs <;>
        exact ⟨h, by simp [promptRank, hpc]⟩
    case loopTest =>
      obtain ⟨hready, hlen, hunset⟩ := h
      obtain rfl : p' = p.leaveLoop := by
        cases m <;> simp only [waitReader, waitWriter, hpc] at hs <;> split at hs <;> cases hs
        · exact absurd ‹_› (hmark hpc)
        · rfl
        · exact absurd ‹_› (hmark hpc)
        · rfl
      obtain ⟨hprompt, hrank⟩ : p.leaveLoop.Prompt g m ready gone count ∧
          p.leaveLoop.promptRank = 16 * p.nbytes + 18 := prompt_leaveLoop hready hlen hunset
      refine ⟨hprompt, ?_⟩
      have hself : p.promptRank = 16 * p.nbytes + 19 := by simp only [promptRank, hpc]
      omega

/-- A step of the copying loop, the own index holding what was moved before. -/
theorem Prompt.looped (h : p.Prompt g m ready gone count) (hpc : p.pc = .avail) {c stop : Nat}
    (hsound : p.xfer.Sound g m count stop)
    (hown : p.xfer.pc = .loadRead ∨ p.xfer.pc = .loadWrite → s.index m = count % g.bufferSize)
    (hpeer : s.index m.peer = c % g.bufferSize) (hroom : bound g m c < count + g.bufferSize)
    (hready : p.xfer.pc = .loadRead ∨ p.xfer.pc = .loadWrite → count < bound g m c)
    (hs : p.step g m i s = some (p', s')) :
    p'.Prompt g m (p.publishes = false ∧ ready) gone (count + p.xfer.copies) ∧
      p'.promptRank < p.promptRank := by
  simp only [Prompt, hpc] at h
  have hself : p.promptRank = p.xfer.rank + 3 := by simp only [promptRank, hpc]
  rcases (step_looped hpc hs).next with ⟨hdone, hpc', hx⟩ | ⟨hdone, hpc', hvalue⟩
  · have hrank := hsound.rank_step (s := s) hdone
    have hnext : p'.promptRank = (p.xfer.step g m s).rank + 3 := by simp only [promptRank, hpc', hx]
    refine ⟨?_, by omega⟩
    simp only [Prompt, hpc', hx]
    refine ⟨fun hload => ?_, h.2.step hsound hown hpeer hroom hready⟩
    have hfirst := Transfer.loadRead_of_step hload
    exact ⟨by simp [publishes, hfirst], h.1 (.inl hfirst)⟩
  · have hmoved := h.2.moved hdone hsound.ge
    have hnext : p'.promptRank = 2 := by simp only [promptRank, hpc']
    refine ⟨?_, by omega⟩
    simp only [Prompt, hpc', hvalue]
    exact .inl (by omega)

end Proc

namespace System

variable {g : Geometry} {s t : System} {m : Mod} {i : Input}

/-- The end `m` makes no further step once its read or write has returned. -/
def untilReturned (m : Mod) (s : System) (x : Mod × Input) : Bool :=
  x.1 ≠ m ∨ (s.proc m).pc ≠ .ret

/-- The flag `XSHMP_CLOSED` is only found behind `xen_shm_pipe_free`. -/
theorem gone_of_closed (h : Reachable g s)
    (hclosed : hasFlag (s.shared.flags m) .closed = true) : (s.proc m).gone = true := by
  obtain ⟨l, ⟨conv, buffer, memReader, memWriter, hr⟩, rfl⟩ := Ledger.exists_reachable h
  have hlinked : Ledger.Linked g l :=
    hr.invariant (Ledger.linked_opened g conv buffer memReader memWriter)
      fun _ _ _ hk _ hs => hk.step hs
  by_contra hgone
  exact Bool.false_ne_true ((hlinked.flags m (Bool.eq_false_iff.mpr hgone)).1.symm.trans hclosed)

/-- The end `m` is in a read or write that has found something to move. -/
structure Prompt (g : Geometry) (m : Mod) (s : System) : Prop where
  /-- The state is one of a run of the pipe. -/
  reachable : Reachable g s
  /-- The call at this end has found something to move. -/
  call : (s.proc m).Prompt g m (s.Ready g m) (s.reader.gone = true) (s.stream m).length

/-- A reader that has freed its handle does not come back. -/
private theorem reader_gone_step (hs : s.step g (m, i) = some t) (hgone : s.reader.gone = true) :
    t.reader.gone = true := by
  cases m with
  | read => exact ((Proc.step_flags (System.step_proc hs)).done hgone).1
  | write => rwa [show t.reader = s.reader from System.proc_peer_step hs]

/-- A step of the own end keeps its call prompt. -/
private theorem Prompt.step_own (h : s.Prompt g m) (hret : (s.proc m).pc ≠ .ret)
    (hs : s.step g (m, i) = some t) :
    (t.proc m).Prompt g m (t.Ready g m) (t.reader.gone = true) (t.stream m).length ∧
      (t.proc m).promptRank < (s.proc m).promptRank := by
  have hk := kept_of_reachable h.reachable
  have hstep := System.step_proc hs
  have hlength : (t.stream m).length = (s.stream m).length + (s.proc m).copies := by
    rw [System.stream_step hs, List.length_append, Proc.length_moved]
  by_cases hpc : (s.proc m).pc = .avail
  · have hcall := h.call
    simp only [Proc.Prompt, hpc] at hcall
    obtain ⟨stop, -, hsound⟩ := (hk.ends m).loop hpc
    have hshown : (s.proc m).xfer.pc = .loadRead ∨ (s.proc m).xfer.pc = .loadWrite →
        s.shown m = (s.stream m).length := fun hx =>
      (hk.ends m).synced fun _ => by rcases hx with hx | hx <;> simp [Transfer.Synced, hx]
    obtain ⟨hnext, hrank⟩ := h.call.looped hpc hsound (fun hl => by rw [hk.index, hshown hl])
      (hk.index m.peer) (hk.stream_window m).2 (fun hl => hshown hl ▸ hcall.1 hl) hstep
    rw [hlength, Proc.copies, if_pos hpc]
    exact ⟨hnext.mono (fun hr => System.ready_of_publishes hs hr.1 hr.2) (reader_gone_step hs),
      hrank⟩
  · have hcall := h.call
    have hown : (s.proc m).pc = .callTest → hasFlag (s.shared.flags m) .closed = false := by
      intro htest
      by_contra hclosed
      have hgone := gone_of_closed h.reachable (by simpa using hclosed)
      simp [Proc.gone, htest] at hgone
    have hpeer : (s.proc m).pc = .closedTest →
        hasFlag (s.shared.flags m.peer) .closed = true → s.reader.gone = true := by
      intro htest hclosed
      simp only [Proc.Prompt, htest] at hcall
      obtain ⟨-, -, -, rfl⟩ := hcall
      exact gone_of_closed h.reachable hclosed
    have hmark : (s.proc m).pc = .loopTest → (s.proc m).own ≠ s.shared.index m.peer := by
      intro htest
      simp only [Proc.Prompt, htest] at hcall
      rw [(alert_of_reachable h.reachable).mark m (by simp [Proc.looping, htest])]
      exact (hk.ready_iff m).mp hcall.1
    obtain ⟨hnext, hrank⟩ := h.call.step hpc hret hown hpeer hmark hstep
    rw [hlength, Proc.copies, if_neg hpc]
    exact ⟨hnext.mono (System.ready_step hs hpc) (reader_gone_step hs), hrank⟩

/-- Every step up to the return keeps it. -/
private theorem Prompt.step (h : s.Prompt g m) {x : Mod × Input}
    (hx : untilReturned m s x = true) (hs : s.step g x = some t) : t.Prompt g m := by
  obtain ⟨conv, buffer, memReader, memWriter, hr⟩ := h.reachable
  refine ⟨⟨conv, buffer, memReader, memWriter, hr.snoc x rfl hs⟩, ?_⟩
  obtain ⟨m', i⟩ := x
  by_cases hm : m' = m
  · subst hm
    exact (h.step_own (by simpa [untilReturned] using hx) hs).1
  · obtain rfl : m = m'.peer := by cases m <;> cases m' <;> first | rfl | contradiction
    rw [System.proc_peer_step hs, System.stream_peer_step hs]
    exact h.call.mono ((kept_of_reachable h.reachable).ready_peer_step hs) (reader_gone_step hs)

/-- A call that has found something to move can always go on by itself. -/
private theorem Prompt.exists_step (h : s.Prompt g m) (hret : (s.proc m).pc ≠ .ret) :
    ∃ i, (s.step g (m, i)).isSome = true := by
  have hcall := h.call
  by_cases hsignal : (s.proc m).pc = .avail ∧
      ((s.proc m).xfer.pc = .checkSignal ∨ (s.proc m).xfer.pc = .lastSignal)
  · refine ⟨.ioctl .ok, ?_⟩
    obtain ⟨hpc, hx⟩ := hsignal
    rcases hx with hx | hx <;> simp [System.step, Proc.step, Proc.ioctlReturn, hpc, hx]
  · refine ⟨.tick, ?_⟩
    rw [System.step, Option.isSome_map]
    cases hpc : (s.proc m).pc <;> simp only [Proc.Prompt, hpc] at hcall <;>
      simp only [Proc.step, Proc.tick, hpc]
    case ret => contradiction
    case callTest => split <;> rfl
    case activeLoad | activeStore | inactiveLoad | inactiveStore => rfl
    case closedTest =>
      obtain ⟨-, -, -, rfl⟩ := hcall
      simp only [Proc.waitWriter, hpc]
      split <;> rfl
    case loadOwn | loopTest =>
      cases m <;> simp only [Proc.waitReader, Proc.waitWriter, hpc] <;> (repeat' split) <;> rfl
    case avail =>
      cases hx : (s.proc m).xfer.pc <;> simp [hpc, hx] at hsignal <;>
        cases m <;> simp [Proc.tickAvail, hx]

/-- A read that begins behind published bytes, or a write that begins with free slots, comes back
after at most `16 * nbytes + 24` own steps whatever its peer does, and until then asks nothing of
the kernel but to wake the peer. It has moved something, unless it is a write and the reader has
been freed. -/
theorem moves_without_waiting (h : Reachable g s) (hpc : (s.proc m).pc = .callTest)
    (hlen : 0 < (s.proc m).nbytes) (hready : s.Ready g m) :
    Finishes (step g) (untilReturned m) (fun x => x.1 = m) (fun t => (t.proc m).pc = .ret)
        (16 * (s.proc m).nbytes + 24)
        (fun t => 0 < (t.proc m).retval ∨
          m = .write ∧ (t.proc m).retval = -1 ∧ t.reader.gone = true) s ∧
      ∀ t, Reaches (step g) (untilReturned m) s t →
        ∀ task, (t.proc m).syscall = some task → task = .ssig := by
  have hprompt : s.Prompt g m := ⟨h, by simpa only [Proc.Prompt, hpc] using ⟨hready, hlen⟩⟩
  refine ⟨finishes_of_rank (fun t => (t.proc m).promptRank) hprompt ?_
    (fun _ _ _ ht hx hs => ht.step hx hs) ?_ ?_ ?_, fun t ht task => ?_⟩
  · simp only [Proc.promptRank, hpc, le_rfl]
  · intro t x u ht hx hs
    obtain ⟨m', i⟩ := x
    by_cases hm : m' = m
    · subst hm
      have hrank := (ht.step_own (by simpa [untilReturned] using hx) hs).2
      simpa [Nat.succ_le_iff] using hrank
    · obtain rfl : m = m'.peer := by cases m <;> cases m' <;> first | rfl | contradiction
      have hsame := System.proc_peer_step hs
      simp [hm, hsame]
  · intro t ht hret
    obtain ⟨i, hi⟩ := ht.exists_step hret
    exact ⟨(m, i), by simp, by simp [untilReturned, hret], hi⟩
  · intro t ht hret
    have hcall := ht.call
    simpa only [Proc.Prompt, hret] using hcall
  · exact (ht.invariant hprompt fun _ _ _ hk hx hs => hk.step hx hs).call.syscall

/-- A write of two bytes to an empty pipe. -/
theorem moves_without_waiting_emptyPipe : ∃ s, Reachable .onePage s ∧
    (s.proc .write).pc = .callTest ∧ Finishes (step .onePage) (untilReturned .write)
      (fun x => x.1 = .write) (fun t => (t.proc .write).pc = .ret) 56
      (fun t => 0 < (t.proc .write).retval ∨ (t.proc .write).retval = -1 ∧ t.reader.gone = true)
      s := by
  have htrace : (run (step .onePage) anyInput fresh
      (ticks .write 2 ++ input .write (.transfer .write false 0 2 fun _ => 7))).any (fun s =>
        (s.proc .write).pc = .callTest ∧ (s.proc .write).nbytes = 2 ∧
          s.shown .write < bound .onePage .write (s.shown .read)) = true := by decide
  obtain ⟨s, hs, htest⟩ := exists_reachable htrace
  obtain ⟨hpc, hlen, hready⟩ := of_decide_eq_true htest
  have hmoves := (moves_without_waiting hs hpc (hlen ▸ Nat.two_pos) hready).1
  rw [hlen] at hmoves
  exact ⟨s, hs, hpc, hmoves.imp fun _ ht => ht.imp_right And.right⟩

end System

end XenShm.Pipe
