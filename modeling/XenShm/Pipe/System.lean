import XenShm.Library.Run
import XenShm.Pipe.Process

/-!
# Two processes on one pipe

The system state is the shared area with both processes, and the history of the
stream: the bytes the writer has copied out of its user buffers and how many of
them it has published, and the bytes handed to the reader and how many of them it
has released. The history is only recorded, no step depends on it.
-/

namespace XenShm.Pipe

open XenShm.Library

/-- A pipe in use, with what each end has moved so far. -/
structure System where
  /-- The area that both processes have mapped. -/
  shared : Shared
  /-- The process that reads, at the one end. -/
  reader : Proc
  /-- The process that writes, at the other end. -/
  writer : Proc
  /-- All bytes the writer copied into the ring. -/
  copied : List UInt8
  /-- How many of them the stored `write` covers. -/
  published : Nat
  /-- All bytes the reader copied out of the ring. -/
  handed : List UInt8
  /-- How many of them the stored `read` covers. -/
  released : Nat

namespace System

/-- The process at one end of the pipe. -/
def proc (s : System) : Mod → Proc
  | .write => s.writer
  | .read => s.reader

/-- The bytes that one end has moved, in their order. -/
def stream (s : System) : Mod → List UInt8
  | .write => s.copied
  | .read => s.handed

/-- How many bytes the stored index of one end covers. -/
def shown (s : System) : Mod → Nat
  | .write => s.published
  | .read => s.released

/-- Record the step of the process at the end `m` that leads to `p` and `sh`. -/
def record (s : System) (m : Mod) (p : Proc) (sh : Shared) : System :=
  match m with
  | .write =>
    { s with
      shared := sh
      writer := p
      copied := s.copied ++ s.writer.moved .write s.shared
      published := if s.writer.publishes then s.copied.length else s.published }
  | .read =>
    { s with
      shared := sh
      reader := p
      handed := s.handed ++ s.reader.moved .read s.shared
      released := if s.reader.publishes then s.handed.length else s.released }

/-- One step of one end of the pipe, `none` where the input does not apply. -/
def step (g : Geometry) (s : System) (i : Mod × Input) : Option System :=
  ((s.proc i.1).step g i.1 i.2 s.shared).map fun r => s.record i.1 r.1 r.2

/-- The pipe right after `xen_shm_pipe_offers` at the offering end: the other end has mapped the
pages and goes on to set its flag. -/
def offered (conv : Conv) (buffer memReader memWriter : Nat → UInt8) : System where
  shared := .offered conv buffer
  reader :=
    if isOfferer .read conv then .init .idle true memReader else .init .openLoad true memReader
  writer :=
    if isOfferer .write conv then .init .idle true memWriter else .init .openLoad true memWriter
  copied := []
  published := 0
  handed := []
  released := 0

/-- Every input the user or the kernel may give. -/
def anyInput (_ : System) (_ : Mod × Input) : Bool := true

/-- The states of a pipe in any interleaving of its two ends, with any `ioctl` results. -/
def Reachable (g : Geometry) (s : System) : Prop :=
  ∃ conv buffer memReader memWriter,
    Reaches (step g) anyInput (offered conv buffer memReader memWriter) s

/-- A pipe offered by the reader over zeroed pages. -/
def fresh : System := offered .readerOffers (fun _ => 0) (fun _ => 0) fun _ => 0

/-- One input to the end `m`, as a list. -/
def input (m : Mod) (i : Input) : List (Mod × Input) := [(m, i)]

/-- `n` steps of the end `m` outside its `ioctl`s. -/
def ticks (m : Mod) (n : Nat) : List (Mod × Input) := List.replicate n (m, .tick)

/-- Executed inputs lead to a reachable state with the properties it was tested for. -/
theorem exists_reachable {g : Geometry} {inputs : List (Mod × Input)} {p : System → Bool}
    (h : (run (step g) anyInput fresh inputs).any p = true) : ∃ s, Reachable g s ∧ p s = true := by
  obtain ⟨s, hs, hp⟩ := exists_reaches_of_run h
  exact ⟨s, ⟨.readerOffers, _, _, _, hs⟩, hp⟩

/-- A step of the pipe is a step of the process at one end, which is recorded. -/
theorem step_eq_some {g : Geometry} {s t : System} {i : Mod × Input} (h : s.step g i = some t) :
    ∃ p sh, (s.proc i.1).step g i.1 i.2 s.shared = some (p, sh) ∧ t = s.record i.1 p sh := by
  simp only [step, Option.map_eq_some_iff] at h
  obtain ⟨r, hr, rfl⟩ := h
  exact ⟨r.1, r.2, hr, rfl⟩

end System

namespace Proc

variable {g : Geometry} {m : Mod} {i : Input} {p p' : Proc} {s s' : Shared}

/-- Outside the copying loop a step leaves ring and indices alone. -/
structure Quiet (p' : Proc) (s s' : Shared) : Prop where
  /-- Nothing is stored in the ring. -/
  buffer : s'.buffer = s.buffer
  /-- The write index stays where it was. -/
  write : s'.write = s.write
  /-- The read index stays where it was. -/
  read : s'.read = s.read
  /-- The copying loop is entered at its start. -/
  enter : p'.pc = .avail → p'.xfer = .start p'.buffer p'.nbytes

/-- A loop that is left for the copying loop starts it on the user buffer. -/
private theorem leaveLoop_enter (p : Proc) (h : p.leaveLoop.pc = .avail) :
    p.leaveLoop.xfer = .start p.leaveLoop.buffer p.leaveLoop.nbytes := by
  unfold leaveLoop at *
  split at h <;> simp_all [enterAvail]

private theorem turn_pc (p : Proc) : p.turn.pc ≠ .avail := by
  unfold turn
  split_ifs <;> simp

private theorem readerTurn_pc (p : Proc) : p.readerTurn.pc ≠ .avail := by
  unfold readerTurn
  split_ifs
  · simp [failWait, leaveWait]
  · exact turn_pc p

private theorem setFlags_quiet (f : Flags) (hp : p'.pc ≠ .avail) : Quiet p' s (s.setFlags m f) :=
  ⟨by cases m <;> rfl, by cases m <;> rfl, by cases m <;> rfl, fun h => absurd h hp⟩

private theorem refl_quiet (s : Shared) (hp : p'.pc ≠ .avail) : Quiet p' s s :=
  ⟨rfl, rfl, rfl, fun h => absurd h hp⟩

private theorem endTurn_pc (m : Mod) (p : Proc) : (p.endTurn m).pc ≠ .avail := by
  cases m with
  | read => exact readerTurn_pc p
  | write => exact turn_pc p

/-- A step of a waiting function leaves ring and indices alone. -/
private theorem waits_quiet (h : Waits g m p s p' s') : Quiet p' s s' := by
  cases h with
  | leaves => exact ⟨rfl, rfl, rfl, leaveLoop_enter p⟩
  | turn => exact refl_quiet s (endTurn_pc m p)
  | waitingStore | sleepingStore | woken | sawEpipe | interrupted =>
    exact setFlags_quiet _ (by simp)
  | interruptedStore => exact setFlags_quiet _ (by simp [leaveWait])
  | unwaitStore => exact ⟨by simp, by cases m <;> rfl, by cases m <;> rfl, fun _ => rfl⟩
  | _ => exact refl_quiet s (by simp [leaveWait])

private theorem beginCall_pc (m fn : Mod) (p : Proc) : (p.beginCall m fn).pc ≠ .avail := by
  unfold beginCall
  split_ifs <;> simp

private theorem afterRet_pc (m : Mod) (p : Proc) : (p.afterRet m).pc ≠ .avail := by
  unfold afterRet nextPart
  repeat' split
  all_goals first
    | exact beginCall_pc _ _ _
    | simp [finish]

/-- A step of the process outside the copying loop leaves ring and indices alone. -/
private theorem tick_quiet (hpc : p.pc ≠ .avail) (h : p.tick g m s = some (p', s')) :
    Quiet p' s s' := by
  cases he : p.pc <;> simp only [tick, he] at h
  case avail => contradiction
  case callTest | flushTest =>
    split at h <;> simp only [Option.some.injEq, Prod.mk.injEq] at h <;> obtain ⟨rfl, rfl⟩ := h
    · exact refl_quiet s (by cases m <;> simp [refuse, finish])
    · exact refl_quiet s (by simp)
  case ret =>
    simp only [Option.some.injEq, Prod.mk.injEq] at h
    obtain ⟨rfl, rfl⟩ := h
    exact refl_quiet s (afterRet_pc m p)
  case openLoad | activeLoad | inactiveLoad | freeLoad | close =>
    simp only [Option.some.injEq, Prod.mk.injEq] at h
    obtain ⟨rfl, rfl⟩ := h
    exact refl_quiet s (by simp)
  case openStore | activeStore | inactiveStore | freeStore =>
    simp only [Option.some.injEq, Prod.mk.injEq] at h
    obtain ⟨rfl, rfl⟩ := h
    exact setFlags_quiet _ (by cases m <;> simp)
  all_goals exact waits_quiet (waits (g := g) h)

/-- Every step outside the copying loop leaves ring and indices alone. -/
theorem step_quiet (hpc : p.pc ≠ .avail) (h : p.step g m i s = some (p', s')) :
    Quiet p' s s' := by
  cases i with
  | tick => exact tick_quiet hpc h
  | ioctl r =>
    simp only [step, Option.map_eq_some_iff, Prod.mk.injEq] at h
    obtain ⟨q, hq, rfl, rfl⟩ := h
    refine refl_quiet s ?_
    unfold ioctlReturn at hq
    split at hq
    · split_ifs at hq
      · cases hq
        simp [failWait, leaveWait]
      · cases m <;> cases hq
        · exact turn_pc _
        · exact readerTurn_pc _
    · cases hq
      simp
    · cases hq
      simp
    · contradiction
    · cases hq
      simp [finish]
    · contradiction
  | transfer fn all buf nbytes mem =>
    simp only [step] at h
    split_ifs at h <;> simp only [Option.some.injEq, Prod.mk.injEq] at h <;>
      obtain ⟨rfl, rfl⟩ := h
    · exact refl_quiet s (by simp [finish])
    · exact refl_quiet s (beginCall_pc _ _ _)
  | flush =>
    simp only [step] at h
    split_ifs at h <;> simp only [Option.some.injEq, Prod.mk.injEq] at h <;>
      obtain ⟨rfl, rfl⟩ := h <;> exact refl_quiet s (by simp [finish])
  | free =>
    simp only [step] at h
    split_ifs at h <;> simp only [Option.some.injEq, Prod.mk.injEq] at h <;>
      obtain ⟨rfl, rfl⟩ := h <;> exact refl_quiet s (by simp)

/-- The ring after the next step: only the writer stores bytes, and only those it moves. -/
def ringAfter (m : Mod) (s : Shared) (p : Proc) : Nat → UInt8 :=
  match m with
  | .read => s.buffer
  | .write => overwrite s.buffer p.xfer.pos (p.moved .write s)

/-- What a step inside the copying loop does. -/
structure Looped (g : Geometry) (m : Mod) (p p' : Proc) (s s' : Shared) : Prop where
  /-- The loop goes on, or has returned. -/
  next : p.xfer.pc ≠ .done ∧ p'.pc = .avail ∧ p'.xfer = p.xfer.step g m s ∨
    p.xfer.pc = .done ∧ p'.pc = .inactiveLoad ∧
      p'.retval = ((p.xfer.current - p.xfer.userBuf : Nat) : Int)
  /-- The own index is stored where the loop stores it. -/
  own : s'.index m = if p.publishes then p.xfer.pos else s.index m
  /-- The index of the peer stays where it was. -/
  peer : s'.index m.peer = s.index m.peer
  /-- The flag words stay as they were. -/
  flags : ∀ m', s'.flags m' = s.flags m'
  /-- The ring gets what the step has copied into it. -/
  buffer : s'.buffer = p.ringAfter m s

/-- A step of the copying loop does what is listed here. -/
private theorem looped_of_tickAvail (hpc : p.pc = .avail)
    (h : p.tickAvail g m s = some (p', s')) : Looped g m p p' s s' := by
  have hpub : p.publishes = decide (p.xfer.pc = .storeOwn) := by simp [publishes, hpc]
  cases he : p.xfer.pc <;> simp only [tickAvail, he, reduceCtorEq] at h
  case done =>
    simp only [Option.some.injEq, Prod.mk.injEq] at h
    obtain ⟨rfl, rfl⟩ := h
    have hmoved : p.moved .write s = [] := by
      simp [moved, hpc, Transfer.moved, Transfer.copies, he]
    refine ⟨.inr ⟨he, rfl, rfl⟩, by simp [hpub, he], rfl, fun _ => rfl, ?_⟩
    cases m <;> simp [ringAfter, hmoved]
  case storeOwn =>
    simp only [Option.some.injEq, Prod.mk.injEq] at h
    obtain ⟨rfl, rfl⟩ := h
    have hmoved : p.moved .write s = [] := by
      simp [moved, hpc, Transfer.moved, Transfer.copies, he]
    refine ⟨.inl ⟨by simp [he], hpc, rfl⟩, by simp [hpub, he], by simp, by simp, ?_⟩
    cases m <;> simp [ringAfter, hmoved]
  all_goals
    cases m <;> simp only [Option.some.injEq, Prod.mk.injEq] at h <;> obtain ⟨rfl, rfl⟩ := h <;>
      exact ⟨.inl ⟨by simp [he], hpc, rfl⟩, by simp [hpub, he, Shared.index], rfl,
        fun m' => by cases m' <;> rfl, rfl⟩

/-- Every step inside the copying loop does what is listed here. -/
theorem step_looped (hpc : p.pc = .avail) (h : p.step g m i s = some (p', s')) :
    Looped g m p p' s s' := by
  cases i with
  | tick =>
    simp only [step, tick, hpc] at h
    exact looped_of_tickAvail hpc h
  | ioctl r =>
    simp only [step, Option.map_eq_some_iff, Prod.mk.injEq] at h
    obtain ⟨q, hq, rfl, rfl⟩ := h
    have hkeep : (p.noteErrno r).xfer = p.xfer ∧ (p.noteErrno r).pc = p.pc := by
      cases r <;> exact ⟨rfl, rfl⟩
    simp only [ioctlReturn, hpc] at hq
    split at hq
    · rename_i he
      cases hq
      have hmoved : p.moved .write s = [] := by
        simp [moved, hpc, Transfer.moved, Transfer.copies, he]
      refine ⟨.inl ⟨by simp [he], ?_, rfl⟩, ?_, rfl, fun _ => rfl, ?_⟩
      · exact hkeep.2.trans hpc
      · simp [publishes, he]
      · cases m <;> simp [ringAfter, hmoved]
    · rename_i he
      cases hq
      have hmoved : p.moved .write s = [] := by
        simp [moved, hpc, Transfer.moved, Transfer.copies, he]
      refine ⟨.inl ⟨by simp [he], ?_, rfl⟩, ?_, rfl, fun _ => rfl, ?_⟩
      · exact hkeep.2.trans hpc
      · simp [publishes, he]
      · cases m <;> simp [ringAfter, hmoved]
    · contradiction
  | transfer | flush | free => simp [step, hpc] at h

/-- The user memory after the next step of the copying loop. -/
def memAfter (m : Mod) (s : Shared) (p : Proc) : Nat → UInt8 :=
  match m with
  | .read => overwrite p.mem p.xfer.current (p.moved .read s)
  | .write => p.mem

/-- A loop that moves nothing leaves the user memory alone. -/
private theorem memAfter_of_copies (hpc : p.pc = .avail) (h : p.xfer.copies = 0) :
    p.memAfter m s = p.mem := by
  cases m <;> simp [memAfter, moved, hpc, Transfer.moved, h]

/-- Only the reader stores into the user memory. -/
theorem mem_looped (hpc : p.pc = .avail) (h : p.step g m i s = some (p', s')) :
    p'.mem = p.memAfter m s := by
  cases i with
  | tick =>
    simp only [step, tick, hpc] at h
    cases he : p.xfer.pc <;> simp only [tickAvail, he, reduceCtorEq] at h
    case storeOwn | done =>
      simp only [Option.some.injEq, Prod.mk.injEq] at h
      obtain ⟨rfl, rfl⟩ := h
      rw [memAfter_of_copies hpc (by simp [Transfer.copies, he])]
    all_goals
      cases m <;> simp only [Option.some.injEq, Prod.mk.injEq] at h <;> obtain ⟨rfl, rfl⟩ := h <;>
        rfl
  | ioctl r =>
    simp only [step, Option.map_eq_some_iff, Prod.mk.injEq] at h
    obtain ⟨q, hq, rfl, rfl⟩ := h
    have hkeep : (p.noteErrno r).mem = p.mem := by cases r <;> rfl
    simp only [ioctlReturn, hpc] at hq
    split at hq
    · rename_i he
      cases hq
      rw [memAfter_of_copies hpc (by simp [Transfer.copies, he])]
      exact hkeep
    · rename_i he
      cases hq
      rw [memAfter_of_copies hpc (by simp [Transfer.copies, he])]
      exact hkeep
    · contradiction
  | transfer | flush | free => simp [step, hpc] at h

end Proc

end XenShm.Pipe
