import XenShm.Pipe.Close

/-!
# What reads and writes account for

A ledger is kept beside the pipe: for each end the stream as it was when the call of
the user and the current read or write in it began, and the values these have
returned. A read or write that has got past its waiting loop has something to move,
since the full and empty tests and the limits of the copying loop are the same test
of the same two counts. So its value is the number of bytes it has moved, and the
`_all` loops add these values up.
-/

namespace XenShm.Pipe

open XenShm.Library

namespace Proc

variable {g : Geometry} {m : Mod} {i : Input} {p p' : Proc} {s s' : Shared}
  {begun stream : List UInt8} {ready ready' : Prop}

/-- The call in progress goes on with the same request. -/
structure Continues (p p' : Proc) : Prop where
  /-- The call has not returned to its caller. -/
  busy : p'.busy = true
  /-- The call keeps its form, plain or `_all`. -/
  all : p'.all = p.all
  /-- The call keeps its user buffer. -/
  buffer : p'.buffer = p.buffer
  /-- The call keeps the length of its user buffer. -/
  nbytes : p'.nbytes = p.nbytes
  /-- What the `_all` form has added up. -/
  total : p'.total = p.total
  /-- Only the copying loop touches the user memory. -/
  mem : p.pc ≠ .avail → p'.mem = p.mem

/-- A step of the waiting loop goes on with the same request. -/
private theorem waits_continues (h : Waits g m p s p' s') : Continues p p' := by
  cases h with
  | leaves =>
    unfold leaveLoop
    split <;> exact ⟨rfl, rfl, rfl, rfl, rfl, fun _ => rfl⟩
  | turn =>
    cases m <;> simp only [endTurn, readerTurn, turn] <;> split_ifs <;>
      exact ⟨rfl, rfl, rfl, rfl, rfl, fun _ => rfl⟩
  | _ => exact ⟨rfl, rfl, rfl, rfl, rfl, fun _ => rfl⟩

/-- Until it is about to return, a read or write keeps its request. -/
theorem step_continues (hbusy : p.busy = true) (hret : p.pc ≠ .ret)
    (h : p.step g m i s = some (p', s')) : Continues p p' := by
  cases i with
  | tick =>
    simp only [step] at h
    cases hpc : p.pc <;> simp only [busy, hpc, Bool.false_eq_true] at hbusy <;>
      simp only [tick, hpc] at h
    case ret => contradiction
    case callTest =>
      split at h <;> cases h
      · cases m <;> exact ⟨rfl, rfl, rfl, rfl, rfl, fun _ => rfl⟩
      · exact ⟨rfl, rfl, rfl, rfl, rfl, fun _ => rfl⟩
    case activeLoad | inactiveLoad | inactiveStore =>
      cases h
      exact ⟨rfl, rfl, rfl, rfl, rfl, fun _ => rfl⟩
    case activeStore =>
      cases h
      cases m <;> exact ⟨rfl, rfl, rfl, rfl, rfl, fun _ => rfl⟩
    case avail =>
      cases hx : p.xfer.pc <;> cases m <;> simp only [tickAvail, hx, reduceCtorEq] at h <;>
        cases h <;> exact ⟨by simp [busy, hpc], rfl, rfl, rfl, rfl, fun h => absurd hpc h⟩
    all_goals exact waits_continues (waits (g := g) h)
  | ioctl r =>
    simp only [step, Option.map_eq_some_iff, Prod.mk.injEq] at h
    obtain ⟨q, hq, rfl, rfl⟩ := h
    cases hpc : p.pc <;> simp only [busy, hpc, Bool.false_eq_true] at hbusy <;>
      simp only [ioctlReturn, hpc, reduceCtorEq] at hq
    case probe =>
      cases m <;> cases r <;> simp only [readerTurn, turn] at hq <;> (repeat' split at hq) <;>
        cases hq <;> exact ⟨rfl, rfl, rfl, rfl, rfl, fun _ => rfl⟩
    case signal | asleep =>
      cases hq
      cases r <;> exact ⟨rfl, rfl, rfl, rfl, rfl, fun _ => rfl⟩
    case avail =>
      split at hq
      case h_3 => contradiction
      all_goals
        cases hq
        cases r <;>
          exact ⟨by simp [busy, noteErrno, hpc], rfl, rfl, rfl, rfl, fun h => absurd hpc h⟩
  | transfer | flush | free =>
    have hpc : p.pc ≠ .idle := by
      intro hpc
      simp [busy, hpc] at hbusy
    simp [step, hpc] at h

/-- The values a read or write may have. -/
def Valued (m : Mod) (p : Proc) : Prop :=
  p.retval = -1 ∨ (m = .read ∧ p.retval = 0) ∨ 1 ≤ p.retval ∧ p.retval ≤ p.nbytes

/-- What a read or write has done to the stream at each point. -/
def Counts (m : Mod) (p : Proc) (begun stream : List UInt8) (ready : Prop) : Prop :=
  match p.pc with
  | .avail =>
    p.xfer.userBuf = p.buffer ∧ p.xfer.usrMax = p.buffer + p.nbytes ∧
      stream = begun ++ segment p.mem p.buffer (p.xfer.current - p.xfer.userBuf) ∧
      (p.xfer.pc = .loadRead ∨ p.xfer.pc = .loadWrite → ready)
  | .inactiveLoad | .inactiveStore | .ret =>
    p.Valued m ∧ stream = begun ++ segment p.mem p.buffer p.retval.toNat
  | .unwaitLoad | .unwaitStore => stream = begun ∧ ready
  | _ => stream = begun

/-- What the call has counted does not depend on why it may move more. -/
theorem Counts.mono (h : p.Counts m begun stream ready) (himp : ready → ready') :
    p.Counts m begun stream ready' := by
  cases hpc : p.pc <;> simp only [Counts, hpc] at h ⊢
  case avail => exact ⟨h.1, h.2.1, h.2.2.1, fun hx => himp (h.2.2.2 hx)⟩
  case unwaitLoad | unwaitStore => exact ⟨h.1, himp h.2⟩
  all_goals exact h

/-- A waiting loop that is left for good has moved nothing. -/
private theorem counts_leaveWait {v : Int} (hv : v = -1 ∨ m = .read ∧ v = 0) :
    (p.leaveWait v).Counts m begun begun ready := by
  have hz : v.toNat = 0 := by rcases hv with rfl | ⟨-, rfl⟩ <;> rfl
  refine ⟨?_, ?_⟩
  · rcases hv with hv | hv
    · exact .inl hv
    · exact .inr (.inl hv)
  · simp only [leaveWait, hz, segment_zero, List.append_nil]

/-- A call that is refused has moved nothing. -/
private theorem counts_refuse : (p.refuse m).Counts m begun begun ready := by
  cases m
  · exact ⟨.inl rfl, by simp [refuse]⟩
  · exact ⟨.inr (.inl ⟨rfl, rfl⟩), by simp [refuse]⟩

/-- A waiting loop that is left for the copying loop has moved nothing yet. -/
private theorem counts_leaveLoop (hr : ready) : p.leaveLoop.Counts m begun begun ready := by
  unfold leaveLoop
  split_ifs
  · exact ⟨rfl, hr⟩
  · refine ⟨rfl, rfl, ?_, fun _ => hr⟩
    simp [enterAvail, Transfer.start]

/-- A further turn of the waiting loop moves nothing. -/
private theorem counts_turn : p.turn.Counts m begun begun ready := by
  unfold turn
  split_ifs <;> exact rfl

/-- A waiting loop that fails has moved nothing. -/
private theorem counts_failWait (e : Errno) : (p.failWait e).Counts m begun begun ready :=
  @counts_leaveWait m p begun ready (-1) (.inl rfl)

/-- A further turn of the reader moves nothing. -/
private theorem counts_readerTurn : p.readerTurn.Counts .read begun begun ready := by
  unfold readerTurn
  split_ifs
  · exact counts_failWait .epipe
  · exact counts_turn

/-- The end of a turn moves nothing. -/
private theorem counts_endTurn : (p.endTurn m).Counts m begun begun ready := by
  cases m with
  | read => exact counts_readerTurn
  | write => exact counts_turn

/-- No step of the waiting loop moves anything. -/
private theorem waits_counts (hc : p.Counts m begun stream ready)
    (hready : p.looping = true → p.own ≠ s.index m.peer → ready) (h : Waits g m p s p' s') :
    p'.Counts m begun stream ready := by
  cases h with
  | refused hpc | interruptedStore hpc =>
    simp only [Counts, hpc] at hc
    subst hc
    exact counts_leaveWait (.inl rfl)
  | leaves hpc hown =>
    obtain ⟨rfl, hl⟩ : stream = begun ∧ p.looping = true := by
      rcases hpc with hpc | hpc <;> simp only [Counts, hpc] at hc <;>
        exact ⟨hc, by simp [looping, hpc]⟩
    exact counts_leaveLoop (hready hl hown)
  | peerClosed hpc =>
    simp only [Counts, hpc] at hc
    subst hc
    cases m with
    | read => exact counts_leaveWait (.inr ⟨rfl, rfl⟩)
    | write => exact counts_leaveWait (.inl rfl)
  | turn hpc =>
    simp only [Counts, hpc] at hc
    subst hc
    exact counts_endTurn
  | unwaitStore hpc =>
    simp only [Counts, hpc] at hc
    obtain ⟨rfl, hr⟩ := hc
    exact ⟨rfl, rfl, by simp [enterAvail, Transfer.start], fun _ => hr⟩
  | closedTest hpc | loadOwn _ hpc | loopTest hpc | loadFlags hpc | waitingLoad hpc
    | waitingStore hpc | probe hpc | sleepingLoad hpc | sleepingStore hpc | wakeLoad hpc
    | woken hpc | sawEpipe hpc | interrupted _ hpc | interruptedLoad hpc | unwaitLoad hpc =>
    simp only [Counts, hpc] at hc
    exact hc

/-- The user memory from the buffer on up to the cursor, after one more copy. -/
private theorem counts_copy (hpc : p.pc = .avail) (hge : p.buffer ≤ p.xfer.current)
    (hstream : stream = begun ++ segment p.mem p.buffer (p.xfer.current - p.buffer)) :
    stream ++ p.moved m s = begun ++
      segment (p.memAfter m s) p.buffer (p.xfer.current + p.xfer.copies - p.buffer) := by
  have hadd : p.xfer.current + p.xfer.copies - p.buffer =
      p.xfer.current - p.buffer + p.xfer.copies := by omega
  have hcur : p.buffer + (p.xfer.current - p.buffer) = p.xfer.current := by omega
  rw [hstream, hadd, segment_add, hcur, List.append_assoc]
  cases m with
  | read =>
    have hlen : (p.moved .read s).length = p.xfer.copies := by simp [copies, hpc]
    have hover := segment_overwrite p.mem p.xfer.current (p.moved .read s)
    rw [hlen] at hover
    simp only [memAfter]
    rw [hover, segment_overwrite_of_le _ _ (by omega)]
  | write => simp only [memAfter, moved, if_pos hpc, Transfer.moved]

/-- A step of the copying loop counts what it has moved. -/
private theorem looped_counts (hpc : p.pc = .avail) (hc : p.Counts m begun stream ready)
    (hge : p.xfer.userBuf ≤ p.xfer.current) (hle : p.xfer.current ≤ p.xfer.usrMax)
    (hmoved : p.xfer.pc = .done → p.xfer.userBuf < p.xfer.current)
    (hcont : Continues p p') (h : p.step g m i s = some (p', s')) :
    p'.Counts m begun (stream ++ p.moved m s) ready := by
  simp only [Counts, hpc] at hc
  obtain ⟨hbuf, hmax, hstream, hload⟩ := hc
  rw [hbuf] at hge hmoved hstream
  have hcopy := counts_copy (m := m) (s := s) hpc hge hstream
  have hmem := mem_looped hpc h
  rcases (step_looped hpc h).next with ⟨_, hpc', hx⟩ | ⟨hdone, hpc', hret⟩
  · simp only [Counts, hpc', hx, Transfer.step_user.1, Transfer.step_user.2,
      Transfer.step_current, hcont.buffer, hcont.nbytes, hmem]
    refine ⟨hbuf, hmax, ?_, fun hl => hload (.inl (Transfer.loadRead_of_step hl))⟩
    rw [hbuf]
    exact hcopy
  · have hz : p.xfer.copies = 0 := by simp [Transfer.copies, hdone]
    have hlt := hmoved hdone
    have hval : p'.retval.toNat = p.xfer.current - p.buffer := by rw [hret, hbuf]; rfl
    simp only [Counts, hpc', Valued, hval, hcont.buffer, hcont.nbytes, hmem]
    refine ⟨.inr (.inr ?_), ?_⟩
    · rw [hret]
      omega
    · rw [hz, Nat.add_zero] at hcopy
      exact hcopy

/-- Every step of a read or write until it is about to return. -/
theorem step_counts (hbusy : p.busy = true) (hnret : p.pc ≠ .ret)
    (hc : p.Counts m begun stream ready)
    (hready : p.looping = true → p.own ≠ s.index m.peer → ready)
    (hge : p.pc = .avail → p.xfer.userBuf ≤ p.xfer.current ∧ p.xfer.current ≤ p.xfer.usrMax)
    (hmoved : p.pc = .avail → p.xfer.pc = .done → p.xfer.userBuf < p.xfer.current)
    (h : p.step g m i s = some (p', s')) : p'.Counts m begun (stream ++ p.moved m s) ready := by
  have hcont := step_continues hbusy hnret h
  by_cases hpc : p.pc = .avail
  · exact looped_counts hpc hc (hge hpc).1 (hge hpc).2 (hmoved hpc) hcont h
  have hnil : p.moved m s = [] := by simp [moved, hpc]
  rw [hnil, List.append_nil]
  have hwait := hc
  cases i with
  | tick =>
    simp only [step] at h
    cases he : p.pc <;> simp only [busy, he, Bool.false_eq_true] at hbusy <;>
      simp only [tick, he] at h <;> simp only [Counts, he] at hc
    case avail | ret => contradiction
    case callTest =>
      subst hc
      split at h <;> cases h
      · exact counts_refuse
      · exact rfl
    case activeLoad =>
      cases h
      exact hc
    case activeStore =>
      cases h
      cases m <;> exact hc
    case inactiveLoad | inactiveStore =>
      cases h
      exact hc
    all_goals exact waits_counts hwait hready (waits (g := g) h)
  | ioctl r =>
    simp only [step, Option.map_eq_some_iff, Prod.mk.injEq] at h
    obtain ⟨q, hq, rfl, rfl⟩ := h
    cases he : p.pc <;> simp only [busy, he, Bool.false_eq_true] at hbusy <;>
      simp only [ioctlReturn, he, reduceCtorEq] at hq <;> simp only [Counts, he] at hc
    case avail => contradiction
    case probe =>
      subst hc
      split at hq
      · cases hq
        exact counts_failWait .epipe
      · cases m <;> cases hq
        · exact counts_turn
        · exact counts_readerTurn
    case signal | asleep =>
      cases hq
      exact hc
  | transfer | flush | free =>
    have hpc : p.pc ≠ .idle := by
      intro hpc
      simp [busy, hpc] at hbusy
    simp [step, hpc] at h

/-- A call begins only with a request of the user or behind the return of the last one. -/
theorem busy_of_step (hbusy : p.busy = false) (hbusy' : p'.busy = true)
    (h : p.step g m i s = some (p', s')) :
    p.pc = .idle ∧ s' = s ∧ ∃ fn all buf nbytes mem, i = .transfer fn all buf nbytes mem ∧
      p' = ({ p with all := all, buffer := buf, nbytes := nbytes, total := 0, mem := mem } :
        Proc).beginCall m fn := by
  cases i with
  | transfer fn all buf nbytes mem =>
    simp only [step] at h
    split at h
    · rename_i hpc
      split at h <;> cases h
      · simp [busy, finish] at hbusy'
      · exact ⟨hpc, rfl, fn, all, buf, nbytes, mem, rfl, rfl⟩
    · contradiction
  | tick =>
    simp only [step] at h
    cases hpc : p.pc <;> simp only [busy, hpc, reduceCtorEq] at hbusy <;>
      simp only [tick, hpc] at h
    case idle | flushSignal | freed => cases m <;> simp [waitReader, waitWriter, hpc] at h
    case flushTest => split at h <;> cases h <;> simp [busy, finish] at hbusy'
    all_goals
      cases h
      simp [busy] at hbusy'
  | ioctl r =>
    simp only [step, Option.map_eq_some_iff, Prod.mk.injEq] at h
    obtain ⟨q, hq, rfl, rfl⟩ := h
    cases hpc : p.pc <;> simp only [busy, hpc, reduceCtorEq] at hbusy <;>
      simp only [ioctlReturn, hpc, reduceCtorEq] at hq
    cases hq
    simp [busy, finish] at hbusy'
  | flush =>
    simp only [step] at h
    (repeat' split at h) <;> cases h <;> simp [busy, finish] at hbusy'
  | free =>
    simp only [step] at h
    split at h <;> cases h
    cases hm : p.mapped <;> simp [busy, hm] at hbusy'

/-- The only step of a read or write that has come to its return. -/
theorem step_ret (hpc : p.pc = .ret) (h : p.step g m i s = some (p', s')) :
    i = .tick ∧ p' = p.afterRet m ∧ s' = s := by
  cases i with
  | tick =>
    simp only [step, tick, hpc] at h
    cases h
    exact ⟨rfl, rfl, rfl⟩
  | ioctl => simp [step, ioctlReturn, hpc] at h
  | transfer | flush | free => simp [step, hpc] at h

/-- What happens to the value of a read or write. -/
inductive Returns (m : Mod) (p : Proc) : Prop where
  /-- The value of a plain call is its result. -/
  | plain (all : p.all = false) (next : p.afterRet m = p.finish p.retval)
  /-- The `_all` form gives up with what it has moved so far. -/
  | failed (all : p.all = true) (value : p.retval ≤ 0)
      (next : p.afterRet m = p.finish (if p.total ≠ 0 then (p.total : Int) else p.retval))
  /-- The `_all` form has moved everything it was asked for. -/
  | complete (all : p.all = true) (value : 0 < p.retval) (rest : p.nbytes - p.retval.toNat = 0)
      (next : p.afterRet m =
        (p.advanceCall p.retval.toNat).finish (p.total + p.retval.toNat : Nat))
  /-- The `_all` form asks for the rest. -/
  | again (all : p.all = true) (value : 0 < p.retval) (rest : 0 < p.nbytes - p.retval.toNat)
      (next : p.afterRet m = (p.advanceCall p.retval.toNat).beginCall m m)

/-- What happens to the value of a read or write is one of these. -/
theorem returns (m : Mod) (p : Proc) : p.Returns m := by
  by_cases hall : p.all = true
  · by_cases hval : p.retval ≤ 0
    · exact .failed hall hval (by simp [afterRet, hall, hval])
    · by_cases hrest : p.nbytes - p.retval.toNat = 0
      · exact .complete hall (by omega) hrest
          (by simp [afterRet, hall, hval, nextPart, advanceCall, hrest])
      · exact .again hall (by omega) (by omega)
          (by simp [afterRet, hall, hval, nextPart, advanceCall, hrest])
  · exact .plain (by simpa using hall) (by simp [afterRet, hall])

end Proc

/-- What is noted about one end, for the proofs only. -/
structure Book where
  /-- The stream when the call of the user began. -/
  opened : List UInt8
  /-- The address of the user buffer of the call. -/
  buffer : Nat
  /-- The length of the user buffer of the call. -/
  asked : Nat
  /-- The stream when the current read or write began. -/
  begun : List UInt8
  /-- The values of the reads or writes that have returned in the call. -/
  values : List Int

/-- The notes after the next input to the process. -/
def Book.after (b : Book) (p : Proc) (stream : List UInt8) : Input → Book
  | .transfer _ _ buf nbytes _ => ⟨stream, buf, nbytes, stream, []⟩
  | .tick =>
    if p.pc = .ret then { b with begun := stream, values := b.values ++ [p.retval] } else b
  | _ => b

/-- Nothing is noted between the entry and the return of a read or write. -/
theorem Book.after_eq {g : Geometry} {m : Mod} {i : Input} {p p' : Proc} {s s' : Shared}
    {b : Book} {stream : List UInt8} (hidle : p.pc ≠ .idle) (hret : p.pc ≠ .ret)
    (h : p.step g m i s = some (p', s')) : b.after p stream i = b := by
  cases i with
  | transfer => simp [Proc.step, hidle] at h
  | tick => simp [Book.after, hret]
  | ioctl | flush | free => rfl

/-- A pipe and the notes about its ends. No step depends on them. -/
structure Ledger where
  /-- The pipe, which the notes do not influence. -/
  sys : System
  /-- The notes about either end. -/
  book : Mod → Book

namespace Ledger

/-- One step of one end of the pipe, with its notes brought up to date. -/
def step (g : Geometry) (l : Ledger) (x : Mod × Input) : Option Ledger :=
  (l.sys.step g x).map fun t => ⟨t, Function.update l.book x.1
    ((l.book x.1).after (l.sys.proc x.1) (l.sys.stream x.1) x.2)⟩

/-- The guard under which every input may be made. -/
def anyInput (_ : Ledger) (_ : Mod × Input) : Bool := true

/-- A pipe on which nothing was asked for yet. -/
def opened (s : System) : Ledger := ⟨s, fun _ => ⟨[], 0, 0, [], []⟩⟩

/-- The states of a pipe in any interleaving, with their notes. -/
def Reachable (g : Geometry) (l : Ledger) : Prop :=
  ∃ conv buffer memReader memWriter,
    Reaches (step g) anyInput (opened (.offered conv buffer memReader memWriter)) l

/-- A step of the ledger is one of the pipe, and it changes the notes of one end. -/
theorem step_eq_some {g : Geometry} {l k : Ledger} {x : Mod × Input}
    (h : l.step g x = some k) : l.sys.step g x = some k.sys ∧ k.book =
      Function.update l.book x.1 ((l.book x.1).after (l.sys.proc x.1) (l.sys.stream x.1) x.2) := by
  simp only [step, Option.map_eq_some_iff] at h
  obtain ⟨t, ht, rfl⟩ := h
  exact ⟨ht, rfl⟩

/-- The pipe of a ledger is a pipe. -/
theorem Reachable.sys {g : Geometry} {l : Ledger} (h : Reachable g l) :
    System.Reachable g l.sys := by
  obtain ⟨conv, buffer, memReader, memWriter, hr⟩ := h
  exact ⟨conv, buffer, memReader, memWriter,
    hr.forget Ledger.sys fun _ _ _ _ hs => ⟨rfl, (step_eq_some hs).1⟩⟩

/-- The notes hinder nothing: every run of a pipe has its ledger. -/
theorem exists_reachable {g : Geometry} {s : System} (h : System.Reachable g s) :
    ∃ l, Reachable g l ∧ l.sys = s := by
  obtain ⟨conv, buffer, memReader, memWriter, hr⟩ := h
  obtain ⟨l, hl, hsys⟩ : ∃ l, Reaches (step g) anyInput
      (opened (.offered conv buffer memReader memWriter)) l ∧ l.sys = s :=
    Reaches.recorded Ledger.sys hr fun a x t _ ht => ⟨_, rfl, by rw [step, ht]; rfl, rfl⟩
  exact ⟨l, ⟨conv, buffer, memReader, memWriter, hl⟩, hsys⟩

end Ledger

/-- How the call of the user stands in the middle of it. -/
structure Balanced (m : Mod) (p : Proc) (b : Book) (stream : List UInt8) (ready : Prop) :
    Prop where
  /-- There is still something to move in the current read or write. -/
  pos : 0 < p.nbytes
  /-- The current read or write has the rest of the user buffer. -/
  buffer : p.buffer = b.buffer + p.total
  /-- What has been added up and what is left. -/
  asked : p.nbytes + p.total = b.asked
  /-- The bytes moved by the reads or writes that have returned. -/
  begun : b.begun = b.opened ++ segment p.mem b.buffer p.total
  /-- Each of the reads or writes before has moved something. -/
  values : b.values.length ≤ p.total
  /-- The current read or write has counted what it has moved. -/
  counts : p.Counts m b.begun stream ready

section System

variable {g : Geometry} {m : Mod} {i : Input} {s t : System}

/-- A step of an end adds to its stream what it has moved. -/
theorem System.stream_step (hs : s.step g (m, i) = some t) :
    t.stream m = s.stream m ++ (s.proc m).moved m s.shared := by
  obtain ⟨p, sh, _, rfl⟩ := System.step_eq_some hs
  cases m <;> rfl

/-- A step of an end leaves the stream of the other one. -/
theorem System.stream_peer_step (hs : s.step g (m, i) = some t) :
    t.stream m.peer = s.stream m.peer := by
  obtain ⟨p, sh, _, rfl⟩ := System.step_eq_some hs
  cases m <;> rfl

/-- The part of one end in the invariant of the pipe. -/
theorem Kept.ends (h : Kept g s) (m : Mod) :
    EndKept g m (s.proc m) (s.stream m).length (s.shown m) (s.shown m.peer) := by
  cases m
  · exact h.writer
  · exact h.reader

/-- The bytes an end has moved are less than one ring behind what its peer allows. -/
theorem Kept.stream_window (h : Kept g s) (m : Mod) :
    (s.stream m).length ≤ bound g m (s.shown m.peer) ∧
      bound g m (s.shown m.peer) < (s.stream m).length + g.bufferSize := by
  have hb := g.bufferSize_ge
  have hpub := h.published_le
  have hroom := h.room
  have hr := h.released_le
  have hh := h.handed_le
  cases m <;> simp only [System.shown, System.stream, Mod.peer, bound] <;> omega

end System

section Balanced

variable {g : Geometry} {m : Mod} {i : Input} {p : Proc} {b : Book} {s t : System}
  {stream : List UInt8} {ready : Prop}

/-- The balance of a call does not depend on why it may move more. -/
theorem Balanced.mono {ready' : Prop} (h : Balanced m p b stream ready) (himp : ready → ready') :
    Balanced m p b stream ready' :=
  ⟨h.pos, h.buffer, h.asked, h.begun, h.values, h.counts.mono himp⟩

/-- A first call has its whole buffer to move. -/
private theorem balanced_first (fn : Mod) (p : Proc) (all : Bool) (buf : Nat) {nbytes : Nat}
    (mem : Nat → UInt8) (hpos : 0 < nbytes) :
    Balanced m (({ p with all := all, buffer := buf, nbytes := nbytes, total := 0, mem := mem } :
      Proc).beginCall m fn) ⟨stream, buf, nbytes, stream, []⟩ stream ready := by
  unfold Proc.beginCall
  split_ifs
  · exact ⟨hpos, rfl, rfl, by simp, Nat.zero_le _, .inl rfl, by simp⟩
  · exact ⟨hpos, rfl, rfl, by simp, Nat.zero_le _, rfl⟩

/-- The next call of an `_all` form has the rest of the buffer to move. -/
private theorem Balanced.next (h : Balanced m p b stream ready) (hpc : p.pc = .ret)
    (hbusy : (p.afterRet m).busy = true) : Balanced m (p.afterRet m)
      { b with begun := stream, values := b.values ++ [p.retval] } stream ready := by
  have hcounts := h.counts
  simp only [Proc.Counts, hpc] at hcounts
  obtain ⟨hval, hstream⟩ := hcounts
  have hbegun := h.begun
  have hbuffer := h.buffer
  have hasked := h.asked
  have hvalues := h.values
  cases p.returns m with
  | plain _ hnext | failed _ _ hnext | complete _ _ _ hnext =>
    simp [hnext, Proc.busy, Proc.finish] at hbusy
  | again _ hpos hrest hnext =>
    have hk : 1 ≤ p.retval.toNat ∧ p.retval.toNat ≤ p.nbytes := by
      rcases hval with hv | ⟨_, hv⟩ | hv <;> omega
    have hmoved : stream = b.opened ++ segment p.mem b.buffer (p.total + p.retval.toNat) := by
      rw [hstream, hbegun, segment_add, hbuffer, List.append_assoc]
    have hlen : (b.values ++ [p.retval]).length ≤ p.total + p.retval.toNat := by
      rw [List.length_append, List.length_singleton]
      omega
    have hsum : p.nbytes - p.retval.toNat + (p.total + p.retval.toNat) = b.asked := by omega
    have hrestBuffer : p.buffer + p.retval.toNat = b.buffer + (p.total + p.retval.toNat) := by
      omega
    rw [hnext]
    unfold Proc.beginCall
    split_ifs
    · exact ⟨hrest, hrestBuffer, hsum, hmoved, hlen, .inl rfl, by simp⟩
    · exact ⟨hrest, hrestBuffer, hsum, hmoved, hlen, rfl⟩

/-- A step of the own end in the middle of a read or write. -/
private theorem Balanced.step_own (h : Balanced m (s.proc m) b (s.stream m) (s.Ready g m))
    (hk : Kept g s) (ha : Alert g s) (hbusy : (s.proc m).busy = true)
    (hret : (s.proc m).pc ≠ .ret)
    (hu : (s.proc m).pc = .avail → (s.proc m).xfer.Underway g m (s.stream m).length)
    (hs : s.step g (m, i) = some t) : Balanced m (t.proc m) b (t.stream m) (t.Ready g m) := by
  have hstep := System.step_proc hs
  have hcont := Proc.step_continues hbusy hret hstep
  have hloop : (s.proc m).pc = .avail → (s.proc m).xfer.userBuf ≤ (s.proc m).xfer.current ∧
      (s.proc m).xfer.current ≤ (s.proc m).xfer.usrMax := by
    intro hpc
    obtain ⟨_, _, hx⟩ := (hk.ends m).loop hpc
    exact ⟨hx.ge, hx.le⟩
  have hcounts : (t.proc m).Counts m b.begun (t.stream m) (s.Ready g m) := by
    rw [System.stream_step hs]
    refine Proc.step_counts hbusy hret h.counts (fun hl hne => ?_) hloop ?_ hstep
    · rw [hk.ready_iff, ← ha.mark m hl]
      exact hne
    · exact fun hpc hdone => (hu hpc).moved hdone (hloop hpc).1
  refine ⟨hcont.nbytes ▸ h.pos, ?_, ?_, ?_, hcont.total ▸ h.values, ?_⟩
  · rw [hcont.buffer, hcont.total, h.buffer]
  · rw [hcont.nbytes, hcont.total, h.asked]
  · rw [hcont.total, h.begun]
    by_cases hpc : (s.proc m).pc = .avail
    · -- the copying loop stores behind what has been handed over
      have hcounts := h.counts
      simp only [Proc.Counts, hpc] at hcounts
      have hcur := (hloop hpc).1
      have hbuffer := h.buffer
      rw [Proc.mem_looped hpc hstep]
      cases m
      · rfl
      · rw [Proc.memAfter, segment_overwrite_of_le _ _ (by omega)]
    · rw [hcont.mem hpc]
  · cases hpub : (s.proc m).publishes
    · exact hcounts.mono (System.ready_of_publishes hs hpub)
    · -- the index is stored between two rounds of the loop
      simp only [Proc.publishes, decide_eq_true_eq] at hpub
      rcases (Proc.step_looped hpub.1 hstep).next with ⟨_, hpc, hx⟩ | ⟨hdone, _, _⟩
      · simp only [Proc.Counts, hpc] at hcounts ⊢
        refine ⟨hcounts.1, hcounts.2.1, hcounts.2.2.1, fun hload => ?_⟩
        simp [hx, Transfer.step, hpub.2] at hload
      · rw [hpub.2] at hdone
        contradiction

/-- The copying loop after a step of the own end. -/
private theorem Balanced.underway_step (hk : Kept g s)
    (h : (s.proc m).pc = .avail → Balanced m (s.proc m) b (s.stream m) (s.Ready g m))
    (hu : (s.proc m).pc = .avail → (s.proc m).xfer.Underway g m (s.stream m).length)
    (hpos : 0 < (t.proc m).nbytes) (hs : s.step g (m, i) = some t)
    (hpc' : (t.proc m).pc = .avail) : (t.proc m).xfer.Underway g m (t.stream m).length := by
  have hstep := System.step_proc hs
  by_cases hpc : (s.proc m).pc = .avail
  · have hcounts := (h hpc).counts
    simp only [Proc.Counts, hpc] at hcounts
    obtain ⟨stop, _, hsound⟩ := (hk.ends m).loop hpc
    obtain ⟨_, hlt⟩ := hk.stream_window m
    have hshown : (s.proc m).xfer.pc = .loadRead ∨ (s.proc m).xfer.pc = .loadWrite →
        s.shown m = (s.stream m).length := fun hx =>
      (hk.ends m).synced fun _ => by rcases hx with hx | hx <;> simp [Transfer.Synced, hx]
    rcases (Proc.step_looped hpc hstep).next with ⟨_, _, hx⟩ | ⟨_, hx, _⟩
    · have hmoved : (t.stream m).length = (s.stream m).length + (s.proc m).xfer.copies := by
        rw [System.stream_step hs, List.length_append, Proc.length_moved, Proc.copies, if_pos hpc]
      rw [hmoved, hx]
      refine (hu hpc).step hsound (fun hl => ?_) (hk.index m.peer) hlt fun hl => ?_
      · rw [hk.index, hshown hl]
      · rw [← hshown hl]
        exact hcounts.2.2.2 hl
    · rw [hx] at hpc'
      contradiction
  · rw [(Proc.step_quiet hpc hstep).enter hpc']
    exact Transfer.underway_start g m _ hpos

end Balanced

namespace Ledger

variable {g : Geometry} {l k : Ledger} {m : Mod} {i : Input}

/-- The invariant of the ledger: the streams, the waiting loops and the calls in progress. -/
structure Sound (g : Geometry) (l : Ledger) : Prop where
  /-- The streams are what the ring and the indices say. -/
  kept : Kept g l.sys
  /-- The waiting loops have the marks by which they may be left. -/
  alert : Alert g l.sys
  /-- The notes of a call on at least one byte. -/
  balanced : ∀ m, (l.sys.proc m).busy = true → 0 < (l.book m).asked →
    Balanced m (l.sys.proc m) (l.book m) (l.sys.stream m) (l.sys.Ready g m)
  /-- The copying loop of a call moves something. -/
  underway : ∀ m, 0 < (l.book m).asked → (l.sys.proc m).pc = .avail →
    (l.sys.proc m).xfer.Underway g m (l.sys.stream m).length

/-- A pipe on which nothing was asked for yet satisfies the invariant. -/
theorem sound_opened (g : Geometry) (conv : Conv) (buffer memReader memWriter : Nat → UInt8) :
    Sound g (opened (.offered conv buffer memReader memWriter)) :=
  ⟨kept_offered g conv buffer memReader memWriter, .offered g conv buffer memReader memWriter,
    fun _ _ h => absurd h (Nat.lt_irrefl 0), fun _ h => absurd h (Nat.lt_irrefl 0)⟩

/-- The notes of the end that takes the step. -/
private theorem Sound.balanced_own (h : Sound g l) (hs : l.step g (m, i) = some k)
    (hbusy : (k.sys.proc m).busy = true) (hasked : 0 < (k.book m).asked) :
    Balanced m (k.sys.proc m) (k.book m) (k.sys.stream m) (k.sys.Ready g m) := by
  obtain ⟨hsys, hbook⟩ := step_eq_some hs
  have hstep := System.step_proc hsys
  rw [hbook, Function.update_self] at hasked ⊢
  cases hb : (l.sys.proc m).busy with
  | false =>
    obtain ⟨hpc, -, fn, all, buf, nbytes, mem, rfl, hp⟩ := Proc.busy_of_step hb hbusy hstep
    have hnil : (l.sys.proc m).moved m l.sys.shared = [] := by simp [Proc.moved, hpc]
    rw [hp, System.stream_step hsys, hnil, List.append_nil]
    exact balanced_first fn _ all buf mem hasked
  | true =>
    by_cases hpc : (l.sys.proc m).pc = .ret
    · obtain ⟨rfl, hp, -⟩ := Proc.step_ret hpc hstep
      have hnil : (l.sys.proc m).moved m l.sys.shared = [] := by simp [Proc.moved, hpc]
      simp only [Book.after, if_pos hpc] at hasked ⊢
      rw [hp] at hbusy ⊢
      rw [System.stream_step hsys, hnil, List.append_nil]
      exact ((h.balanced m hb hasked).next hpc hbusy).mono
        (System.ready_of_publishes hsys (by simp [Proc.publishes, hpc]))
    · have hidle : (l.sys.proc m).pc ≠ .idle := by
        intro hidle
        simp [Proc.busy, hidle] at hb
      rw [Book.after_eq hidle hpc hstep] at hasked ⊢
      exact (h.balanced m hb hasked).step_own h.kept h.alert hb hpc (h.underway m hasked) hsys

/-- One step of one end keeps the invariant, with the notes of that step. -/
theorem Sound.step (h : Sound g l) {x : Mod × Input} (hs : l.step g x = some k) : Sound g k := by
  obtain ⟨m, i⟩ := x
  obtain ⟨hsys, hbook⟩ := step_eq_some hs
  have hother : k.book m.peer = l.book m.peer := by
    rw [hbook]
    exact Function.update_of_ne (Mod.peer_ne m) ..
  refine ⟨h.kept.step hsys, h.alert.step h.kept hsys, Mod.forall_of m ?_ ?_, Mod.forall_of m ?_ ?_⟩
  · exact fun hbusy hasked => h.balanced_own hs hbusy hasked
  · rw [hother, System.proc_peer_step hsys, System.stream_peer_step hsys]
    exact fun hbusy hasked => (h.balanced m.peer hbusy hasked).mono (h.kept.ready_peer_step hsys)
  · intro hasked hpc
    have hbal := h.balanced_own hs (by simp [Proc.busy, hpc]) hasked
    have hkeep : (l.sys.proc m).pc = .avail → 0 < (l.book m).asked := by
      intro hpc'
      rwa [hbook, Function.update_self,
        Book.after_eq (by simp [hpc']) (by simp [hpc']) (System.step_proc hsys)] at hasked
    exact Balanced.underway_step h.kept
      (fun hpc' => h.balanced m (by simp [Proc.busy, hpc']) (hkeep hpc'))
      (fun hpc' => h.underway m (hkeep hpc') hpc') hbal.pos hsys hpc
  · rw [hother, System.proc_peer_step hsys, System.stream_peer_step hsys]
    exact h.underway m.peer

/-- The invariant of the ledger holds in every run. -/
theorem sound_of_reachable (h : Reachable g l) : Sound g l := by
  obtain ⟨conv, buffer, memReader, memWriter, hr⟩ := h
  exact hr.invariant (sound_opened g conv buffer memReader memWriter) fun _ _ _ hl _ hs =>
    hl.step hs

end Ledger

/-- The account of a read or write at its return, and of the call of the user around it. -/
structure Accounted (m : Mod) (p : Proc) (b : Book) (stream : List UInt8) (shown : Nat) :
    Prop where
  /-- The call has failed, or the stream has ended, or something was moved. -/
  value : p.retval = -1 ∨ (m = .read ∧ p.retval = 0) ∨ 1 ≤ p.retval ∧ p.retval ≤ p.nbytes
  /-- The call has moved exactly as many bytes as its value says, from or to the beginning of its
  buffer. -/
  moved : stream = b.begun ++ segment p.mem p.buffer p.retval.toNat
  /-- The index covers everything that was moved. -/
  shown : shown = stream.length
  /-- The call of the user makes no more reads or writes than it has bytes. -/
  calls : b.values.length + 1 ≤ b.asked
  /-- A plain call returns the value. -/
  plain : p.all = false → (p.afterRet m).pc = .idle ∧ (p.afterRet m).result = p.retval
  /-- An `_all` form returns the number of bytes moved by all its reads or writes, the beginning
  of its buffer; or, if there are none, the last value. -/
  total : p.all = true → (p.afterRet m).pc = .idle →
    ∃ n : Nat, stream = b.opened ++ segment p.mem b.buffer n ∧
      (p.afterRet m).result = if n = 0 then p.retval else n
  /-- The `_all` form returns less than it was asked for only behind a failure or the end of the
  stream. -/
  short : p.all = true → (p.afterRet m).pc = .idle → (p.afterRet m).result < b.asked →
    p.retval ≤ 0

/-- A balanced call accounts for what it has moved. -/
private theorem Balanced.accounted {m : Mod} {p : Proc} {b : Book} {stream : List UInt8}
    {ready : Prop} {shown : Nat} (h : Balanced m p b stream ready) (hpc : p.pc = .ret)
    (hshown : shown = stream.length) : Accounted m p b stream shown := by
  have hpos := h.pos
  have hasked := h.asked
  have hvalues := h.values
  have hcounts := h.counts
  simp only [Proc.Counts, hpc] at hcounts
  obtain ⟨hval, hstream⟩ := hcounts
  have hwhole : stream = b.opened ++ segment p.mem b.buffer (p.total + p.retval.toNat) := by
    rw [hstream, h.begun, segment_add, h.buffer, List.append_assoc]
  refine ⟨hval, hstream, hshown, by omega, fun hall => ?_, fun hall hidle => ?_,
    fun hall hidle hlt => ?_⟩
  · simp [Proc.afterRet, hall, Proc.finish]
  · cases p.returns m with
    | plain hplain => simp [hall] at hplain
    | failed _ hle hnext =>
      rw [Int.toNat_of_nonpos hle, Nat.add_zero] at hwhole
      refine ⟨p.total, hwhole, ?_⟩
      rw [hnext]
      simp [Proc.finish]
    | complete _ hgt _ hnext =>
      refine ⟨p.total + p.retval.toNat, hwhole, ?_⟩
      rw [hnext, if_neg (by omega)]
      rfl
    | again _ _ _ hnext =>
      rw [hnext] at hidle
      unfold Proc.beginCall at hidle
      split_ifs at hidle
  · cases p.returns m with
    | plain hplain => simp [hall] at hplain
    | failed _ hle => exact hle
    | complete _ hgt hrest hnext =>
      rw [hnext] at hlt
      simp only [Proc.finish] at hlt
      rcases hval with hv | ⟨_, hv⟩ | hv <;> omega
    | again _ _ _ hnext =>
      rw [hnext] at hidle
      unfold Proc.beginCall at hidle
      split_ifs at hidle

/-- In every interleaving, the value of a read or write at its return is the number of bytes it
has moved, and the `_all` forms return the sum. -/
theorem calls_account {g : Geometry} {l : Ledger} (h : l.Reachable g) (m : Mod)
    (hasked : 0 < (l.book m).asked) (hret : (l.sys.proc m).pc = .ret) :
    Accounted m (l.sys.proc m) (l.book m) (l.sys.stream m) (l.sys.shown m) := by
  have hsound := Ledger.sound_of_reachable h
  refine (hsound.balanced m (by simp [Proc.busy, hret]) hasked).accounted hret ?_
  exact (hsound.kept.ends m).synced fun hpc => by simp [hret] at hpc

/-- A `read_all` of two bytes gets the one there is, and its second read is interrupted. -/
private def oneOfTwo : List (Mod × Input) :=
  System.ticks .write 2 ++ System.input .write (.transfer .write false 0 1 fun _ => 65) ++
  System.ticks .write 21 ++ System.input .read (.transfer .read true 0 2 fun _ => 0) ++
  System.ticks .read 31 ++ System.input .read (.ioctl (.fail .eintr)) ++ System.ticks .read 6

/-- A reader asks for two bytes with the `_all` form, gets one, and is told so when its next read
fails. -/
theorem calls_account_oneOfTwo : ∃ l : Ledger, l.sys.reader.retval = -1 ∧ l.sys.handed = [65] ∧
    (l.sys.reader.afterRet .read).result = 1 ∧
    Accounted .read l.sys.reader (l.book .read) l.sys.handed l.sys.released := by
  have hrun : (run (Ledger.step .onePage) Ledger.anyInput (.opened .fresh) oneOfTwo).any
      (fun l => l.sys.reader.retval = -1 ∧ l.sys.handed = [65] ∧
        (l.sys.reader.afterRet .read).result = 1 ∧ l.sys.reader.pc = .ret ∧
        0 < (l.book .read).asked) = true := by decide +kernel
  obtain ⟨l, hl, hp⟩ := exists_reaches_of_run hrun
  obtain ⟨hval, hhanded, hresult, hpc, hasked⟩ := of_decide_eq_true hp
  exact ⟨l, hval, hhanded, hresult,
    calls_account ⟨.readerOffers, _, _, _, hl⟩ .read hasked hpc⟩

end XenShm.Pipe
