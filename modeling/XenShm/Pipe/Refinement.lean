import XenShm.Library.Channel
import XenShm.Pipe.Linked

/-!
# A pipe is a bounded channel

The users of a pipe see the calls they make, what these return and, when a read returns,
the bytes in its buffer. Whatever the two ends do in turn, they see what a channel of
`buffer_size - 1` bytes can show.
-/

namespace XenShm.Pipe

open XenShm.Library

/-- A call as its user sees it begin. -/
def Mod.called (m : Mod) (buf nbytes : Nat) (mem : Nat → UInt8) : Channel.Event UInt8 :=
  match m with
  | .write => .put (segment mem buf nbytes)
  | .read => .get nbytes

/-- A call as its user sees it return. -/
def Mod.returned (m : Mod) (value : Int) (got : List UInt8) : Channel.Event UInt8 :=
  match m with
  | .write => .putReturned value
  | .read => .getReturned value got

namespace Proc

/-- The return of a call on the buffer `buf`. -/
def returned (m : Mod) (buf : Nat) (p : Proc) : Channel.Event UInt8 :=
  m.returned p.result (segment p.mem buf p.result.toNat)

/-- The user buffer of the call in progress. An `_all` form advances its own pointer. -/
def userBuffer (p : Proc) : Nat := p.buffer - p.total

/-- The function `xen_shm_pipe_free` was called on the handle. -/
def closing (p : Proc) : Bool :=
  match p.pc with
  | .freeLoad | .freeStore | .close | .freed => true
  | _ => false

end Proc

/-- What the users see of a step: a call, its return, or nothing. -/
def System.see (s : System) (x : Mod × Input) (t : System) : List (Channel.Event UInt8) :=
  match x with
  | (m, .transfer _ _ buf nbytes mem) =>
    m.called buf nbytes mem :: if (t.proc m).busy then [] else [(t.proc m).returned m buf]
  | (m, .tick) =>
    if (s.proc m).busy && !(t.proc m).busy then [(t.proc m).returned m (s.proc m).userBuffer]
    else []
  | (.write, .free) => [.close]
  | _ => []

/-- The channel that a pipe stands for, with the calls in progress. -/
def Ledger.channel (l : Ledger) : Channel UInt8 where
  queue := l.sys.copied.drop l.sys.handed.length
  put :=
    if l.sys.writer.busy then
      some ⟨segment l.sys.writer.mem (l.book .write).buffer (l.book .write).asked,
        l.sys.copied.length - (l.book .write).opened.length⟩
    else none
  get :=
    if l.sys.reader.busy then
      some ⟨(l.book .read).asked, l.sys.handed.drop (l.book .read).opened.length⟩
    else none
  closed := l.sys.writer.closing

namespace Proc

variable {g : Geometry} {m : Mod} {i : Input} {p p' : Proc} {s s' : Shared}

/-- A handle with a read or write in progress was not freed. -/
theorem closing_of_busy (h : p.busy = true) : p.closing = false := by
  cases hpc : p.pc <;> simp [busy, closing, hpc] at h ⊢

/-- A handle that is gone was freed. -/
theorem closing_of_gone (h : p.gone = true) : p.closing = true := by
  cases hpc : p.pc <;> simp [gone, closing, hpc] at h ⊢

/-- Only a call of `xen_shm_pipe_free` begins to close a handle. -/
theorem step_closing (h : p.step g m i s = some (p', s')) (hbusy : p'.busy = false)
    (hi : i ≠ .free) : p'.closing = p.closing := by
  cases i with
  | free => exact absurd rfl hi
  | flush =>
    simp only [step] at h
    split_ifs at h with hpc <;> cases h <;> simp [closing, finish, hpc]
  | transfer fn all buf nbytes mem =>
    simp only [step] at h
    split_ifs at h with hpc <;> cases h
    · simp [closing, finish, hpc]
    · simp [busy_beginCall] at hbusy
  | ioctl r =>
    by_cases hret : p.busy = true ∧ p.pc ≠ .ret
    · simp [(step_continues hret.1 hret.2 h).busy] at hbusy
    · simp only [step, Option.map_eq_some_iff, Prod.mk.injEq] at h
      obtain ⟨q, hq, rfl, -⟩ := h
      cases hpc : p.pc <;> simp only [busy, hpc] at hret <;>
        simp only [ioctlReturn, hpc, reduceCtorEq] at hq <;> simp at hret
      cases hq
      simp [closing, finish, hpc]
  | tick =>
    by_cases hret : p.busy = true ∧ p.pc ≠ .ret
    · simp [(step_continues hret.1 hret.2 h).busy] at hbusy
    · simp only [step] at h
      cases hpc : p.pc <;> simp only [busy, hpc] at hret <;> simp at hret <;>
        simp only [tick, hpc] at h
      case idle | flushSignal | freed => cases m <;> simp [waitReader, waitWriter, hpc] at h
      case ret =>
        cases h
        cases p.returns m with
        | plain _ hnext | failed _ _ hnext | complete _ _ _ hnext =>
          simp [hnext, closing, finish, hpc]
        | again _ _ _ hnext =>
          rw [hnext, busy_beginCall] at hbusy
          contradiction
      case flushTest => split at h <;> cases h <;> simp [closing, finish, hpc]
      all_goals
        cases h
        simp [closing, hpc]

/-- A call of `xen_shm_pipe_free` is made between two other calls, and begins to close. -/
theorem closing_of_free (h : p.step g m .free s = some (p', s')) :
    p.pc = .idle ∧ p'.closing = true := by
  by_cases hpc : p.pc = .idle
  · simp only [step, if_pos hpc] at h
    cases hm : p.mapped <;> simp only [hm] at h <;> cases h <;> exact ⟨hpc, rfl⟩
  · simp [step, hpc] at h

end Proc

namespace Ledger

variable {g : Geometry} {l k : Ledger} {m : Mod} {i : Input}

/-- What a channel of a pipe may do in one step. -/
abbrev Next (g : Geometry) := Channel.Next (α := UInt8) (g.bufferSize - 1)

/-- A step of one end leaves the part of its peer in the channel. -/
private theorem channel_peer (hs : l.step g (m, i) = some k) :
    k.sys.proc m.peer = l.sys.proc m.peer ∧ k.sys.stream m.peer = l.sys.stream m.peer ∧
      k.book m.peer = l.book m.peer := by
  obtain ⟨hsys, hbook⟩ := step_eq_some hs
  refine ⟨System.proc_peer_step hsys, System.stream_peer_step hsys, ?_⟩
  rw [hbook]
  exact Function.update_of_ne (Mod.peer_ne m) ..

/-- A write in progress puts bytes into the channel. -/
private theorem Linked.enters (h : Linked g l) (hs : l.step g (.write, i) = some k)
    (hbusy : (l.sys.proc .write).busy = true) (hbusy' : (k.sys.proc .write).busy = true) :
    Shows (Next g) l.channel [] k.channel := by
  obtain ⟨hsys, -⟩ := step_eq_some hs
  obtain ⟨hreader, hhanded, hbookReader⟩ := channel_peer hs
  obtain ⟨hopened, hbuffer, hasked, -, hmem⟩ := request_stays hs hbusy hbusy'
  have hstream := System.stream_step hsys
  obtain ⟨a, ha, hpart⟩ := h.part hbusy
  obtain ⟨b, hb, hpart'⟩ := (h.step hs).part hbusy'
  have hkept := (h.step hs).sound.kept
  simp only [System.proc, System.stream, Mod.peer] at *
  rw [hopened, hbuffer, hmem trivial] at hpart'
  rw [hasked] at hb
  have hlen := congrArg List.length hpart
  have hlen' := congrArg List.length hpart'
  have hlenMoved := congrArg List.length hstream
  simp only [List.length_append, length_segment] at hlen hlen' hlenMoved
  -- what is moved in this step is the next part of the user buffer
  have hmoved : l.sys.writer.moved .write l.sys.shared =
      ((segment l.sys.writer.mem (l.book .write).buffer (l.book .write).asked).drop a).take
        (b - a) := by
    have hsplit : b = a + (b - a) := by omega
    rw [hpart', hpart, hsplit, segment_add, ← List.append_assoc,
      List.append_cancel_left_eq] at hstream
    rw [segment_slice _ (by omega), ← hstream]
  have hroom := hkept.room
  have hreleased := hkept.released_le
  have hle := h.sound.kept.handed_le.trans h.sound.kept.published_le
  have hdone : l.sys.copied.length - (l.book .write).opened.length = a := by omega
  have hdone' : k.sys.copied.length - (l.book .write).opened.length = a + (b - a) := by omega
  have hput : l.channel.put =
      some ⟨segment l.sys.writer.mem (l.book .write).buffer (l.book .write).asked, a⟩ := by
    rw [channel, if_pos hbusy, hdone]
  have hlater : k.channel = { l.channel with
      queue := l.channel.queue ++
        ((segment l.sys.writer.mem (l.book .write).buffer (l.book .write).asked).drop a).take
          (b - a)
      put := some
        ⟨segment l.sys.writer.mem (l.book .write).buffer (l.book .write).asked, a + (b - a)⟩ } := by
    rw [← hmoved, channel, channel, if_pos hbusy', hreader, hhanded, hbookReader, hopened, hbuffer,
      hasked, hmem trivial, hdone', hstream, List.drop_append_of_le_length hle,
      Proc.closing_of_busy hbusy, Proc.closing_of_busy hbusy']
  rw [hlater]
  refine .step (.enters _ _ (b - a) hput ?_ ?_)
  · simp only [length_segment]
    omega
  · simp only [channel, List.length_drop]
    rw [hhanded] at hreleased
    omega

/-- A read in progress gets bytes out of it. -/
private theorem Linked.leaves (h : Linked g l) (hs : l.step g (.read, i) = some k)
    (hbusy : (l.sys.proc .read).busy = true) (hbusy' : (k.sys.proc .read).busy = true) :
    Shows (Next g) l.channel [] k.channel := by
  obtain ⟨hsys, -⟩ := step_eq_some hs
  obtain ⟨hwriter, hcopied, hbookWriter⟩ := channel_peer hs
  obtain ⟨hopened, -, hasked, -, -⟩ := request_stays hs hbusy hbusy'
  have hstream := System.stream_step hsys
  obtain ⟨a, ha, hpart⟩ := h.part hbusy
  obtain ⟨b, hb, hpart'⟩ := (h.step hs).part hbusy'
  have hkept := h.sound.kept
  have hkept' := (h.step hs).sound.kept
  simp only [System.proc, System.stream, Mod.peer] at *
  rw [hopened] at hpart'
  rw [hasked] at hb
  have hlen := congrArg List.length hpart
  have hlen' := congrArg List.length hpart'
  have hlenMoved := congrArg List.length hstream
  simp only [List.length_append, length_segment] at hlen hlen' hlenMoved
  have hroom : k.sys.handed.length ≤ l.sys.copied.length := by
    rw [← hcopied]
    exact hkept'.handed_le.trans hkept'.published_le
  -- what is moved in this step comes first in the queue
  have hmoved : l.sys.reader.moved .read l.sys.shared =
      (l.sys.copied.drop l.sys.handed.length).take (b - a) := by
    have htake := hkept'.handed
    have hsplit : k.sys.handed.length = l.sys.handed.length + (b - a) := by omega
    rw [hsplit, hcopied, List.take_add, ← hkept.handed, hstream,
      List.append_cancel_left_eq] at htake
    exact htake
  have hget : l.channel.get =
      some ⟨(l.book .read).asked, l.sys.handed.drop (l.book .read).opened.length⟩ := by
    rw [channel, if_pos hbusy]
  have hlater : k.channel = { l.channel with
      queue := l.channel.queue.drop (b - a)
      get := some ⟨(l.book .read).asked, l.sys.handed.drop (l.book .read).opened.length ++
        l.channel.queue.take (b - a)⟩ } := by
    have hqueue : l.channel.queue = l.sys.copied.drop l.sys.handed.length := rfl
    rw [hqueue, ← hmoved, List.drop_drop,
      show l.sys.handed.length + (b - a) = k.sys.handed.length by omega, channel, channel,
      if_pos hbusy', hwriter, hcopied, hbookWriter, hopened, hasked, hstream,
      List.drop_append_of_le_length (by omega)]
  rw [hlater]
  refine .step (.leaves _ _ (b - a) hget ?_ ?_)
  · simp only [List.length_drop]
    omega
  · simp only [channel, List.length_drop]
    omega

/-- The user buffer of a call at its return. -/
private theorem Linked.userBuffer (h : Linked g l) (hpc : (l.sys.proc m).pc = .ret) :
    (l.sys.proc m).userBuffer = (l.book m).buffer := by
  have hbusy : (l.sys.proc m).busy = true := by simp [Proc.busy, hpc]
  have hnoted := h.noted m hbusy
  unfold Proc.userBuffer
  cases hall : (l.sys.proc m).all with
  | false => rw [hnoted.total hall, hnoted.buffer hall, Nat.sub_zero]
  | true =>
    have hpos : 0 < (l.book m).asked := by
      by_contra hzero
      simp [hnoted.all (by omega)] at hall
    have hbuffer := (h.sound.balanced m hbusy hpos).buffer
    omega

/-- A call returns from where the value of its last read or write was looked at. -/
private theorem channel_returns (hs : l.step g (m, i) = some k)
    (hbusy : (l.sys.proc m).busy = true) (hbusy' : (k.sys.proc m).busy = false) :
    i = .tick ∧ (l.sys.proc m).pc = .ret ∧ k.sys.proc m = (l.sys.proc m).afterRet m ∧
      (k.sys.proc m).mem = (l.sys.proc m).mem ∧ k.sys.stream m = l.sys.stream m ∧
      (k.sys.proc m).closing = false := by
  obtain ⟨hsys, -⟩ := step_eq_some hs
  have hstep := System.step_proc hsys
  have hpc : (l.sys.proc m).pc = .ret := by
    by_contra hret
    simp [(Proc.step_continues hbusy hret hstep).busy] at hbusy'
  obtain ⟨rfl, hp, -⟩ := Proc.step_ret hpc hstep
  have hclosing := Proc.step_closing hstep hbusy' (by simp)
  rw [Proc.closing_of_busy hbusy] at hclosing
  refine ⟨rfl, hpc, hp, ?_, ?_, hclosing⟩
  · rw [hp] at hbusy' ⊢
    cases (l.sys.proc m).returns m with
    | plain _ hnext | failed _ _ hnext | complete _ _ _ hnext =>
      rw [hnext]
      rfl
    | again _ _ _ hnext => simp [hnext, Proc.busy_beginCall] at hbusy'
  · rw [System.stream_step hsys]
    simp [Proc.moved, hpc]

/-- A call that returns shows what it has moved. -/
private theorem Linked.returns (h : Linked g l) (hs : l.step g (m, i) = some k)
    (hbusy : (l.sys.proc m).busy = true) (hbusy' : (k.sys.proc m).busy = false) :
    Shows (Next g) l.channel (l.sys.see (m, i) k.sys) k.channel := by
  obtain ⟨rfl, hpc, hp, hmem, hstream, hclosing⟩ := channel_returns hs hbusy hbusy'
  obtain ⟨hpeer, hother, hbook⟩ := channel_peer hs
  have hresult := h.result hpc (by rw [← hp]; exact hbusy')
  rw [← hp] at hresult
  have hbuf := h.userBuffer hpc
  obtain ⟨a, ha, hpart⟩ := h.part hbusy
  have hlen := congrArg List.length hpart
  simp only [List.length_append, length_segment] at hlen
  rw [show (l.sys.stream m).length - (l.book m).opened.length = a by omega] at hresult
  simp only [System.see, hbusy, hbusy', Bool.not_false, Bool.and_self, if_true, hbuf]
  cases m with
  | write =>
    simp only [System.proc, System.stream, Mod.peer] at *
    have hput : l.channel.put =
        some ⟨segment l.sys.writer.mem (l.book .write).buffer (l.book .write).asked, a⟩ := by
      rw [channel, if_pos hbusy,
        show l.sys.copied.length - (l.book .write).opened.length = a by omega]
    have hlater : k.channel = { l.channel with put := none } := by
      rw [channel, channel, hbusy', hpeer, hother, hbook, hstream, hclosing,
        Proc.closing_of_busy hbusy]
      rfl
    rw [hlater]
    refine .single (.putReturned _ _ _ hput ?_)
    cases hresult with
    | count hvalue hsome =>
      rw [hvalue]
      refine .done (hsome.imp_right fun hzero => ?_)
      simp [hzero]
    | ended _ _ hreads => cases hreads
    | failed hvalue hnone =>
      rw [hvalue]
      exact .failed hnone
  | read =>
    simp only [System.proc, System.stream, Mod.peer] at *
    have hgot : l.sys.handed.drop (l.book .read).opened.length =
        segment k.sys.reader.mem (l.book .read).buffer a := by
      rw [hmem, hpart, List.drop_left]
    have hget : l.channel.get =
        some ⟨(l.book .read).asked, segment k.sys.reader.mem (l.book .read).buffer a⟩ := by
      rw [channel, if_pos hbusy, hgot]
    have hlater : k.channel = { l.channel with get := none } := by
      rw [channel, channel, hbusy', hpeer, hother, hbook, hstream]
      rfl
    have hnat : k.sys.reader.result.toNat = a := by
      cases hresult with
      | count hvalue => omega
      | ended hvalue hnone => omega
      | failed hvalue hnone => omega
    rw [hlater]
    simp only [Proc.returned, hnat]
    refine .single (.getReturned _ _ _ hget ?_)
    cases hresult with
    | count hvalue hsome =>
      have hdone := Get.Returns.done (c := l.channel) (r := ⟨(l.book .read).asked,
        segment k.sys.reader.mem (l.book .read).buffer a⟩) (hsome.imp_left fun hpos hnil => by
          have hlen := congrArg List.length hnil
          simp only [length_segment, List.length_nil] at hlen
          omega)
      simpa [hvalue] using hdone
    | ended hvalue hnone _ hgone hdrained =>
      rw [hvalue]
      refine .ended (by simp [hnone]) (Proc.closing_of_gone hgone) ?_
      simp [channel, hdrained]
    | failed hvalue hnone =>
      rw [hvalue]
      exact .failed (by simp [hnone])

/-- A call that is made begins in the channel too. -/
private theorem channel_calls (hs : l.step g (m, i) = some k)
    (hbusy : (l.sys.proc m).busy = false) (hbusy' : (k.sys.proc m).busy = true) :
    Shows (Next g) l.channel (l.sys.see (m, i) k.sys) k.channel := by
  obtain ⟨hsys, hbook⟩ := step_eq_some hs
  obtain ⟨hpeer, hother, hbookPeer⟩ := channel_peer hs
  obtain ⟨hpc, -, fn, all, buf, nbytes, mem, rfl, hp⟩ :=
    Proc.busy_of_step hbusy hbusy' (System.step_proc hsys)
  have hstream : k.sys.stream m = l.sys.stream m := by
    rw [System.stream_step hsys]
    simp [Proc.moved, hpc]
  have hmem : (k.sys.proc m).mem = mem := by
    rw [hp, Proc.beginCall]
    split_ifs <;> rfl
  have hown : k.book m = ⟨l.sys.stream m, buf, nbytes, l.sys.stream m, []⟩ := by
    rw [hbook, Function.update_self]
    rfl
  simp only [System.see, hbusy', if_true]
  cases m with
  | write =>
    simp only [System.proc, System.stream, Mod.peer] at *
    have hlater : k.channel = { l.channel with put := some ⟨segment mem buf nbytes, 0⟩ } := by
      rw [channel, channel, if_pos hbusy', hpeer, hother, hbookPeer, hstream, hown, hmem,
        Nat.sub_self, Proc.closing_of_busy hbusy']
      simp [Proc.closing, hpc]
    rw [hlater]
    exact .single (.put _ _ (by simp [channel, hbusy]) (by simp [channel, Proc.closing, hpc]))
  | read =>
    simp only [System.proc, System.stream, Mod.peer] at *
    have hlater : k.channel = { l.channel with get := some ⟨nbytes, []⟩ } := by
      rw [channel, channel, if_pos hbusy', hpeer, hother, hbookPeer, hstream, hown,
        List.drop_length]
    rw [hlater]
    exact .single (.get _ _ (by simp [channel, hbusy]))

/-- Between two calls an end leaves the channel alone, except that it may close it. -/
private theorem channel_between (hs : l.step g (m, i) = some k)
    (hbusy : (l.sys.proc m).busy = false) (hbusy' : (k.sys.proc m).busy = false) :
    k.channel = { l.channel with closed := k.sys.writer.closing } := by
  obtain ⟨hsys, -⟩ := step_eq_some hs
  obtain ⟨hpeer, hother, hbook⟩ := channel_peer hs
  have hstream : k.sys.stream m = l.sys.stream m := by
    have hpc : (l.sys.proc m).pc ≠ .avail := fun hpc => by simp [Proc.busy, hpc] at hbusy
    rw [System.stream_step hsys]
    simp [Proc.moved, hpc]
  cases m <;> simp only [System.proc, System.stream, Mod.peer] at * <;>
    simp [channel, hbusy, hbusy', hpeer, hother, hbook, hstream]

/-- An end between two calls has no part in the channel. -/
private theorem channel_idle (hbusy : (l.sys.proc m).busy = false) :
    match m with
    | .write => l.channel.put = none
    | .read => l.channel.get = none := by
  cases m <;> simpa [channel, System.proc] using hbusy

/-- The last call of the writer closes the channel. -/
private theorem shows_free (hs : l.step g (m, .free) = some k)
    (hbusy : (l.sys.proc m).busy = false) (hbusy' : (k.sys.proc m).busy = false) :
    Shows (Next g) l.channel (l.sys.see (m, .free) k.sys) k.channel := by
  have hstep := System.step_proc (step_eq_some hs).1
  have hlater := channel_between hs hbusy hbusy'
  have hnone := channel_idle hbusy
  cases m with
  | read =>
    have hwriter : k.sys.writer = l.sys.writer := (channel_peer hs).1
    rw [hlater, hwriter]
    exact .refl _
  | write =>
    obtain ⟨hpc, hclosed⟩ := Proc.closing_of_free hstep
    have hpc : l.sys.writer.pc = .idle := hpc
    rw [hlater, show k.sys.writer.closing = true from hclosed]
    exact .single (.close _ hnone (by simp [channel, Proc.closing, hpc]))

/-- An `_all` form on nothing returns at once. -/
private theorem shows_nothing {fn : Mod} {all : Bool} {buf nbytes : Nat} {mem : Nat → UInt8}
    (hs : l.step g (m, .transfer fn all buf nbytes mem) = some k)
    (hbusy : (l.sys.proc m).busy = false) (hbusy' : (k.sys.proc m).busy = false)
    (hsame : k.channel = l.channel) :
    Shows (Next g) l.channel (l.sys.see (m, .transfer fn all buf nbytes mem) k.sys) k.channel := by
  have hstep := System.step_proc (step_eq_some hs).1
  have hnone := channel_idle hbusy
  simp only [Proc.step] at hstep
  split_ifs at hstep with hpc hnothing
  · obtain ⟨-, rfl⟩ := hnothing
    simp only [Option.some.injEq, Prod.mk.injEq] at hstep
    have hresult : (k.sys.proc m).result = 0 := by
      rw [← hstep.1]
      rfl
    simp only [System.see, hbusy', Bool.false_eq_true, if_false, hsame]
    cases m with
    | write =>
      have hopen : l.channel.closed = false := by
        simp [channel, Proc.closing, show l.sys.writer.pc = .idle from hpc]
      have hlast : Next g { l.channel with put := some ⟨[], 0⟩ } (some (.putReturned 0))
          { l.channel with put := none } := .putReturned _ _ _ rfl (.done (.inr rfl))
      rw [← hnone] at hlast
      simp only [Proc.returned, hresult]
      exact .event (.put _ _ hnone hopen) (.single hlast)
    | read =>
      have hlast : Next g { l.channel with get := some ⟨0, []⟩ } (some (.getReturned 0 []))
          { l.channel with get := none } := .getReturned _ ⟨0, []⟩ 0 rfl (.done (.inr rfl))
      rw [← hnone] at hlast
      simp only [Proc.returned, hresult]
      exact .event (.get _ _ hnone) (.single hlast)
  · simp only [Option.some.injEq, Prod.mk.injEq] at hstep
    rw [← hstep.1, Proc.busy_beginCall] at hbusy'
    contradiction

/-- Between two calls only the closing of the handle is seen. -/
private theorem shows_between (hs : l.step g (m, i) = some k)
    (hbusy : (l.sys.proc m).busy = false) (hbusy' : (k.sys.proc m).busy = false) :
    Shows (Next g) l.channel (l.sys.see (m, i) k.sys) k.channel := by
  by_cases hfree : i = .free
  · subst hfree
    exact shows_free hs hbusy hbusy'
  have hsame : k.channel = l.channel := by
    have hclosing : k.sys.writer.closing = l.sys.writer.closing := by
      cases m with
      | write => exact Proc.step_closing (System.step_proc (step_eq_some hs).1) hbusy' hfree
      | read => rw [show k.sys.writer = l.sys.writer from (channel_peer hs).1]
    rw [channel_between hs hbusy hbusy', hclosing]
    rfl
  cases i with
  | transfer => exact shows_nothing hs hbusy hbusy' hsame
  | tick =>
    simp only [System.see, hbusy, Bool.false_and, Bool.false_eq_true, if_false, hsame]
    exact .refl _
  | ioctl | flush =>
    rw [hsame]
    cases m <;> exact .refl _
  | free => exact absurd rfl hfree

/-- Every step of the pipe is a run of the channel that shows what the users see of it. -/
theorem Linked.shows (h : Linked g l) {x : Mod × Input} (hs : l.step g x = some k) :
    Shows (Next g) l.channel (l.sys.see x k.sys) k.channel := by
  obtain ⟨m, i⟩ := x
  cases hbusy : (l.sys.proc m).busy <;> cases hbusy' : (k.sys.proc m).busy
  · exact shows_between hs hbusy hbusy'
  · exact channel_calls hs hbusy hbusy'
  · exact h.returns hs hbusy hbusy'
  · have hnothing : l.sys.see (m, i) k.sys = [] := by
      have hidle : (l.sys.proc m).pc ≠ .idle := fun hpc => by simp [Proc.busy, hpc] at hbusy
      have hstep := System.step_proc (step_eq_some hs).1
      cases i with
      | tick => simp [System.see, hbusy']
      | ioctl | flush => cases m <;> rfl
      | transfer | free => simp [Proc.step, hidle] at hstep
    rw [hnothing]
    cases m with
    | write => exact h.enters hs hbusy hbusy'
    | read => exact h.leaves hs hbusy hbusy'

end Ledger

/-- A pipe and a channel it stands for. -/
def System.Represents (g : Geometry) (s : System) (c : Channel UInt8) : Prop :=
  ∃ book, Ledger.Linked g ⟨s, book⟩ ∧ c = Ledger.channel ⟨s, book⟩

/-- Step by step the channel shows what the pipe shows. -/
theorem System.simulates (g : Geometry) :
    Simulates (System.step g) System.see (Ledger.Next g) (System.Represents g) := by
  rintro s x t _ ⟨book, hlinked, rfl⟩ hs
  obtain ⟨book', hstep⟩ : ∃ book', Ledger.step g ⟨s, book⟩ x = some ⟨t, book'⟩ := by
    rw [Ledger.step, hs]
    exact ⟨_, rfl⟩
  exact ⟨_, hlinked.shows hstep, book', hlinked.step hstep, rfl⟩

/-- A pipe on which nothing was done yet stands for the empty channel. -/
theorem System.represents_offered (g : Geometry) (conv : Conv)
    (buffer memReader memWriter : Nat → UInt8) :
    (System.offered conv buffer memReader memWriter).Represents g .empty := by
  refine ⟨_, Ledger.linked_opened g conv buffer memReader memWriter, ?_⟩
  cases conv <;> rfl

/-- Whatever the users of the two ends see of a pipe, in any interleaving, with any calls and any
`ioctl` results, a bounded channel can show. -/
theorem pipe_refines_channel {g : Geometry} {conv : Conv} {buffer memReader memWriter : Nat → UInt8}
    {inputs : List (Mod × Input)} {s : System} {es : List (Channel.Event UInt8)}
    (h : observe (System.step g) System.see (.offered conv buffer memReader memWriter) inputs =
      some (s, es)) :
    ∃ c, Shows (Channel.Next (g.bufferSize - 1)) .empty es c ∧ s.Represents g c :=
  (System.simulates g).shows (System.represents_offered g conv buffer memReader memWriter) h

/-- A write of two bytes, a read of one, the end of the writer, and two more reads. -/
private def twoBytesThenEnd : List (Mod × Input) :=
  System.ticks .write 2 ++
  System.input .write (.transfer .write false 0 2 fun a => UInt8.ofNat (a + 65)) ++
  System.ticks .write 22 ++ System.input .read (.transfer .read true 100 1 fun _ => 0) ++
  System.ticks .read 20 ++ System.input .write .free ++ System.ticks .write 3 ++
  System.input .read (.transfer .read false 100 4 fun _ => 0) ++ System.ticks .read 20 ++
  System.input .read (.transfer .read false 100 4 fun _ => 0) ++ System.ticks .read 12

/-- What the users see of that run. -/
private def twoBytesSeen : List (Channel.Event UInt8) :=
  [.put [65, 66], .putReturned 2, .get 1, .getReturned 1 [65], .close, .get 4, .getReturned 1 [66],
    .get 4, .getReturned 0 []]

/-- The run shows what the users see of it. -/
private theorem observe_twoBytesThenEnd :
    ∃ s, observe (System.step .onePage) System.see .fresh twoBytesThenEnd =
      some (s, twoBytesSeen) := by
  have hrun : (observe (System.step .onePage) System.see .fresh twoBytesThenEnd).any
      (fun r => r.2 = twoBytesSeen) = true := by decide +kernel
  obtain ⟨⟨s, es⟩, hs, hes⟩ := (Option.any_eq_true _ _).mp hrun
  have hes : es = twoBytesSeen := of_decide_eq_true hes
  exact ⟨s, hes ▸ hs⟩

/-- Two bytes and the end go through the pipe as they go through a channel. -/
theorem pipe_refines_channel_twoBytes : ∃ s c,
    Shows (Channel.Next (Geometry.onePage.bufferSize - 1)) .empty twoBytesSeen c ∧
      System.Represents .onePage s c := by
  obtain ⟨s, hs⟩ := observe_twoBytesThenEnd
  exact ⟨s, pipe_refines_channel hs⟩

/-- The account of a pipe is one that its channel balances. -/
def System.Told (g : Geometry) (s : System) (x : Account UInt8) : Prop :=
  ∃ c, Channel.Balances (g.bufferSize - 1) x c ∧ s.Represents g c

/-- A pipe on which nothing was done yet has the account of nothing. -/
theorem System.told_offered (g : Geometry) (conv : Conv)
    (buffer memReader memWriter : Nat → UInt8) :
    (System.offered conv buffer memReader memWriter).Told g .start :=
  ⟨_, Channel.balances_empty _, System.represents_offered g conv buffer memReader memWriter⟩

/-- The account goes on with what is seen. -/
theorem System.Told.step {g : Geometry} {s t : System} {x : Account UInt8} {y : Mod × Input}
    (h : s.Told g x) (hs : s.step g y = some t) :
    x.Allowed (s.see y t) ∧ t.Told g ((s.see y t).foldl Account.after x) := by
  obtain ⟨c, hc, hrep⟩ := h
  obtain ⟨d, hd, hrep⟩ := System.simulates g s y t c hrep hs
  obtain ⟨hallowed, hbalances⟩ := hc.run hd
  exact ⟨hallowed, d, hbalances, hrep⟩

/-- What the calls on a pipe have delivered, told from what they were given and what they have
returned. -/
structure Delivers (g : Geometry) (s : System) (x : Account UInt8) : Prop where
  /-- The bytes read are the bytes written, in order, and a write in progress gives a part of
  its own. -/
  inOrder : ∃ n, x.delivered <+: x.accepted ++ x.given.take n ∧ (s.writer.busy = false → n = 0)
  /-- As long as the reader is between two calls, at most one ring of bytes is on the way. -/
  onTheWay : s.reader.busy = false →
    x.accepted.length ≤ x.delivered.length + (g.bufferSize - 1)
  /-- A read has returned 0 for a request of some bytes: the writer was freed, and everything
  that was written was read. -/
  ended : x.ended = true → s.writer.closing = true ∧ x.delivered = x.accepted

/-- What the account tells has been delivered, or is still in the pipe. -/
theorem System.Told.delivers {g : Geometry} {s : System} {x : Account UInt8} (h : s.Told g x) :
    Delivers g s x := by
  obtain ⟨_, h, book, -, rfl⟩ := h
  refine ⟨?_, fun hreader => ?_, fun he => ⟨(h.ended he).1, h.complete he⟩⟩
  · have hprefix := h.delivered
    cases hwriter : s.writer.busy with
    | false =>
      refine ⟨0, ?_, fun _ => rfl⟩
      simpa [Channel.entered, Ledger.channel, hwriter] using hprefix
    | true =>
      refine ⟨s.copied.length - (book .write).opened.length, ?_, fun hf => by simp at hf⟩
      rw [(h.given _ (if_pos hwriter)).1]
      simpa [Channel.entered, Ledger.channel, hwriter] using hprefix
  · have hlen := congrArg List.length h.elements
    have hroom := h.room
    have hget : (Ledger.channel ⟨s, book⟩).left = [] := by
      simp [Channel.left, Ledger.channel, hreader]
    rw [hget] at hlen
    simp only [List.length_append, List.length_nil] at hlen
    omega

/-- In every interleaving, with any calls, the users can tell from the returned values alone that
no byte is lost, doubled or overtaken, and that the end of the stream is the end. -/
theorem calls_deliver {g : Geometry} {conv : Conv} {buffer memReader memWriter : Nat → UInt8}
    {inputs : List (Mod × Input)} {s : System} {es : List (Channel.Event UInt8)}
    (h : observe (System.step g) System.see (.offered conv buffer memReader memWriter) inputs =
      some (s, es)) : Delivers g s (es.foldl Account.after .start) := by
  obtain ⟨c, hc, hs⟩ :=
    (System.simulates g).shows (System.represents_offered g conv buffer memReader memWriter) h
  exact System.Told.delivers ⟨c, ((Channel.balances_empty _).run hc).2, hs⟩

/-- Two bytes and the end are delivered, as the calls have returned them. -/
theorem calls_deliver_twoBytes :
    ∃ s, Delivers .onePage s ⟨[65, 66], [65, 66], 4, [65, 66], true⟩ := by
  obtain ⟨s, hs⟩ := observe_twoBytesThenEnd
  exact ⟨s, calls_deliver hs⟩

end XenShm.Pipe
