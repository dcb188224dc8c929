import XenShm.Kernel.Init
import XenShm.Kernel.WaitSignal

/-!
# Waiting for the connection

`xen_shm_pipe_wait` asks the kernel to wait for the initial signal and takes a remaining time of 0
for a timeout. The kernel assigns the remaining time only when there is a timeout. Otherwise it
gives back what the record contained, and nobody has initialised that.
-/

namespace XenShm.Kernel

open Library

/-- `xen_shm_ioctl` for AWAIT, around what the helper returns. -/
def ioctlAwait (u : UserAccess) (helper : Result) : Result :=
  if ¬ u.access then .error .efault
  else if ¬ u.copyFrom then .error .efault
  else if helper ≠ .ok then helper
  else if ¬ u.copyTo then .error .efault
  else .ok

/-- `remaining_ms` in the record that is copied back: a call without a timeout has not assigned it,
and then it is the `garbage` that the record contained. -/
def WaitCall.remainingAfter (hz garbage : Nat) (c : WaitCall) : Nat :=
  if c.call.req.timeoutMs = 0 then garbage else (c.call.remaining hz).getD garbage

/-- What `xen_shm_pipe_wait` returns, with the `errno` it leaves behind. -/
inductive PipeWaited where
  /-- The result 0, for a connection. -/
  | ok
  /-- The result -1 with `EMEDIUMTYPE`, for a handle that is no offerer or has no pages. -/
  | mediumType
  /-- -1 with the error of the ioctl. -/
  | failed (e : Errno)
  /-- The result -1 with `ETIME`, for a timeout. -/
  | time
  deriving DecidableEq, Repr

/-- The handle of a pipe and the record that `xen_shm_pipe_wait` has on its stack. -/
structure PipeHandle where
  /-- Whether the handle is that of an offerer, as `__xen_shm_pipe_is_offerer` tells. -/
  isOfferer : Bool
  /-- Whether the pages of the pipe are mapped. -/
  mapped : Bool
  /-- Whether the record can be copied to the kernel and back. -/
  access : UserAccess
  /-- What `remaining_ms` contains before the ioctl, for the function does not assign it. -/
  garbage : Nat

/-- `xen_shm_pipe_wait`, when the helper in the kernel returns. -/
def pipeWait (hz : Nat) (p : PipeHandle) (c : WaitCall) (helper : Result) : PipeWaited :=
  if ¬ p.isOfferer ∨ ¬ p.mapped then .mediumType
  else
    match ioctlAwait p.access helper with
    | .error e => .failed e
    | .ok => if c.remainingAfter hz p.garbage = 0 then .time else .ok

/-- `wait_event_interruptible_timeout` leaves at most the ticks that it was given. -/
def WithinTimeout (hz : Nat) (s : Waiter) : Waiter.Input → Prop
  | .call (.ends left) => ∀ c ∈ s.current, left ≤ jiffies hz c.call.req.timeoutMs
  | _ => True

instance WithinTimeout.decidable (hz : Nat) (s : Waiter) :
    (i : Waiter.Input) → Decidable (WithinTimeout hz s i)
  | .call (.ends _) => inferInstanceAs (Decidable (∀ c ∈ s.current, _))
  | .call .proceed | .call .timeout | .call .interrupt | .enter _ | .deliver | .handler | .wake
  | .resetUser | .clearLatent | .peer _ => isTrue trivial

/-- The timeout does not end a wait behind the first event. When it has elapsed, the code takes it
for the end of the wait without another look at the condition, also when the caller was woken before
and has not run since. -/
def ElapsesFirst (s : Waiter) : Waiter.Input → Prop
  | .call .timeout => s.shared.signals.initialSignal = false
  | _ => True

instance ElapsesFirst.decidable (s : Waiter) : (i : Waiter.Input) → Decidable (ElapsesFirst s i)
  | .call .timeout => inferInstanceAs (Decidable (_ = _))
  | .call .proceed | .call (.ends _) | .call .interrupt | .enter _ | .deliver | .handler | .wake
  | .resetUser | .clearLatent | .peer _ => isTrue trivial

/-- A pipe that has ended the wait is still broken when it is tested again, unless the first event
was received. -/
def StaysBroken (s : Waiter) : Waiter.Input → Prop
  | .call _ => ∀ c ∈ s.current, c.call.pc = .recheck → c.ended = some .broken →
    s.shared.signals.initialSignal = false → s.shared.header.isBrokenPipe = true
  | _ => True

instance StaysBroken.decidable (s : Waiter) : (i : Waiter.Input) → Decidable (StaysBroken s i)
  | .call _ => inferInstanceAs (Decidable (∀ c ∈ s.current, _))
  | .enter _ | .deliver | .handler | .wake | .resetUser | .clearLatent | .peer _ => isTrue trivial

/-- A call at this place returns 0 or is about to. -/
def AwaitPc.succeeds (pc : AwaitPc) : Prop :=
  pc = .clear ∨ pc = .recheck ∨ pc = .unlock .ok ∨ pc = .done .ok

/-- What is known of the call of `xen_shm_pipe_wait`. -/
structure Connects (hz timeoutMs : Nat) (s : Waiter) (c : WaitCall) : Prop where
  /-- The argument is the one that `xen_shm_pipe_wait` passes. -/
  req : c.call.req = Request.pipeWait timeoutMs
  /-- The wait has ended in one of three ways, if it has ended with success. -/
  ended : c.call.pc.succeeds →
    c.ended = some .initial ∨ c.ended = some .broken ∨ c.ended = some .timeout
  /-- A wait that was ended by the initial signal leaves the signal set. -/
  initial : c.ended = some .initial → s.shared.signals.initialSignal = true
  /-- A wait that was ended by the timeout has found no connection. -/
  timeout : c.ended = some .timeout → timeoutMs ≠ 0 ∧ c.connected = false ∧ c.call.left = some 0
  /-- A wait that was ended otherwise has something left of its timeout, if there is one. -/
  left : ∀ e, c.ended = some e → e ≠ .timeout → timeoutMs = 0 ∧ c.call.left = none ∨
    timeoutMs ≠ 0 ∧ ∃ left, c.call.left = some left ∧ 1 ≤ left ∧ left ≤ jiffies hz timeoutMs
  /-- A broken pipe is not taken for success. -/
  broken : c.call.pc = .unlock .ok ∨ c.call.pc = .done .ok → c.ended = some .broken →
    s.shared.signals.initialSignal = true

/-- The invariant: everything known of the call of `xen_shm_pipe_wait` holds. -/
def Connected (hz timeoutMs : Nat) (s : Waiter) : Prop :=
  ∀ c, s.current = some c → Connects hz timeoutMs s c

section Steps

variable {hz timeoutMs : Nat} {s t : Waiter} {c : WaitCall} {p : PipeHandle}

/-- Of a call that has just been made everything is known. -/
theorem Connects.enter (hz timeoutMs handled : Nat) (s : Waiter) :
    Connects hz timeoutMs s (.enter (Request.pipeWait timeoutMs) handled) where
  req := rfl
  ended := by simp [AwaitPc.succeeds, WaitCall.enter, Call.enter]
  initial := by simp [WaitCall.enter]
  timeout := by simp [WaitCall.enter]
  left := by simp [WaitCall.enter]
  broken := by simp [WaitCall.enter, Call.enter]

/-- What is known of the call stays, for the initial signal is not taken back. -/
theorem Connects.mono (h : Connects hz timeoutMs s c)
    (hinitial : s.shared.signals.initialSignal = true → t.shared.signals.initialSignal = true) :
    Connects hz timeoutMs t c :=
  ⟨h.req, h.ended, fun he => hinitial (h.initial he), h.timeout, h.left,
    fun hpc he => hinitial (h.broken hpc he)⟩

/-- Ticks below the range that overflows are kept by the conversion to `int`. -/
theorem waitRetval_of_fits (hfits : 1000 * jiffies hz timeoutMs < 2 ^ 31) {left : Nat}
    (hhi : left ≤ jiffies hz timeoutMs) : waitRetval left = left := by
  rw [waitRetval, toSigned_of_range (by omega) (by omega)]

/-- When the tick conversion does not overflow, something is left of the timeout in
milliseconds too. -/
theorem remaining_pos (hhz : 1 ≤ hz ∧ hz ≤ 1000) (hfits : 1000 * jiffies hz timeoutMs < 2 ^ 31)
    (htimeout : 0 < timeoutMs) (hbig : timeoutMs < 2 ^ 64) {left : Nat} (hlo : 1 ≤ left)
    (hhi : left ≤ jiffies hz timeoutMs) : remainingMs hz timeoutMs (waitRetval left) ≠ 0 := by
  have hkept : toSigned 32 left = left := toSigned_of_range (by omega) (by omega)
  have hprod : toSigned 32 (left * 1000 : Int) = left * 1000 :=
    toSigned_of_range (by omega) (by omega)
  rw [waitRetval]
  refine ((remaining_iff (by omega) htimeout hbig (by omega) (by omega) (by omega)).mpr ?_).1
  refine .inr (.inr ⟨by omega, .inl ?_⟩)
  rw [hkept, hprod]
  omega

/-- Nothing remains only after a timeout, unless nobody has assigned the remaining time. -/
theorem Connects.remaining_iff (h : Connects hz timeoutMs s c) (hhz : 1 ≤ hz ∧ hz ≤ 1000)
    (hfits : 1000 * jiffies hz timeoutMs < 2 ^ 31) (hbig : timeoutMs < 2 ^ 64)
    (hcond : 0 < timeoutMs ∨ p.garbage ≠ 0) (hpc : c.call.pc.succeeds) :
    c.remainingAfter hz p.garbage = 0 ↔ c.ended = some .timeout := by
  have htime : c.call.req.timeoutMs = timeoutMs := by rw [h.req]; rfl
  rw [WaitCall.remainingAfter, Call.remaining, htime]
  by_cases hended : c.ended = some .timeout
  · obtain ⟨hne, -, hleft⟩ := h.timeout hended
    rw [if_neg hne, hleft]
    exact iff_of_true (by simp [remaining_zero]) hended
  refine iff_of_false ?_ hended
  obtain ⟨e, he⟩ : ∃ e, c.ended = some e := by
    rcases h.ended hpc with he | he | he <;> exact ⟨_, he⟩
  obtain ⟨hzero, -⟩ | ⟨hne, left, hleft, hlo, hhi⟩ := h.left e he (by rintro rfl; exact hended he)
  · rw [if_pos hzero]
    exact hcond.resolve_left (by omega)
  · rw [if_neg hne, hleft, Option.map_some, Option.getD_some]
    exact remaining_pos hhz hfits (by omega) hbig hlo hhi

/-- To wake the call changes nothing of what is known of it. -/
theorem Connects.wake (h : Connects hz timeoutMs s c) :
    Connects hz timeoutMs s { c with call := c.call.wake } :=
  ⟨h.req, h.ended, h.initial, h.timeout, h.left, h.broken⟩

/-- To wake the calls keeps the invariant. -/
theorem Connected.wake (h : Connected hz timeoutMs s) : Connected hz timeoutMs s.wake := by
  intro c hc
  obtain ⟨d, hd, rfl⟩ := Option.map_eq_some_iff.mp hc
  exact (h d hd).wake.mono id

/-- A call whose wait has not ended yet. -/
theorem Connects.of_not_succeeds (h : Connects hz timeoutMs s c) {call : Call}
    (hreq : call.req = c.call.req) (hleft : call.left = c.call.left) (hpc : ¬ call.pc.succeeds) :
    Connects hz timeoutMs s { c with call := call } :=
  ⟨hreq.trans h.req, fun hs => absurd hs hpc, h.initial,
    fun he => by rw [hleft]; exact h.timeout he,
    fun e he hne => by rw [hleft]; exact h.left e he hne,
    fun hok => absurd (.inr (.inr hok)) hpc⟩

/-- The condition has ended the wait of the call, by the first event or by a broken pipe. -/
theorem Connects.over {left : Option Nat} {e : WaitEnd} {choice : Choice} {connected : Bool}
    (h : Connects hz timeoutMs s c) (hfits : 1000 * jiffies hz timeoutMs < 2 ^ 31)
    (hleft : c.call.HasLeft left)
    (hticks : ∀ ticks, left = some ticks → ticks ≤ jiffies hz timeoutMs)
    (hended : c.call.endedBy choice = e)
    (he : e = .initial ∧ s.shared.signals.initialSignal = true ∨ e = .broken) :
    Connects hz timeoutMs s (c.record (c.call.over left) choice connected) := by
  have htime : c.call.req.timeoutMs = timeoutMs := by rw [h.req]; rfl
  have hclear : (c.call.over left).pc = .clear := by
    rw [Call.over_pc]
    obtain hover | ⟨ticks, rfl, hneg, -⟩ := AwaitPc.afterWait_cases left
    · exact hover
    · rw [waitRetval_of_fits hfits (hticks ticks rfl)] at hneg
      omega
  have hsome : timeoutMs = 0 ∧ left = none ∨
      timeoutMs ≠ 0 ∧ ∃ ticks, left = some ticks ∧ 1 ≤ ticks ∧ ticks ≤ jiffies hz timeoutMs := by
    cases left with
    | none => exact .inl ⟨htime ▸ hleft, rfl⟩
    | some ticks => exact .inr ⟨htime ▸ hleft.1, ticks, rfl, hleft.2.1, hticks ticks rfl⟩
  rw [WaitCall.record_clear hclear, hended]
  refine ⟨h.req, fun _ => ?_, fun hi => ?_, fun ht => ?_, fun _ _ _ => hsome,
    fun hpc => ?_⟩
  · rcases he with ⟨rfl, -⟩ | rfl
    · exact .inl rfl
    · exact .inr (.inl rfl)
  · rcases he with ⟨-, hset⟩ | rfl
    · exact hset
    · simp at hi
  · rcases he with ⟨rfl, -⟩ | rfl <;> simp at ht
  · rcases hpc with hpc | hpc <;> cases hclear.symm.trans hpc

/-- A step of the call keeps what is known of it. -/
theorem Connects.callStep {call : Call} {choice : Choice} {shared : Shared}
    (h : Connects hz timeoutMs s c) (hfits : 1000 * jiffies hz timeoutMs < 2 ^ 31)
    (hc : s.current = some c)
    (hstep : c.call.step s.shared choice = some (shared, call))
    (htimed : WithinTimeout hz s (.call choice)) (helapses : ElapsesFirst s (.call choice))
    (hbroken : StaysBroken s (.call choice)) (returned : Nat) : Connects hz timeoutMs
      { s with
        shared := shared
        current := some (c.record call choice s.shared.signals.initialSignal)
        returned := returned }
      (c.record call choice s.shared.signals.initialSignal) := by
  have hinitial := (Call.step_frame hstep).initial
  refine Connects.mono (s := { s with shared := shared }) ?_ id
  have hmono : Connects hz timeoutMs { s with shared := shared } c := h.mono hinitial.trans
  have hticks : ∀ left ticks, choice = .ofLeft left → left = some ticks →
      ticks ≤ jiffies hz timeoutMs := by
    rintro _ ticks rfl rfl
    have hle := htimed c hc
    rwa [h.req] at hle
  cases Call.goes hstep with
  | early _ pc hpc _ hnext _ _ =>
    have hnot : ¬ pc.succeeds := by
      rcases hnext with hnext | ⟨e, rfl⟩
      · rintro (rfl | rfl | rfl | rfl) <;> cases hnext
      · simp [AwaitPc.succeeds]
    rw [WaitCall.record_of_ne fun he => hnot (.inl he)]
    exact hmono.of_not_succeeds rfl rfl hnot
  | reset hpc =>
    rw [WaitCall.record_of_ne (by simp)]
    exact hmono.of_not_succeeds rfl rfl (by simp [AwaitPc.succeeds])
  | waits pc woken hpc hnext _ =>
    have hnot : ¬ pc.succeeds := by rintro (rfl | rfl | rfl | rfl) <;> cases hnext
    rw [WaitCall.record_of_ne fun he => hnot (.inl he)]
    exact hmono.of_not_succeeds rfl rfl hnot
  | user _ hpc hreq hset =>
    rw [h.req] at hreq
    cases hreq
  | initial left hpc hreq hset hleft =>
    have hended : c.call.endedBy (.ofLeft left) = .initial := by
      cases left <;> simp [Call.endedBy, Choice.ofLeft, hpc]
    exact h.over hfits hleft (fun ticks => hticks left ticks rfl) hended (.inl ⟨rfl, hset⟩)
  | latent _ hpc hreq hset =>
    rw [h.req] at hreq
    cases hreq
  | broken left hpc hbroken hleft =>
    have hended : c.call.endedBy (.ofLeft left) = .broken := by
      cases left <;> simp [Call.endedBy, Choice.ofLeft, hpc]
    exact h.over hfits hleft (fun ticks => hticks left ticks rfl) hended (.inr rfl)
  | timeout hpc htimeout =>
    have hended : c.call.endedBy .timeout = .timeout := rfl
    rw [WaitCall.record_clear (by simp), hended]
    rw [h.req] at htimeout
    exact ⟨h.req, fun _ => .inr (.inr rfl), by simp, fun _ => ⟨htimeout, helapses, rfl⟩,
      fun e he hne => absurd (Option.some.inj he).symm hne, by simp⟩
  | interrupt hpc =>
    rw [WaitCall.record_of_ne (by simp)]
    exact hmono.of_not_succeeds rfl rfl (by simp [AwaitPc.succeeds])
  | clear hpc =>
    rw [WaitCall.record_of_ne (by simp)]
    exact ⟨h.req, fun _ => h.ended (.inl hpc), hmono.initial, h.timeout, h.left, by simp⟩
  | recheck hpc =>
    rw [WaitCall.record_of_ne (by simp)]
    refine ⟨h.req, fun _ => h.ended (.inr (.inl hpc)), hmono.initial, h.timeout, h.left, ?_⟩
    intro hok hended
    by_contra hinitial
    -- the pipe that has ended the wait is whole again
    have hstays := hbroken c hc hpc hended (by simpa using hinitial)
    simp [hstays] at hok
  | unlock _ r hpc _ _ =>
    rw [WaitCall.record_of_ne (by simp)]
    refine ⟨h.req, fun hs => ?_, hmono.initial, h.timeout, h.left, fun hs => ?_⟩
    · obtain rfl : r = .ok := by simpa [AwaitPc.succeeds] using hs
      exact h.ended (.inr (.inr (.inl hpc)))
    · obtain rfl : r = .ok := by simpa using hs
      exact hmono.broken (.inl hpc)

/-- The handler does not take the initial signal back. -/
theorem HandlerPc.step_initial (pc : HandlerPc) (shared : Shared)
    (h : shared.signals.initialSignal = true) :
    (pc.step shared).1.signals.initialSignal = true := by
  cases pc with
  | start =>
    simp only [HandlerPc.step]
    split_ifs
    exact h
  | answer => exact h
  | setInitial => rfl
  | setUser => exact h
  | setLatent => exact h
  | wakeUp => exact h

/-- One step of the call or of its surroundings keeps the invariant. -/
theorem Connected.step {input : Waiter.Input} (h : Connected hz timeoutMs s)
    (hfits : 1000 * jiffies hz timeoutMs < 2 ^ 31) (htimed : WithinTimeout hz s input)
    (helapses : ElapsesFirst s input) (hbroken : StaysBroken s input)
    (hstep : s.step (fun _ => Request.pipeWait timeoutMs) input = some t) :
    Connected hz timeoutMs t := by
  have hhandler : ∀ pc, Connected hz timeoutMs (s.afterHandler pc) :=
    fun pc c hc => (h c hc).mono (pc.step_initial s.shared)
  cases Waiter.steps hstep with
  | enter _ => exact fun c hc => Option.some.inj hc ▸ .enter hz _ _ _
  | call _ _ _ _ hc hcall =>
    exact fun d hd => Option.some.inj hd ▸
      (h _ hc).callStep hfits hc hcall htimed helapses hbroken _
  | handler pc => exact hhandler pc
  | wakeUp pc => exact (hhandler pc).wake
  | wake => exact h.wake
  | other _ _ hcurrent _ _ hinitial _ =>
    exact fun c hc => (h c (hcurrent ▸ hc)).mono hinitial.trans

end Steps

/-- The handle of an offerer with its pages mapped, and with this content of the record. -/
def PipeHandle.offerer (garbage : Nat) : PipeHandle := ⟨true, true, ⟨true, true, true⟩, garbage⟩

end XenShm.Kernel
