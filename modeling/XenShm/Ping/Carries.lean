import XenShm.Ping.Attends

/-!
# A pipe between the two threads

What holds at a pipe of the ping handlers whatever its kernels, its event channel and its
processes do, and what a new call of a thread or the return of one changes.
-/

namespace XenShm.Ping

open XenShm.Library XenShm.Pipe

variable {g : Geometry} {conv : Conv} {c d : Connection} {m : Mod} {i : Connection.Input}
  {announced : Nat} {packets : Mod → Nat} {duty : Mod → Duty} {book : Mod → Book}

/-- The reader will not sleep over the first `announced` packets: an event was sent behind them,
or none was needed. -/
def Announces (g : Geometry) (c : Connection) (announced : Nat) : Prop :=
  ∃ sent, Connection.Marked g (withSent c sent) ∧ announced * pingPacketSize ≤ sent .read

/-- Both ends do what their threads have asked them for, and their calls are in the books. -/
def Booked (g : Geometry) (c : Connection) (packets : Mod → Nat) (duty : Mod → Duty) : Prop :=
  ∃ book, Ledger.Sound g ⟨c.sys, book⟩ ∧ ∀ m, Attends g c (book m) m (packets m) (duty m)

/-- A pipe with the packets that were moved through each end and the calls in progress. -/
structure Carries (g : Geometry) (c : Connection) (announced : Nat) (packets : Mod → Nat)
    (duty : Mod → Duty) : Prop where
  /-- The marks of the events say that the reader hears of this many packets. -/
  announces : Announces g c announced
  /-- The calls of the threads are in the books of the ends. -/
  booked : Booked g c packets duty
  /-- No call at this pipe has failed. -/
  unbroken : c.sys.Unbroken
  /-- The writer never decides to sleep, for the pipe has room for a packet. -/
  awake : (c.sys.proc .write).headed = false
  /-- The probe for a broken pipe never waits. -/
  probes : ∀ m, Probes (c.kernel m) (c.sys.proc m)

/-- The same pipe with an account that says the same in other terms. -/
theorem Carries.congr {announced' : Nat} {packets' : Mod → Nat} {duty' : Mod → Duty}
    (h : Carries g c announced packets duty) (ha : Announces g c announced')
    (hp : packets' = packets) (hd : duty' = duty) : Carries g c announced' packets' duty' := by
  subst hp hd
  exact ⟨ha, h.booked, h.unbroken, h.awake, h.probes⟩

/-- The books go on with a step of a process. -/
private theorem sound_after {j : Pipe.Input} {sys : System} (h : Ledger.Sound g ⟨c.sys, book⟩)
    (hs : c.sys.step g (m, j) = some sys) :
    Ledger.Sound g ⟨sys, Function.update book m
      ((book m).after (c.sys.proc m) (c.sys.stream m) j)⟩ := by
  refine h.step (x := (m, j)) ?_
  rw [Ledger.step, hs]
  rfl

/-- A copying loop that is done has moved something. -/
private theorem Booked.moved (h : Booked g c packets duty) (hpc : (c.sys.proc m).pc = .avail)
    (hdone : (c.sys.proc m).xfer.pc = .done) :
    (c.sys.proc m).xfer.userBuf < (c.sys.proc m).xfer.current := by
  obtain ⟨book, hsound, hattends⟩ := h
  obtain ⟨-, hasked, -⟩ := (hattends m).of_busy (by simp [Proc.busy, hpc])
  obtain ⟨_, _, hx⟩ := (hsound.kept.ends m).loop hpc
  exact (hsound.underway m (by rw [hasked]; decide) hpc).moved hdone hx.ge

/-- A step of a process without a new call. -/
private theorem Booked.own {j : Pipe.Input} (h : Booked g c packets duty) (hu : c.sys.Unbroken)
    (hj : j = .tick ∨ j = .ioctl .ok) (hs : c.sys.step g (m, j) = some d.sys)
    (hcalled : d.called = c.called) (hother : d.flushed m = c.flushed m)
    (hflushed : (c.sys.proc m).pc = .flushSignal → j = .ioctl .ok →
      d.flushed m.peer = c.called m) : Booked g d packets duty := by
  obtain ⟨book, hsound, hattends⟩ := h
  refine ⟨_, sound_after hsound hs, Mod.forall_of m ?_ ?_⟩
  · rw [Function.update_self]
    exact (hattends m).own hsound (hu.proc m) (hu.notClosed m.peer).1 hj hs hcalled hflushed
  · rw [Function.update_of_ne m.peer_ne]
    refine (hattends m.peer).congr (System.proc_peer_step hs) (System.stream_peer_step hs)
      (System.shown_peer_step hs) (by rw [hcalled]) ?_
    rw [m.peer_peer, hother]

/-- A writer that has room does not decide to sleep. -/
private theorem awake_step {j : Pipe.Input} {sys : System}
    (hawake : (c.sys.proc .write).headed = false)
    (hsound : Ledger.Sound g ⟨c.sys, book⟩) (hready : c.sys.Ready g .write)
    (hs : c.sys.step g (m, j) = some sys) : (sys.proc .write).headed = false := by
  cases m with
  | read =>
    have hsame : sys.proc .write = c.sys.proc .write := System.proc_peer_step hs
    rwa [hsame]
  | write =>
    by_contra hheaded
    rw [Bool.not_eq_false] at hheaded
    rcases Proc.step_headed (System.step_proc hs) hheaded with hbefore | ⟨test, loop⟩
    · rw [hawake] at hbefore
      contradiction
    · exact hsound.alert.not_ready hsound.kept test loop hready

/-- A flush or a probe is only under way at an end that was greeted. -/
private theorem Carries.fine (h : Carries g c announced packets duty)
    (hgreeted : (∀ m, (c.kernel m).signals.initialSignal = true) ∨ ∀ m, duty m = .none) :
    Connection.FlushesGreeted c i ∧ ∀ m, i = .enter m → (c.sys.proc m).pc = .probe →
      (c.kernel m).signals.initialSignal = true := by
  obtain ⟨book, -, hattends⟩ := h.booked
  constructor
  · cases i with
    | kernel m choice =>
      intro _ hpc
      rcases hgreeted with hgreeted | hnone
      · exact hgreeted m.peer
      · have hduty := (hattends m).of_flushSignal hpc
        rw [hnone m] at hduty
        contradiction
    | _ => trivial
  · intro m _ hpc
    rcases hgreeted with hgreeted | hnone
    · exact hgreeted m
    · have hduty := ((hattends m).of_busy (by simp [Proc.busy, hpc])).1
      rw [hnone m] at hduty
      contradiction

/-- An event that was once announced stays announced. -/
private theorem Announces.step (h : Announces g c announced) (hfine : Connection.FlushesGreeted c i)
    (hs : c.step g conv i = some d) : Announces g d announced := by
  obtain ⟨sent, hmarked, hle⟩ := h
  obtain ⟨sent', hstep, hmono⟩ := step_withSent sent hs
  refine ⟨sent', hmarked.step ?_ hstep, hle.trans (hmono .read)⟩
  cases i <;> exact hfine

/-- An internal step of the pipe keeps it carrying the same packets for the same duties. -/
theorem Carries.step (h : Carries g c announced packets duty) (hi : internal i = true)
    (hok : ∀ m choice, i = .kernel m choice → ∀ r, (c.kernel m).task = .ret r → r = .ok)
    (hgreeted : (∀ m, (c.kernel m).signals.initialSignal = true) ∨ ∀ m, duty m = .none)
    (hready : c.sys.Ready g .write) (hs : c.step g conv i = some d) :
    Carries g d announced packets duty := by
  obtain ⟨hfine, hprobe⟩ := h.fine hgreeted
  have htend := tend hi hs hprobe
  have hannounces := h.announces.step hfine hs
  have hprobes := fun m => (htend m).probes (h.probes m)
  obtain ⟨book, hsound, hattends⟩ := h.booked
  cases effect hi hs with
  | kernels hsys hcalled hflushed =>
    refine ⟨hannounces, ⟨book, by rwa [hsys], fun m => ?_⟩, by rw [hsys]; exact h.unbroken,
      by rw [hsys]; exact h.awake, hprobes⟩
    exact (hattends m).congr (by rw [hsys]) (by rw [hsys]) (by rw [hsys]) (by rw [hcalled])
      (by rw [hflushed])
  | tick m hidle hsys hcalled hflushed =>
    refine ⟨hannounces, h.booked.own h.unbroken (.inl rfl) hsys hcalled
      (by rw [hflushed]) nofun, ?_,
      awake_step h.awake hsound hready hsys, hprobes⟩
    exact h.unbroken.step (fun hpc hdone => h.booked.moved hpc hdone) rfl hsys
  | ioctl m choice r htask hsys hcalled hflushed =>
    obtain rfl := hok m choice rfl r htask
    refine ⟨hannounces, h.booked.own h.unbroken (.inr rfl) hsys hcalled ?_ fun hpc _ => ?_, ?_,
      awake_step h.awake hsound hready hsys, hprobes⟩
    · rw [hflushed]
      split
      · exact Function.update_of_ne m.peer_ne.symm ..
      · rfl
    · rw [hflushed, if_pos ⟨hpc, rfl⟩, Function.update_self]
    · exact h.unbroken.step (fun hpc hdone => h.booked.moved hpc hdone) rfl hsys

/-- Ends that were greeted stay greeted over an internal step. -/
theorem Carries.greeted_step (h : Carries g c announced packets duty) (hi : internal i = true)
    (hgreeted : ∀ m, (c.kernel m).signals.initialSignal = true) (hs : c.step g conv i = some d)
    (m : Mod) : (d.kernel m).signals.initialSignal = true :=
  (tend hi hs (h.fine (.inl hgreeted)).2 m).greeted (hgreeted m)

/-- What a call of the user changes at the end that it is made on. -/
theorem user_step {j : Pipe.Input} (hpc : (c.sys.proc m).pc ≠ .close)
    (h : c.step g conv (.user m j) = some d) : (c.kernel m).task = .idle ∧
      c.sys.step g (m, j) = some d.sys ∧ d.kernel = c.kernel ∧ d.flushed = c.flushed ∧
      d.called m.peer = c.called m.peer ∧
      (j = .flush → d.called m = bound g m.peer (c.sys.shown m)) := by
  cases Connection.steps h with
  | user _ _ sys hidle hsys =>
    unfold Connection.afterUser
    rw [if_neg hpc]
    cases j with
    | flush => exact ⟨hidle, hsys, rfl, rfl, Function.update_of_ne m.peer_ne ..,
        fun _ => Function.update_self ..⟩
    | _ => exact ⟨hidle, hsys, rfl, rfl, rfl, by simp⟩

/-- No thread frees the handle, so neither end is ever at its close. -/
theorem pc_ne_close (h : c.sys.Unbroken) (m : Mod) : (c.sys.proc m).pc ≠ .close := by
  intro hpc
  have hinUse := (h.proc m).inUse
  simp [Proc.inUse, hpc] at hinUse

/-- A new call does not concern the kernels yet. -/
theorem Carries.kernel_user {j : Pipe.Input} (h : Carries g c announced packets duty)
    (hs : c.step g conv (.user m j) = some d) : d.kernel = c.kernel :=
  (user_step (pc_ne_close h.unbroken m) hs).2.2.1

/-- What a call of the user leaves as it is. -/
private theorem Carries.user {j : Pipe.Input} {duty' : Duty}
    (h : Carries g c announced packets duty)
    (hj : j.regular m = true) (hready : c.sys.Ready g .write)
    (hown : ∀ book, Ledger.Sound g ⟨c.sys, book⟩ → Attends g c (book m) m (packets m) (duty m) →
      Attends g d ((book m).after (c.sys.proc m) (c.sys.stream m) j) m (packets m) duty')
    (hs : c.step g conv (.user m j) = some d) :
    Carries g d announced packets (Function.update duty m duty') := by
  obtain ⟨hidle, hsys, hkernel, hflushed, hcalled, -⟩ := user_step (pc_ne_close h.unbroken m) hs
  obtain ⟨book, hsound, hattends⟩ := h.booked
  refine ⟨h.announces.step (by trivial) hs, ⟨_, sound_after hsound hsys, Mod.forall_of m ?_ ?_⟩, ?_,
    awake_step h.awake hsound hready hsys, Mod.forall_of m ?_ ?_⟩
  · rw [Function.update_self, Function.update_self]
    exact hown book hsound (hattends m)
  · rw [Function.update_of_ne m.peer_ne, Function.update_of_ne m.peer_ne]
    exact (hattends m.peer).congr (System.proc_peer_step hsys) (System.stream_peer_step hsys)
      (System.shown_peer_step hsys) hcalled (by rw [hflushed])
  · exact h.unbroken.step (fun hpc hdone => h.booked.moved hpc hdone) hj hsys
  · intro call ht
    rw [hkernel, hidle] at ht
    contradiction
  · rw [hkernel, System.proc_peer_step hsys]
    exact h.probes m.peer

/-- A thread that asks for a packet gives its end the duty to transfer one. -/
theorem Carries.beginTransfer {addr : Nat} {mem : Nat → UInt8}
    (h : Carries g c announced packets duty) (hduty : duty m = .none)
    (hready : c.sys.Ready g .write)
    (hs : c.step g conv (.user m (.transfer m true addr pingPacketSize mem)) = some d) :
    Carries g d announced packets (Function.update duty m .transfer) := by
  refine h.user (by simp [Pipe.Input.regular]) hready (fun book hsound hattends => ?_) hs
  obtain ⟨-, hsys, -⟩ := user_step (pc_ne_close h.unbroken m) hs
  rw [hduty] at hattends
  exact hattends.beginTransfer hsound.kept (h.unbroken.proc m).mapped hsys

/-- A thread that asks for a flush gives its end the duty to flush. -/
theorem Carries.beginFlush (h : Carries g c announced packets duty) (hduty : duty m = .none)
    (hready : c.sys.Ready g .write) (hs : c.step g conv (.user m .flush) = some d) :
    Carries g d announced packets (Function.update duty m .flush) := by
  refine h.user rfl hready (fun book hsound hattends => ?_) hs
  obtain ⟨-, hsys, -, -, -, hcalled⟩ := user_step (pc_ne_close h.unbroken m) hs
  rw [hduty] at hattends
  exact hattends.beginFlush (h.unbroken.proc m).mapped hsys (hcalled rfl)

/-- A thread takes the value of its call. -/
theorem Carries.conclude (h : Carries g c announced packets duty)
    (hpc : (c.sys.proc m).pc = .idle) :
    Carries g c announced
      (Function.update packets m (if duty m = .transfer then packets m + 1 else packets m))
      (Function.update duty m .none) := by
  obtain ⟨book, hsound, hattends⟩ := h.booked
  refine ⟨h.announces, ⟨book, hsound, Mod.forall_of m ?_ ?_⟩, h.unbroken, h.awake, h.probes⟩
  · rw [Function.update_self, Function.update_self]
    exact (hattends m).conclude hpc
  · rw [Function.update_of_ne m.peer_ne, Function.update_of_ne m.peer_ne]
    exact hattends m.peer

/-- The writer has flushed what it has written. -/
theorem Carries.announced_of_flush (h : Carries g c announced packets duty)
    (hduty : duty .write = .flush) (hpc : (c.sys.proc .write).pc = .idle) :
    Announces g c (packets .write) := by
  obtain ⟨sent, hmarked, -⟩ := h.announces
  obtain ⟨book, hsound, hattends⟩ := h.booked
  have hwrite := hattends .write
  have hshown := hwrite.le_shown hsound.kept
  rw [hduty] at hwrite
  cases hwrite with
  | flushing hflush => rcases hflush with hflush | hflush <;> simp [hflush] at hpc
  | flushed _ _ hflushed =>
    have hsent : c.flushed .read ≤ sent .read := hmarked.flushed .read
    exact ⟨sent, hmarked, (hshown.trans hflushed.ge).trans hsent⟩

/-- The reader is not about to sleep over what was written, or an event is on its way. -/
theorem Carries.announced_of_token (h : Carries g c announced packets duty)
    (hgreeted : (c.kernel .read).signals.initialSignal = true)
    (htoken : c.Committed .read → (c.kernel .read).Token) : Announces g c (packets .write) := by
  obtain ⟨sent, hmarked, -⟩ := h.announces
  obtain ⟨book, hsound, hattends⟩ := h.booked
  have hshown := (hattends .write).le_shown hsound.kept
  have hsent := hmarked.sent .read
  refine ⟨Function.update sent .read (c.sys.shown .write), ?_, by simpa using hshown⟩
  exact hmarked.setSent (m := .read) le_rfl hsent hgreeted htoken

/-- What the ends have moved and shown, against the packets that the threads have counted. -/
theorem Carries.bounds (h : Carries g c announced packets duty) :
    packets .read * pingPacketSize ≤ c.sys.shown .read ∧
      c.sys.shown .read ≤ c.sys.shown .write ∧ c.sys.shown .write ≤
        (if duty .write = .transfer then packets .write + 1 else packets .write) *
          pingPacketSize := by
  obtain ⟨book, hsound, hattends⟩ := h.booked
  have hwrite := (hattends .write).stream_le hsound
  refine ⟨(hattends .read).le_shown hsound.kept, ?_, ?_⟩
  · exact hsound.kept.released_le.trans hsound.kept.handed_le
  · exact hsound.kept.published_le.trans hwrite

/-- An end that is blocked is the reader. It reads a packet it has not got. -/
theorem Carries.blocked (h : Carries g c announced packets duty)
    (hsleeps : (c.kernel m).task.sleeps = true) (hpending : (c.kernel m).pending = false)
    (hhandler : (c.kernel m).handler = none)
    (hlatch : (c.kernel m).signals.latentUserSignal = false) :
    m = .read ∧ duty m = .transfer ∧
      announced * pingPacketSize ≤ c.sys.shown m ∧
      c.sys.shown m < (packets m + 1) * pingPacketSize := by
  have hpc : (c.sys.proc m).pc = .asleep := by
    cases ht : (c.kernel m).task with
    | await call =>
      rw [ht] at hsleeps
      rcases h.probes m call ht with hpc | ⟨-, -, hparked⟩
      · exact hpc
      · simp [of_decide_eq_true hsleeps, parked] at hparked
    | _ => simp [ht, Task.sleeps] at hsleeps
  have hstuck : Connection.Stuck c m := ⟨hpc, hsleeps, hpending, hhandler, hlatch⟩
  have hread : m = .read := by
    cases m with
    | read => rfl
    | write =>
      have hheaded := hstuck.committed.1.1
      rw [h.awake] at hheaded
      contradiction
  obtain ⟨sent, hmarked, hannounced⟩ := h.announces
  obtain ⟨book, hsound, hattends⟩ := h.booked
  have hbusy : (c.sys.proc m).busy = true := by simp [Proc.busy, hpc]
  obtain ⟨hduty, hasked, hopened⟩ := (hattends m).of_busy hbusy
  have hbal : Balanced m (c.sys.proc m) (book m) (c.sys.stream m) (c.sys.Ready g m) :=
    hsound.balanced m hbusy (by rw [hasked]; decide)
  have hbegun := length_begun hbal
  have hpos := hbal.pos
  have hstream : c.sys.stream m = (book m).begun := by
    have hcounts := hbal.counts
    simpa only [Proc.Counts, hpc] using hcounts
  refine ⟨hread, hduty, ?_, ?_⟩
  · subst hread
    exact hannounced.trans (hmarked.sent_le hstuck)
  · rw [shown_eq hsound.kept (by simp [hpc]), hstream, Nat.succ_mul]
    omega

end XenShm.Ping
