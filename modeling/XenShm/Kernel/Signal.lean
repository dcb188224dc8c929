import Mathlib.Logic.Function.Basic
import XenShm.Kernel.Await
import XenShm.Library.Run

/-!
# User signals inside the kernel

One connected instance, its event handler and any number of calls that wait on it. All
calls share one `user_signal` and one `latent_user_signal`: a call resets the first when
it begins and the second when its wait has ended, whatever ended it.

The runs of the handler are numbered, and for each run it is recorded whether the wait
of some call has ended because of it.
-/

namespace XenShm.Kernel

open Library

/-- A call of a process, with the records about it that only the proof needs. -/
structure Caller where
  /-- The call itself, as the code makes it. -/
  call : Call
  /-- Runs of the handler begun when it reset `user_signal`. -/
  since : Nat
  /-- No signal was outstanding when it reset `user_signal`. -/
  clean : Bool
  /-- The last outstanding run that the call has dealt with, when a signal has ended its wait. -/
  seen : Option Nat

/-- One instance and everything that goes on with its signals. -/
structure Station where
  /-- What the calls and the handler share. -/
  shared : Shared
  /-- The run of the handler, when there is one. -/
  handler : Option HandlerPc
  /-- The calls that were made so far, by their numbers. -/
  callers : Nat → Option Caller
  /-- Runs of the handler that have set `user_signal`. -/
  begun : Nat
  /-- Runs of the handler that have set `latent_user_signal`. -/
  latched : Nat
  /-- Runs begun when `user_signal` was last reset. -/
  resetAt : Nat
  /-- Runs latched when `latent_user_signal` was last cleared. -/
  clearAt : Nat
  /-- The runs because of which the wait of some call has ended. -/
  answered : Nat → Bool

/-- What happens next at the station, in any order. -/
inductive Station.Input where
  /-- A process makes the call number `i`. -/
  | enter (i : Nat) (req : Request)
  /-- The call number `i` goes on. -/
  | call (i : Nat) (choice : Choice)
  /-- An event is delivered, and a run of the handler begins. -/
  | deliver
  /-- The handler goes on with its next access. -/
  | handler

/-- A signal was set and not cleared, or is just being set. -/
def Station.outstanding (s : Station) : Bool :=
  s.shared.signals.latentUserSignal || s.handler = some .setLatent

/-- The runs that a read of `user_signal` tells of. -/
def Station.byUser (s : Station) (k : Nat) : Bool := s.resetAt < k ∧ k ≤ s.begun

/-- The runs that a read of `latent_user_signal` tells of. -/
def Station.byLatch (s : Station) (k : Nat) : Bool :=
  s.shared.signals.latentUserSignal ∧ s.clearAt < k ∧ k ≤ s.latched

/-- The wait of the call is over, and the call will return 0 and report no timeout: the ticks left
are positive as an `int`, and `remaining_ms` is not 0. -/
def Call.reports (hz : Nat) (c : Call) : Bool := c.pc = .clear && c.remaining hz ≠ some 0

/-- Record the step of a call from `c` to `call`. -/
def Station.record (hz : Nat) (s : Station) (i : Nat) (c : Caller) (shared : Shared) (call : Call) :
    Station :=
  let put (c : Caller) : Station :=
    { s with shared := shared, callers := Function.update s.callers i (some c) }
  match c.call.pc, call.reports hz with
  | .reset, _ =>
    { put { c with call := call, since := s.begun, clean := ¬ s.outstanding } with
      resetAt := s.begun }
  | .checkUser, true =>
    { put { c with
        call := call, seen := some (if c.clean || c.call.req.latentUser then s.begun else 0) } with
      answered := fun k => s.answered k || s.byUser k || (c.call.req.latentUser && s.byLatch k) }
  | .checkLatent, true =>
    { put { c with call := call, seen := some s.latched } with
      answered := fun k => s.answered k || s.byLatch k }
  | .clear, _ =>
    { put { c with call := call } with
      clearAt := if c.call.req.takesSignals then s.latched else s.clearAt }
  | _, _ => put { c with call := call }

/-- Record the step of the handler from `pc`. -/
def Station.recordHandler (s : Station) (pc : HandlerPc) : Station :=
  let (shared, next) := pc.step s.shared
  let s := { s with shared := shared, handler := next }
  match pc with
  | .setUser => { s with begun := s.begun + 1 }
  | .setLatent => { s with latched := s.latched + 1 }
  | .wakeUp =>
    { s with callers := fun i => (s.callers i).map fun c => { c with call := c.call.wake } }
  | _ => s

/-- One step of the station, `none` where the input does not apply. -/
def Station.step (hz : Nat) (s : Station) : Input → Option Station
  | .enter i req =>
    if (s.callers i).isSome then none
    else some { s with
      callers := Function.update s.callers i (some ⟨.enter req, 0, false, none⟩) }
  | .call i choice => do
    let c ← s.callers i
    let (shared, call) ← c.call.step s.shared choice
    return s.record hz i c shared call
  | .deliver => if s.handler.isSome then none else some { s with handler := some .start }
  | .handler => s.handler.map s.recordHandler

/-- No call was made yet. The runs of the handler before are taken as one, which is outstanding
when the latch is set. -/
def Station.initial (state : State) (header : Header) (user latent : Bool) : Station where
  shared := ⟨state, ⟨true, user, latent⟩, header⟩
  handler := none
  callers := fun _ => none
  begun := 1
  latched := 1
  resetAt := if user then 0 else 1
  clearAt := if latent then 0 else 1
  answered := fun k => k = 1 ∧ ¬ latent

/-- The places after the end of a wait that lead to the result 0. -/
def AwaitPc.returnsOk : AwaitPc → Bool
  | .clear | .recheck | .unlock .ok | .done .ok => true
  | _ => false

/-- A call resets `user_signal` only while it is not set or nobody waits for it. -/
def ResetsUnseen (s : Station) : Prop :=
  s.shared.signals.userSignal = true →
    ∀ j d, s.callers j = some d → d.call.pc.waiting = true → d.call.req.user = false

/-- A call that clears a set latch finds that the wait of some call, which has not cleared it
either, was ended by the runs that set it. -/
def ClearsSeen (s : Station) (c : Caller) : Prop :=
  c.call.req.takesSignals = true → s.shared.signals.latentUserSignal = true →
    ∃ j d n, s.callers j = some d ∧ d.call.pc = .clear ∧ d.seen = some n ∧ s.latched ≤ n

/-- The condition on the steps: neither of the two resets of a call meets a run it does not see. -/
def ResetsSafely (s : Station) : Station.Input → Prop
  | .call i .proceed => ∀ c, s.callers i = some c →
    (c.call.pc = .reset → ResetsUnseen s) ∧ (c.call.pc = .clear → ClearsSeen s c)
  | _ => True

/-- The wake-up of the handler is still to come. -/
def Station.wakesSoon (s : Station) : Prop :=
  s.handler = some .setLatent ∨ s.handler = some .wakeUp

/-- What is known of the counters, with a connection that stays. -/
structure Counted (s : Station) : Prop where
  /-- The connection is established, and the first event was handled. -/
  initial : s.shared.signals.initialSignal = true
  /-- Neither end has closed its state in the header page. -/
  notBroken : s.shared.header.isBrokenPipe = false
  /-- The handler does not answer a first event. -/
  noAnswer : s.handler ≠ some .answer ∧ s.handler ≠ some .setInitial
  /-- At most one run is between its two stores. -/
  begun : s.begun = s.latched + if s.handler = some .setLatent then 1 else 0
  /-- `user_signal` is set exactly when a run has begun since it was reset. -/
  user : s.shared.signals.userSignal = true ↔ s.resetAt < s.begun
  /-- `latent_user_signal` is set exactly when a run has set it since it was cleared. -/
  latent : s.shared.signals.latentUserSignal = true ↔ s.clearAt < s.latched
  /-- No counter of a reset is ahead. -/
  reset : s.resetAt ≤ s.begun
  /-- No counter of a clear is ahead. -/
  clear : s.clearAt ≤ s.latched
  /-- What is not in the latch has ended a wait. -/
  kept : ∀ k, 0 < k → k ≤ s.clearAt → s.answered k = true

/-- What is known of a call, at whatever place it is. -/
structure Attended (hz : Nat) (s : Station) (c : Caller) : Prop where
  /-- The wait of the call has not ended yet. -/
  before : c.call.pc.behind = false → c.seen = none
  /-- While it waits for user signals, the last reset was its own or changed nothing. -/
  since : c.call.pc.waiting = true → c.call.req.user = true → s.resetAt = c.since
  /-- Runs outstanding when it began are no longer in the latch. -/
  clean : c.call.pc.waiting = true → c.clean = true → c.since ≤ s.clearAt
  /-- The runs it has dealt with have ended a wait. -/
  seen : ∀ n, c.seen = some n → ∀ k, s.clearAt < k → k ≤ n → s.answered k = true
  /-- A call whose wait a signal has ended returns 0. -/
  returns : c.seen.isSome = true → c.call.pc.returnsOk = true ∧ c.call.remaining hz ≠ some 0
  /-- The call does not sleep through a run that has begun behind its reset. -/
  awake : c.call.req.user = true → c.call.pc.foundReset = true → c.since < s.begun →
    c.call.woken = true ∨ s.wakesSoon

/-- The invariant of the station. -/
structure Guarded (hz : Nat) (s : Station) : Prop where
  counted : Counted s
  attended : ∀ i c, s.callers i = some c → Attended hz s c

section Steps

variable {hz : Nat} {s t : Station} {i : Nat} {c : Caller} {shared : Shared} {call : Call}

/-- What is known of a call stays known when nothing but the other calls and the records of
clears and answers change. -/
theorem Attended.mono (h : Attended hz s c) (hreset : t.resetAt = s.resetAt)
    (hbegun : t.begun = s.begun) (hwakes : s.wakesSoon → t.wakesSoon)
    (hclear : s.clearAt ≤ t.clearAt)
    (hanswered : ∀ k, s.answered k = true → t.answered k = true) : Attended hz t c where
  before := h.before
  since := fun hw hu => hreset.trans (h.since hw hu)
  clean := fun hw hc => (h.clean hw hc).trans hclear
  seen := fun n hn k hlo hhi => hanswered k (h.seen n hn k (by omega) hhi)
  returns := h.returns
  awake := fun hu hf hb => by
    rw [hbegun] at hb
    exact (h.awake hu hf hb).imp_right hwakes

/-- The step of a call that changes neither the signals nor the records. -/
theorem Guarded.move (h : Guarded hz s) (hsignals : shared.signals = s.shared.signals)
    (hbroken : shared.header.isBrokenPipe = false) (hcall : Attended hz s { c with call := call }) :
    Guarded hz { s with
      shared := shared
      callers := Function.update s.callers i (some { c with call := call }) } where
  counted := by
    obtain ⟨h₁, -, h₃, h₄, h₅, h₆, h₇, h₈, h₉⟩ := h.counted
    exact ⟨by rwa [hsignals], hbroken, h₃, h₄, by rwa [hsignals], by rwa [hsignals], h₇, h₈, h₉⟩
  attended := by
    intro j d hd
    by_cases hj : j = i
    · subst hj
      simp only [Function.update_self, Option.some.injEq] at hd
      subst hd
      exact hcall.mono rfl rfl id le_rfl fun _ => id
    · simp only [Function.update_of_ne hj] at hd
      exact (h.attended j d hd).mono rfl rfl id le_rfl fun _ => id

/-- A call that goes on before its wait. -/
theorem Attended.early (h : Attended hz s c) (hpc : c.call.pc.behind = false)
    (hreq : call.req = c.call.req)
    (hwait : call.pc.waiting = true → c.call.pc.waiting = true)
    (hfound : call.pc.foundReset = true → c.call.req.user = true →
      c.call.pc.foundReset = true ∧ call.woken = c.call.woken ∨ ¬ c.since < s.begun) :
    Attended hz s { c with call := call } := by
  have hseen := h.before hpc
  refine ⟨fun _ => hseen, fun hw hu => h.since (hwait hw) (hreq ▸ hu),
    fun hw hclean => h.clean (hwait hw) hclean, h.seen, by simp [hseen], fun hu hf hb => ?_⟩
  rw [hreq] at hu
  rcases hfound hf hu with ⟨hf, hwoken⟩ | hnot
  · rw [hwoken]
    exact h.awake hu hf hb
  · exact absurd hb hnot

/-- A call that goes on behind its wait. -/
theorem Attended.late (h : Attended hz s c) (hpc : call.pc.behind = true)
    (hreturns : c.seen.isSome = true →
      call.pc.returnsOk = true ∧ call.remaining hz ≠ some 0) :
    Attended hz s { c with call := call } := by
  have hnot : call.pc.waiting = false ∧ call.pc.foundReset = false := by
    cases hpc' : call.pc <;> simp_all [AwaitPc.behind, AwaitPc.waiting, AwaitPc.foundReset]
  exact ⟨by simp [hpc], by simp [hnot.1], by simp [hnot.1], h.seen, hreturns, by simp [hnot.2]⟩

/-- A call that was refused, interrupted or timed out. -/
theorem Attended.unseen (h : Attended hz s c) (hpc : c.call.pc.behind = false)
    (hlate : call.pc.behind = true) : Attended hz s { c with call := call } :=
  h.late hlate (by simp [h.before hpc])

/-- When the call resets `user_signal` safely, the invariant is kept. -/
theorem Guarded.reset (h : Guarded hz s) (hc : s.callers i = some c) (hpc : c.call.pc = .reset)
    (hfine : ResetsUnseen s) :
    Guarded hz (s.record hz i c (s.shared.setUser false) { c.call with pc := .prepare }) := by
  obtain ⟨h₁, h₂, h₃, h₄, h₅, h₆, h₇, h₈, h₉⟩ := h.counted
  simp only [Station.record, hpc]
  refine ⟨⟨h₁, h₂, h₃, h₄, by simp [Shared.setUser], h₆, le_rfl, h₈, h₉⟩, ?_⟩
  intro j d hd
  by_cases hj : j = i
  · subst hj
    simp only [Function.update_self, Option.some.injEq] at hd
    subst hd
    have hseen := (h.attended j c hc).before (by simp [hpc, AwaitPc.behind])
    refine ⟨fun _ => hseen, fun _ _ => rfl, fun _ hclean => ?_, by simp [hseen],
      by simp [hseen], by simp⟩
    -- nothing is in the latch, and no run is about to set it
    simp only [Station.outstanding, Bool.or_eq_true, decide_eq_true_eq, not_or, h₆] at hclean
    rw [if_neg hclean.2] at h₄
    show s.begun ≤ s.clearAt
    omega
  · simp only [Function.update_of_ne hj] at hd
    have hatt := h.attended j d hd
    refine ⟨hatt.before, fun hw hu => ?_, hatt.clean, hatt.seen, hatt.returns, hatt.awake⟩
    have hsince := hatt.since hw hu
    have hunset : ¬ s.resetAt < s.begun := fun hlt => by
      simp [hfine (h₅.mpr hlt) j d hd hw] at hu
    show s.begun = d.since
    omega

/-- A call that returns 0 and reports no timeout does not wait any more. -/
theorem Call.reports_cases {hz : Nat} {call : Call} (h : call.reports hz = true) :
    call.pc = .clear ∧ call.remaining hz ≠ some 0 := by
  simpa [reports] using h

/-- When the call finds `user_signal` set, it has dealt with the runs that have set it. -/
theorem Guarded.seeUser (h : Guarded hz s) (hc : s.callers i = some c)
    (hpc : c.call.pc = .checkUser)
    (huser : c.call.req.user = true) (hset : s.shared.signals.userSignal = true)
    (hreports : call.reports hz = true) : Guarded hz (s.record hz i c s.shared call) := by
  obtain ⟨h₁, h₂, h₃, h₄, h₅, h₆, h₇, h₈, h₉⟩ := h.counted
  obtain ⟨hclear, hremaining⟩ := Call.reports_cases hreports
  have hatt := h.attended i c hc
  simp only [Station.record, hpc, hreports]
  refine ⟨⟨h₁, h₂, h₃, h₄, h₅, h₆, h₇, h₈, fun k hpos hk => by simp [h₉ k hpos hk]⟩, ?_⟩
  intro j d hd
  by_cases hj : j = i
  · subst hj
    simp only [Function.update_self, Option.some.injEq] at hd
    subst hd
    refine ⟨by simp [hclear, AwaitPc.behind], by simp [hclear, AwaitPc.waiting],
      by simp [hclear, AwaitPc.waiting], ?_, fun _ => ⟨by rw [hclear]; rfl, hremaining⟩,
      by simp [hclear, AwaitPc.foundReset]⟩
    intro n hn k hlo hhi
    have hlo : s.clearAt < k := hlo
    have hreset := h₅.mp hset
    have hsince := hatt.since (by simp [hpc, AwaitPc.waiting]) huser
    have hclean := hatt.clean (by simp [hpc, AwaitPc.waiting])
    simp only [Option.some.injEq] at hn
    subst hn
    simp only [Station.byUser, Station.byLatch, Bool.or_eq_true, Bool.and_eq_true,
      decide_eq_true_eq]
    by_cases hflag : c.call.req.latentUser = true
    · -- what is not in the latch has begun after the last reset
      simp only [hflag, Bool.or_true, if_true] at hhi
      by_cases hk : k ≤ s.latched
      · exact .inr ⟨hflag, h₆.mpr (by omega), hlo, hk⟩
      · exact .inl (.inr ⟨by split at h₄ <;> omega, hhi⟩)
    · by_cases hcl : c.clean = true
      · simp only [hcl, Bool.true_or, if_true] at hhi
        have := hclean hcl
        exact .inl (.inr ⟨by omega, hhi⟩)
      · simp only [hcl, hflag, Bool.or_self, Bool.false_eq_true, if_false] at hhi
        omega
  · simp only [Function.update_of_ne hj] at hd
    exact (h.attended j d hd).mono rfl rfl id le_rfl fun k hk => by simp [hk]

/-- When the call finds `latent_user_signal` set, it has dealt with the runs that have set it. -/
theorem Guarded.seeLatent (h : Guarded hz s) (hc : s.callers i = some c)
    (hpc : c.call.pc = .checkLatent) (hset : s.shared.signals.latentUserSignal = true)
    (hreports : call.reports hz = true) : Guarded hz (s.record hz i c s.shared call) := by
  obtain ⟨h₁, h₂, h₃, h₄, h₅, h₆, h₇, h₈, h₉⟩ := h.counted
  obtain ⟨hclear, hremaining⟩ := Call.reports_cases hreports
  have hatt := h.attended i c hc
  simp only [Station.record, hpc, hreports]
  refine ⟨⟨h₁, h₂, h₃, h₄, h₅, h₆, h₇, h₈, fun k hpos hk => by simp [h₉ k hpos hk]⟩, ?_⟩
  intro j d hd
  by_cases hj : j = i
  · subst hj
    simp only [Function.update_self, Option.some.injEq] at hd
    subst hd
    refine ⟨by simp [hclear, AwaitPc.behind], by simp [hclear, AwaitPc.waiting],
      by simp [hclear, AwaitPc.waiting], ?_, fun _ => ⟨by rw [hclear]; rfl, hremaining⟩,
      by simp [hclear, AwaitPc.foundReset]⟩
    intro n hn k hlo hhi
    simp only [Option.some.injEq] at hn
    subst hn
    simp only [Station.byLatch, Bool.or_eq_true, decide_eq_true_eq]
    exact .inr ⟨hset, hlo, hhi⟩
  · simp only [Function.update_of_ne hj] at hd
    exact (h.attended j d hd).mono rfl rfl id le_rfl fun k hk => by simp [hk]

/-- When the call clears `latent_user_signal` safely, the invariant is kept. -/
theorem Guarded.clear (h : Guarded hz s) (hc : s.callers i = some c) (hpc : c.call.pc = .clear)
    (hfine : ClearsSeen s c) (hshared : shared =
      if c.call.req.takesSignals then s.shared.setLatent false else s.shared) :
    Guarded hz (s.record hz i c shared { c.call with pc := .recheck }) := by
  have hatt := h.attended i c hc
  have hlate : ∀ t, Attended hz t c →
      Attended hz t { c with call := { c.call with pc := .recheck } } :=
    fun t ht => ht.late rfl fun hs => ⟨rfl, (ht.returns hs).2⟩
  simp only [Station.record, hpc]
  by_cases htakes : c.call.req.takesSignals = true
  swap
  · rw [if_neg htakes] at hshared ⊢
    exact h.move (by rw [hshared]) (hshared ▸ h.counted.notBroken) (hlate s hatt)
  rw [if_pos htakes] at hshared ⊢
  subst hshared
  obtain ⟨h₁, h₂, h₃, h₄, h₅, h₆, h₇, h₈, h₉⟩ := h.counted
  have hmono : ∀ d, Attended hz s d → Attended hz { s with
      shared := s.shared.setLatent false
      callers := Function.update s.callers i
        (some { c with call := { c.call with pc := .recheck } })
      clearAt := s.latched } d :=
    fun d hd => hd.mono rfl rfl id h₈ fun _ => id
  refine ⟨⟨h₁, h₂, h₃, h₄, h₅, by simp [Shared.setLatent], h₇, le_rfl, fun k hpos hk => ?_⟩, ?_⟩
  · have hk : k ≤ s.latched := hk
    by_cases hold : k ≤ s.clearAt
    · exact h₉ k hpos hold
    · obtain ⟨j, d, n, hd, -, hn, hle⟩ := hfine htakes (h₆.mpr (by omega))
      exact (h.attended j d hd).seen n hn k (by omega) (by omega)
  · intro j d hd
    by_cases hj : j = i
    · subst hj
      simp only [Function.update_self, Option.some.injEq] at hd
      subst hd
      exact hlate _ (hmono c hatt)
    · simp only [Function.update_of_ne hj] at hd
      exact hmono d (h.attended j d hd)

/-- A step of a call that is only recorded. -/
theorem Guarded.plain (h : Guarded hz s) (hsignals : shared.signals = s.shared.signals)
    (hstates : shared.header.offererState = s.shared.header.offererState ∧
      shared.header.receiverState = s.shared.header.receiverState)
    (hpc : c.call.pc ≠ .reset ∧ c.call.pc ≠ .clear)
    (hseen : call.reports hz = true → c.call.pc ≠ .checkUser ∧ c.call.pc ≠ .checkLatent)
    (hcall : Attended hz s { c with call := call }) : Guarded hz (s.record hz i c shared call) := by
  have hrecord : s.record hz i c shared call = { s with
      shared := shared
      callers := Function.update s.callers i (some { c with call := call }) } := by
    simp only [Station.record]
    split <;> simp_all
  have hbroken : shared.header.isBrokenPipe = s.shared.header.isBrokenPipe := by
    rw [Header.isBrokenPipe, Header.isBrokenPipe, hstates.1, hstates.2]
  rw [hrecord]
  exact h.move hsignals (hbroken.trans h.counted.notBroken) hcall

/-- A call that has not come to the end of its wait reports nothing. -/
theorem Call.not_reports {hz : Nat} {call : Call} (hpc : call.pc ≠ .clear) :
    call.reports hz = false := by
  simp [reports, hpc]

/-- The wait of the call is over, and it has not dealt with any run of the handler. -/
theorem Guarded.overUnseen (left : Option Nat) (h : Guarded hz s) (hc : s.callers i = some c)
    (hpc : c.call.pc.waiting = true)
    (hseen : (c.call.over left).reports hz = true →
      c.call.pc ≠ .checkUser ∧ c.call.pc ≠ .checkLatent) :
    Guarded hz (s.record hz i c s.shared (c.call.over left)) := by
  refine h.plain rfl ⟨rfl, rfl⟩ ?_ hseen ((h.attended i c hc).unseen
    (AwaitPc.behind_of_waiting hpc) (c.call.over_behind left))
  constructor <;> intro hout <;> simp [hout, AwaitPc.waiting] at hpc

/-- A step of a call whose resets are safe keeps the invariant. -/
theorem Guarded.callStep {choice : Choice} (h : Guarded hz s) (hc : s.callers i = some c)
    (hstep : c.call.step s.shared choice = some (shared, call))
    (hfine : ResetsSafely s (.call i choice)) : Guarded hz (s.record hz i c shared call) := by
  have hatt := h.attended i c hc
  have hbroken := h.counted.notBroken
  cases Call.goes hstep with
  | early _ pc hpc hreset hnext hsignals hstates =>
    have hbehind := AwaitPc.behind_of_early hpc
    have hclear : c.call.pc ≠ .clear := by
      rintro hclear
      simp [hclear, AwaitPc.behind] at hbehind
    rcases hnext with hnext | ⟨e, rfl⟩
    · have hnot : pc ≠ .clear := by
        rintro rfl
        cases hnext
      refine h.plain hsignals hstates ⟨hreset, hclear⟩ (by simp [Call.not_reports, hnot]) ?_
      exact hatt.early hbehind rfl (by simp [AwaitPc.waiting_of_early hnext])
        (by simp [AwaitPc.foundReset_of_early hnext])
    · exact h.plain hsignals hstates ⟨hreset, hclear⟩ (by simp [Call.not_reports])
        (hatt.unseen hbehind rfl)
  | reset hpc => exact h.reset hc hpc ((hfine c hc).1 hpc)
  | waits pc woken hpc hnext hfound =>
    have hnot : pc ≠ .clear := by
      rintro rfl
      cases hnext
    refine h.plain rfl ⟨rfl, rfl⟩ ?_ (by simp [Call.not_reports, hnot]) ?_
    · constructor <;> intro hout <;> simp [hout, AwaitPc.waiting] at hpc
    · refine hatt.early (AwaitPc.behind_of_waiting hpc) rfl (fun _ => hpc) fun hf huser => ?_
      -- no run has begun since the last reset
      refine (hfound hf huser).imp_right fun hunset hsince => ?_
      rw [← hatt.since hpc huser] at hsince
      simp [h.counted.user.mpr hsince] at hunset
  | user left hpc hreq hset =>
    cases hreports : (c.call.over left).reports hz with
    | true => exact h.seeUser hc hpc hreq hset hreports
    | false => exact h.overUnseen _ hc (by rw [hpc]; rfl) (by simp [hreports])
  | initial left hpc => exact h.overUnseen _ hc (by rw [hpc]; rfl) (by simp [hpc])
  | latent left hpc _ hset =>
    cases hreports : (c.call.over left).reports hz with
    | true => exact h.seeLatent hc hpc hset hreports
    | false => exact h.overUnseen _ hc (by rw [hpc]; rfl) (by simp [hreports])
  | broken _ _ hset =>
    rw [hbroken] at hset
    cases hset
  | timeout hpc => exact h.overUnseen (some 0) hc (by rw [hpc]; rfl) (by simp [hpc])
  | interrupt hpc =>
    exact h.plain rfl ⟨rfl, rfl⟩ (by simp [hpc]) (by simp [hpc])
      (hatt.unseen (by rw [hpc]; rfl) rfl)
  | clear hpc => exact h.clear hc hpc ((hfine c hc).2 hpc) rfl
  | recheck hpc =>
    rw [hbroken]
    exact h.plain rfl ⟨rfl, rfl⟩ (by simp [hpc]) (by simp [hpc])
      (hatt.late rfl fun hs => ⟨rfl, (hatt.returns hs).2⟩)
  | unlock _ r hpc hsignals hstates =>
    refine h.plain hsignals hstates (by simp [hpc]) (by simp [hpc]) (hatt.late rfl fun hs => ?_)
    obtain ⟨hok, htimed⟩ := hatt.returns hs
    rw [hpc] at hok
    cases r with
    | ok => exact ⟨rfl, htimed⟩
    | error e => simp [AwaitPc.returnsOk] at hok

/-- A step of the handler keeps the invariant. -/
theorem Guarded.handlerStep {pc : HandlerPc} (h : Guarded hz s) (hpc : s.handler = some pc) :
    Guarded hz (s.recordHandler pc) := by
  obtain ⟨h₁, h₂, h₃, h₄, h₅, h₆, h₇, h₈, h₉⟩ := h.counted
  have hsoon : s.wakesSoon ↔ pc = .setLatent ∨ pc = .wakeUp := by simp [Station.wakesSoon, hpc]
  rw [hpc] at h₃ h₄
  cases pc with
  | answer => exact absurd rfl h₃.1
  | setInitial => exact absurd rfl h₃.2
  | start =>
    simp only [Station.recordHandler, HandlerPc.step, h₁, if_true]
    refine ⟨⟨h₁, h₂, by simp, by simpa using h₄, h₅, h₆, h₇, h₈, h₉⟩, fun i c hc => ?_⟩
    exact (h.attended i c hc).mono rfl rfl (by simp [hsoon]) le_rfl fun _ => id
  | setUser =>
    simp only [Station.recordHandler, HandlerPc.step]
    refine ⟨⟨h₁, h₂, by simp, by simpa using h₄, ?_, h₆, by simp; omega, h₈, h₉⟩, fun i c hc => ?_⟩
    · exact iff_of_true rfl (by simp; omega)
    · have hatt := h.attended i c hc
      exact ⟨hatt.before, hatt.since, hatt.clean, hatt.seen, hatt.returns, fun _ _ _ =>
        .inr (.inl rfl)⟩
  | setLatent =>
    simp only [Station.recordHandler, HandlerPc.step]
    refine ⟨⟨h₁, h₂, by simp, by simpa using h₄, h₅, ?_, h₇, by simp; omega, h₉⟩, fun i c hc => ?_⟩
    · exact iff_of_true rfl (by simp; omega)
    · exact (h.attended i c hc).mono rfl rfl (fun _ => .inr rfl) le_rfl fun _ => id
  | wakeUp =>
    simp only [Station.recordHandler, HandlerPc.step]
    refine ⟨⟨h₁, h₂, by simp, by simpa using h₄, h₅, h₆, h₇, h₈, h₉⟩, fun i c hc => ?_⟩
    obtain ⟨d, hd, rfl⟩ := Option.map_eq_some_iff.mp hc
    have hatt := h.attended i d hd
    exact ⟨hatt.before, hatt.since, hatt.clean, hatt.seen, hatt.returns, fun _ _ _ => .inl rfl⟩

/-- A step in which neither reset goes wrong. -/
theorem Guarded.step {input : Station.Input} (h : Guarded hz s) (hfine : ResetsSafely s input)
    (hstep : s.step hz input = some t) : Guarded hz t := by
  cases input with
  | enter i req =>
    simp only [Station.step, Option.ite_none_left_eq_some, Option.some.injEq] at hstep
    obtain ⟨-, rfl⟩ := hstep
    obtain ⟨h₁, h₂, h₃, h₄, h₅, h₆, h₇, h₈, h₉⟩ := h.counted
    refine ⟨⟨h₁, h₂, h₃, h₄, h₅, h₆, h₇, h₈, h₉⟩, fun j d hd => ?_⟩
    by_cases hj : j = i
    · subst hj
      simp only [Function.update_self, Option.some.injEq] at hd
      subst hd
      exact ⟨fun _ => rfl, nofun, nofun, nofun, nofun, nofun⟩
    · simp only [Function.update_of_ne hj] at hd
      exact (h.attended j d hd).mono rfl rfl id le_rfl fun _ => id
  | call i choice =>
    simp only [Station.step, Option.bind_eq_bind, Option.bind_eq_some_iff] at hstep
    obtain ⟨c, hc, ⟨shared, call⟩, hcall, hstep⟩ := hstep
    exact Option.some.inj hstep ▸ h.callStep hc hcall hfine
  | deliver =>
    simp only [Station.step, Option.ite_none_left_eq_some, Option.some.injEq] at hstep
    obtain ⟨hidle, rfl⟩ := hstep
    have hidle : s.handler = none := by simpa using hidle
    obtain ⟨h₁, h₂, h₃, h₄, h₅, h₆, h₇, h₈, h₉⟩ := h.counted
    refine ⟨⟨h₁, h₂, by simp, by simpa [hidle] using h₄, h₅, h₆, h₇, h₈, h₉⟩, fun i c hc => ?_⟩
    exact (h.attended i c hc).mono rfl rfl (by simp [Station.wakesSoon, hidle]) le_rfl fun _ => id
  | handler =>
    obtain ⟨pc, hpc, rfl⟩ := Option.map_eq_some_iff.mp hstep
    exact h.handlerStep hpc

/-- A connection on which no call was made yet satisfies the invariant. -/
theorem guarded_initial (state : State) (header : Header) (user latent : Bool)
    (hbroken : header.isBrokenPipe = false) : Guarded hz (.initial state header user latent) := by
  refine ⟨⟨rfl, hbroken, by simp [Station.initial], rfl, ?_, ?_, ?_, ?_, ?_⟩,
    fun i c hc => by simp [Station.initial] at hc⟩
  · cases user <;> simp [Station.initial]
  · cases latent <;> simp [Station.initial]
  · cases user <;> simp [Station.initial]
  · cases latent <;> simp [Station.initial]
  · intro k hpos hk
    cases latent
    · simp only [Station.initial, Bool.false_eq_true, if_false] at hk
      simp [Station.initial, show k = 1 by omega]
    · simp only [Station.initial, if_true] at hk
      omega

end Steps

/-- The call resets what is not set, or clears the latch when the runs that set it have ended its
own wait: then neither reset goes wrong, whatever the other calls do. -/
def ResetsOwn (s : Station) : Station.Input → Prop
  | .call i .proceed => ∀ c ∈ s.callers i,
    (c.call.pc = .reset → s.shared.signals.userSignal = false) ∧
      (c.call.pc = .clear → ∃ n ∈ c.seen, s.latched ≤ n)
  | _ => True

instance ResetsOwn.decidable (s : Station) : (i : Station.Input) → Decidable (ResetsOwn s i)
  | .call i .proceed => inferInstanceAs (Decidable (∀ c ∈ s.callers i, _))
  | .call _ .interrupt | .call _ .timeout | .call _ (.ends _) | .enter _ _ | .deliver | .handler =>
    isTrue trivial

/-- A connected offerer, on which no call was made yet. -/
def Station.connected : Station :=
  .initial .offerer { Header.zero with offererState := .opened, receiverState := .opened }
    false false

/-- The call number `i` proceeds `n` times in a row. -/
def Station.proceeds (i n : Nat) : List Station.Input := .replicate n (.call i .proceed)

end XenShm.Kernel
