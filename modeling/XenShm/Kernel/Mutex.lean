import XenShm.Kernel.Stages

/-!
# The mutex of AWAIT

The count in the header page is decremented by every call that asks for the mutex and
incremented back when the call returns, also when it was refused. What is conserved is
the count together with the number of calls between their decrement and their increment.
-/

namespace XenShm.Kernel

open Library

variable {p q : Page}

/-- The call has taken the mutex and not given it back. -/
def Call.won (c : Call) : Bool :=
  match c.pc with
  | .start | .takeMutex | .refuse | .done _ => false
  | _ => c.req.mutex

/-- The call has decremented the count and not incremented it back. -/
def Call.holds (c : Call) : Bool := c.won || c.pc = .refuse

/-- The call is told, or was told, that another one holds the mutex. -/
def Call.refused (c : Call) : Bool :=
  match c.pc with
  | .refuse => true
  | .unlock r | .done r => r = .error .edeadlk
  | _ => false

/-- What one step of a call does to the mutex. -/
structure Call.Mutex (s s' : Shared) (c c' : Call) (choice : Choice) : Prop where
  /-- The count and the call together are conserved. -/
  conserved : s'.header.ecMutexCount + c'.holds.toNat = s.header.ecMutexCount + c.holds.toNat
  /-- Only calls that ask for the mutex decrement the count. -/
  asked : c'.holds = true → c'.req.mutex = false → c.holds = true ∧ c.req.mutex = false
  /-- The mutex is taken when the count is 1. -/
  taken : c'.won = true → c.won = true ∨ s.header.ecMutexCount = 1
  /-- The mutex is refused when it is not. The ticks left of a timeout can read as a refusal too. -/
  refused : c'.refused = true → c.refused = true ∨
    (c.pc = .takeMutex ∧ choice = .proceed ∧ s.header.ecMutexCount ≠ 1) ∨
      choice.readsAs .edeadlk = true

/-- While a call waits, it has the mutex if it has asked for it. -/
theorem Call.won_of_waiting {c : Call} (hpc : c.pc.waiting = true) :
    c.won = c.req.mutex ∧ c.holds = c.req.mutex := by
  cases h : c.pc <;> simp [holds, won, h, AwaitPc.waiting] at hpc ⊢

/-- A call whose wait is over has the mutex if it has asked for it, and it is refused only with the
error of a refusal. -/
theorem Call.mutex_of_behind {c : Call}
    (hpc : c.pc = .clear ∨ ∃ e, c.pc = .unlock (.error e)) :
    c.won = c.req.mutex ∧ c.holds = c.req.mutex ∧
      (c.refused = true → c.pc = .unlock (.error .edeadlk)) := by
  rcases hpc with hpc | ⟨e, hpc⟩ <;> simp [holds, won, refused, hpc]

/-- At the end of its wait a call still has the mutex, and it is not refused unless the ticks left
read as a refusal. -/
theorem Call.over_mutex (c : Call) (left : Option Nat) :
    (c.over left).won = c.req.mutex ∧ (c.over left).holds = c.req.mutex ∧
      ((c.over left).refused = true → (Choice.ofLeft left).readsAs .edeadlk = true) := by
  have hpc := c.over_pc left
  rw [← c.over_req left]
  have hbehind : (c.over left).pc = .clear ∨ ∃ e, (c.over left).pc = .unlock (.error e) := by
    obtain h | ⟨ticks, -, -, h⟩ := AwaitPc.afterWait_cases left
    · exact .inl (hpc.trans h)
    · exact .inr ⟨_, hpc.trans h⟩
  obtain ⟨hwon, hholds, hrefused⟩ := mutex_of_behind hbehind
  exact ⟨hwon, hholds, fun hr => AwaitPc.readsAs_of_afterWait (hpc.symm.trans (hrefused hr))⟩

/-- What holds of the mutex when a wait goes on or is over. -/
theorem Call.mutex_of_over {s : Shared} {c : Call} (left : Option Nat)
    (hpc : c.pc.waiting = true) : Call.Mutex s s c (c.over left) (.ofLeft left) := by
  obtain ⟨hwon, hholds⟩ := won_of_waiting hpc
  obtain ⟨hwon', hholds', hrefused⟩ := c.over_mutex left
  exact ⟨by rw [hholds, hholds'], fun hh hm => ⟨by rw [hholds, ← hholds', hh], hm⟩,
    fun hw => .inl (by rw [hwon, ← hwon', hw]), fun hr => .inr (.inr (hrefused hr))⟩

/-- Every step of a call does one of these to the mutex. -/
theorem Call.step_mutex {s s' : Shared} {c c' : Call} {choice : Choice}
    (h : c.step s choice = some (s', c')) : Call.Mutex s s' c c' choice := by
  have htest : ∀ next : AwaitPc, c.pc.waiting = true → next.waiting = true →
      c.test s next = some (s', c') → Call.Mutex s s' c c' .proceed := by
    intro next hpc hnext h
    obtain ⟨rfl, ⟨-, rfl⟩ | ⟨-, -, rfl⟩⟩ := test_cases h
    · obtain ⟨hwon, hholds⟩ := won_of_waiting hpc
      obtain ⟨hwon', hholds'⟩ := won_of_waiting (c := { c with pc := next }) hnext
      refine ⟨by rw [hholds, hholds'], fun hh hm => ⟨by rw [hholds, ← hh, hholds'], hm⟩,
        fun hw => .inl (by rw [hwon, ← hw, hwon']), fun hr => ?_⟩
      cases next <;> simp [refused, AwaitPc.waiting] at hr hnext
    · exact mutex_of_over _ hpc
  cases choice with
  | interrupt =>
    simp only [step, Option.ite_none_right_eq_some, Option.some.injEq, Prod.mk.injEq] at h
    obtain ⟨hpc, rfl, rfl⟩ := h
    constructor <;> simp +contextual [holds, won, refused, hpc]
  | timeout =>
    simp only [step, Option.ite_none_right_eq_some, Option.some.injEq, Prod.mk.injEq] at h
    obtain ⟨⟨hpc, -⟩, rfl, rfl⟩ := h
    obtain ⟨hconserved, hasked, htaken, hrefused⟩ :=
      mutex_of_over (some 0) (show c.pc.waiting = true by rw [hpc]; rfl)
    refine ⟨hconserved, hasked, htaken, fun hr => ?_⟩
    simpa [Choice.ofLeft, Choice.readsAs, Errno.value, hpc] using hrefused hr
  | ends left =>
    simp only [step, Option.ite_none_right_eq_some, Option.some.injEq, Prod.mk.injEq] at h
    obtain ⟨⟨hmet, -⟩, rfl, rfl⟩ := h
    refine mutex_of_over (some left) ?_
    cases hpc : c.pc <;> simp [met, hpc, AwaitPc.waiting] at hmet ⊢
  | proceed =>
    simp only [step, proceed] at h
    cases hpc : c.pc <;> simp only [hpc, reduceCtorEq] at h
    case takeMutex =>
      split at h
      · obtain ⟨rfl, rfl⟩ := Prod.mk.inj (Option.some.inj h)
        constructor <;> simp_all [holds, won, refused]
      · split at h <;> obtain ⟨rfl, rfl⟩ := Prod.mk.inj (Option.some.inj h)
        · constructor <;> simp_all [holds, won, refused, Shared.addMutex]; omega
        · constructor <;> simp_all [holds, won, refused, Shared.addMutex]; omega
    case checkUser | checkInit | checkLatent | checkBroken =>
      exact htest _ (by rw [hpc]; rfl) rfl h
    all_goals
      (repeat' split at h) <;> simp only [Option.some.injEq, Prod.mk.injEq, reduceCtorEq] at h
      all_goals
        obtain ⟨rfl, rfl⟩ := h
        constructor <;>
          simp_all [holds, won, refused, Shared.addMutex, Shared.setUser, Shared.setLatent]

/-- The ioctl is an AWAIT of this kind. -/
def Syscall.isAwait (f : Call → Bool) (c : Syscall) : Bool :=
  match c.ioctl with
  | .await call => f call
  | .ssig _ => false

/-- Number of calls between their decrement and their increment. -/
def Page.holders (p : Page) : Nat := p.calls.countP (Syscall.isAwait Call.holds)

/-- The number of calls that have taken the mutex and not given it back. -/
def Page.winners (p : Page) : Nat := p.calls.countP (Syscall.isAwait Call.won)

/-- Every call that has taken the mutex has counted it down. -/
theorem Page.winners_le_holders (p : Page) : p.winners ≤ p.holders := by
  refine List.countP_mono_left fun c _ hc => ?_
  cases hioctl : c.ioctl <;> simp_all [Syscall.isAwait, Call.holds]

/-- Waking does not change where a call is. -/
theorem Page.countP_wake (f : Call → Bool) (hf : ∀ c : Call, f c.wake = f c) (p : Page)
    (s : Side) :
    (p.wake s).calls.countP (Syscall.isAwait f) = p.calls.countP (Syscall.isAwait f) := by
  simp only [wake, List.countP_map]
  congr 1
  funext c
  simp only [Function.comp, Syscall.wake]
  split
  · cases hc : c.ioctl <;> simp [Syscall.isAwait, hc, hf]
  · rfl

/-- When one element of a list is replaced, the count changes by that element only. -/
theorem countP_set_add {α : Type} {l : List α} {k : Nat} {a : α} (h : l[k]? = some a) (b : α)
    (f : α → Bool) :
    (l.set k b).countP f + (f a).toNat = l.countP f + (f b).toNat := by
  obtain ⟨hlt, rfl⟩ := List.getElem?_eq_some_iff.mp h
  have hle : (if f l[k] = true then 1 else 0) ≤ l.countP f := by
    split
    · exact List.countP_pos_iff.mpr ⟨_, List.getElem_mem hlt, ‹_›⟩
    · exact Nat.zero_le _
  rw [List.countP_set hlt]
  cases hb : f b <;> cases ha : f l[k] <;> simp_all

@[simp] theorem Header.setState_ecMutexCount (h : Header) (s : Side) (m : MetaState) :
    (h.setState s m).ecMutexCount = h.ecMutexCount := by cases s <;> rfl

/-- What one step of the page does to the mutex and to those who hold it. -/
inductive Page.MutexMoved (p : Page) (i : Page.Input) (q : Page) : Prop where
  /-- No call takes or gives back the mutex, whatever is counted. -/
  | same (hcount : q.header.ecMutexCount = p.header.ecMutexCount)
    (hgranted : q.granted = true → p.granted = true)
    (hcalls : ∀ f : Call → Bool, (∀ c : Call, f c.wake = f c) → (∀ req, f (.enter req) = false) →
      q.calls.countP (Syscall.isAwait f) = p.calls.countP (Syscall.isAwait f))
  /-- The offerer fills the header page, and the count of the mutex is 1 from then on. -/
  | fresh (hcount : q.header.ecMutexCount = 1) (hcalls : q.calls = p.calls)
    (hgranted : p.granted = false)
  /-- A call goes on and does to the mutex what its step says. -/
  | call {k : Nat} {choice : Choice} {c : Syscall} {call call' : Call} (hi : i = .call k choice)
    (hk : p.calls[k]? = some c) (hc : c.ioctl = .await call)
    (hq : q.calls = p.calls.set k { c with ioctl := .await call' })
    (hgranted : q.granted = p.granted) (hmutex : Call.Mutex (p.shared c.side)
      ⟨(q.ends c.side).state, (q.ends c.side).signals, q.header⟩ call call' choice)

/-- Every step of the page does one of these to the mutex. -/
theorem Page.Staged.mutex {i : Page.Input} (h : p.Staged) (hm : p.Moved i q) :
    p.MutexMoved i q := by
  have hgranted := h.granted
  have hssig : ∀ {k : Nat} {c : Syscall} {pc : SsigPc} (pc' : SsigPc), p.calls[k]? = some c →
      c.ioctl = .ssig pc → ∀ f : Call → Bool,
        (p.calls.set k { c with ioctl := .ssig pc' }).countP (Syscall.isAwait f) =
          p.calls.countP (Syscall.isAwait f) := by
    intro k c pc pc' hk hc f
    have hset := countP_set_add hk { c with ioctl := .ssig pc' } (Syscall.isAwait f)
    simpa [Syscall.isAwait, hc] using hset
  cases hm with
  | prepares hinit =>
    have hr := h.ready .offerer
    simp only [End.Ready, hinit] at hr
    exact .fresh rfl rfl (by simpa [hinit, hr] using hgranted)
  | awaits hk hc hcall =>
    have hmutex := Call.step_mutex hcall
    exact .call rfl hk hc rfl rfl ⟨hmutex.1, hmutex.2, hmutex.3, hmutex.4⟩
  | rouses => exact .same rfl id fun f hf _ => countP_wake f hf p _
  | wakes => exact .same rfl id fun f hf _ => countP_wake f hf _ _
  | @calls s ioctl i _ hi =>
    refine .same rfl id fun f _ hf => ?_
    rw [List.countP_append]
    obtain ⟨_, -, rfl⟩ | ⟨-, rfl⟩ := hi <;> simp [Syscall.isAwait, hf]
  | checks hk hc => exact .same rfl id fun f _ _ => hssig _ hk hc f
  | signals hk hc =>
    exact .same (by simp) (by simp) fun f _ _ => by simpa using hssig _ hk hc f
  | loses => exact .same rfl (fun h => absurd h Bool.false_ne_true) fun _ _ _ => rfl
  | _ => exact .same (by simp) (by simp) (by simp)

/-- Nobody has decremented the count of a page that is not granted. -/
theorem Page.Staged.untouched (h : p.Staged) (hgranted : p.granted = false) :
    ∀ c ∈ p.calls, c.ioctl.untouched = true := by
  have hnot : ¬ p.granted = true := by simp [hgranted]
  simp only [h.granted, not_or, not_not, ne_eq] at hnot
  intro c hc
  refine h.idle c hc ?_
  cases hside : c.side with
  | offerer => exact hnot.1
  | receiver n => exact (h.alone hnot.1 hnot.2.2.2 n).1

/-- The invariant of the mutex: the count in the header page and the calls that hold it agree. -/
structure Page.Locked (p : Page) : Prop where
  staged : p.Staged
  /-- Only calls that ask for the mutex decrement the count. -/
  asked : p.calls.countP (Syscall.isAwait fun c => c.holds && !c.req.mutex) = 0
  /-- The count and the calls that decremented it are conserved. -/
  conserved : p.granted = true → p.header.ecMutexCount + p.holders = 1
  /-- The count of a page that is not granted is left alone. -/
  unused : p.granted = false → p.holders = 0
  /-- The mutex is taken once at a time. -/
  single : p.winners ≤ 1

/-- An ioctl that has not got past its first test holds no mutex. -/
theorem Ioctl.untouched_not_holds {c : Syscall} (h : c.ioctl.untouched = true) :
    c.isAwait Call.holds = false := by
  cases hc : c.ioctl with
  | ssig pc => simp [Syscall.isAwait, hc]
  | await call =>
    simp only [hc, untouched, decide_eq_true_eq] at h
    rcases h with h | h <;> simp [Syscall.isAwait, hc, Call.holds, Call.won, h]

/-- Every step of the page keeps the count of the mutex in agreement with its holders. -/
theorem Page.Locked.step {i : Page.Input} (h : p.Locked) (hm : p.Moved i q) : q.Locked := by
  have hstaged := h.staged.step hm
  have hunused : q.granted = false → q.holders = 0 := fun hg =>
    List.countP_eq_zero.mpr fun c hc => by
      simp [Ioctl.untouched_not_holds (hstaged.untouched hg c hc)]
  have hsingle : q.holders = 0 → q.winners ≤ 1 := fun hz => by
    have := q.winners_le_holders
    omega
  cases h.staged.mutex hm with
  | same hcount hgranted hcalls =>
    refine ⟨hstaged, ?_, fun hg => ?_, hunused, ?_⟩
    · rw [hcalls _ (fun _ => rfl) fun _ => rfl, h.asked]
    · rw [hcount, holders, hcalls _ (fun _ => rfl) fun _ => rfl]
      exact h.conserved (hgranted hg)
    · rw [winners, hcalls _ (fun _ => rfl) fun _ => rfl]
      exact h.single
  | fresh hcount hcalls hgranted =>
    have hzero : q.holders = 0 := by rw [holders, hcalls]; exact h.unused hgranted
    exact ⟨hstaged, by rw [hcalls, h.asked], fun _ => by rw [hcount, hzero]; rfl, hunused,
      hsingle hzero⟩
  | @call k choice c call call' hi hk hc hq hgranted hmutex =>
    -- What the step does to each count is what it does to the one call.
    have hset : ∀ f : Call → Bool, q.calls.countP (Syscall.isAwait f) + (f call).toNat =
        p.calls.countP (Syscall.isAwait f) + (f call').toNat := by
      intro f
      have := countP_set_add hk { c with ioctl := .await call' } (Syscall.isAwait f)
      simpa [hq, Syscall.isAwait, hc] using this
    refine ⟨hstaged, ?_, fun hg => ?_, hunused, ?_⟩
    · have hasked := hset fun c => c.holds && !c.req.mutex
      have hle : (call'.holds && !call'.req.mutex).toNat ≤
          (call.holds && !call.req.mutex).toNat := by
        have hnew := hmutex.asked
        cases hh : call'.holds <;> cases hr : call'.req.mutex <;> simp_all
      rw [h.asked] at hasked
      omega
    · have hholders := hset Call.holds
      have hcount := h.conserved (hgranted ▸ hg)
      have hconserved := hmutex.conserved
      simp only [shared] at hconserved
      simp only [holders] at hcount ⊢
      omega
    · cases hg : p.granted with
      | false => exact hsingle (hunused (hgranted.trans hg))
      | true =>
        have hwinners := hset Call.won
        have hcount := h.conserved hg
        have hle := p.winners_le_holders
        have hone := h.single
        have htaken := hmutex.taken
        simp only [shared] at htaken
        simp only [winners] at hone hle ⊢
        cases hw : call'.won <;> cases hw' : call.won <;> simp_all
        omega

/-- The count is sound in every reachable state. -/
theorem Page.Locked.reaches {header : Header} {guard : Page → Page.Input → Bool}
    (h : Reaches Page.step guard (.initial header) p) : p.Locked := by
  have hinit : (Page.initial header).Locked :=
    ⟨.initial header, rfl, nofun, fun _ => rfl, Nat.zero_le _⟩
  exact Reaches.invariant h hinit fun _ _ _ hp _ hs => hp.step (step_moved hs)

/-- The guard under which every step is considered. -/
def Page.anything (_ : Page) (_ : Page.Input) : Bool := true

/-- The call is not ended with ticks left that read as a refusal. -/
def Page.keepsRefusals (k : Nat) (_ : Page) : Page.Input → Bool
  | .call j choice => !(j = k && choice.readsAs .edeadlk)
  | _ => true

/-- In the run from `s` to `q`, the call decremented the count while another call was between
its decrement and its increment. -/
def Page.Contended (s q : Page) (k : Nat) : Prop :=
  ∃ p p' : Page, Reaches Page.step anything s p ∧ p.step (.call k .proceed) = some p' ∧
    Reaches Page.step anything p' q ∧
    (∃ c, p.calls[k]? = some c ∧ c.isAwait (fun call => call.pc = .takeMutex) = true) ∧
    ∃ j d, j ≠ k ∧ p.calls[j]? = some d ∧ d.isAwait Call.holds = true

/-- A call that is refused in this step finds another one that holds the count. -/
theorem Page.Locked.contended {k : Nat} {choice : Choice} {c : Syscall} {call call' : Call}
    {shared : Shared} (h : p.Locked) (hk : p.calls[k]? = some c) (hc : c.ioctl = .await call)
    (hcall : call.step (p.shared c.side) choice = some (shared, call'))
    (hticks : choice.readsAs .edeadlk = false) (hnot : call.refused = false)
    (hrefused : call'.refused = true) : choice = .proceed ∧ call.pc = .takeMutex ∧
      ∃ j d, j ≠ k ∧ p.calls[j]? = some d ∧ d.isAwait Call.holds = true := by
  obtain hr | ⟨hpc, hchoice, hcount⟩ | hr := (Call.step_mutex hcall).refused hrefused
  · simp [hnot] at hr
  rotate_left
  · simp [hticks] at hr
  · refine ⟨hchoice, hpc, ?_⟩
    have hgranted : p.granted = true := by
      by_contra hg
      have := h.staged.untouched (by simpa using hg) c (List.mem_of_getElem? hk)
      simp [hc, Ioctl.untouched, hpc] at this
    have hholders : 0 < p.holders := by
      have hone := h.conserved hgranted
      simp only [Page.shared] at hcount
      omega
    obtain ⟨d, hd, hholds⟩ := List.countP_pos_iff.mp hholders
    obtain ⟨j, hj⟩ := List.getElem?_of_mem hd
    refine ⟨j, d, ?_, hj, hholds⟩
    rintro rfl
    obtain rfl := Option.some.inj (hj.symm.trans hk)
    simp [Syscall.isAwait, hc, Call.holds, Call.won, hpc] at hholds

/-- A call that was refused has met another call that held the mutex. -/
theorem Page.contended_of_refused {header : Header} {k : Nat}
    (h : Reaches Page.step (keepsRefusals k) (.initial header) q) {c : Syscall}
    (hk : q.calls[k]? = some c) (hc : c.isAwait Call.refused = true) :
    Contended (.initial header) q k := by
  induction h generalizing c with
  | refl => simp [Page.initial] at hk
  | @tail p q hp hm ih =>
    obtain ⟨i, hg, hi⟩ := hm
    have hmoved := step_moved hi
    have hlater : Contended (.initial header) p k → Contended (.initial header) q k := by
      rintro ⟨a, b, ha, hab, hb, hrest⟩
      exact ⟨a, b, ha, hab, hb.snoc i rfl hi, hrest⟩
    cases hd : p.calls[k]? with
    | none =>
      obtain ⟨-, -, ⟨req, hnew⟩ | hnew⟩ := hmoved.entered hd hk <;>
        simp [Syscall.isAwait, hnew, Call.refused, Call.enter] at hc
    | some d =>
      obtain ⟨c', hc', hcm⟩ := hmoved.call hd
      obtain rfl := Option.some.inj (hc'.symm.trans hk)
      cases hcm with
      | same => exact hlater (ih hd hc)
      | woken _ hd' => exact hlater (ih hd (by rw [Syscall.isAwait, hd']; exact hc))
      | checks | signals => simp [Syscall.isAwait] at hc
      | @awaits choice call call' shared hi' hd' hcall =>
        cases hr : call.refused with
        | true => exact hlater (ih hd (by simpa [Syscall.isAwait, hd'] using hr))
        | false =>
          have hticks : choice.readsAs .edeadlk = false := by simpa [keepsRefusals, hi'] using hg
          obtain ⟨rfl, hpc, hother⟩ := (Locked.reaches hp).contended hd hd' hcall hticks hr hc
          subst hi'
          exact ⟨p, q, Reaches.weaken hp fun _ _ _ => rfl, hi, .refl,
            ⟨d, hd, by simp [Syscall.isAwait, hd', hpc]⟩, hother⟩

/-- **The mutex of AWAIT.** From the moment the offerer has filled the header page, at most
one call has the mutex, the count and the calls between their decrement and their increment
add up to 1, so the count is 1 when no call asks for the mutex, and a call whose wait does not end
with ticks that read as a refusal is refused only if another call was between its decrement and its
increment when it decremented the count. -/
theorem await_mutex {header : Header} (h : Reaches Page.step Page.anything (.initial header) q) :
    q.winners ≤ 1 ∧
      (q.granted = true → q.header.ecMutexCount + q.holders = 1) ∧
      (q.granted = true → (∀ c ∈ q.calls, c.isAwait (fun call => call.req.mutex) = true →
        c.ioctl.result.isSome = true) → q.header.ecMutexCount = 1) ∧
      ∀ k c, Reaches Page.step (Page.keepsRefusals k) (.initial header) q → q.calls[k]? = some c →
        c.isAwait Call.refused = true → Page.Contended (.initial header) q k := by
  have hlocked := Page.Locked.reaches h
  refine ⟨hlocked.single, hlocked.conserved, fun hg hdone => ?_, fun k c hk hkc hc =>
    Page.contended_of_refused hk hkc hc⟩
  have hzero : q.holders = 0 := by
    refine List.countP_eq_zero.mpr fun c hc hholds => ?_
    have hasked := List.countP_eq_zero.mp hlocked.asked c hc
    have hres := hdone c hc
    cases hioctl : c.ioctl with
    | ssig pc => simp [Syscall.isAwait, hioctl] at hholds
    | await call =>
      simp only [Syscall.isAwait, hioctl, Bool.and_eq_true, Bool.not_eq_eq_eq_not, Bool.not_true,
        not_and, Bool.not_eq_false] at hholds hasked hres
      have hdone := hres (hasked hholds)
      cases hpc : call.pc <;>
        simp [Ioctl.result, hpc, Call.holds, Call.won] at hdone hholds
  have := hlocked.conserved hg
  omega

/-- The second of two calls on a fresh page is refused. -/
theorem await_mutex_refused :
    ∃ q, Reaches Page.step Page.anything (.initial .zero) q ∧
      q.winners ≤ 1 ∧ q.header.ecMutexCount + q.holders = 1 ∧
      Page.Contended (.initial .zero) q 1 := by
  let init := Page.Input.init .offerer true
  let await := Page.Input.await .offerer ⟨true, false, true, false, 0⟩
  let call (i : Nat) := Page.Input.call i .proceed
  have hrun : (run Page.step (Page.keepsRefusals 1) (.initial .zero) [init, init, init, init, init,
      init, await, await, call 0, call 0, call 1, call 1]).any (fun q =>
        q.granted && q.calls[1]?.any (Syscall.isAwait Call.refused)) = true := by decide +kernel
  obtain ⟨q, hq, htest⟩ := exists_reaches_of_run hrun
  simp only [Bool.and_eq_true, Option.any_eq_true] at htest
  obtain ⟨hgranted, c, hc, hrefused⟩ := htest
  have hany : Reaches Page.step Page.anything (.initial .zero) q := hq.weaken fun _ _ _ => rfl
  have hmutex := await_mutex hany
  exact ⟨q, hany, hmutex.1, hmutex.2.1 hgranted, hmutex.2.2.2 1 c hq hc hrefused⟩

/-- Calls are not forgotten, so a call that had company has company for ever. -/
theorem Page.Contended.company {s : Page} {k : Nat} (h : Contended s q k) :
    ∃ j, j ≠ k ∧ (q.calls[j]?).isSome = true := by
  obtain ⟨p, p', -, hstep, hreach, -, j, d, hne, hd, -⟩ := h
  have hmove : ∀ {a b : Page} {i : Page.Input}, a.step i = some b → (a.calls[j]?).isSome = true →
      (b.calls[j]?).isSome = true := by
    intro a b i hi hj
    obtain ⟨c, hc⟩ := Option.isSome_iff_exists.mp hj
    obtain ⟨c', hc', -⟩ := (step_moved hi).call hc
    simp [hc']
  refine ⟨j, hne, hreach.invariant (hmove hstep (by simp [hd])) fun _ _ _ ha _ hi => hmove hi ha⟩

/-- The offerer waits with the mutex for the initial signal, with more than 49 days of timeout. A
receiver connects 39 ticks later, and no other call is made. -/
def loneWaiter : List Page.Input :=
  List.replicate 6 (.init .offerer true) ++
    .await .offerer ⟨false, true, true, false, 4294967300⟩ :: List.replicate 8 (.call 0 .proceed) ++
    List.replicate 6 (.init (.receiver 0) true) ++
    .deliver .offerer :: List.replicate 4 (.handler .offerer) ++
    List.replicate 3 (.call 0 .proceed) ++ .call 0 (.ends 4294967261) :: [.call 0 .proceed]

/-- The call has taken the mutex and is told that another one holds it: as an `int` the ticks left
are the number of this error. -/
theorem not_await_mutex : jiffies 1000 4294967300 = 4294967300 ∧
    ∃ q, Reaches Page.step Page.anything (.initial .zero) q ∧
      q.calls.any (fun c => c.ioctl.result = some (.error .edeadlk)) = true ∧
      ∃ k c, q.calls[k]? = some c ∧ c.isAwait Call.refused = true ∧
        ¬ Page.Contended (.initial .zero) q k := by
  have hrun : (run Page.step Page.anything (.initial .zero) loneWaiter).any (fun q =>
      q.calls.length = 1 ∧ q.calls.any (fun c => c.ioctl.result = some (.error .edeadlk)) = true ∧
        q.calls[0]?.any (Syscall.isAwait Call.refused) = true) = true := by decide +kernel
  obtain ⟨q, hq, htest⟩ := exists_reaches_of_run hrun
  obtain ⟨hlength, hresult, hany⟩ := of_decide_eq_true htest
  obtain ⟨c, hc, hrefused⟩ := (Option.any_eq_true _ _).mp hany
  refine ⟨by decide, q, hq, hresult, 0, c, hc, hrefused, fun hcontended => ?_⟩
  obtain ⟨j, hne, hj⟩ := hcontended.company
  have hlt : j < q.calls.length := by simpa using hj
  omega

end XenShm.Kernel
