import XenShm.Kernel.Stages

/-!
# The connection handshake

The first event that the offerer gets counts as the news that a receiver is there, and the
offerer answers it. The INIT ioctl of a receiver sets the state of the instance before it
sets `receiver_state` in the header page, and sends its own event after that. An SSIG on the
same descriptor may send an event in between.
-/

namespace XenShm.Kernel

open Library

variable {p q : Page}

/-- An event has arrived at the offerer: it waits, is handled or was handled. -/
def Page.heard (p : Page) : Prop :=
  (p.ends .offerer).pending = true ∨ (p.ends .offerer).handler.isSome = true ∨
    (p.ends .offerer).signals.initialSignal = true

/-- The receiver has set its state in the header page. -/
def Page.announced (p : Page) (n : Nat) : Prop :=
  (p.ends (.receiver n)).state ≠ .opened ∧ (p.ends (.receiver n)).init ≠ some .announce

/-- An SSIG on a receiver sends its event when INIT has set the state in the header page. -/
def Page.signalsAnnounced (p : Page) : Page.Input → Bool
  | .call k _ =>
    p.calls[k]?.all fun c =>
      !(c.ioctl = .ssig .notify && (p.ends c.side).init = some .announce)
  | _ => true

/-- Where an event for the offerer comes from. -/
inductive Page.Sent (p : Page) (i : Page.Input) (n : Nat) : Prop where
  | greeting (hinit : (p.ends (.receiver n)).init = some .greet)
  | ending (hrelease : (p.ends (.receiver n)).release = some .notify)
  | answer (hhandler : (p.ends (.receiver n)).handler = some .answer)
  | signal {k : Nat} {choice : Choice} {c : Syscall} (hi : i = .call k choice)
    (hk : p.calls[k]? = some c) (hside : c.side = .receiver n) (hc : c.ioctl = .ssig .notify)

namespace Page

/-- Only a receiver sends its events to the offerer. -/
theorem target_offerer {s : Side} (h : p.target s = some .offerer) : ∃ n, s = .receiver n := by
  cases s with
  | offerer => simp [target] at h
  | receiver n => exact ⟨n, rfl⟩

/-- An event that waits at the offerer was there before, or a receiver has sent it. -/
theorem notify_pending {s : Side}
    (h : ((p.notify s).ends .offerer).pending = true) :
    (p.ends .offerer).pending = true ∨ ∃ n, s = .receiver n := by
  rw [notify_ends] at h
  split at h
  · exact .inr (target_offerer ‹_›)
  · exact .inl h

/-- Only a receiver can be the cause of a new event at the offerer. -/
theorem Moved.heard {i : Page.Input} (hm : p.Moved i q) (hq : q.heard) :
    p.heard ∨ ∃ n, p.Sent i n := by
  -- A step that leaves the offerer alone.
  have hsame : (q.ends .offerer).pending = (p.ends .offerer).pending →
      (q.ends .offerer).handler = (p.ends .offerer).handler →
      (q.ends .offerer).signals = (p.ends .offerer).signals → p.heard := by
    intro hp hh hs
    unfold Page.heard at hq ⊢
    rwa [hp, hh, hs] at hq
  cases hm with
  | @greets n ok hinit => exact .inr ⟨n, .greeting hinit⟩
  | @tells s hrelease =>
    simp only [Page.heard, put_field End.pending, put_field End.handler, put_field End.signals,
      Function.update_eq_self, tell_pending, tell_handler, tell_signals, notify_handler,
      notify_signals] at hq
    rcases hq with hq | hq
    · rcases notify_pending hq with hq | ⟨n, rfl⟩
      · exact .inl (.inl hq)
      · exact .inr ⟨n, .ending hrelease⟩
    · exact .inl (.inr hq)
  | @signals k choice c hk hc =>
    simp only [Page.heard, notify_handler, notify_signals] at hq
    rcases hq with hq | hq
    · rcases notify_pending hq with hq | ⟨n, hn⟩
      · exact .inl (.inl hq)
      · exact .inr ⟨n, .signal rfl hk hn hc⟩
    · exact .inl (.inr hq)
  | @answers s hhandler =>
    cases s with
    | receiver n => exact .inr ⟨n, .answer hhandler⟩
    | offerer => exact .inl (.inr (.inl (by simp [hhandler])))
  | @delivers s hpending _ _ =>
    by_cases hs : s = .offerer
    · exact .inl (.inl (hs ▸ hpending))
    · refine .inl (hsame ?_ ?_ ?_) <;> rw [put_ends, if_neg (Ne.symm hs)]
  | @wakes s hhandler | @handles s _ hhandler _ =>
    by_cases hs : s = .offerer
    · exact .inl (.inr (.inl (by rw [← hs, hhandler]; rfl)))
    · refine .inl (hsame ?_ ?_ ?_) <;> simp [put_ends, Ne.symm hs]
  | @awaits k choice c call call' shared hk hc hcall =>
    refine .inl ?_
    have hframe := (Call.step_frame hcall).initial
    simp only [Page.heard, put_field End.pending, put_field End.handler,
      Function.update_eq_self] at hq ⊢
    refine hq.imp id (Or.imp id fun hs => ?_)
    by_cases hside : c.side = .offerer
    · rw [put_ends, if_pos hside.symm, hframe] at hs
      exact hside ▸ hs
    · rwa [put_ends, if_neg (Ne.symm hside)] at hs
  | _ =>
    refine .inl (hsame ?_ ?_ ?_) <;>
      simp [put_field End.pending, put_field End.handler, put_field End.signals]

/-- An instance is fresh or in the state of its side. -/
theorem Staged.state_eq (h : p.Staged) (t : Side) :
    (p.ends t).state = .opened ∨ (p.ends t).state = t.state := by
  have hready := h.ready t
  unfold End.Ready at hready
  split at hready
  · exact hready
  all_goals first | exact .inl hready | exact .inr hready

/-- What a receiver has announced in the header page stays announced. -/
theorem Staged.announced {i : Page.Input} (h : p.Staged) (hm : p.Moved i q) {n : Nat}
    (hn : p.announced n) : q.announced n := by
  refine ⟨h.state hm hn.1 ▸ hn.1, fun hq => ?_⟩
  have hready := h.ready (.receiver n)
  cases hm with
  | @joins m ok hinit =>
    by_cases hmn : m = n
    · subst hmn
      simp only [End.Ready, hinit] at hready
      exact hn.1 hready
    · exact hn.2 (by simpa [put_field End.init, Ne.symm hmn] using hq)
  | enters | maps | fails | binds | reports | greets =>
    simp only [put_field End.init, Function.update_apply, notify_init] at hq
    split at hq
    · contradiction
    · exact hn.2 hq
  | _ => exact hn.2 (by simpa [put_field End.init] using hq)

/-- A receiver announces itself by setting its state in the header page. -/
theorem Staged.announced_before {i : Page.Input} (h : p.Staged) (hm : p.Moved i q) {n : Nat}
    (hn : q.announced n) : p.announced n ∨ q.header.receiverState = .opened := by
  obtain ⟨hstate, hnot⟩ := hn
  have hready := h.ready (.receiver n)
  cases hm with
  | reports => exact .inr rfl
  | @joins m ok hinit =>
    by_cases hmn : m = n
    · subst hmn
      simp at hnot
    · refine .inl ⟨?_, ?_⟩
      · simpa [put_field End.state, Ne.symm hmn] using hstate
      · simpa [put_field End.init, Ne.symm hmn] using hnot
  | @enters s _ hinit | @maps m hinit | @binds m hinit | @greets m _ hinit =>
    refine .inl ⟨by simpa [put_field End.state] using hstate, ?_⟩
    simp only [put_field End.init, Function.update_apply, notify_init] at hnot
    split at hnot
    · simp_all
    · exact hnot
  | @fails m _ hinit =>
    refine .inl ⟨by simpa [put_field End.state] using hstate, ?_⟩
    simp only [put_field End.init, Function.update_apply] at hnot
    split at hnot
    · rcases hinit with hinit | hinit <;> simp_all
    · exact hnot
  | _ =>
    exact .inl ⟨by simpa [put_field End.state] using hstate,
      by simpa [put_field End.init] using hnot⟩

/-- Only the release of an initialised instance sends an event. -/
theorem Moved.notifying {i : Page.Input} (hm : p.Moved i q) {t : Side}
    (hq : (q.ends t).release = some .notify) :
    (p.ends t).release = some .notify ∨ (p.ends t).state ≠ .opened := by
  cases hm with
  | @closes s _ hstate =>
    by_cases hts : t = s
    · exact .inr (hts ▸ hstate)
    · exact .inl (by simpa [put_field End.release, hts] using hq)
  | leaves | skips | tells | rouses | frees =>
    simp only [put_field End.release, Function.update_apply, tell_release, notify_release,
      wake_ends, closeChannel_ends] at hq
    split at hq
    · contradiction
    · exact .inl hq
  | _ => exact .inl (by simpa [put_field End.release] using hq)

/-- The handler comes to the answer at an instance in the state of an offerer only. -/
theorem Moved.answering {i : Page.Input} (hm : p.Moved i q) {t : Side}
    (hq : (q.ends t).handler = some .answer) :
    (p.ends t).handler = some .answer ∨ ((p.ends t).handler = some .start ∧
      (p.ends t).state = .offerer ∧ (p.ends t).signals.initialSignal = false) := by
  cases hm with
  | @handles s pc hhandler hpc =>
    by_cases hts : t = s
    · subst hts
      rcases hpc with rfl | rfl | rfl | rfl <;> simp only [put_ends_self, HandlerPc.step] at hq
      · split at hq
        · simp at hq
        · rename_i hsignal
          split at hq
          · exact .inr ⟨hhandler, ‹_›, Bool.eq_false_iff.mpr hsignal⟩
          · simp at hq
      all_goals simp at hq
    · exact .inl (by simpa [put_field End.handler, hts] using hq)
  | delivers | answers | wakes =>
    simp only [put_field End.handler, Function.update_apply, notify_handler, wake_ends] at hq
    split at hq
    · contradiction
    · exact .inl hq
  | _ => exact .inl (by simpa [put_field End.handler] using hq)

/-- The page is granted when its header is filled. -/
theorem Moved.granted {i : Page.Input} (hm : p.Moved i q) (hq : q.granted = true) :
    p.granted = true ∨ q.header = p.header.prepared := by
  cases hm with
  | prepares => exact .inr rfl
  | loses => simp [lose] at hq
  | _ => exact .inl (by simpa using hq)

/-- The offerer sends an acknowledgement where its handler answers. -/
theorem Moved.acks {i : Page.Input} (hm : p.Moved i q) :
    q.acks = p.acks ∨ (p.ends .offerer).handler = some .answer ∧ q.acks = p.acks + 1 ∧
      (q.ends .offerer).handler = some .setInitial := by
  cases hm with
  | @answers s hhandler =>
    cases s with
    | offerer => exact .inr ⟨hhandler, by simp, by simp⟩
    | receiver n => exact .inl (by simp)
  | loses => exact .inl rfl
  | _ => exact .inl (by simp)

/-- The first event is recorded once, by the handler. -/
theorem Moved.initial {i : Page.Input} (hm : p.Moved i q) (t : Side) :
    (q.ends t).signals.initialSignal = (p.ends t).signals.initialSignal ∧
        ((p.ends t).handler = some .setInitial → (q.ends t).handler = some .setInitial) ∨
      (p.ends t).handler = some .setInitial ∧ (q.ends t).signals.initialSignal = true ∧
        (q.ends t).handler = some .wakeUp := by
  cases hm with
  | @handles s pc hhandler hpc =>
    by_cases hts : t = s
    · subst hts
      rcases hpc with rfl | rfl | rfl | rfl
      · refine .inl ⟨?_, fun hh => by simp [hh] at hhandler⟩
        simp only [put_ends_self, HandlerPc.step]
        split
        · rfl
        · split <;> rfl
      · exact .inr ⟨hhandler, by simp [HandlerPc.step, Shared.setInitial],
          by simp [HandlerPc.step]⟩
      all_goals
        exact .inl ⟨by simp [HandlerPc.step, Shared.setUser, Shared.setLatent, shared],
          fun hh => by simp [hh] at hhandler⟩
    · exact .inl (by simp [put_ends, hts])
  | @awaits k choice c call call' shared hk hc hcall =>
    have hframe := (Call.step_frame hcall).initial
    refine .inl ⟨?_, by simp [put_field End.handler]⟩
    by_cases hts : t = c.side
    · subst hts
      rw [put_ends_self]
      exact hframe
    · simp [put_ends, hts]
  | @delivers s _ _ hhandler | @answers s hhandler | @wakes s hhandler =>
    refine .inl ?_
    by_cases hts : t = s
    · subst hts
      simp [hhandler]
    · simp [put_ends, hts]
  | _ =>
    exact .inl ⟨by simp [put_field End.signals], by simp [put_field End.handler]⟩

end Page

/-- The wait of a call that does not wait for user signals has ended without an error. -/
def Call.greeted (c : Call) : Bool :=
  !c.req.user && !c.req.latentUser && !c.timedOut &&
    match c.pc with
    | .clear | .recheck => true
    | .unlock r | .done r => r = .ok
    | _ => false

/-- A wait without user signals ends with the first event, or when the pipe is broken. -/
theorem Call.step_greeted {s s' : Shared} {c c' : Call} {choice : Choice}
    (h : c.step s choice = some (s', c')) (hg : c'.greeted = true) :
    c.greeted = true ∨ s.signals.initialSignal = true ∨
      (c.pc = .checkBroken ∧ s.header.isBrokenPipe = true) := by
  cases Call.goes h with
  | early _ pc _ _ hnext =>
    rcases hnext with hnext | ⟨e, rfl⟩
    · cases pc <;> simp [greeted, AwaitPc.early] at hg hnext
    · simp [greeted] at hg
  | waits pc _ _ hnext => cases pc <;> simp [greeted, AwaitPc.waiting] at hg hnext
  | user _ _ hreq | latent _ _ hreq => simp [greeted, hreq] at hg
  | initial _ _ _ hset => exact .inr (.inl hset)
  | broken _ hpc hset => exact .inr (.inr ⟨hpc, hset⟩)
  | reset | timeout | interrupt => simp [greeted, timedOut] at hg
  | clear hpc | recheck hpc | unlock _ _ hpc =>
    refine .inl ?_
    simp_all [greeted, timedOut]

/-- A call on the offerer is at this point. -/
def Syscall.greeted (c : Syscall) : Bool :=
  c.side = .offerer &&
    match c.ioctl with
    | .await call => call.greeted
    | .ssig _ => false

/-- The invariant that the handshake rests on, for the offerer and all its receivers. -/
structure Page.Greeted (p : Page) : Prop where
  staged : p.Staged
  /-- Events at the offerer come from receivers that have announced themselves. -/
  heard : p.heard → ∃ n, p.announced n
  /-- The header page tells of such a receiver. -/
  state : p.granted = true → (p.header.receiverState ≠ .none ↔ ∃ n, p.announced n)
  /-- The header page tells of the release of the offerer. -/
  offerer : p.granted = true → p.header.offererState = .closed →
    (p.ends .offerer).release.isSome = true
  /-- A release sends its event for an initialised instance. -/
  notifying : ∀ t, (p.ends t).release = some .notify → (p.ends t).state ≠ .opened
  /-- Only the handler of an offerer answers. -/
  answering : ∀ t, (p.ends t).handler = some .answer → (p.ends t).state = .offerer
  /-- No calls are made on a released instance. -/
  finished : p.Quiet
  /-- The offerer has answered at most once, and then it remembers. -/
  acked : p.acks = 0 ∨ p.acks = 1 ∧ ((p.ends .offerer).signals.initialSignal = true ∨
    (p.ends .offerer).handler = some .setInitial)
  /-- The offerer answers when it has not answered before. -/
  unanswered : (p.ends .offerer).handler = some .answer →
    p.acks = 0 ∧ (p.ends .offerer).signals.initialSignal = false
  /-- Waits for the first event end when a receiver is there. -/
  waited : ∀ c ∈ p.calls, c.greeted = true → ∃ n, p.announced n

namespace Page

/-- A receiver that has announced itself needs a page that is ready. -/
theorem Staged.granted_of_announced (h : p.Staged) {n : Nat} (hn : p.announced n) :
    p.granted = true ∧ (p.ends .offerer).init ≠ some .prepare := by
  have hconn : (p.ends .offerer).state ≠ .opened ∨ (p.ends .offerer).init = some .commit := by
    by_contra hnot
    simp only [not_or, not_not, ne_eq] at hnot
    exact hn.1 (h.alone hnot.1 hnot.2 n).1
  refine ⟨h.granted.mpr (hconn.imp id fun hc => .inr (.inr hc)), fun hp => ?_⟩
  have hready := h.ready .offerer
  simp only [End.Ready, hp] at hready
  simp [hready, hp] at hconn

/-- An event arrives at the offerer behind the announcement of its sender. -/
theorem Greeted.step_heard {i : Page.Input} (h : p.Greeted) (hfine : p.signalsAnnounced i = true)
    (hm : p.Moved i q) (hq : q.heard) : ∃ n, q.announced n := by
  rcases hm.heard hq with hp | ⟨n, hsent⟩
  · obtain ⟨n, hn⟩ := h.heard hp
    exact ⟨n, h.staged.announced hm hn⟩
  refine ⟨n, h.staged.announced hm ?_⟩
  have hready := h.staged.ready (.receiver n)
  cases hsent with
  | greeting hinit =>
    simp only [End.Ready, hinit, Side.state] at hready
    exact ⟨by simp [hready], by simp [hinit]⟩
  | ending hrelease =>
    refine ⟨h.notifying _ hrelease, fun hinit => ?_⟩
    simp [h.staged.released (.receiver n) (by simp [hinit])] at hrelease
  | answer hhandler =>
    have hstate := h.answering _ hhandler
    rcases h.staged.state_eq (.receiver n) with hs | hs <;> simp [hs, Side.state] at hstate
  | @signal k choice c hi hk hside hc =>
    refine ⟨fun hstate => ?_, fun hinit => ?_⟩
    · have := h.staged.idle c (List.mem_of_getElem? hk) (by rw [hside, hstate])
      simp [hc, Ioctl.untouched] at this
    · simp [hi, signalsAnnounced, hk, hc, hside, hinit] at hfine

/-- A step leaves the header page in keeping with the announcements made. -/
theorem Greeted.step_state {i : Page.Input} (h : p.Greeted) (hm : p.Moved i q)
    (hg : q.granted = true) : q.header.receiverState ≠ .none ↔ ∃ n, q.announced n := by
  have hmono : (∃ n, p.announced n) → ∃ n, q.announced n :=
    fun ⟨n, hn⟩ => ⟨n, h.staged.announced hm hn⟩
  constructor
  · intro hr
    have hp : p.granted = true := (hm.granted hg).resolve_right fun hq => hr (by rw [hq]; rfl)
    have hback : p.header.receiverState ≠ .none → ∃ n, q.announced n := fun hr =>
      hmono ((h.state hp).mp hr)
    cases hm.states with
    | same _ hreceiver => exact hback (hreceiver ▸ hr)
    | prepares _ hq => exact absurd (by rw [hq]; rfl) hr
    | announces _ hq => exact hback (by rwa [hq] at hr)
    | @reports n _ _ hinit _ hends =>
      have hready := h.staged.ready (.receiver n)
      simp only [End.Ready, hinit, Side.state] at hready
      exact ⟨n, by simp [hends, hready], by simp [hends]⟩
    | @closes s _ hrelease hstate hq =>
      cases s with
      | offerer => exact hback (by rwa [hq] at hr)
      | receiver n =>
        refine hmono ⟨n, hstate, fun hinit => ?_⟩
        simp [h.staged.released (.receiver n) (by simp [hinit])] at hrelease
  · rintro ⟨n, hn⟩
    rcases h.staged.announced_before hm hn with hp | hq
    · obtain ⟨hgranted, hprepare⟩ := h.staged.granted_of_announced hp
      have hr := (h.state hgranted).mpr ⟨n, hp⟩
      cases hm.states with
      | same _ hreceiver => rwa [hreceiver]
      | prepares hinit => exact absurd hinit hprepare
      | announces _ hq => rwa [hq]
      | reports _ _ hq => simp [hq, Header.setState]
      | @closes s _ _ _ hq =>
        cases s with
        | offerer => rwa [hq]
        | receiver m => simp [hq, Header.setState]
    · simp [hq]

/-- The header page shows a closed offerer only behind its release. -/
theorem Greeted.step_offerer {i : Page.Input} (h : p.Greeted) (hm : p.Moved i q)
    (hg : q.granted = true) (hq : q.header.offererState = .closed) :
    (q.ends .offerer).release.isSome = true := by
  have hp : p.granted = true := (hm.granted hg).resolve_right fun hh => by
    rw [hh] at hq
    contradiction
  have hback : p.header.offererState = .closed → (q.ends .offerer).release.isSome = true :=
    fun hc => hm.release (h.offerer hp hc)
  cases hm.states with
  | same hofferer => exact hback (hofferer ▸ hq)
  | prepares _ hh | announces _ hh =>
    rw [hh] at hq
    contradiction
  | reports _ _ hh => exact hback (by rwa [hh] at hq)
  | @closes s _ hrelease _ hh =>
    cases s with
    | offerer => exact hm.release (by rw [hrelease]; rfl)
    | receiver n => exact hback (by rwa [hh] at hq)

/-- A step adds an answer only to none, and the offerer remembers it. -/
theorem Greeted.step_acked {i : Page.Input} (h : p.Greeted) (hm : p.Moved i q) :
    q.acks = 0 ∨ q.acks = 1 ∧ ((q.ends .offerer).signals.initialSignal = true ∨
      (q.ends .offerer).handler = some .setInitial) := by
  rcases hm.acks with hq | ⟨hanswer, hq, hnext⟩
  · rw [hq]
    refine h.acked.imp id (And.imp id fun hp => ?_)
    rcases hm.initial .offerer with ⟨hsame, hkeep⟩ | ⟨-, hset, -⟩
    · exact hp.imp (fun hs => hsame.trans hs) hkeep
    · exact .inl hset
  · exact .inr ⟨by rw [hq, (h.unanswered hanswer).1], .inr hnext⟩

/-- A handler that is about to answer has no answer before it. -/
theorem Greeted.step_unanswered {i : Page.Input} (h : p.Greeted) (hm : p.Moved i q)
    (hq : (q.ends .offerer).handler = some .answer) :
    q.acks = 0 ∧ (q.ends .offerer).signals.initialSignal = false := by
  have hp : p.acks = 0 ∧ (p.ends .offerer).signals.initialSignal = false := by
    rcases hm.answering hq with hp | ⟨hstart, -, hsignal⟩
    · exact h.unanswered hp
    · exact ⟨h.acked.resolve_right (by simp [hstart, hsignal]), hsignal⟩
  refine ⟨?_, ?_⟩
  · rcases hm.acks with hacks | ⟨-, -, hnext⟩
    · exact hacks.trans hp.1
    · simp [hnext] at hq
  · rcases hm.initial .offerer with ⟨hsame, -⟩ | ⟨-, -, hnext⟩
    · exact hsame.trans hp.2
    · simp [hnext] at hq

/-- A wait for the first event ends only behind the announcement of a receiver. -/
theorem Greeted.step_waited {i : Page.Input} (h : p.Greeted) (hm : p.Moved i q) :
    ∀ c ∈ q.calls, c.greeted = true → ∃ n, q.announced n := by
  intro c hc hg
  suffices hp : ∃ n, p.announced n from hp.imp fun n hn => h.staged.announced hm hn
  obtain ⟨k, hk⟩ := List.getElem?_of_mem hc
  cases hd : p.calls[k]? with
  | none =>
    obtain ⟨-, -, ⟨req, hnew⟩ | hnew⟩ := hm.entered hd hk <;>
      simp [Syscall.greeted, hnew, Call.greeted, Call.enter] at hg
  | some d =>
    obtain ⟨c', hc', hcm⟩ := hm.call hd
    obtain rfl := Option.some.inj (hc'.symm.trans hk)
    have hback : d.greeted = true → ∃ n, p.announced n := h.waited d (List.mem_of_getElem? hd)
    cases hcm with
    | same => exact hback hg
    | woken _ hd' => exact hback (by rw [Syscall.greeted, hd']; exact hg)
    | checks | signals => simp [Syscall.greeted] at hg
    | @awaits choice call call' shared _ hd' hcall =>
      simp only [Syscall.greeted, Bool.and_eq_true, decide_eq_true_eq] at hg
      obtain ⟨hside, hg⟩ := hg
      rcases Call.step_greeted hcall hg with hp | hp | ⟨hpc, hbroken⟩
      · exact hback (by simp [Syscall.greeted, hside, hd', hp])
      · exact h.heard (.inr (.inr (hside ▸ hp)))
      · have hmem := List.mem_of_getElem? hd
        have hstate : (p.ends .offerer).state ≠ .opened := fun hs => by
          have := h.staged.idle d hmem (by rw [hside, hs])
          simp [hd', Ioctl.untouched, hpc] at this
        have hgranted := h.staged.granted.mpr (.inl hstate)
        refine (h.state hgranted).mp fun hnone => ?_
        have hbroken : p.header.isBrokenPipe = true := hbroken
        simp only [Header.isBrokenPipe, hnone, reduceCtorEq, or_false, decide_eq_true_eq] at hbroken
        have hdone := h.finished d hmem (hside ▸ h.offerer hgranted hbroken)
        simp [hd', Ioctl.result, hpc] at hdone

/-- A step in which no SSIG runs ahead of its announcement keeps the invariant of the handshake. -/
theorem Greeted.step {i : Page.Input} (h : p.Greeted) (hfine : p.signalsAnnounced i = true)
    (hm : p.Moved i q) : q.Greeted where
  staged := h.staged.step hm
  heard := h.step_heard hfine hm
  state := h.step_state hm
  offerer := h.step_offerer hm
  notifying t ht := by
    have hp := (hm.notifying ht).elim (h.notifying t) id
    exact h.staged.state hm hp ▸ hp
  answering t ht := by
    have hp := (hm.answering ht).elim (h.answering t) fun hs => hs.2.1
    rw [h.staged.state hm (by simp [hp]), hp]
  finished := h.finished.step hm
  acked := h.step_acked hm
  unanswered := h.step_unanswered hm
  waited := h.step_waited hm

/-- Before the first step nobody has announced himself, and nothing has arrived. -/
theorem Greeted.initial (header : Header) : (Page.initial header).Greeted where
  staged := .initial header
  heard := by simp [Page.heard, Page.initial, End.fresh]
  state := nofun
  offerer := nofun
  notifying := by simp [Page.initial, End.fresh]
  answering := by simp [Page.initial, End.fresh]
  finished := .initial header
  acked := .inl rfl
  unanswered := by simp [Page.initial, End.fresh]
  waited _ hc := absurd hc List.not_mem_nil

/-- The invariant of the handshake holds in every run in which no SSIG runs ahead. -/
theorem Greeted.reaches {header : Header}
    (h : Reaches Page.step signalsAnnounced (.initial header) p) : p.Greeted :=
  Reaches.invariant h (.initial header) fun _ _ _ hp hg hs => hp.step hg (step_moved hs)

end Page

/-- `xen_shm_pipe_wait` with this timeout may have returned 0: its call has succeeded, and its wait
was not ended by the timeout, after which `remaining_ms` is 0. -/
def Syscall.pipeWaited (c : Syscall) (timeoutMs : Nat) : Bool :=
  c.side = .offerer &&
    match c.ioctl with
    | .await call => call.req = .pipeWait timeoutMs && call.pc = .done .ok && !call.timedOut
    | .ssig _ => false

/-- **The connection handshake is sound** as long as no SSIG on a receiver sends its event before
INIT has set the state in the header page: an offerer that has got the initial signal, or has
waited for it in `xen_shm_pipe_wait`, has a receiver, and it sends at most one acknowledgement. -/
theorem handshake_sound {header : Header}
    (h : Reaches Page.step Page.signalsAnnounced (.initial header) p) :
    ((p.ends .offerer).signals.initialSignal = true →
        (∃ n, p.announced n) ∧ p.header.receiverState ≠ .none) ∧
      (∀ c ∈ p.calls, ∀ timeoutMs, 0 < timeoutMs → c.pipeWaited timeoutMs = true →
        (∃ n, p.announced n) ∧ p.header.receiverState ≠ .none) ∧
      p.acks ≤ 1 := by
  have hg := Page.Greeted.reaches h
  have hstate : (∃ n, p.announced n) → (∃ n, p.announced n) ∧ p.header.receiverState ≠ .none :=
    fun ⟨n, hn⟩ => ⟨⟨n, hn⟩, (hg.state (hg.staged.granted_of_announced hn).1).mpr ⟨n, hn⟩⟩
  refine ⟨fun hs => hstate (hg.heard (.inr (.inr hs))), fun c hc timeoutMs _ hw => ?_, ?_⟩
  · refine hstate (hg.waited c hc ?_)
    simp only [Syscall.pipeWaited, Bool.and_eq_true, decide_eq_true_eq] at hw
    obtain ⟨hside, hw⟩ := hw
    cases hioctl : c.ioctl with
    | ssig pc => simp [hioctl] at hw
    | await call =>
      simp only [hioctl, Bool.and_eq_true, decide_eq_true_eq] at hw
      obtain ⟨⟨hreq, hpc⟩, htimeout⟩ := hw
      simpa [Syscall.greeted, hside, hioctl, Call.greeted, hreq, hpc, Request.pipeWait]
        using htimeout
  · rcases hg.acked with ha | ⟨ha, -⟩ <;> omega

/-- The offerer and a receiver are initialised, and the offerer waits for the initial signal. -/
def greetedOfferer : List Page.Input :=
  List.replicate 6 (.init .offerer true) ++ List.replicate 6 (.init (.receiver 0) true) ++
    .deliver .offerer :: List.replicate 4 (.handler .offerer) ++
    .await .offerer (.pipeWait 5) :: (List.replicate 5 (.call 0 .proceed) ++
      .call 0 (.ends 5) :: List.replicate 3 (.call 0 .proceed))

/-- A receiver announces itself, is answered, and a wait of the offerer succeeds. -/
theorem handshake_sound_greeted :
    ∃ p, Reaches Page.step Page.signalsAnnounced (.initial .zero) p ∧
      (p.ends .offerer).signals.initialSignal = true ∧
      p.calls.any (fun c => c.pipeWaited 5) = true ∧
      (∃ n, p.announced n) ∧ p.header.receiverState ≠ .none ∧ p.acks ≤ 1 := by
  have hrun : (run Page.step Page.signalsAnnounced (.initial .zero) greetedOfferer).any (fun p =>
      (p.ends .offerer).signals.initialSignal = true ∧
        p.calls.any (fun c => c.pipeWaited 5) = true) = true := by decide +kernel
  obtain ⟨p, hp, htest⟩ := exists_reaches_of_run hrun
  obtain ⟨hsignal, hwait⟩ := of_decide_eq_true htest
  obtain ⟨c, hc, hwaited⟩ := List.any_eq_true.mp hwait
  have hsound := handshake_sound hp
  obtain ⟨hn, hstate⟩ := hsound.2.1 c hc 5 (by decide) hwaited
  exact ⟨p, hp, hsignal, hwait, hn, hstate, hsound.2.2⟩

/-- A receiver is in its state, its SSIG sends an event, and the offerer handles it. -/
def earlySignal : List Page.Input :=
  List.replicate 6 (.init .offerer true) ++ List.replicate 4 (.init (.receiver 0) true) ++
    .ssig (.receiver 0) :: List.replicate 2 (.call 0 .proceed) ++
    .deliver .offerer :: List.replicate 4 (.handler .offerer)

/-- The offerer takes this event for the initial signal, and `receiver_state` is still NONE. -/
theorem not_handshake_sound : ∃ p, Reaches Page.step (fun _ _ => true) (.initial .zero) p ∧
    (p.ends .offerer).signals.initialSignal = true ∧ p.header.receiverState = .none := by
  have hrun : (run Page.step (fun _ _ => true) (.initial .zero) earlySignal).any (fun p =>
      (p.ends .offerer).signals.initialSignal = true ∧ p.header.receiverState = .none) = true := by
    decide +kernel
  obtain ⟨p, hp, htest⟩ := exists_reaches_of_run hrun
  exact ⟨p, hp, of_decide_eq_true htest⟩

end XenShm.Kernel
