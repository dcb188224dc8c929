import XenShm.Kernel.Mutex
import XenShm.Kernel.Final

/-!
# Detection of a broken pipe

An offerer and a receiver are connected, and one of them is released. Its event finds the
other side as long as no other receiver takes the port, and a call looks at the states in
the header page right before it goes to sleep and again before it returns. So no call
sleeps through the end of the peer.
-/

namespace XenShm.Kernel

open Library

variable {p q : Page} {n : Nat} {x : Side}

/-- The other end of a connection between the offerer and receiver `n`. -/
def Side.other (n : Nat) : Side → Side
  | .offerer => .receiver n
  | .receiver _ => .offerer

/-- The release of the instance has set its state to CLOSED. -/
def End.hasClosed (e : End) : Bool :=
  match e.release with
  | none | some .close => false
  | _ => true

/-- The release of the instance has sent its event. -/
def End.hasTold (e : End) : Bool :=
  match e.release with
  | none | some .close | some .notify => false
  | _ => true

/-- The offerer and receiver `n` are connected, and neither end is being released. -/
structure Page.Connected (p : Page) (n : Nat) : Prop where
  inUse : ∀ t, t = .offerer ∨ t = .receiver n → (p.ends t).state ≠ .opened ∧
    (p.ends t).init ≠ some .announce ∧ (p.ends t).release = none
  /-- The port of the offerer is bound to that of the receiver. -/
  peer : p.peer = some n

/-- No new receiver connects to the port of the offerer. -/
def Page.noNewReceiver (p : Page) : Page.Input → Bool
  | .init (.receiver m) ok =>
    !((p.ends (.receiver m)).init = some .bind && ok && p.portOpen && p.peer = none)
  | _ => true

/-- The receiver has bound the port of the offerer and has not closed it again. -/
def Page.active (p : Page) (m : Nat) : Prop :=
  ((p.ends (.receiver m)).state ≠ .opened ∨ (p.ends (.receiver m)).init = some .commit) ∧
    (p.ends (.receiver m)).release ≠ some .gone

/-- How the event channels of the page are connected, and where a release has its news. -/
structure Page.Wired (p : Page) : Prop where
  staged : p.Staged
  quiet : p.Quiet
  /-- The handler of an initialised instance is bound. -/
  bound : ∀ t, ((p.ends t).state ≠ .opened ∨ (p.ends t).init = some .port ∨
    (p.ends t).init = some .commit) → (p.ends t).release ≠ some .gone → (p.ends t).bound = true
  /-- There is one active receiver, the one that the port of the offerer is bound to. -/
  peer : ∀ m, p.active m → (p.ends .offerer).release ≠ some .gone → p.peer = some m
  /-- News that was sent waits in the channel. -/
  sent : ∀ t, (p.ends t).news = .sent → (p.ends t).pending = true
  /-- News that was taken from the channel is with the handler. -/
  taken : ∀ t, (p.ends t).news = .taken → (p.ends t).handler.isSome = true

namespace Page

/-- A release that is over stays over, for a descriptor is released once. -/
theorem Moved.gone {i : Page.Input} (hm : p.Moved i q) {t : Side}
    (ht : (p.ends t).release = some .gone) : (q.ends t).release = some .gone := by
  cases hm with
  | leaves hrelease | skips hrelease | closes hrelease | tells hrelease | rouses hrelease
  | frees hrelease =>
    simp only [put_field End.release, Function.update_apply, tell_release, notify_release,
      wake_ends, closeChannel_ends]
    split
    · simp_all
    · exact ht
  | _ => simpa [put_field End.release] using ht

/-- A receiver becomes active when it binds a free port. -/
theorem Moved.active {i : Page.Input} (hm : p.Moved i q) {m : Nat} (hq : q.active m) :
    p.active m ∨ (p.peer = none ∧ q.peer = some m ∧ p.noNewReceiver i = false) := by
  have hgone : (p.ends (.receiver m)).release ≠ some .gone := fun hg => hq.2 (hm.gone hg)
  rcases hq with ⟨hq, -⟩
  cases hm with
  | @binds k hinit hopen hpeer =>
    by_cases hkm : k = m
    · subst hkm
      exact .inr ⟨hpeer, rfl, by simp [noNewReceiver, hinit, hopen, hpeer]⟩
    · exact .inl ⟨by simpa [put_ends, Ne.symm hkm] using hq, hgone⟩
  | @joins k _ hinit =>
    by_cases hkm : k = m
    · subst hkm
      exact .inl ⟨.inr hinit, hgone⟩
    · exact .inl ⟨by simpa [put_ends, Ne.symm hkm] using hq, hgone⟩
  | enters | maps | fails | reports | greets =>
    refine .inl ⟨?_, hgone⟩
    simp only [put_field End.state, put_field End.init, Function.update_apply, notify_state,
      notify_init] at hq
    split at hq <;> simp_all
  | _ => exact .inl ⟨by simpa [put_field End.state, put_field End.init] using hq, hgone⟩

/-- A connection ends when one of its ends closes its event channel. -/
theorem Moved.peer {i : Page.Input} (hm : p.Moved i q) {m : Nat} (hp : p.peer = some m)
    (ho : (q.ends .offerer).release ≠ some .gone)
    (hr : (q.ends (.receiver m)).release ≠ some .gone) : q.peer = some m := by
  cases hm with
  | binds _ _ hpeer => simp [hpeer] at hp
  | @frees s _ _ =>
    cases s with
    | offerer => simp at ho
    | receiver k =>
      have hkm : ¬ p.peer = some k := fun hk => by
        obtain rfl := Option.some.inj (hk.symm.trans hp)
        simp at hr
      simpa [closeChannel, hkm] using hp
  | loses => exact hp
  | _ => simpa using hp

/-- An instance that was initialised keeps its handler until its release is over. -/
theorem Wired.step_bound {i : Page.Input} (h : p.Wired) (hm : p.Moved i q) {t : Side}
    (ht : (q.ends t).state ≠ .opened ∨ (q.ends t).init = some .port ∨
      (q.ends t).init = some .commit) (hq : (q.ends t).release ≠ some .gone) :
    (q.ends t).bound = true := by
  have hp := h.bound t
  have hgone : (p.ends t).release ≠ some .gone := fun hg => hq (hm.gone hg)
  cases hm with
  | enters | prepares | maps | fails | opens hinit | shows hinit | commits hinit | announces hinit
  | binds hinit | joins hinit | reports hinit | greets hinit | loses hinit =>
    simp only [put_field End.state, put_field End.init, put_field End.bound, Function.update_apply,
      notify_state, notify_init, notify_bound, lose_ends] at ht ⊢
    split <;> simp_all
  | frees =>
    simp only [closeChannel_ends, put_field End.state, put_field End.init, put_field End.release,
      put_field End.bound, Function.update_apply] at ht hq ⊢
    split <;> simp_all
  | _ =>
    have := hp (by simpa [put_field End.state, put_field End.init] using ht) hgone
    simpa [put_field End.bound] using this

/-- An event that was sent stays pending until it is delivered. -/
theorem notify_pending_of (s t : Side) (h : (p.ends t).pending = true) :
    ((p.notify s).ends t).pending = true := by
  rw [notify_ends]
  split
  · rfl
  · exact h

/-- News that was sent stays in the channel until a handler is started with it. -/
theorem Wired.step_sent {i : Page.Input} (h : p.Wired) (hm : p.Moved i q) {t : Side}
    (hq : (q.ends t).news = .sent) : (q.ends t).pending = true := by
  have hp := h.sent t
  cases hm with
  | @tells s _ =>
    simp only [put_field End.news, put_field End.pending, Function.update_eq_self, tell_ends,
      notify_target] at hq ⊢
    rw [apply_ite End.pending]
    split
    · rw [notify_ends, if_pos ‹_›]
    · rename_i hnot
      rw [if_neg hnot, notify_news] at hq
      exact notify_pending_of s t (hp hq)
  | greets | signals | answers =>
    refine notify_pending_of _ t ?_
    simp only [notify_news, put_field End.news, Function.update_eq_self] at hq
    simpa [put_field End.pending] using hp hq
  | @delivers s _ _ _ =>
    by_cases hts : t = s
    · subst hts
      simp only [put_ends_self] at hq
      split at hq <;> simp_all
    · simpa [put_ends, hts] using hp (by simpa [put_ends, hts] using hq)
  | @wakes s _ =>
    by_cases hts : t = s
    · subst hts
      simp only [wake_ends, put_ends_self] at hq ⊢
      split at hq
      · contradiction
      · exact hp hq
    · simpa [put_ends, hts] using hp (by simpa [put_ends, hts] using hq)
  | @strays m =>
    rw [put_field End.pending, Function.update_apply]
    split
    · rfl
    · exact hp (by simpa [put_field End.news] using hq)
  | _ => simpa [put_field End.pending] using hp (by simpa [put_field End.news] using hq)

/-- A handler that was started with the news keeps it until it ends. -/
theorem Wired.step_taken {i : Page.Input} (h : p.Wired) (hm : p.Moved i q) {t : Side}
    (hq : (q.ends t).news = .taken) : (q.ends t).handler.isSome = true := by
  have hp := h.taken t
  cases hm with
  | @tells s _ =>
    simp only [put_field End.news, Function.update_eq_self, tell_ends] at hq
    split at hq
    · contradiction
    · simpa [put_field End.handler] using hp (by simpa using hq)
  | @delivers s _ _ _ | @answers s _ =>
    simp only [put_field End.handler, Function.update_apply, notify_handler]
    split
    · rfl
    · exact hp (by simp_all [put_ends])
  | @wakes s _ =>
    by_cases hts : t = s
    · subst hts
      simp only [wake_ends, put_ends_self] at hq
      split at hq <;> simp_all
    · simpa [put_ends, hts] using hp (by simpa [put_ends, hts] using hq)
  | @handles s pc _ hpc =>
    simp only [put_field End.handler, Function.update_apply]
    split
    · rcases hpc with rfl | rfl | rfl | rfl <;> simp only [HandlerPc.step] <;>
        (repeat' split) <;> rfl
    · exact hp (by simpa [put_field End.news] using hq)
  | _ => simpa [put_field End.handler] using hp (by simpa [put_field End.news] using hq)

/-- Every step of the page, whatever it is, keeps its event channels connected. -/
theorem Wired.step {i : Page.Input} (h : p.Wired) (hm : p.Moved i q) : q.Wired where
  staged := h.staged.step hm
  quiet := h.quiet.step hm
  bound _ ht hq := h.step_bound hm ht hq
  peer m hq ho := by
    have hpo : (p.ends .offerer).release ≠ some .gone := fun hg => ho (hm.gone hg)
    rcases hm.active hq with hp | ⟨-, hpeer, -⟩
    · exact hm.peer (h.peer m hp hpo) ho hq.2
    · exact hpeer
  sent _ hq := h.step_sent hm hq
  taken _ hq := h.step_taken hm hq

theorem Wired.initial (header : Header) : (Page.initial header).Wired where
  staged := .initial header
  quiet := .initial header
  bound t ht := by simp [Page.initial, End.fresh] at ht
  peer m hm := by simp [Page.active, Page.initial, End.fresh] at hm
  sent t ht := by simp [Page.initial, End.fresh] at ht
  taken t ht := by simp [Page.initial, End.fresh] at ht

/-- In every run the event channels of the page are connected as the code expects. -/
theorem Wired.reaches {guard : Page → Page.Input → Bool} {header : Header}
    (h : Reaches Page.step guard (.initial header) p) : p.Wired :=
  Reaches.invariant h (Page.Wired.initial header) fun _ _ _ hp _ hs => hp.step (step_moved hs)

end Page

/-- The state of this side in the header page. -/
def Header.stateOf (h : Header) : Side → MetaState
  | .offerer => h.offererState
  | .receiver _ => h.receiverState

/-- The call is asleep, and nothing has woken it yet. -/
def Call.sleeping (c : Call) : Bool := c.pc = .asleep && !c.woken

/-- The connection and what becomes of it when no other receiver connects. -/
structure Page.Watched (p : Page) (n : Nat) : Prop where
  wired : p.Wired
  /-- Both ends are initialised, and the receiver has announced itself. -/
  inUse : ∀ t, t = .offerer ∨ t = .receiver n → (p.ends t).state ≠ .opened ∧
    (p.ends t).init ≠ some .announce
  alone : ∀ m, p.active m → m = n
  /-- The header page tells which end is closed. -/
  closed : ∀ t, t = .offerer ∨ t = .receiver n → (p.ends t).hasClosed = true →
    p.header.stateOf t = .closed
  /-- The event of the release reaches the other end. -/
  informed : ∀ t, t = .offerer ∨ t = .receiver n → (p.ends (t.other n)).hasTold = true →
    (p.ends t).release ≠ some .gone → (p.ends t).news ≠ .none
  /-- When the event was handled, no call sleeps at that end. -/
  awake : ∀ t, t = .offerer ∨ t = .receiver n → (p.ends (t.other n)).hasTold = true →
    (p.ends t).news = .handled → ∀ c ∈ p.calls, c.side = t → c.isAwait Call.sleeping = false

/-- A connection is watched from the moment at which both ends are in use. -/
theorem Page.Connected.watched (h : p.Connected n) (hw : p.Wired) : p.Watched n where
  wired := hw
  inUse t ht := ⟨(h.inUse t ht).1, (h.inUse t ht).2.1⟩
  alone m hm := by
    have hpeer := hw.peer m hm (by simp [(h.inUse _ (.inl rfl)).2.2])
    exact (Option.some.inj (h.peer.symm.trans hpeer)).symm
  closed t ht hc := by simp [End.hasClosed, (h.inUse t ht).2.2] at hc
  informed t ht hc := by
    have hother : t.other n = .offerer ∨ t.other n = .receiver n := by
      rcases ht with rfl | rfl <;> simp [Side.other]
    simp [End.hasTold, (h.inUse _ hother).2.2] at hc
  awake t ht hc := by
    have hother : t.other n = .offerer ∨ t.other n = .receiver n := by
      rcases ht with rfl | rfl <;> simp [Side.other]
    simp [End.hasTold, (h.inUse _ hother).2.2] at hc

namespace Page

/-- An initialised instance is closed by its release, in the header page first. -/
theorem Moved.hasClosed {i : Page.Input} (hm : p.Moved i q) {t : Side}
    (hstate : (p.ends t).state ≠ .opened) (hq : (q.ends t).hasClosed = true) :
    (p.ends t).hasClosed = true ∨ q.header.stateOf t = .closed := by
  have hsame : (q.ends t).release = (p.ends t).release → (p.ends t).hasClosed = true := fun hr => by
    simpa [End.hasClosed, hr] using hq
  cases hm with
  | @closes s _ _ =>
    by_cases hts : t = s
    · subst hts
      right
      cases t <;> rfl
    · exact .inl (hsame (by simp [put_ends, hts]))
  | @skips s _ hopened =>
    by_cases hts : t = s
    · exact absurd (hts ▸ hopened) hstate
    · exact .inl (hsame (by simp [put_ends, hts]))
  | @leaves s _ _ _ =>
    by_cases hts : t = s
    · simp [hts, End.hasClosed] at hq
    · exact .inl (hsame (by simp [put_ends, hts]))
  | @tells s hrelease | @rouses s hrelease | @frees s hrelease _ =>
    by_cases hts : t = s
    · exact .inl (by simp [hts, End.hasClosed, hrelease])
    · exact .inl (hsame (by simp [put_ends, hts]))
  | _ => exact .inl (hsame (by simp [put_field End.release]))

/-- An end that has told its peer had done so before, or it does so in this step, with the news. -/
theorem Moved.hasTold {i : Page.Input} (hm : p.Moved i q) {t : Side}
    (hstate : (p.ends t).state ≠ .opened) (hq : (q.ends t).hasTold = true) :
    (p.ends t).hasTold = true ∨ (p.ends t).release = some .notify ∧
      ∀ u, p.target t = some u → (q.ends u).news = .sent := by
  have hsame : (q.ends t).release = (p.ends t).release → (p.ends t).hasTold = true := fun hr => by
    simpa [End.hasTold, hr] using hq
  cases hm with
  | @tells s hrelease =>
    by_cases hts : t = s
    · subst hts
      refine .inr ⟨hrelease, fun u hu => ?_⟩
      simp only [put_field End.news, Function.update_eq_self, tell_ends, notify_target]
      rw [if_pos hu]
    · exact .inl (hsame (by simp [put_ends, hts]))
  | @skips s _ hopened =>
    by_cases hts : t = s
    · exact absurd (hts ▸ hopened) hstate
    · exact .inl (hsame (by simp [put_ends, hts]))
  | @leaves s | @closes s =>
    by_cases hts : t = s
    · simp [hts, End.hasTold] at hq
    · exact .inl (hsame (by simp [put_ends, hts]))
  | @rouses s hrelease | @frees s hrelease _ =>
    by_cases hts : t = s
    · exact .inl (by simp [hts, End.hasTold, hrelease])
    · exact .inl (hsame (by simp [put_ends, hts]))
  | _ => exact .inl (hsame (by simp [put_field End.release]))

/-- An end that is closed stays closed, whatever the other end does. -/
theorem Moved.hasClosed_of {i : Page.Input} (hm : p.Moved i q) {t : Side}
    (hp : (p.ends t).hasClosed = true) : (q.ends t).hasClosed = true := by
  have hsame : (q.ends t).release = (p.ends t).release → (q.ends t).hasClosed = true := fun hr => by
    simpa [End.hasClosed, hr] using hp
  cases hm with
  | @leaves s hrelease _ _ =>
    by_cases hts : t = s
    · simp [hts, End.hasClosed, hrelease] at hp
    · exact hsame (by simp [put_ends, hts])
  | @skips s | @closes s | @tells s | @rouses s | @frees s =>
    by_cases hts : t = s
    · simp [hts, End.hasClosed]
    · exact hsame (by simp [put_ends, hts])
  | _ => exact hsame (by simp [put_field End.release])

/-- News of a release is never forgotten by the end it was sent to. -/
theorem Moved.news {i : Page.Input} (hm : p.Moved i q) {t : Side}
    (hp : (p.ends t).news ≠ .none) : (q.ends t).news ≠ .none := by
  cases hm with
  | tells =>
    simp only [put_field End.news, Function.update_eq_self, tell_ends]
    split
    · nofun
    · simpa using hp
  | delivers | wakes =>
    simp only [put_field End.news, Function.update_apply, wake_ends]
    split
    · split
      · nofun
      · simp_all
    · exact hp
  | _ => simpa [put_field End.news] using hp

/-- The handler wakes the calls when it has handled the news. -/
theorem Moved.handled {i : Page.Input} (hm : p.Moved i q) {t : Side}
    (hq : (q.ends t).news = .handled) : (p.ends t).news = .handled ∨
      ∀ c ∈ q.calls, c.side = t → c.isAwait Call.sleeping = false := by
  cases hm with
  | tells =>
    simp only [put_field End.news, Function.update_eq_self, tell_ends] at hq
    split at hq
    · contradiction
    · exact .inl (by simpa using hq)
  | @delivers s _ _ _ =>
    simp only [put_field End.news, Function.update_apply] at hq
    split at hq
    · split at hq
      · contradiction
      · simp_all
    · exact .inl hq
  | @wakes s _ =>
    by_cases hts : t = s
    · right
      intro c hc hside
      obtain ⟨d, hd, rfl⟩ := List.mem_map.mp hc
      rw [Syscall.wake_side] at hside
      unfold Syscall.wake
      rw [if_pos (hside.trans hts)]
      cases hioctl : d.ioctl <;> simp [Syscall.isAwait, hioctl, Call.sleeping, Call.wake]
    · exact .inl (by simpa [put_ends, hts] using hq)
  | _ => exact .inl (by simpa [put_field End.news] using hq)

end Page

/-- A call goes to sleep when the pipe is not broken. -/
theorem Call.step_sleeping {s s' : Shared} {c c' : Call} {choice : Choice}
    (h : c.step s choice = some (s', c')) (hc : c'.sleeping = true) :
    s.header.isBrokenPipe = false := by
  have hover : ∀ left, (c.over left).sleeping = false := fun left => by
    obtain hpc | ⟨_, -, -, hpc⟩ := AwaitPc.afterWait_cases left <;> simp [sleeping, hpc]
  cases choice with
  | interrupt =>
    simp only [step, Option.ite_none_right_eq_some, Option.some.injEq, Prod.mk.injEq] at h
    obtain ⟨-, -, rfl⟩ := h
    simp [sleeping] at hc
  | timeout | ends =>
    simp only [step, Option.ite_none_right_eq_some, Option.some.injEq, Prod.mk.injEq] at h
    obtain ⟨-, -, rfl⟩ := h
    simp [hover] at hc
  | proceed =>
    simp only [step, proceed] at h
    cases hpc : c.pc <;> simp only [hpc, reduceCtorEq] at h
    case checkUser | checkInit | checkLatent =>
      obtain ⟨-, ⟨-, rfl⟩ | ⟨-, -, rfl⟩⟩ := test_cases h
      · simp [sleeping] at hc
      · simp [hover] at hc
    case checkBroken =>
      obtain ⟨-, ⟨hmet, rfl⟩ | ⟨-, -, rfl⟩⟩ := test_cases h
      · simpa [met, hpc] using hmet
      · simp [hover] at hc
    all_goals
      (repeat' split at h) <;> simp only [Option.some.injEq, Prod.mk.injEq, reduceCtorEq] at h
      all_goals
        obtain ⟨-, rfl⟩ := h
        simp_all [sleeping]

namespace Page

/-- An instance sends the event of its release after it has closed its state. -/
theorem hasClosed_of_hasTold {e : End} (h : e.hasTold = true) : e.hasClosed = true := by
  unfold End.hasTold at h
  unfold End.hasClosed
  split at h <;> simp_all

/-- The end of a connection is one of its two sides. -/
theorem other_or (h : x = .offerer ∨ x = .receiver n) :
    (x.other n = .offerer ∨ x.other n = .receiver n) ∧ (x.other n).other n = x := by
  rcases h with rfl | rfl <;> simp [Side.other]

/-- Whichever end is closed in the header page, the pipe is broken. -/
theorem isBrokenPipe_of_stateOf {h : Header} (hx : h.stateOf x = .closed) :
    h.isBrokenPipe = true := by
  cases x <;> simp_all [Header.stateOf, Header.isBrokenPipe]

/-- A connection with a closed end is a broken pipe in the header page. -/
theorem Watched.isBrokenPipe (h : p.Watched n) (hx : x = .offerer ∨ x = .receiver n)
    (hc : (p.ends x).hasClosed = true) : p.header.isBrokenPipe = true :=
  isBrokenPipe_of_stateOf (h.closed x hx hc)

/-- While both event channels are open, events go from one end to the other. -/
theorem Watched.target (h : p.Watched n) (hx : x = .offerer ∨ x = .receiver n)
    (hgone : (p.ends x).release ≠ some .gone) (hother : (p.ends (x.other n)).release ≠ some .gone) :
    p.target (x.other n) = some x := by
  have hr := (h.inUse (.receiver n) (.inr rfl)).1
  rcases hx with rfl | rfl
  · simp [Side.other, Page.target, h.wired.peer n ⟨.inl hr, hother⟩ hgone]
  · simp [Side.other, Page.target, h.wired.peer n ⟨.inl hr, hgone⟩ hother]

/-- A step keeps the closed states of a connection in the header page. -/
theorem Watched.step_closed {i : Page.Input} (h : p.Watched n) (hm : p.Moved i q)
    (hx : x = .offerer ∨ x = .receiver n) (hq : (q.ends x).hasClosed = true) :
    q.header.stateOf x = .closed := by
  rcases hm.hasClosed (h.inUse x hx).1 hq with hp | hq
  · have hclosed := h.closed x hx hp
    have hoff := h.inUse .offerer (.inl rfl)
    cases hm.states with
    | same hofferer hreceiver => cases x <;> simp_all [Header.stateOf]
    | prepares hinit =>
      have hready := h.wired.staged.ready .offerer
      simp only [End.Ready, hinit] at hready
      exact absurd hready hoff.1
    | announces hinit => exact absurd hinit hoff.2
    | @reports m _ _ hinit =>
      have hready := h.wired.staged.ready (.receiver m)
      simp only [End.Ready, hinit, Side.state] at hready
      have hnone := h.wired.staged.released (.receiver m) (by simp [hinit])
      obtain rfl := h.alone m ⟨.inl (by simp [hready]), by simp [hnone]⟩
      exact absurd hinit (h.inUse _ (.inr rfl)).2
    | @closes s _ _ _ hq =>
      rw [hq]
      cases s <;> cases x <;> first | rfl | exact hclosed
  · exact hq

/-- A step takes neither end of a connection back to the time before its INIT. -/
theorem Watched.step_inUse {i : Page.Input} (h : p.Watched n) (hm : p.Moved i q)
    (hx : x = .offerer ∨ x = .receiver n) :
    (q.ends x).state ≠ .opened ∧ (q.ends x).init ≠ some .announce := by
  obtain ⟨hstate, hinit⟩ := h.inUse x hx
  refine ⟨h.wired.staged.state hm hstate ▸ hstate, fun hq => ?_⟩
  have hready := h.wired.staged.ready x
  have hinit' : (p.ends x).init = some .commit ∨ (p.ends x).init = some .announce := by
    cases hm with
    | enters | prepares | loses | opens | shows | announces | maps | fails | binds | reports
    | greets =>
      simp only [put_field End.init, Function.update_apply, notify_init, lose_ends] at hq
      split at hq
      · contradiction
      · exact .inr hq
    | commits hinit | joins hinit =>
      simp only [put_field End.init, Function.update_apply] at hq
      split at hq
      · simp_all
      · exact .inr hq
    | _ => exact .inr (by simpa [put_field End.init] using hq)
  rcases hinit' with hc | ha
  · simp only [End.Ready, hc] at hready
    exact hstate hready
  · exact hinit ha

/-- A call that has returned does not sleep. -/
theorem isAwait_sleeping_of_result {c : Syscall} (h : c.ioctl.result.isSome = true) :
    c.isAwait Call.sleeping = false := by
  cases hc : c.ioctl with
  | ssig pc => simp [Syscall.isAwait, hc]
  | await call => cases hpc : call.pc <;> simp_all [Syscall.isAwait, Call.sleeping, Ioctl.result]

/-- Nobody goes to sleep once the other end is closed. -/
theorem Watched.step_awake {i : Page.Input} (h : p.Watched n) (hm : p.Moved i q) {t : Side}
    (ht : t = .offerer ∨ t = .receiver n) (htold : (p.ends (t.other n)).hasTold = true)
    (hnews : (p.ends t).news = .handled) {c : Syscall} (hc : c ∈ q.calls) (hside : c.side = t) :
    c.isAwait Call.sleeping = false := by
  have hbroken := h.isBrokenPipe (other_or ht).1 (hasClosed_of_hasTold htold)
  obtain ⟨k, hk⟩ := List.getElem?_of_mem hc
  cases hd : p.calls[k]? with
  | none =>
    obtain ⟨-, -, ⟨req, hnew⟩ | hnew⟩ := hm.entered hd hk <;>
      simp [Syscall.isAwait, hnew, Call.sleeping, Call.enter]
  | some d =>
    obtain ⟨c', hc', hcm⟩ := hm.call hd
    obtain rfl := Option.some.inj (hc'.symm.trans hk)
    cases hcm with
    | same => exact h.awake t ht htold hnews d (List.mem_of_getElem? hd) hside
    | woken _ hd' => simp [Syscall.isAwait, Call.sleeping, Call.wake]
    | checks | signals => rfl
    | @awaits choice call call' shared _ hd' hcall =>
      rw [Syscall.isAwait, Bool.eq_false_iff]
      intro hsleep
      have hopen : p.header.isBrokenPipe = false := Call.step_sleeping hcall hsleep
      rw [hbroken] at hopen
      contradiction

/-- A step without a new receiver keeps all that holds of the connection. -/
theorem Watched.step {i : Page.Input} (h : p.Watched n) (hguard : p.noNewReceiver i = true)
    (hm : p.Moved i q) : q.Watched n := by
  have hback : ∀ t, t = .offerer ∨ t = .receiver n → (q.ends (t.other n)).hasTold = true →
      (p.ends (t.other n)).hasTold = true ∨
        ((q.ends t).release ≠ some .gone → (q.ends t).news = .sent) := by
    intro t ht hq
    rcases hm.hasTold (h.inUse _ (other_or ht).1).1 hq with hp | ⟨hrelease, hsent⟩
    · exact .inl hp
    · refine .inr fun hgone => hsent t (h.target ht (fun hg => hgone (hm.gone hg)) ?_)
      simp [hrelease]
  have hwired := h.wired.step hm
  refine ⟨hwired, fun t ht => h.step_inUse hm ht, fun m hq => ?_, fun t ht => h.step_closed hm ht,
    fun t ht hq hgone => ?_, fun t ht hq hnews c hc hside => ?_⟩
  · rcases hm.active hq with hp | ⟨-, -, hfalse⟩
    · exact h.alone m hp
    · simp [hguard] at hfalse
  · rcases hback t ht hq with hp | hsent
    · exact hm.news (h.informed t ht hp fun hg => hgone (hm.gone hg))
    · simp [hsent hgone]
  · by_cases hgone : (q.ends t).release = some .gone
    · exact isAwait_sleeping_of_result (hwired.quiet c hc (by simp [hside, hgone]))
    rcases hback t ht hq with hp | hsent
    · rcases hm.handled hnews with hpnews | hwoken
      · exact h.step_awake hm ht hp hpnews hc hside
      · exact hwoken c hc hside
    · simp [hsent hgone] at hnews

/-- A connection is watched in every run from it in which no new receiver connects. -/
theorem Watched.reaches (h : p.Watched n) (hpq : Reaches Page.step noNewReceiver p q) :
    q.Watched n :=
  @Reaches.invariant _ _ _ _ _ _ (fun p => p.Watched n) hpq h
    fun _ _ _ hp hg hs => hp.step hg (step_moved hs)

end Page

/-- How many steps a call makes at most when the pipe is broken. -/
def AwaitPc.rank : AwaitPc → Nat
  | .start => 12
  | .takeMutex => 11
  | .reset => 10
  | .asleep => 9
  | .prepare => 8
  | .checkUser => 7
  | .checkInit => 6
  | .checkLatent => 5
  | .checkBroken => 4
  | .clear => 3
  | .recheck => 2
  | .refuse | .unlock _ => 1
  | .done _ => 0

/-- How many steps an ioctl can still make when the pipe is broken. -/
def Ioctl.rank : Ioctl → Nat
  | .await c => c.pc.rank
  | .ssig .start => 2
  | .ssig .notify => 1
  | .ssig (.done _) => 0

/-- The call has not made its last check of the pipe. -/
def Call.unchecked (c : Call) : Bool :=
  match c.pc with
  | .unlock _ | .done _ => false
  | _ => true

/-- The call will return, or has returned, `EPIPE`, unless it was interrupted or refused. -/
def Call.detects (c : Call) (interrupted : Bool) : Bool :=
  match c.pc with
  | .unlock r | .done r => r = .error .epipe || r = .error .erestartsys && interrupted ||
      r = .error .edeadlk && c.req.mutex
  | .refuse => c.req.mutex
  | _ => true

/-- The condition ends the wait with more ticks left than an `int` holds, and they become
negative. -/
def Choice.overflows : Choice → Bool
  | .ends left => waitRetval left < 0
  | .proceed | .interrupt | .timeout => false

/-- The end of a wait is nearer to the end of the call than every test, and unless the ticks left
become negative the pipe is tested again. -/
theorem Call.over_detects (c : Call) (left : Option Nat) :
    (c.over left).pc.rank ≤ 3 ∧
      ((Choice.ofLeft left).overflows = false → ∀ b, (c.over left).detects b = true) := by
  have hpc := c.over_pc left
  generalize c.over left = d at hpc ⊢
  obtain h | ⟨ticks, rfl, hneg, h⟩ := AwaitPc.afterWait_cases left
  · simp [detects, AwaitPc.rank, hpc, h]
  · simp [AwaitPc.rank, hpc, h, Choice.ofLeft, Choice.overflows, hneg]

/-- In a broken pipe, every step of a call brings it nearer to this end. -/
theorem Call.step_detects {s s' : Shared} {c c' : Call} {choice : Choice}
    (h : c.step s choice = some (s', c')) (hstate : s.state ≠ .opened)
    (hbroken : s.header.isBrokenPipe = true) :
    c'.pc.rank < c.pc.rank ∧ (choice.overflows = false →
      ∀ b, c.detects b = true → c'.detects (b || choice = .interrupt) = true) := by
  have hover : ∀ left, 3 < c.pc.rank → (c.over left).pc.rank < c.pc.rank ∧
      ((Choice.ofLeft left).overflows = false → ∀ b, c.detects b = true →
        (c.over left).detects (b || Choice.ofLeft left = .interrupt) = true) := fun left hrank =>
    ⟨(c.over_detects left).1.trans_lt hrank, fun hfits b _ => (c.over_detects left).2 hfits _⟩
  have htest : ∀ next : AwaitPc, 3 < c.pc.rank → c.met s = false ∧ next.rank < c.pc.rank ∧
      next.waiting = true ∨ c.met s = true → c.test s next = some (s', c') →
      c'.pc.rank < c.pc.rank ∧ (Choice.proceed.overflows = false → ∀ b, c.detects b = true →
        c'.detects (b || Choice.proceed = .interrupt) = true) := by
    intro next hrank hnext h
    obtain ⟨-, ⟨hmet, rfl⟩ | ⟨-, -, rfl⟩⟩ := test_cases h
    · obtain ⟨-, hlt, hwaiting⟩ | hmet' := hnext
      · refine ⟨hlt, fun _ b _ => ?_⟩
        cases next <;> simp [detects, AwaitPc.waiting] at hwaiting ⊢
      · simp [hmet] at hmet'
    · exact hover none hrank
  cases choice with
  | interrupt =>
    simp only [step, Option.ite_none_right_eq_some, Option.some.injEq, Prod.mk.injEq] at h
    obtain ⟨hpc, -, rfl⟩ := h
    simp [detects, AwaitPc.rank, hpc]
  | timeout =>
    simp only [step, Option.ite_none_right_eq_some, Option.some.injEq, Prod.mk.injEq] at h
    obtain ⟨⟨hpc, -⟩, -, rfl⟩ := h
    have hrank : 3 < c.pc.rank := by simp [AwaitPc.rank, hpc]
    exact ⟨(hover (some 0) hrank).1, fun _ b _ => (c.over_detects (some 0)).2 (by
      simp [Choice.ofLeft, Choice.overflows]) _⟩
  | ends left =>
    simp only [step, Option.ite_none_right_eq_some, Option.some.injEq, Prod.mk.injEq] at h
    obtain ⟨⟨hmet, -⟩, -, rfl⟩ := h
    refine hover (some left) ?_
    cases hpc : c.pc <;> simp [met, hpc, AwaitPc.rank] at hmet ⊢
  | proceed =>
    simp only [step, proceed] at h
    cases hpc : c.pc <;> simp only [hpc, reduceCtorEq] at h
    case checkUser | checkInit | checkLatent =>
      rw [← hpc]
      refine htest _ (by rw [hpc]; decide) ?_ h
      cases hmet : c.met s with
      | true => exact .inr rfl
      | false => exact .inl ⟨rfl, by rw [hpc]; decide, rfl⟩
    case checkBroken =>
      -- the test of the pipe itself does not fail in a broken pipe
      rw [← hpc]
      exact htest _ (by rw [hpc]; decide) (.inr (by simpa [met, hpc] using hbroken)) h
    all_goals
      (repeat' split at h) <;> simp only [Option.some.injEq, Prod.mk.injEq, reduceCtorEq] at h
      all_goals
        obtain ⟨-, rfl⟩ := h
        simp_all [detects, AwaitPc.rank]

/-- The input lets call `k` make a step, or ends its sleep. -/
def Page.Input.isCall (k : Nat) : Page.Input → Bool
  | .call j _ => j = k
  | _ => false

/-- The wait of this call ends with ticks left that become negative. -/
def Page.Input.overflows (k : Nat) : Page.Input → Bool
  | .call j choice => j = k && choice.overflows
  | _ => false

/-- What becomes of a call in a broken pipe while these inputs are executed. -/
structure Syscall.Goes (k : Nat) (is : List Page.Input) (c d : Syscall) : Prop where
  side : d.side = c.side
  /-- An AWAIT keeps the argument it was called with. -/
  req : ∀ req, c.isAwait (fun call => call.req = req) = true →
    d.isAwait (fun call => call.req = req) = true
  /-- The call makes a bounded number of steps. -/
  rank : is.countP (Page.Input.isCall k) + d.ioctl.rank ≤ c.ioctl.rank
  /-- The result that the call has returned stays. -/
  kept : ∀ r, c.ioctl.result = some r → d.ioctl.result = some r
  /-- When it has not looked at the page yet, it returns `EPIPE` in its first step. -/
  first : c.ioctl.begun = true → if is.any (Page.Input.isCall k)
    then d.ioctl.result = some (.error .epipe) else d.ioctl.begun = true
  /-- An AWAIT returns `EPIPE` unless it was interrupted or refused, or its wait has ended with
  ticks left that become negative. -/
  detects : is.any (Page.Input.overflows k) = false →
    ∀ b, c.isAwait (fun call => call.detects b) = true →
    d.isAwait (fun call => call.detects (b || is.contains (.call k .interrupt))) = true

/-- Before anything is executed the call is where it was. -/
theorem Syscall.Goes.refl {k : Nat} {c : Syscall} : c.Goes k [] c where
  side := rfl
  req _ := id
  rank := by simp
  kept _ := id
  first hc := by simpa using hc
  detects _ b h := by simpa using h

/-- What becomes of a call over several inputs is composed of what each of them does. -/
theorem Syscall.Goes.trans {k : Nat} {i : Page.Input} {is : List Page.Input} {c d e : Syscall}
    (h : c.Goes k [i] d) (h' : d.Goes k is e) : c.Goes k (i :: is) e where
  side := h'.side.trans h.side
  req req hc := h'.req req (h.req req hc)
  rank := by
    have h1 := h.rank
    have h2 := h'.rank
    simp only [List.countP_cons, List.countP_nil] at h1 ⊢
    omega
  kept r hc := h'.kept r (h.kept r hc)
  first hc := by
    have hd := h.first hc
    cases hi : i.isCall k with
    | false =>
      simp only [List.any_cons, List.any_nil, hi, Bool.or_false, Bool.false_or] at hd ⊢
      exact h'.first hd
    | true =>
      simp only [List.any_cons, hi, Bool.true_or, if_true] at hd ⊢
      exact h'.kept _ hd
  detects hfits b hc := by
    simp only [List.any_cons, Bool.or_eq_false_iff] at hfits
    have hd := h'.detects hfits.2 _ (h.detects (by simp [hfits.1]) b hc)
    simpa only [List.contains_cons, List.contains_nil, Bool.or_false, Bool.or_assoc] using hd

namespace Page

/-- A step of something else does not move the call. -/
theorem Input.isCall_eq_false {k : Nat} {i : Page.Input} (hi : ∀ choice, i ≠ .call k choice) :
    i.isCall k = false ∧ [i].contains (.call k .interrupt) = false := by
  refine ⟨?_, by simpa using Ne.symm (hi .interrupt)⟩
  cases i <;> simp_all [isCall]

/-- One step of the system, as one call sees it. -/
theorem CallMoved.goes {k : Nat} {i : Page.Input} {c d : Syscall} (hm : p.CallMoved k i c d)
    (hstate : (p.ends c.side).state ≠ .opened) (hbroken : p.header.isBrokenPipe = true) :
    c.Goes k [i] d := by
  have hside := hm.side_eq
  cases hm with
  | same hi =>
    obtain ⟨hcall, hint⟩ := Input.isCall_eq_false hi
    exact ⟨hside, fun _ => id, by simp [hcall], fun _ => id, fun h => by simpa [hcall] using h,
      fun _ b h => by rwa [hint, Bool.or_false]⟩
  | woken hi hc =>
    obtain ⟨hcall, hint⟩ := Input.isCall_eq_false hi
    refine ⟨hside, fun req h => ?_, by simp [hcall, hc, Ioctl.rank, Call.wake], fun r h => ?_,
      fun h => ?_, fun _ b h => ?_⟩
    · rw [Syscall.isAwait, hc] at h
      exact h
    · rw [hc] at h
      exact h
    · rw [hc] at h
      simp only [List.any_cons, hcall, List.any_nil, Bool.or_false, Bool.false_eq_true, if_false]
      exact h
    · rw [Syscall.isAwait, hc] at h
      rw [hint, Bool.or_false]
      exact h
  | @awaits choice call call' shared hi hc hcall =>
    have hdetects := Call.step_detects hcall hstate hbroken
    refine ⟨hside, fun req h => ?_, ?_, fun r h => ?_, fun h => ?_, fun hfits b h => ?_⟩
    · rw [Syscall.isAwait, hc] at h
      simpa [Syscall.isAwait, (Call.step_frame hcall).req] using h
    · have hlt := hdetects.1
      simp only [hi, List.countP_cons, List.countP_nil, Input.isCall, hc, Ioctl.rank, decide_true,
        if_true]
      omega
    · cases hpc : call.pc <;> simp [hc, Ioctl.result, hpc] at h
      cases choice <;> simp [Call.step, Call.proceed, Call.met, hpc] at hcall
    · simp only [hc, Ioctl.begun, decide_eq_true_eq] at h
      cases choice <;> simp [Call.step, Call.proceed, Call.met, h, Page.shared, hstate,
        hbroken] at hcall
      simp [hi, Input.isCall, ← hcall.2, Ioctl.result]
    · rw [Syscall.isAwait, hc] at h
      have hsame : ([i].contains (.call k .interrupt)) = decide (choice = .interrupt) := by
        cases choice <;> simp [hi]
      rw [hsame]
      exact hdetects.2 (by simpa [hi, Input.overflows] using hfits) b h
  | checks hi hc =>
    refine ⟨hside, fun _ h => by simp [Syscall.isAwait, hc] at h, ?_, fun r h => ?_, fun _ => ?_,
      fun _ _ h => by simp [Syscall.isAwait, hc] at h⟩
    · simp [hi, Input.isCall, hc, Ioctl.rank, hstate, hbroken]
    · simp [hc, Ioctl.result] at h
    · simp [hi, Input.isCall, Ioctl.result, hstate, hbroken]
  | signals hi hc =>
    refine ⟨hside, fun _ h => by simp [Syscall.isAwait, hc] at h, ?_, fun r h => ?_, fun h => ?_,
      fun _ _ h => by simp [Syscall.isAwait, hc] at h⟩
    · simp [hi, Input.isCall, hc, Ioctl.rank]
    · simp [hc, Ioctl.result] at h
    · simp [hc, Ioctl.begun] at h

end Page

/-- A whole run, as one call on a connected instance sees it when the other end is closed. -/
theorem Page.Watched.goes {is : List Page.Input} {k : Nat} {c : Syscall} {r : Page}
    (h : q.Watched n) (hx : x = .offerer ∨ x = .receiver n)
    (hclosed : (q.ends (x.other n)).hasClosed = true) (hk : q.calls[k]? = some c)
    (hside : c.side = x) (hrun : run Page.step noNewReceiver q is = some r) :
    ∃ d, r.calls[k]? = some d ∧ c.Goes k is d := by
  induction is generalizing q c with
  | nil =>
    obtain rfl := Option.some.inj hrun
    exact ⟨c, hk, .refl⟩
  | cons i is ih =>
    simp only [run] at hrun
    split at hrun
    · rename_i hguard
      obtain ⟨t, ht, hrest⟩ := Option.bind_eq_some_iff.mp hrun
      have hm := step_moved ht
      obtain ⟨d, hd, hcm⟩ := hm.call hk
      have hgoes := hcm.goes (hside ▸ (h.inUse x hx).1) (h.isBrokenPipe (other_or hx).1 hclosed)
      obtain ⟨e, he, hgoes'⟩ := ih (h.step hguard hm) (hm.hasClosed_of hclosed) hd
        (hcm.side_eq.trans hside) hrest
      exact ⟨e, he, hgoes.trans hgoes'⟩
    · contradiction

/-- What an AWAIT returns when the other end was closed before its last check of the pipe. -/
def Result.ofBroken (r : Result) (interrupted mutex : Bool) : Bool :=
  r = .error .epipe || r = .error .erestartsys && interrupted || r = .error .edeadlk && mutex

/-- Only calls that ask for the mutex can be refused. -/
theorem Page.Locked.detects (h : p.Locked) {c : Syscall} (hc : c ∈ p.calls) {call : Call}
    (hioctl : c.ioctl = .await call) (hun : call.unchecked = true) : call.detects false = true := by
  have hasked := List.countP_eq_zero.mp h.asked c hc
  cases hpc : call.pc <;>
    simp_all [Syscall.isAwait, Call.holds, Call.won, Call.detects, Call.unchecked]

/-- A test can be made, with one tick left if it is the end of a timed wait. -/
theorem Call.test_isSome (s : Shared) {c : Call} {next : AwaitPc}
    (hstep : c.proceed s = c.test s next) :
    (c.step s .proceed).isSome = true ∨ (c.step s (.ends 1)).isSome = true := by
  cases hmet : c.met s with
  | false => exact .inl (by simp [step, hstep, test, hmet])
  | true =>
    by_cases htimeout : c.req.timeoutMs = 0
    · exact .inl (by simp [step, hstep, test, hmet, htimeout])
    · exact .inr (by simp [step, hmet, htimeout])

/-- A call that does not sleep can go on. -/
theorem Call.step_isSome (s : Shared) {c : Call} (hawake : c.sleeping = false)
    (hdone : ∀ r, c.pc ≠ .done r) :
    (c.step s .proceed).isSome = true ∨ (c.step s (.ends 1)).isSome = true := by
  cases hpc : c.pc with
  | done r => exact absurd hpc (hdone r)
  | asleep =>
    have hwoken : c.woken = true := by simpa [sleeping, hpc] using hawake
    exact .inl (by simp [step, proceed, hpc, hwoken])
  | checkUser | checkInit | checkLatent | checkBroken =>
    exact test_isSome s (by rw [proceed, hpc])
  | start | takeMutex =>
    refine .inl ?_
    simp only [step, proceed, hpc]
    repeat' split
    all_goals rfl
  | _ => exact .inl (by simp [step, proceed, hpc])

/-- The call can make a step of its own, which neither the timeout nor a signal for the process
makes for it. -/
def Page.GoesOn (p : Page) (k : Nat) : Prop :=
  ∃ choice, choice ≠ .timeout ∧ choice ≠ .interrupt ∧ (p.step (.call k choice)).isSome = true

/-- A call that does not sleep has returned, or it can make a step. -/
theorem Page.callStep_isSome {k : Nat} {c : Syscall} (hk : p.calls[k]? = some c)
    (hawake : c.isAwait Call.sleeping = false) : c.ioctl.result.isSome = true ∨ p.GoesOn k := by
  cases hc : c.ioctl with
  | ssig pc =>
    cases pc with
    | done r => exact .inl rfl
    | start | notify =>
      exact .inr ⟨.proceed, by simp, by simp, by simp [step, callStep, hk, hc]⟩
  | await call =>
    by_cases hdone : ∃ r, call.pc = .done r
    · obtain ⟨r, hr⟩ := hdone
      exact .inl (by simp [Ioctl.result, hr])
    · have hsleep : call.sleeping = false := by simpa only [Syscall.isAwait, hc] using hawake
      have hgoes : ∀ choice, (call.step (p.shared c.side) choice).isSome = true →
          (p.step (.call k choice)).isSome = true := by
        intro choice hsome
        obtain ⟨⟨shared, call'⟩, hcall⟩ := Option.isSome_iff_exists.mp hsome
        simp [step, callStep, hk, hc, hcall]
      rcases Call.step_isSome (p.shared c.side) hsleep fun r hr => hdone ⟨r, hr⟩ with h | h
      · exact .inr ⟨.proceed, by simp, by simp, hgoes _ h⟩
      · exact .inr ⟨.ends 1, by simp, by simp, hgoes _ h⟩

/-- **A broken pipe is detected.** An offerer and a receiver were connected, no other receiver
connects, and the other end has set its state to CLOSED. The event it sends then reaches this
side, and when it was handled no AWAIT is asleep. From now on each call makes a bounded number
of steps, and it can make them when the event was handled; an AWAIT that has not made its last
check returns `EPIPE` unless it is interrupted or refused, or its wait ends with ticks left that
become negative, and has given back the mutex; and calls that begin now return `EPIPE` at once. -/
theorem broken_pipe_detected {header : Header} {p q : Page} {n : Nat} {x : Side}
    (hp : Reaches Page.step Page.anything (.initial header) p) (hc : p.Connected n)
    (hq : Reaches Page.step Page.noNewReceiver p q) (hx : x = .offerer ∨ x = .receiver n)
    (hclosed : (q.ends (x.other n)).hasClosed = true) :
    ((q.ends (x.other n)).hasTold = true → (q.ends x).release ≠ some .gone →
        (q.ends x).news = .sent ∧ (q.ends x).pending = true ∧ (q.ends x).bound = true ∨
        (q.ends x).news = .taken ∧ (q.ends x).handler.isSome = true ∨
        (q.ends x).news = .handled) ∧
      ((q.ends (x.other n)).hasTold = true → (q.ends x).news = .handled →
        ∀ c ∈ q.calls, c.side = x → c.isAwait Call.sleeping = false ∧
          ∀ k, q.calls[k]? = some c →
            c.ioctl.result.isSome = true ∨ q.GoesOn k) ∧
      q.header.ecMutexCount + q.holders = 1 ∧
      ∀ is r, run Page.step Page.noNewReceiver q is = some r →
        ∀ k c, q.calls[k]? = some c → c.side = x → ∃ d, r.calls[k]? = some d ∧
          is.countP (Page.Input.isCall k) + d.ioctl.rank ≤ c.ioctl.rank ∧
          (c.ioctl.begun = true → if is.any (Page.Input.isCall k)
            then d.ioctl.result = some (.error .epipe) else d.ioctl.begun = true) ∧
          ∀ call, c.ioctl = .await call → call.unchecked = true →
            ∃ call', d.ioctl = .await call' ∧ call'.req = call.req ∧
              ∀ res, d.ioctl.result = some res → call'.holds = false ∧
                (is.any (Page.Input.overflows k) = false →
                  res.ofBroken (is.contains (.call k .interrupt)) call.req.mutex = true) := by
  have hqi : Reaches Page.step Page.anything (.initial header) q :=
    hp.trans (hq.weaken fun _ _ _ => rfl)
  have hlocked := Page.Locked.reaches hqi
  have hw := (hc.watched (Page.Wired.reaches hp)).reaches hq
  have hstate := (hw.inUse x hx).1
  refine ⟨fun htold hgone => ?_, fun htold hnews c hcm hside => ?_, ?_,
    fun is r hrun k c hk hside => ?_⟩
  · have hnews := hw.informed x hx htold hgone
    cases hn : (q.ends x).news with
    | none => contradiction
    | sent => exact .inl ⟨rfl, hw.wired.sent x hn, hw.wired.bound x (.inl hstate) hgone⟩
    | taken => exact .inr (.inl ⟨rfl, hw.wired.taken x hn⟩)
    | handled => exact .inr (.inr rfl)
  · have hawake := hw.awake x hx htold hnews c hcm hside
    exact ⟨hawake, fun k hk => Page.callStep_isSome hk hawake⟩
  · refine hlocked.conserved (hw.wired.staged.granted.mpr (.inl ?_))
    exact (hw.inUse .offerer (.inl rfl)).1
  · obtain ⟨d, hd, hgoes⟩ := hw.goes hx hclosed hk hside hrun
    refine ⟨d, hd, hgoes.rank, hgoes.first, fun call hioctl hun => ?_⟩
    have hreq := hgoes.req call.req (by simp [Syscall.isAwait, hioctl])
    have hdet := fun hfits => hgoes.detects hfits false (by
      simpa [Syscall.isAwait, hioctl] using hlocked.detects (List.mem_of_getElem? hk) hioctl hun)
    cases hd' : d.ioctl with
    | ssig pc => simp [Syscall.isAwait, hd'] at hreq
    | await call' =>
      simp only [Syscall.isAwait, hd', decide_eq_true_eq] at hreq hdet
      refine ⟨call', rfl, hreq, fun res hres => ?_⟩
      cases hpc : call'.pc <;> simp [Ioctl.result, hpc] at hres
      subst hres
      refine ⟨by simp [Call.holds, Call.won, hpc], fun hfits => ?_⟩
      simpa [Call.detects, hpc, Result.ofBroken, hreq] using hdet hfits

/-- The offerer and a receiver are initialised, and the offerer waits with the mutex. -/
def waitingOfferer : List Page.Input :=
  List.replicate 6 (.init .offerer true) ++ List.replicate 6 (.init (.receiver 0) true) ++
    .await .offerer ⟨true, false, true, false, 0⟩ :: List.replicate 8 (.call 0 .proceed)

/-- The receiver is released, and its event is handled together with the initial signal. -/
def receiverLeaves : List Page.Input :=
  List.replicate 3 (.release (.receiver 0)) ++ .deliver .offerer ::
    List.replicate 4 (.handler .offerer)

/-- The offerer sleeps, the receiver is released, and the event wakes the call, which returns
`EPIPE`. -/
theorem broken_pipe_detected_asleep :
    ∃ p q, Reaches Page.step Page.anything (.initial .zero) p ∧ p.Connected 0 ∧
      p.calls.any (Syscall.isAwait Call.sleeping) = true ∧
      Reaches Page.step Page.noNewReceiver p q ∧ (q.ends .offerer).news = .handled ∧
      (∀ c ∈ q.calls, c.side = .offerer → c.isAwait Call.sleeping = false) ∧
      q.header.ecMutexCount + q.holders = 1 := by
  have hrun : (run Page.step Page.anything (.initial .zero) waitingOfferer).any (fun p =>
      (((p.ends .offerer).state ≠ .opened ∧ (p.ends .offerer).init ≠ some .announce ∧
        (p.ends .offerer).release = none) ∧ ((p.ends (.receiver 0)).state ≠ .opened ∧
        (p.ends (.receiver 0)).init ≠ some .announce ∧ (p.ends (.receiver 0)).release = none)) ∧
      p.peer = some 0 ∧ p.calls.any (Syscall.isAwait Call.sleeping) = true ∧
      (run Page.step Page.noNewReceiver p receiverLeaves).any (fun q =>
        (q.ends (.receiver 0)).hasTold = true ∧ (q.ends .offerer).news = .handled) = true) =
      true := by decide +kernel
  obtain ⟨p, hp, htest⟩ := exists_reaches_of_run hrun
  obtain ⟨⟨hoff, hrec⟩, hpeer, hsleep, hrun'⟩ := of_decide_eq_true htest
  obtain ⟨q, hq, htest'⟩ := exists_reaches_of_run hrun'
  obtain ⟨htold, hnews⟩ := of_decide_eq_true htest'
  have hc : p.Connected 0 := ⟨fun t ht => by rcases ht with rfl | rfl <;> assumption, hpeer⟩
  obtain ⟨-, hawake, hmutex, -⟩ := broken_pipe_detected hp hc hq (.inl rfl)
    (Page.hasClosed_of_hasTold htold)
  exact ⟨p, q, hp, hc, hsleep, hq, hnews,
    fun c hcm hside => (hawake htold hnews c hcm hside).1, hmutex⟩

/-- The offerer and a receiver are initialised, and the offerer waits for user signals with more
than 34 days of timeout. -/
def patientOfferer : List Page.Input :=
  List.replicate 6 (.init .offerer true) ++ List.replicate 6 (.init (.receiver 0) true) ++
    .await .offerer ⟨true, false, false, false, 3000000000⟩ :: List.replicate 8 (.call 0 .proceed)

/-- The sleeping call is woken by the end of the pipe with `left` ticks left, and returns. -/
def returnsWith (left : Nat) : List Page.Input :=
  List.replicate 5 (.call 0 .proceed) ++ [.call 0 (.ends left), .call 0 .proceed]

/-- The receiver closes early, so that more ticks are left than an `int` holds. The call does not
look at the pipe again and returns the negative number that they become. -/
theorem not_broken_pipe_detected : jiffies 1000 3000000000 = 3000000000 ∧
    ∃ p q, Reaches Page.step Page.anything (.initial .zero) p ∧ p.Connected 0 ∧
      Reaches Page.step Page.noNewReceiver p q ∧ (q.ends (.receiver 0)).hasTold = true ∧
      (q.ends .offerer).news = .handled ∧
      q.calls.any (fun c => c.side = .offerer && c.isAwait Call.unchecked) = true ∧
      (run Page.step Page.noNewReceiver q (returnsWith 2999999000)).any (fun r =>
        r.calls.any fun c => c.ioctl.result = some (.error (.code (-1294968296))) &&
          !(Result.error (.code (-1294968296))).ofBroken false false) = true := by
  have hrun : (run Page.step Page.anything (.initial .zero) patientOfferer).any (fun p =>
      (((p.ends .offerer).state ≠ .opened ∧ (p.ends .offerer).init ≠ some .announce ∧
        (p.ends .offerer).release = none) ∧ ((p.ends (.receiver 0)).state ≠ .opened ∧
        (p.ends (.receiver 0)).init ≠ some .announce ∧ (p.ends (.receiver 0)).release = none)) ∧
      p.peer = some 0 ∧
      (run Page.step Page.noNewReceiver p receiverLeaves).any (fun q =>
        (q.ends (.receiver 0)).hasTold = true ∧ (q.ends .offerer).news = .handled ∧
        q.calls.any (fun c => c.side = .offerer && c.isAwait Call.unchecked) = true ∧
        (run Page.step Page.noNewReceiver q (returnsWith 2999999000)).any (fun r =>
          r.calls.any fun c => c.ioctl.result = some (.error (.code (-1294968296))) &&
            !(Result.error (.code (-1294968296))).ofBroken false false) = true) = true) =
      true := by decide +kernel
  obtain ⟨p, hp, htest⟩ := exists_reaches_of_run hrun
  obtain ⟨⟨hoff, hrec⟩, hpeer, hrun'⟩ := of_decide_eq_true htest
  obtain ⟨q, hq, htest'⟩ := exists_reaches_of_run hrun'
  obtain ⟨htold, hnews, hunchecked, hreturns⟩ := of_decide_eq_true htest'
  have hc : p.Connected 0 := ⟨fun t ht => by rcases ht with rfl | rfl <;> assumption, hpeer⟩
  exact ⟨by decide, p, q, hp, hc, hq, htold, hnews, hunchecked, hreturns⟩

end XenShm.Kernel
