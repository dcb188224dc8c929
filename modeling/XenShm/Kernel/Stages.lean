import XenShm.Kernel.Page

/-!
# The steps around a header page

What one step does, once and for all, and the order in which the offerer and the
receivers come to use the page: nobody is connected before the offerer has filled it.
-/

namespace XenShm.Kernel

open Library

variable {p q : Page} {side other : Side}

namespace Page

@[simp] theorem put_header (p : Page) (s : Side) (e : End) : (p.put s e).header = p.header := rfl
@[simp] theorem put_granted (p : Page) (s : Side) (e : End) : (p.put s e).granted = p.granted := rfl
@[simp] theorem put_lost (p : Page) (s : Side) (e : End) : (p.put s e).lost = p.lost := rfl
@[simp] theorem put_portOpen (p : Page) (s : Side) (e : End) :
    (p.put s e).portOpen = p.portOpen := rfl
@[simp] theorem put_peer (p : Page) (s : Side) (e : End) : (p.put s e).peer = p.peer := rfl
@[simp] theorem put_calls (p : Page) (s : Side) (e : End) : (p.put s e).calls = p.calls := rfl
@[simp] theorem put_offererClosed (p : Page) (s : Side) (e : End) :
    (p.put s e).offererClosed = p.offererClosed := rfl
@[simp] theorem put_receiverClosed (p : Page) (s : Side) (e : End) :
    (p.put s e).receiverClosed = p.receiverClosed := rfl
@[simp] theorem put_acks (p : Page) (s : Side) (e : End) : (p.put s e).acks = p.acks := rfl
@[simp] theorem put_target (p : Page) (s : Side) (e : End) : (p.put s e).target = p.target := rfl

/-- To replace an instance changes no other one. -/
theorem put_ends (p : Page) (s t : Side) (e : End) :
    (p.put s e).ends t = if t = s then e else p.ends t := by
  simp only [put, Function.update_apply]

@[simp] theorem put_ends_self (p : Page) (s : Side) (e : End) : (p.put s e).ends s = e := by
  simp [put_ends]

@[simp] theorem lose_calls (p : Page) (e : End) : (p.lose e).calls = p.calls := rfl

/-- Closing an event channel ends the connection, and nothing else. -/
theorem closeChannel_eq (p : Page) (s : Side) : p.closeChannel s =
    { p.put s { p.ends s with bound := false, release := some .gone } with
      portOpen := (p.closeChannel s).portOpen
      peer := (p.closeChannel s).peer } := by
  cases s with
  | offerer => rfl
  | receiver n =>
    simp only [closeChannel]
    split <;> rfl

@[simp] theorem lose_ends (p : Page) (e : End) :
    (p.lose e).ends = (p.put .offerer { e with init := none }).ends := rfl
@[simp] theorem wake_header (p : Page) (s : Side) : (p.wake s).header = p.header := rfl
@[simp] theorem wake_offererClosed (p : Page) (s : Side) :
    (p.wake s).offererClosed = p.offererClosed := rfl
@[simp] theorem wake_receiverClosed (p : Page) (s : Side) :
    (p.wake s).receiverClosed = p.receiverClosed := rfl
@[simp] theorem wake_granted (p : Page) (s : Side) : (p.wake s).granted = p.granted := rfl
@[simp] theorem wake_acks (p : Page) (s : Side) : (p.wake s).acks = p.acks := rfl
@[simp] theorem wake_peer (p : Page) (s : Side) : (p.wake s).peer = p.peer := rfl
@[simp] theorem wake_ends (p : Page) (s : Side) : (p.wake s).ends = p.ends := rfl
@[simp] theorem closeChannel_ends (p : Page) (s : Side) : (p.closeChannel s).ends =
    (p.put s { p.ends s with bound := false, release := some .gone }).ends := by
  rw [closeChannel_eq]
@[simp] theorem closeChannel_header (p : Page) (s : Side) :
    (p.closeChannel s).header = p.header := by rw [closeChannel_eq, put_header]
@[simp] theorem closeChannel_offererClosed (p : Page) (s : Side) :
    (p.closeChannel s).offererClosed = p.offererClosed := by rw [closeChannel_eq, put_offererClosed]
@[simp] theorem closeChannel_receiverClosed (p : Page) (s : Side) :
    (p.closeChannel s).receiverClosed = p.receiverClosed := by
  rw [closeChannel_eq, put_receiverClosed]
@[simp] theorem closeChannel_acks (p : Page) (s : Side) : (p.closeChannel s).acks = p.acks := by
  rw [closeChannel_eq, put_acks]
@[simp] theorem closeChannel_granted (p : Page) (s : Side) :
    (p.closeChannel s).granted = p.granted := by rw [closeChannel_eq, put_granted]
@[simp] theorem closeChannel_calls (p : Page) (s : Side) : (p.closeChannel s).calls = p.calls := by
  rw [closeChannel_eq, put_calls]

/-- An event changes the pending bit of one instance and nothing else. -/
theorem notify_eq (p : Page) (s : Side) : p.notify s = { p with ends := (p.notify s).ends } := by
  unfold notify
  split <;> rfl

/-- An event waits at the instance it was sent to. -/
theorem notify_ends (p : Page) (s t : Side) :
    (p.notify s).ends t =
      if p.target s = some t then { p.ends t with pending := true } else p.ends t := by
  unfold notify
  cases h : p.target s with
  | none => simp
  | some u =>
    by_cases htu : t = u
    · simp [htu]
    · simp [put_ends, htu, Ne.symm htu]

@[simp] theorem notify_target (p : Page) (s : Side) : (p.notify s).target = p.target := by
  unfold notify
  split <;> rfl

/-- The news of a release goes where its event goes, and changes nothing else. -/
theorem tell_eq (p : Page) (s : Side) : p.tell s = { p with ends := (p.tell s).ends } := by
  unfold tell
  split <;> rfl

/-- The news is marked at the instance that the event was sent to. -/
theorem tell_ends (p : Page) (s t : Side) :
    (p.tell s).ends t =
      if p.target s = some t then { p.ends t with news := .sent } else p.ends t := by
  unfold tell
  cases h : p.target s with
  | none => simp
  | some u =>
    by_cases htu : t = u
    · simp [htu]
    · simp [put_ends, htu, Ne.symm htu]

end Page

/-- Everything that one step can do to the page, one constructor for each way through the code. -/
inductive Page.Moved (p : Page) : Page.Input → Page → Prop where
  | refused {side : Side} {ok : Bool} (hinit : (p.ends side).init = none)
    (hrelease : (p.ends side).release = none) (hstate : (p.ends side).state ≠ .opened) :
    p.Moved (.init side ok) p
  | enters {side : Side} {ok : Bool} (hinit : (p.ends side).init = none)
    (hrelease : (p.ends side).release = none) (hlost : side = .offerer → p.lost = false)
    (hstate : (p.ends side).state = .opened) :
    p.Moved (.init side ok) (p.put side { p.ends side with init := some .prepare })
  | prepares (hinit : (p.ends .offerer).init = some .prepare) :
    p.Moved (.init .offerer true) ({ p with header := p.header.prepared, granted := true }.put
      .offerer { p.ends .offerer with init := some .bind })
  | loses (hinit : (p.ends .offerer).init = some .prepare ∨
      (p.ends .offerer).init = some .bind) :
    p.Moved (.init .offerer false) (p.lose (p.ends .offerer))
  | opens (hinit : (p.ends .offerer).init = some .bind) :
    p.Moved (.init .offerer true)
      (p.put .offerer { p.ends .offerer with bound := true, init := some .port })
  | shows {ok : Bool} (hinit : (p.ends .offerer).init = some .port) :
    p.Moved (.init .offerer ok)
      ({ p with portOpen := true }.put .offerer { p.ends .offerer with init := some .commit })
  | commits {ok : Bool} (hinit : (p.ends .offerer).init = some .commit) :
    p.Moved (.init .offerer ok)
      (p.put .offerer { p.ends .offerer with state := .offerer, init := some .announce })
  | announces {ok : Bool} (hinit : (p.ends .offerer).init = some .announce) :
    p.Moved (.init .offerer ok) ({ p with header := p.header.setState .offerer .opened }.put
      .offerer { p.ends .offerer with init := none })
  | maps {n : Nat} (hinit : (p.ends (.receiver n)).init = some .prepare)
    (hgranted : p.granted = true) :
    p.Moved (.init (.receiver n) true)
      (p.put (.receiver n) { p.ends (.receiver n) with init := some .bind })
  | fails {n : Nat} {ok : Bool} (hinit : (p.ends (.receiver n)).init = some .prepare ∨
      (p.ends (.receiver n)).init = some .bind) :
    p.Moved (.init (.receiver n) ok)
      (p.put (.receiver n) { p.ends (.receiver n) with init := none })
  | binds {n : Nat} (hinit : (p.ends (.receiver n)).init = some .bind) (hopen : p.portOpen = true)
    (hpeer : p.peer = none) :
    p.Moved (.init (.receiver n) true) ({ p with peer := some n }.put (.receiver n)
      { p.ends (.receiver n) with bound := true, init := some .commit })
  | joins {n : Nat} {ok : Bool} (hinit : (p.ends (.receiver n)).init = some .commit) :
    p.Moved (.init (.receiver n) ok) (p.put (.receiver n)
      { p.ends (.receiver n) with state := .receiver, init := some .announce })
  | reports {n : Nat} {ok : Bool} (hinit : (p.ends (.receiver n)).init = some .announce) :
    p.Moved (.init (.receiver n) ok)
      ({ p with header := p.header.setState (.receiver n) .opened }.put (.receiver n)
        { p.ends (.receiver n) with init := some .greet })
  | greets {n : Nat} {ok : Bool} (hinit : (p.ends (.receiver n)).init = some .greet) :
    p.Moved (.init (.receiver n) ok)
      ((p.put (.receiver n) { p.ends (.receiver n) with init := none }).notify (.receiver n))
  | leaves {side : Side} (hrelease : (p.ends side).release = none)
    (hinit : (p.ends side).init = none)
    (hcalls : ∀ c ∈ p.calls, c.side = side → c.ioctl.result.isSome = true) :
    p.Moved (.release side) (p.put side { p.ends side with release := some .close })
  | skips {side : Side} (hrelease : (p.ends side).release = some .close)
    (hstate : (p.ends side).state = .opened) :
    p.Moved (.release side) (p.put side { p.ends side with release := some .free })
  | closes {side : Side} (hrelease : (p.ends side).release = some .close)
    (hstate : (p.ends side).state ≠ .opened) :
    p.Moved (.release side) ({ p with
      header := p.header.setState side .closed
      offererClosed := p.offererClosed || side = Side.offerer
      receiverClosed := p.receiverClosed || side ≠ Side.offerer }.put side
        { p.ends side with release := some .notify })
  | tells {side : Side} (hrelease : (p.ends side).release = some .notify) :
    p.Moved (.release side) (((p.notify side).tell side).put side
      { ((p.notify side).tell side).ends side with release := some .wakeUp })
  | rouses {side : Side} (hrelease : (p.ends side).release = some .wakeUp) :
    p.Moved (.release side) ((p.wake side).put side { p.ends side with release := some .free })
  | frees {side : Side} (hrelease : (p.ends side).release = some .free)
    (hhandler : (p.ends side).handler = none) : p.Moved (.release side) (p.closeChannel side)
  | calls {side : Side} {ioctl : Ioctl} {i : Page.Input} (hrelease : (p.ends side).release = none)
    (hi : (∃ req, i = .await side req ∧ ioctl = .await (.enter req)) ∨
      (i = .ssig side ∧ ioctl = .ssig .start)) :
    p.Moved i { p with calls := p.calls ++ [⟨side, ioctl,
      (p.offererClosed || p.receiverClosed) && (p.ends side).state ≠ .opened⟩] }
  | awaits {k : Nat} {choice : Choice} {c : Syscall} {call call' : Call} {shared : Shared}
    (hk : p.calls[k]? = some c) (hc : c.ioctl = .await call)
    (hcall : call.step (p.shared c.side) choice = some (shared, call')) :
    p.Moved (.call k choice)
      { p.put c.side { p.ends c.side with signals := shared.signals } with
        header := shared.header
        calls := p.calls.set k { c with ioctl := .await call' } }
  | checks {k : Nat} {choice : Choice} {c : Syscall} (hk : p.calls[k]? = some c)
    (hc : c.ioctl = .ssig .start) :
    p.Moved (.call k choice) { p with
      calls := p.calls.set k { c with
        ioctl := .ssig (if (p.ends c.side).state = .opened then .done (.error .enotty)
          else if p.header.isBrokenPipe then .done (.error .epipe) else .notify) } }
  | signals {k : Nat} {choice : Choice} {c : Syscall} (hk : p.calls[k]? = some c)
    (hc : c.ioctl = .ssig .notify) :
    p.Moved (.call k choice)
      ({ p with calls := p.calls.set k { c with ioctl := .ssig (.done .ok) } }.notify c.side)
  | delivers {side : Side} (hpending : (p.ends side).pending = true)
    (hbound : (p.ends side).bound = true) (hhandler : (p.ends side).handler = none) :
    p.Moved (.deliver side) (p.put side { p.ends side with
      pending := false
      handler := some .start
      news := if (p.ends side).news = .sent then .taken else (p.ends side).news })
  | answers {side : Side} (hhandler : (p.ends side).handler = some .answer) :
    p.Moved (.handler side)
      { (p.put side { p.ends side with handler := some .setInitial }).notify side with
        acks := if side = .offerer then p.acks + 1 else p.acks }
  | wakes {side : Side} (hhandler : (p.ends side).handler = some .wakeUp) :
    p.Moved (.handler side) ((p.put side { p.ends side with
      handler := none
      news := if (p.ends side).news = .taken then .handled else (p.ends side).news }).wake side)
  | handles {side : Side} {pc : HandlerPc} (hhandler : (p.ends side).handler = some pc)
    (hpc : pc = .start ∨ pc = .setInitial ∨ pc = .setUser ∨ pc = .setLatent) :
    p.Moved (.handler side) (p.put side { p.ends side with
      signals := (pc.step (p.shared side)).1.signals
      handler := (pc.step (p.shared side)).2 })
  | strays {n : Nat} : p.Moved (.stray n)
      (p.put (.receiver n) { p.ends (.receiver n) with pending := true })

namespace Page

/-- A step of INIT_OFFERER is among the things that can happen. -/
private theorem initOfferer_moved {ok : Bool} (h : p.initOfferer ok = some q) :
    p.Moved (.init .offerer ok) q := by
  unfold initOfferer at h
  cases hinit : (p.ends .offerer).init with
  | none =>
    simp only [hinit] at h
    split at h
    · contradiction
    · rename_i hfree
      simp only [not_or, Bool.not_eq_true, Option.isSome_eq_false_iff,
        Option.isNone_iff_eq_none] at hfree
      split at h <;> rw [← Option.some.inj h]
      · exact .refused hinit hfree.1 ‹_›
      · exact .enters hinit hfree.1 (fun _ => hfree.2) (not_not.mp ‹_›)
  | some pc =>
    cases pc <;> simp only [hinit, reduceCtorEq] at h
    case prepare =>
      split at h <;> rename_i hok <;> rw [← Option.some.inj h]
      · exact hok ▸ .prepares hinit
      · exact (Bool.not_eq_true _ ▸ hok : ok = false) ▸ .loses (.inl hinit)
    case bind =>
      split at h <;> rename_i hok <;> rw [← Option.some.inj h]
      · exact hok ▸ .opens hinit
      · exact (Bool.not_eq_true _ ▸ hok : ok = false) ▸ .loses (.inr hinit)
    case port => exact Option.some.inj h ▸ .shows hinit
    case commit => exact Option.some.inj h ▸ .commits hinit
    case announce => exact Option.some.inj h ▸ .announces hinit

/-- A step of INIT_RECEIVER is among the things that can happen. -/
private theorem initReceiver_moved {n : Nat} {ok : Bool} (h : p.initReceiver n ok = some q) :
    p.Moved (.init (.receiver n) ok) q := by
  unfold initReceiver at h
  cases hinit : (p.ends (.receiver n)).init with
  | none =>
    simp only [hinit] at h
    split at h
    · contradiction
    · rename_i hfree
      simp only [Bool.not_eq_true, Option.isSome_eq_false_iff, Option.isNone_iff_eq_none] at hfree
      split at h <;> rw [← Option.some.inj h]
      · exact .refused hinit hfree ‹_›
      · exact .enters hinit hfree nofun (not_not.mp ‹_›)
  | some pc =>
    cases pc <;> simp only [hinit, reduceCtorEq] at h
    case prepare =>
      split at h <;> rename_i hok <;> rw [← Option.some.inj h]
      · exact hok.1 ▸ .maps hinit hok.2
      · exact .fails (.inl hinit)
    case bind =>
      split at h <;> rename_i hok <;> rw [← Option.some.inj h]
      · exact hok.1 ▸ .binds hinit hok.2.1 hok.2.2
      · exact .fails (.inr hinit)
    case commit => exact Option.some.inj h ▸ .joins hinit
    case announce => exact Option.some.inj h ▸ .reports hinit
    case greet => exact Option.some.inj h ▸ .greets hinit

/-- A step of `xen_shm_release` is among the things that can happen. -/
private theorem release_moved (h : p.release side = some q) : p.Moved (.release side) q := by
  unfold release at h
  cases hrelease : (p.ends side).release with
  | none =>
    simp only [hrelease, Option.ite_none_right_eq_some, List.all_eq_true, decide_eq_true_eq] at h
    obtain ⟨⟨hinit, hcalls⟩, h⟩ := h
    exact Option.some.inj h ▸ .leaves hrelease hinit fun c hc hs =>
      (hcalls c hc).resolve_left (not_not_intro hs)
  | some pc =>
    cases pc <;> simp only [hrelease, reduceCtorEq] at h
    case close =>
      split at h <;> rw [← Option.some.inj h]
      · exact .skips hrelease ‹_›
      · exact .closes hrelease ‹_›
    case notify => exact Option.some.inj h ▸ .tells hrelease
    case wakeUp => exact Option.some.inj h ▸ .rouses hrelease
    case free =>
      split at h
      · exact Option.some.inj h ▸ .frees hrelease ‹_›
      · contradiction

/-- To make a call is among the things that can happen. -/
private theorem enter_moved {ioctl : Ioctl} {i : Page.Input} (h : p.enter side ioctl = some q)
    (hi : (∃ req, i = .await side req ∧ ioctl = .await (.enter req)) ∨
      (i = .ssig side ∧ ioctl = .ssig .start)) : p.Moved i q := by
  unfold enter at h
  split at h
  · contradiction
  · rename_i hrelease
    rw [← Option.some.inj h]
    exact .calls (by simpa using hrelease) hi

/-- A step of a call is among the things that can happen. -/
private theorem callStep_moved {k : Nat} {choice : Choice} (h : p.callStep k choice = some q) :
    p.Moved (.call k choice) q := by
  unfold callStep at h
  obtain ⟨c, hk, h⟩ := Option.bind_eq_some_iff.mp h
  cases hc : c.ioctl with
  | await call =>
    simp only [hc] at h
    obtain ⟨⟨shared, call'⟩, hcall, h⟩ := Option.bind_eq_some_iff.mp h
    exact Option.some.inj h ▸ .awaits hk hc hcall
  | ssig pc =>
    cases pc <;> simp only [hc, reduceCtorEq] at h
    case start => exact Option.some.inj h ▸ .checks hk hc
    case notify => exact Option.some.inj h ▸ .signals hk hc

/-- A step of the handler is among the things that can happen. -/
private theorem handlerStep_moved (h : p.handlerStep side = some q) :
    p.Moved (.handler side) q := by
  unfold handlerStep at h
  obtain ⟨pc, hhandler, h⟩ := Option.bind_eq_some_iff.mp h
  cases pc with
  | answer => exact Option.some.inj h ▸ .answers hhandler
  | wakeUp => exact Option.some.inj h ▸ .wakes hhandler
  | start => exact Option.some.inj h ▸ .handles hhandler (.inl rfl)
  | setInitial => exact Option.some.inj h ▸ .handles hhandler (.inr (.inl rfl))
  | setUser => exact Option.some.inj h ▸ .handles hhandler (.inr (.inr (.inl rfl)))
  | setLatent => exact Option.some.inj h ▸ .handles hhandler (.inr (.inr (.inr rfl)))

/-- Every step of the page does one of these things. -/
theorem step_moved {i : Page.Input} (h : p.step i = some q) : p.Moved i q := by
  cases i with
  | init side ok =>
    cases side with
    | offerer => exact initOfferer_moved h
    | receiver n => exact initReceiver_moved h
  | await side req => exact enter_moved h (.inl ⟨req, rfl, rfl⟩)
  | ssig side => exact enter_moved h (.inr ⟨rfl, rfl⟩)
  | call k choice => exact callStep_moved h
  | deliver side =>
    simp only [step, deliver, Option.ite_none_right_eq_some] at h
    obtain ⟨⟨hpending, hbound, hhandler⟩, h⟩ := h
    exact Option.some.inj h ▸ .delivers hpending hbound hhandler
  | handler side => exact handlerStep_moved h
  | release side => exact release_moved h
  | stray n => exact Option.some.inj h ▸ .strays

/-- A field of the instances, after one of them was replaced. -/
theorem put_field {α : Type} (f : End → α) (p : Page) (s t : Side) (e : End) :
    f ((p.put s e).ends t) = Function.update (fun t => f (p.ends t)) s (f e) t := by
  simp only [put_ends, Function.update_apply]
  split <;> rfl

/-- An event does not change what the pending bit is not part of. -/
theorem notify_field {α : Type} (f : End → α) (hf : ∀ e b, f { e with pending := b } = f e)
    (p : Page) (s t : Side) : f ((p.notify s).ends t) = f (p.ends t) := by
  rw [notify_ends]
  split
  · exact hf _ _
  · rfl

/-- The news changes no other field of the instances. -/
theorem tell_field {α : Type} (f : End → α) (hf : ∀ e b, f { e with news := b } = f e)
    (p : Page) (s t : Side) : f ((p.tell s).ends t) = f (p.ends t) := by
  rw [tell_ends]
  split
  · exact hf _ _
  · rfl

@[simp] theorem notify_state (p : Page) (s t : Side) :
    ((p.notify s).ends t).state = (p.ends t).state := notify_field End.state (fun _ _ => rfl) p s t
@[simp] theorem notify_init (p : Page) (s t : Side) :
    ((p.notify s).ends t).init = (p.ends t).init := notify_field End.init (fun _ _ => rfl) p s t
@[simp] theorem notify_release (p : Page) (s t : Side) :
    ((p.notify s).ends t).release = (p.ends t).release :=
  notify_field End.release (fun _ _ => rfl) p s t
@[simp] theorem notify_signals (p : Page) (s t : Side) :
    ((p.notify s).ends t).signals = (p.ends t).signals :=
  notify_field End.signals (fun _ _ => rfl) p s t
@[simp] theorem notify_handler (p : Page) (s t : Side) :
    ((p.notify s).ends t).handler = (p.ends t).handler :=
  notify_field End.handler (fun _ _ => rfl) p s t
@[simp] theorem notify_bound (p : Page) (s t : Side) :
    ((p.notify s).ends t).bound = (p.ends t).bound := notify_field End.bound (fun _ _ => rfl) p s t
@[simp] theorem notify_news (p : Page) (s t : Side) :
    ((p.notify s).ends t).news = (p.ends t).news := notify_field End.news (fun _ _ => rfl) p s t
@[simp] theorem tell_state (p : Page) (s t : Side) :
    ((p.tell s).ends t).state = (p.ends t).state := tell_field End.state (fun _ _ => rfl) p s t
@[simp] theorem tell_init (p : Page) (s t : Side) :
    ((p.tell s).ends t).init = (p.ends t).init := tell_field End.init (fun _ _ => rfl) p s t
@[simp] theorem tell_release (p : Page) (s t : Side) :
    ((p.tell s).ends t).release = (p.ends t).release :=
  tell_field End.release (fun _ _ => rfl) p s t
@[simp] theorem tell_signals (p : Page) (s t : Side) :
    ((p.tell s).ends t).signals = (p.ends t).signals :=
  tell_field End.signals (fun _ _ => rfl) p s t
@[simp] theorem tell_handler (p : Page) (s t : Side) :
    ((p.tell s).ends t).handler = (p.ends t).handler :=
  tell_field End.handler (fun _ _ => rfl) p s t
@[simp] theorem tell_bound (p : Page) (s t : Side) :
    ((p.tell s).ends t).bound = (p.ends t).bound := tell_field End.bound (fun _ _ => rfl) p s t
@[simp] theorem tell_pending (p : Page) (s t : Side) :
    ((p.tell s).ends t).pending = (p.ends t).pending :=
  tell_field End.pending (fun _ _ => rfl) p s t
@[simp] theorem notify_header (p : Page) (s : Side) : (p.notify s).header = p.header := by
  rw [notify_eq]
@[simp] theorem notify_offererClosed (p : Page) (s : Side) :
    (p.notify s).offererClosed = p.offererClosed := by rw [notify_eq]
@[simp] theorem notify_receiverClosed (p : Page) (s : Side) :
    (p.notify s).receiverClosed = p.receiverClosed := by rw [notify_eq]
@[simp] theorem notify_acks (p : Page) (s : Side) : (p.notify s).acks = p.acks := by rw [notify_eq]
@[simp] theorem notify_peer (p : Page) (s : Side) : (p.notify s).peer = p.peer := by
  rw [notify_eq]
@[simp] theorem notify_granted (p : Page) (s : Side) : (p.notify s).granted = p.granted := by
  rw [notify_eq]
@[simp] theorem notify_portOpen (p : Page) (s : Side) : (p.notify s).portOpen = p.portOpen := by
  rw [notify_eq]
@[simp] theorem notify_calls (p : Page) (s : Side) : (p.notify s).calls = p.calls := by
  rw [notify_eq]
@[simp] theorem tell_header (p : Page) (s : Side) : (p.tell s).header = p.header := by
  rw [tell_eq]
@[simp] theorem tell_offererClosed (p : Page) (s : Side) :
    (p.tell s).offererClosed = p.offererClosed := by rw [tell_eq]
@[simp] theorem tell_receiverClosed (p : Page) (s : Side) :
    (p.tell s).receiverClosed = p.receiverClosed := by rw [tell_eq]
@[simp] theorem tell_acks (p : Page) (s : Side) : (p.tell s).acks = p.acks := by rw [tell_eq]
@[simp] theorem tell_peer (p : Page) (s : Side) : (p.tell s).peer = p.peer := by rw [tell_eq]
@[simp] theorem tell_granted (p : Page) (s : Side) : (p.tell s).granted = p.granted := by
  rw [tell_eq]
@[simp] theorem tell_portOpen (p : Page) (s : Side) : (p.tell s).portOpen = p.portOpen := by
  rw [tell_eq]
@[simp] theorem tell_calls (p : Page) (s : Side) : (p.tell s).calls = p.calls := by
  rw [tell_eq]

end Page

/-- The state that INIT sets on this side of the page. -/
def Side.state : Side → State
  | .offerer => .offerer
  | .receiver _ => .receiver

/-- Where INIT is on an instance fits the state of the instance. -/
def End.Ready (side : Side) (e : End) : Prop :=
  match e.init with
  | none => e.state = .opened ∨ e.state = side.state
  | some .prepare | some .bind | some .port | some .commit => e.state = .opened
  | some .announce | some .greet => e.state = side.state

/-- The call has not passed the check of the state. -/
def Ioctl.untouched : Ioctl → Bool
  | .await c => c.pc = .start ∨ c.pc = .done (.error .enotty)
  | .ssig pc => pc = .start ∨ pc = .done (.error .enotty)

/-- The order in which the page comes into use. -/
structure Page.Staged (p : Page) : Prop where
  /-- Every instance by itself is in order. -/
  ready : ∀ t, (p.ends t).Ready t
  /-- A released instance is not being initialised. -/
  released : ∀ t, (p.ends t).init.isSome = true → (p.ends t).release = none
  /-- The page is granted before the offerer is in its state. -/
  granted : p.granted = true ↔ (p.ends .offerer).state ≠ .opened ∨
    (p.ends .offerer).init = some .bind ∨ (p.ends .offerer).init = some .port ∨
      (p.ends .offerer).init = some .commit
  /-- The port is shown right before that. -/
  hidden : (p.ends .offerer).state = .opened → (p.ends .offerer).init ≠ some .commit →
    p.portOpen = false
  /-- A receiver needs the port of the offerer. -/
  alone : (p.ends .offerer).state = .opened → (p.ends .offerer).init ≠ some .commit →
    ∀ n, (p.ends (.receiver n)).state = .opened ∧ (p.ends (.receiver n)).init ≠ some .commit
  /-- Calls on an instance that is not initialised have not got past their first test. -/
  idle : ∀ c ∈ p.calls, (p.ends c.side).state = .opened → c.ioctl.untouched = true

namespace Page

/-- The order depends on the states, on INIT, on the releases and on the calls alone. -/
theorem Staged.congr (h : p.Staged) (hstate : ∀ t, (q.ends t).state = (p.ends t).state)
    (hinit : ∀ t, (q.ends t).init = (p.ends t).init)
    (hrelease : ∀ t, (p.ends t).init.isSome = true → (q.ends t).release = (p.ends t).release)
    (hgranted : q.granted = p.granted) (hport : q.portOpen = p.portOpen ∨ q.portOpen = false)
    (hcalls : ∀ c ∈ q.calls, (p.ends c.side).state = .opened → c.ioctl.untouched = true) :
    q.Staged where
  ready t := by
    have := h.ready t
    simp only [End.Ready, hstate, hinit] at this ⊢
    exact this
  released t ht := (hrelease t (hinit t ▸ ht)).trans (h.released t (hinit t ▸ ht))
  granted := by simp only [hgranted, hstate, hinit, h.granted]
  hidden hs hi := by
    rw [hstate] at hs
    rw [hinit] at hi
    exact hport.elim (fun hp => hp.trans (h.hidden hs hi)) id
  alone hs hi n := by
    rw [hstate] at hs
    rw [hinit] at hi
    simp only [hstate, hinit]
    exact h.alone hs hi n
  idle c hc hs := hcalls c hc (hstate _ ▸ hs)

/-- The offerer goes on with INIT, and the order is kept. -/
theorem Staged.offerer (h : p.Staged) (e : End) (hends : q.ends = Function.update p.ends .offerer e)
    (hready : e.Ready .offerer) (hrelease : e.init.isSome = true → e.release = none)
    (hgranted : q.granted = true ↔ e.state ≠ .opened ∨ e.init = some .bind ∨ e.init = some .port ∨
      e.init = some .commit)
    (hhidden : e.state = .opened → e.init ≠ some .commit → q.portOpen = false ∧
      (p.ends .offerer).state = .opened ∧ (p.ends .offerer).init ≠ some .commit)
    (hback : e.state = .opened → (p.ends .offerer).state = .opened) (hcalls : q.calls = p.calls) :
    q.Staged where
  ready t := by
    by_cases ht : t = .offerer
    · subst ht; simpa [hends] using hready
    · simpa [hends, ht] using h.ready t
  released t := by
    by_cases ht : t = .offerer
    · subst ht; simpa [hends] using hrelease
    · simpa [hends, ht] using h.released t
  granted := by simpa [hends] using hgranted
  hidden hs hi := by
    simp only [hends, Function.update_self] at hs hi
    exact (hhidden hs hi).1
  alone hs hi n := by
    simp only [hends, Function.update_self] at hs hi
    simpa [hends] using h.alone (hhidden hs hi).2.1 (hhidden hs hi).2.2 n
  idle c hc hs := by
    refine h.idle c (hcalls ▸ hc) ?_
    by_cases ht : c.side = .offerer
    · rw [hends, ht, Function.update_self] at hs
      exact ht ▸ hback hs
    · rwa [hends, Function.update_of_ne ht] at hs

/-- A receiver goes on with INIT, and the order is kept. -/
theorem Staged.receiver (h : p.Staged) (n : Nat) (e : End)
    (hends : q.ends = Function.update p.ends (.receiver n) e)
    (hready : e.Ready (.receiver n)) (hrelease : e.init.isSome = true → e.release = none)
    (hgranted : q.granted = p.granted) (hport : q.portOpen = p.portOpen)
    (halone : p.portOpen = false → (p.ends (.receiver n)).state = .opened →
      (p.ends (.receiver n)).init ≠ some .commit → e.state = .opened ∧ e.init ≠ some .commit)
    (hback : e.state = .opened → (p.ends (.receiver n)).state = .opened)
    (hcalls : q.calls = p.calls) : q.Staged where
  ready t := by
    by_cases ht : t = .receiver n
    · subst ht; simpa [hends] using hready
    · simpa [hends, ht] using h.ready t
  released t := by
    by_cases ht : t = .receiver n
    · subst ht; simpa [hends] using hrelease
    · simpa [hends, ht] using h.released t
  granted := by simpa [hends, hgranted] using h.granted
  hidden hs hi := by
    rw [hends, Function.update_of_ne (by simp)] at hs hi
    exact hport.trans (h.hidden hs hi)
  alone hs hi m := by
    rw [hends, Function.update_of_ne (by simp)] at hs hi
    have hm := h.alone hs hi m
    by_cases ht : m = n
    · subst ht
      rw [hends, Function.update_self]
      exact halone (h.hidden hs hi) hm.1 hm.2
    · rw [hends, Function.update_of_ne (by simpa using ht)]
      exact hm
  idle c hc hs := by
    refine h.idle c (hcalls ▸ hc) ?_
    by_cases ht : c.side = .receiver n
    · rw [hends, ht, Function.update_self] at hs
      exact ht ▸ hback hs
    · rwa [hends, Function.update_of_ne ht] at hs

/-- An instance changes, but not what the stages are about. -/
theorem Staged.keep (h : p.Staged) (s : Side) (e : End)
    (hends : q.ends = Function.update p.ends s e) (hstate : e.state = (p.ends s).state)
    (hinit : e.init = (p.ends s).init)
    (hrelease : (p.ends s).init.isSome = true → e.release = (p.ends s).release)
    (hgranted : q.granted = p.granted) (hport : q.portOpen = p.portOpen ∨ q.portOpen = false)
    (hcalls : ∀ c ∈ q.calls, (p.ends c.side).state = .opened → c.ioctl.untouched = true) :
    q.Staged := by
  refine h.congr (fun t => ?_) (fun t => ?_) (fun t ht => ?_) hgranted hport hcalls <;>
    rw [hends] <;> by_cases hts : t = s
  · rw [hts, Function.update_self, hstate]
  · rw [Function.update_of_ne hts]
  · rw [hts, Function.update_self, hinit]
  · rw [Function.update_of_ne hts]
  · rw [hts, Function.update_self, hrelease (hts ▸ ht)]
  · rw [Function.update_of_ne hts]

theorem Staged.notify (h : p.Staged) (s : Side) : (p.notify s).Staged :=
  h.congr (notify_state p s) (notify_init p s) (fun t _ => notify_release p s t) (by simp)
    (by simp) (by simpa using h.idle)

theorem Staged.tell (h : p.Staged) (s : Side) : (p.tell s).Staged :=
  h.congr (tell_state p s) (tell_init p s) (fun t _ => tell_release p s t) (by simp) (by simp)
    (by simpa using h.idle)

/-- An ioctl goes on, and fails when the instance is not initialised. -/
theorem Staged.set (h : p.Staged) {k : Nat} {c : Syscall} (hk : p.calls[k]? = some c)
    {ioctl : Ioctl} (hioctl : (p.ends c.side).state = .opened → c.ioctl.untouched = true →
      ioctl.untouched = true) :
    ∀ d ∈ p.calls.set k { c with ioctl := ioctl }, (p.ends d.side).state = .opened →
      d.ioctl.untouched = true := by
  intro d hd hs
  rcases List.mem_or_eq_of_mem_set hd with hd | rfl
  · exact h.idle d hd hs
  · exact hioctl hs (h.idle c (List.mem_of_getElem? hk) hs)

end Page

/-- On an instance that is not initialised a call does not get past its first test. -/
theorem Call.step_untouched {s s' : Shared} {c c' : Call} {choice : Choice}
    (h : c.step s choice = some (s', c')) (hs : s.state = .opened)
    (hc : (Ioctl.await c).untouched = true) : (Ioctl.await c').untouched = true := by
  simp only [Ioctl.untouched, decide_eq_true_eq] at hc ⊢
  cases choice <;> rcases hc with hc | hc <;>
    simp [Call.step, Call.proceed, Call.met, hc, hs] at h
  simp [← h.2]

theorem Syscall.wake_side (s : Side) (c : Syscall) : (c.wake s).side = c.side := by
  unfold wake
  split
  · split <;> rfl
  · rfl

theorem Syscall.wake_untouched (s : Side) (c : Syscall) :
    (c.wake s).ioctl.untouched = c.ioctl.untouched := by
  unfold wake
  split
  · cases hc : c.ioctl <;> simp only [hc]
    rfl
  · rfl

namespace Page

theorem Staged.wake (h : p.Staged) (s : Side) : (p.wake s).Staged := by
  refine h.congr (fun _ => rfl) (fun _ => rfl) (fun _ _ => rfl) rfl (.inl rfl) ?_
  intro c hc hs
  obtain ⟨d, hd, rfl⟩ := List.mem_map.mp hc
  rw [Syscall.wake_side] at hs
  rw [Syscall.wake_untouched]
  exact h.idle d hd hs

/-- Every step of the page keeps the order in which it comes into use. -/
theorem Staged.step {i : Page.Input} (h : p.Staged) (hm : p.Moved i q) : q.Staged := by
  have hgranted := h.granted
  cases hm with
  | refused => exact h
  | @enters side ok hinit hrelease hlost hstate =>
    cases side with
    | offerer =>
      exact h.offerer _ rfl (by simp [End.Ready, hstate]) (by simp [hrelease])
        (by simpa [hinit, hstate] using hgranted) (by simp [hinit, hstate, h.hidden]) (by simp) rfl
    | receiver n =>
      exact h.receiver n _ rfl (by simp [End.Ready, hstate]) (by simp [hrelease]) rfl rfl
        (by simp [hstate]) (by simp) rfl
  | prepares hinit | opens hinit | shows hinit | commits hinit | announces hinit =>
    have hr := h.ready .offerer
    have hl := h.released .offerer
    simp only [End.Ready, hinit] at hr
    refine h.offerer _ rfl ?_ ?_ ?_ ?_ ?_ rfl <;> simp_all [End.Ready, Side.state, h.hidden]
  | loses hinit =>
    have hr := h.ready .offerer
    have hl := h.released .offerer
    refine h.offerer _ rfl ?_ ?_ ?_ ?_ ?_ rfl <;> rcases hinit with hinit | hinit <;>
      simp_all [End.Ready, Side.state, h.hidden, lose]
  | @maps n hinit _ | @binds n hinit _ _ | @joins n _ hinit | @reports n _ hinit =>
    have hr := h.ready (.receiver n)
    have hl := h.released (.receiver n)
    simp only [End.Ready, hinit] at hr
    refine h.receiver n _ rfl ?_ ?_ rfl rfl ?_ ?_ rfl <;> simp_all [End.Ready, Side.state]
  | @fails n _ hinit =>
    have hr := h.ready (.receiver n)
    have hl := h.released (.receiver n)
    refine h.receiver n _ rfl ?_ ?_ rfl rfl ?_ ?_ rfl <;> rcases hinit with hinit | hinit <;>
      simp_all [End.Ready, Side.state]
  | @greets n _ hinit =>
    have hr := h.ready (.receiver n)
    have hl := h.released (.receiver n)
    simp only [End.Ready, hinit] at hr
    refine (Staged.receiver (q := p.put _ _) h n _ rfl ?_ ?_ rfl rfl ?_ ?_ rfl).notify _ <;>
      simp_all [End.Ready, Side.state]
  | @leaves s _ hinit _ =>
    exact h.keep s _ rfl rfl rfl (by simp [hinit]) rfl (.inl rfl) h.idle
  | @skips s hrelease _ | @closes s hrelease _ =>
    exact h.keep s _ rfl rfl rfl (fun hi => absurd (h.released s hi) (by simp [hrelease])) rfl
      (.inl rfl) h.idle
  | @tells s hrelease =>
    have hi : ¬ (p.ends s).init.isSome = true := fun hi => by simp [h.released s hi] at hrelease
    have ht := (h.notify s).tell s
    have hsame : (((p.notify s).tell s).ends s).init = (p.ends s).init := by simp
    exact ht.keep s _ rfl rfl rfl (fun hs => absurd (hsame ▸ hs) hi) rfl (.inl rfl) ht.idle
  | @rouses s hrelease =>
    exact (h.wake s).keep s _ rfl rfl rfl
      (fun hi => absurd (h.released s hi) (by simp [hrelease])) rfl (.inl rfl) (h.wake s).idle
  | @frees s hrelease _ =>
    have hi : (p.ends s).init.isSome = true → False := fun hi => by
      simp [h.released s hi] at hrelease
    cases s with
    | offerer => exact h.keep .offerer _ rfl rfl rfl (fun hs => (hi hs).elim) rfl (.inr rfl) h.idle
    | receiver n =>
      refine h.keep (.receiver n)
        { p.ends (.receiver n) with bound := false, release := some .gone }
        ?_ rfl rfl (fun hs => (hi hs).elim) ?_ (.inl ?_) ?_ <;>
        simp only [closeChannel] <;> split <;> first | rfl | exact h.idle
  | @calls s ioctl i hrelease hi =>
    refine h.congr (fun _ => rfl) (fun _ => rfl) (fun _ _ => rfl) rfl (.inl rfl) ?_
    intro c hc hs
    rcases List.mem_append.mp hc with hc | hc
    · exact h.idle c hc hs
    · rw [List.mem_singleton.mp hc]
      obtain ⟨_, -, rfl⟩ | ⟨-, rfl⟩ := hi <;> rfl
  | @awaits k choice c call call' shared hk hc hcall =>
    exact h.keep c.side _ rfl rfl rfl (fun _ => rfl) rfl (.inl rfl)
      (h.set hk fun hs hu => Call.step_untouched hcall hs (hc ▸ hu))
  | @checks k choice c hk hc =>
    exact h.congr (fun _ => rfl) (fun _ => rfl) (fun _ _ => rfl) rfl (.inl rfl)
      (h.set hk fun hs _ => by simp [hs, Ioctl.untouched])
  | @signals k choice c hk hc =>
    refine Staged.notify ?_ _
    exact h.congr (fun _ => rfl) (fun _ => rfl) (fun _ _ => rfl) rfl (.inl rfl)
      (h.set hk fun _ hu => by simp [hc, Ioctl.untouched] at hu)
  | @delivers s _ _ _ | @handles s _ _ _ =>
    exact h.keep s _ rfl rfl rfl (fun _ => rfl) rfl (.inl rfl) h.idle
  | @strays n => exact h.keep (.receiver n) _ rfl rfl rfl (fun _ => rfl) rfl (.inl rfl) h.idle
  | @answers s _ =>
    have hk := (Staged.keep (q := p.put s { p.ends s with handler := some .setInitial }) h s _ rfl
      rfl rfl (fun _ => rfl) rfl (.inl rfl) h.idle).notify s
    exact hk.congr (fun _ => rfl) (fun _ => rfl) (fun _ _ => rfl) rfl (.inl rfl) hk.idle
  | @wakes s _ =>
    have hk := Staged.keep (q := p.put s { p.ends s with
      handler := none
      news := if (p.ends s).news = .taken then .handled else (p.ends s).news }) h s _ rfl rfl rfl
      (fun _ => rfl) rfl (.inl rfl) h.idle
    exact hk.wake s

theorem Staged.initial (header : Header) : (Page.initial header).Staged := by
  constructor <;> simp [Page.initial, End.Ready, End.fresh]

/-- The stages of the page are in order in every run. -/
theorem Staged.reaches {guard : Page → Page.Input → Bool} {header : Header}
    (h : Reaches Page.step guard (.initial header) p) : p.Staged :=
  Reaches.invariant h (.initial header) fun _ _ _ hp _ hs => hp.step (step_moved hs)

end Page

/-- What one step can do to one call. -/
inductive Page.CallMoved (p : Page) (k : Nat) (i : Page.Input) (c : Syscall) : Syscall → Prop where
  | same (hi : ∀ choice, i ≠ .call k choice) : p.CallMoved k i c c
  | woken {call : Call} (hi : ∀ choice, i ≠ .call k choice) (hc : c.ioctl = .await call) :
    p.CallMoved k i c { c with ioctl := .await call.wake }
  | awaits {choice : Choice} {call call' : Call} {shared : Shared} (hi : i = .call k choice)
    (hc : c.ioctl = .await call)
    (hcall : call.step (p.shared c.side) choice = some (shared, call')) :
    p.CallMoved k i c { c with ioctl := .await call' }
  | checks {choice : Choice} (hi : i = .call k choice) (hc : c.ioctl = .ssig .start) :
    p.CallMoved k i c { c with
      ioctl := .ssig (if (p.ends c.side).state = .opened then .done (.error .enotty)
        else if p.header.isBrokenPipe then .done (.error .epipe) else .notify) }
  | signals {choice : Choice} (hi : i = .call k choice) (hc : c.ioctl = .ssig .notify) :
    p.CallMoved k i c { c with ioctl := .ssig (.done .ok) }

namespace Page

/-- To wake the calls sets a flag of each and changes nothing else. -/
theorem wake_getElem? (p : Page) (s : Side) (k : Nat) :
    (p.wake s).calls[k]? = p.calls[k]?.map (Syscall.wake s) := List.getElem?_map ..

/-- To wake a call is one of the things that can be done to it. -/
theorem CallMoved.wake {k : Nat} {i : Page.Input} (hi : ∀ choice, i ≠ .call k choice) (s : Side)
    (c : Syscall) : p.CallMoved k i c (c.wake s) := by
  unfold Syscall.wake
  split
  · cases hc : c.ioctl with
    | await call => exact .woken hi hc
    | ssig pc => exact .same hi
  · exact .same hi

/-- Calls are only added, and each goes on by itself. -/
theorem Moved.call {i : Page.Input} {k : Nat} {c : Syscall} (hm : p.Moved i q)
    (hk : p.calls[k]? = some c) : ∃ d, q.calls[k]? = some d ∧ p.CallMoved k i c d := by
  have hlt : k < p.calls.length := (List.getElem?_eq_some_iff.mp hk).1
  have hset : ∀ {j : Nat} {choice : Choice} {e d : Syscall}, p.calls[j]? = some e →
      p.CallMoved j (.call j choice) e d →
      ∃ d', (p.calls.set j d)[k]? = some d' ∧ p.CallMoved k (.call j choice) c d' := by
    intro j choice e d he hd
    by_cases hjk : j = k
    · subst hjk
      obtain rfl : e = c := Option.some.inj (he.symm.trans hk)
      exact ⟨d, by rw [List.getElem?_set_self hlt], hd⟩
    · exact ⟨c, by rw [List.getElem?_set_ne hjk, hk], .same fun _ h => hjk (by cases h; rfl)⟩
  cases hm with
  | rouses => exact ⟨_, by rw [put_calls, wake_getElem?, hk]; rfl, .wake (by simp) _ c⟩
  | wakes => exact ⟨_, by rw [wake_getElem?, put_calls, hk]; rfl, .wake (by simp) _ c⟩
  | @calls s ioctl i _ hi =>
    refine ⟨c, by rw [List.getElem?_append_left hlt, hk], .same fun _ h => ?_⟩
    obtain ⟨_, rfl, -⟩ | ⟨rfl, -⟩ := hi <;> contradiction
  | awaits hj he hcall => exact hset hj (.awaits rfl he hcall)
  | checks hj he => exact hset hj (.checks rfl he)
  | signals hj he =>
    rw [notify_calls]
    exact hset hj (.signals rfl he)
  | _ => exact ⟨c, by simpa using hk, .same (by simp)⟩

/-- A call that was not there before has just begun. -/
theorem Moved.entered {i : Page.Input} {k : Nat} {c : Syscall} (hm : p.Moved i q)
    (hnone : p.calls[k]? = none) (hk : q.calls[k]? = some c) :
    (p.ends c.side).release = none ∧
      c.late = ((p.offererClosed || p.receiverClosed) && (p.ends c.side).state ≠ .opened) ∧
      ((∃ req, c.ioctl = .await (.enter req)) ∨ c.ioctl = .ssig .start) := by
  have hlen := List.getElem?_eq_none_iff.mp hnone
  have hset : ∀ {j : Nat} {d : Syscall}, (p.calls.set j d)[k]? = some c → False := by
    intro j d hd
    rw [List.getElem?_eq_none (by simpa using hlen)] at hd
    contradiction
  cases hm with
  | rouses => simp [wake_getElem?, hnone] at hk
  | wakes => simp [wake_getElem?, hnone] at hk
  | @calls s ioctl i hrelease hi =>
    rw [List.getElem?_append_right hlen, List.getElem?_singleton,
      Option.ite_none_right_eq_some] at hk
    obtain ⟨-, hk⟩ := hk
    rw [← Option.some.inj hk]
    exact ⟨hrelease, rfl, hi.imp (fun ⟨req, _, h⟩ => ⟨req, h⟩) And.right⟩
  | awaits | checks => exact (hset hk).elim
  | signals =>
    rw [notify_calls] at hk
    exact (hset hk).elim
  | _ => simp [hnone] at hk

theorem CallMoved.side_eq {k : Nat} {i : Page.Input} {c d : Syscall} (hm : p.CallMoved k i c d) :
    d.side = c.side := by cases hm <;> rfl

theorem CallMoved.late_eq {k : Nat} {i : Page.Input} {c d : Syscall} (hm : p.CallMoved k i c d) :
    d.late = c.late := by cases hm <;> rfl

/-- An instance that is initialised stays in its state. -/
theorem Staged.state {i : Page.Input} (h : p.Staged) (hm : p.Moved i q) {t : Side}
    (ht : (p.ends t).state ≠ .opened) : (q.ends t).state = (p.ends t).state := by
  have hready := h.ready t
  cases hm with
  | @commits _ hinit =>
    by_cases hto : t = .offerer
    · subst hto
      simp [End.Ready, hinit, ht] at hready
    · rw [put_ends, if_neg hto]
  | @joins n _ hinit =>
    by_cases hto : t = .receiver n
    · subst hto
      simp [End.Ready, hinit, ht] at hready
    · rw [put_ends, if_neg hto]
  | _ => simp [put_field End.state]

/-- An offerer that shows its port will be initialised. -/
theorem Staged.connectable {i : Page.Input} (h : p.Staged) (hm : p.Moved i q)
    (ho : (p.ends .offerer).state ≠ .opened ∨ (p.ends .offerer).init = some .commit) :
    (q.ends .offerer).state ≠ .opened ∨ (q.ends .offerer).init = some .commit := by
  rcases ho with ho | ho
  · exact .inl (h.state hm ho ▸ ho)
  cases hm with
  | refused => exact .inr ho
  | @enters s ok hinit =>
    refine .inr ?_
    rw [put_ends]
    split
    · rename_i hs
      rw [hs, hinit] at ho
      contradiction
    · exact ho
  | prepares hinit | opens hinit | shows hinit | announces hinit =>
    rw [hinit] at ho
    contradiction
  | loses hinit => rcases hinit with hinit | hinit <;> rw [hinit] at ho <;> contradiction
  | commits => exact .inl (by simp)
  | _ => exact .inr (by simpa [put_field End.init] using ho)

/-- A release that was begun is never taken back. -/
theorem Moved.release {i : Page.Input} (hm : p.Moved i q) {t : Side}
    (ht : (p.ends t).release.isSome = true) : (q.ends t).release.isSome = true := by
  have hput : ∀ (p : Page) (s : Side) (e : End), (p.ends t).release.isSome = true →
      (t = s → e.release.isSome = true) → ((p.put s e).ends t).release.isSome = true := by
    intro p s e hp he
    rw [put_ends]
    split
    · exact he ‹_›
    · exact hp
  cases hm with
  | refused | calls | checks => exact ht
  | signals => simpa using ht
  | greets => simpa using hput p _ _ ht fun hs => hs ▸ ht
  | answers => simpa using hput p _ _ ht fun hs => hs ▸ ht
  | loses => exact hput p _ _ ht fun hs => hs ▸ ht
  | frees => exact closeChannel_ends .. ▸ hput p _ _ ht fun _ => rfl
  | leaves | skips | closes => exact hput p _ _ ht fun _ => rfl
  | rouses => exact hput p _ _ ht fun _ => rfl
  | tells => exact hput _ _ _ (by simpa using ht) fun _ => rfl
  | _ => exact hput p _ _ ht fun hs => hs ▸ ht

end Page

/-- A call does not change the states in the header page. -/
theorem Call.step_header {s s' : Shared} {c c' : Call} {choice : Choice}
    (h : c.step s choice = some (s', c')) : s'.header.offererState = s.header.offererState ∧
      s'.header.receiverState = s.header.receiverState := by
  cases Call.goes h with
  | early _ _ _ _ _ _ hstates => exact hstates
  | clear => split <;> exact ⟨rfl, rfl⟩
  | unlock _ _ _ _ hstates => exact hstates
  | _ => exact ⟨rfl, rfl⟩

/-- What one step does to the states in the header page. -/
inductive Page.StatesMoved (p : Page) (i : Page.Input) (q : Page) : Prop where
  | same (hofferer : q.header.offererState = p.header.offererState)
    (hreceiver : q.header.receiverState = p.header.receiverState)
    (hoff : q.offererClosed = p.offererClosed) (hrec : q.receiverClosed = p.receiverClosed)
  | prepares (hinit : (p.ends .offerer).init = some .prepare) (hq : q.header = p.header.prepared)
    (hoff : q.offererClosed = p.offererClosed) (hrec : q.receiverClosed = p.receiverClosed)
  | announces (hinit : (p.ends .offerer).init = some .announce)
    (hq : q.header = p.header.setState .offerer .opened)
    (hoff : q.offererClosed = p.offererClosed) (hrec : q.receiverClosed = p.receiverClosed)
  | reports {n : Nat} {ok : Bool} (hi : i = .init (.receiver n) ok)
    (hinit : (p.ends (.receiver n)).init = some .announce)
    (hq : q.header = p.header.setState (.receiver n) .opened)
    (hends : q.ends = Function.update p.ends (.receiver n)
      { p.ends (.receiver n) with init := some .greet })
    (hoff : q.offererClosed = p.offererClosed) (hrec : q.receiverClosed = p.receiverClosed)
  | closes {s : Side} (hi : i = .release s) (hrelease : (p.ends s).release = some .close)
    (hstate : (p.ends s).state ≠ .opened) (hq : q.header = p.header.setState s .closed)
    (hoff : q.offererClosed = (p.offererClosed || s = Side.offerer))
    (hrec : q.receiverClosed = (p.receiverClosed || s ≠ Side.offerer))

namespace Page

/-- Every step does one of these to the states in the header page. -/
theorem Moved.states {i : Page.Input} (hm : p.Moved i q) : p.StatesMoved i q := by
  cases hm with
  | prepares hinit => exact .prepares hinit rfl rfl rfl
  | announces hinit => exact .announces hinit rfl rfl rfl
  | reports hinit => exact .reports rfl hinit rfl rfl rfl rfl
  | closes hrelease hstate => exact .closes rfl hrelease hstate rfl rfl rfl
  | awaits hk hc hcall =>
    exact .same (Call.step_header hcall).1 (Call.step_header hcall).2 rfl rfl
  | loses => exact .same rfl rfl rfl rfl
  | _ => exact .same (by simp) (by simp) (by simp) (by simp)

/-- An instance is released when no call is made on it. -/
theorem Moved.released {i : Page.Input} (hm : p.Moved i q) {t : Side}
    (hq : (q.ends t).release.isSome = true) : (p.ends t).release.isSome = true ∨
      q.calls = p.calls ∧ ∀ c ∈ p.calls, c.side = t → c.ioctl.result.isSome = true := by
  cases hm with
  | @leaves s _ _ hcalls =>
    by_cases hts : t = s
    · exact .inr ⟨rfl, hts ▸ hcalls⟩
    · exact .inl (by simpa [put_field End.release, hts] using hq)
  | @skips s hrelease _ | @closes s hrelease _ | @tells s hrelease | @rouses s hrelease
  | @frees s hrelease _ =>
    by_cases hts : t = s
    · exact .inl (by rw [hts, hrelease]; rfl)
    · exact .inl (by simpa [put_field End.release, hts] using hq)
  | _ => exact .inl (by simpa [put_field End.release] using hq)

/-- A call that has returned does not go on. -/
theorem CallMoved.finished {k : Nat} {i : Page.Input} {c d : Syscall} (hm : p.CallMoved k i c d)
    (hc : c.ioctl.result.isSome = true) : d.ioctl.result.isSome = true := by
  cases hm with
  | same => exact hc
  | woken _ h => rw [h] at hc; exact hc
  | checks _ h => simp [h, Ioctl.result] at hc
  | signals _ h => simp [h, Ioctl.result] at hc
  | @awaits choice call _ _ _ h hcall =>
    cases hpc : call.pc <;> simp [h, Ioctl.result, hpc] at hc
    cases choice <;> simp [Call.step, Call.proceed, Call.met, hpc] at hcall

/-- Every call on a released instance has returned. -/
def Quiet (p : Page) : Prop :=
  ∀ c ∈ p.calls, (p.ends c.side).release.isSome = true → c.ioctl.result.isSome = true

/-- Every step keeps released instances without calls in progress. -/
theorem Quiet.step {i : Page.Input} (h : p.Quiet) (hm : p.Moved i q) : q.Quiet := by
  intro c hc hr
  obtain ⟨k, hk⟩ := List.getElem?_of_mem hc
  rcases hm.released hr with hp | ⟨hcalls, hdone⟩
  · cases hd : p.calls[k]? with
    | none => simp [(hm.entered hd hk).1] at hp
    | some d =>
      obtain ⟨c', hc', hcm⟩ := hm.call hd
      obtain rfl := Option.some.inj (hc'.symm.trans hk)
      exact hcm.finished (h d (List.mem_of_getElem? hd) (hcm.side_eq ▸ hp))
  · exact hdone c (hcalls ▸ hc) rfl

theorem Quiet.initial (header : Header) : (Page.initial header).Quiet :=
  fun _ hc => absurd hc List.not_mem_nil

end Page

end XenShm.Kernel
