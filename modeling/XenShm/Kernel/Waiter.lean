import XenShm.Kernel.Await
import XenShm.Library.Run

/-!
# A single caller that waits

One process makes one call after the other on an instance. The handler of the event channel runs
in between, and so do the peer and other processes with their calls. For each call it is recorded
what has ended its wait, and how many events were handled when it began.
-/

namespace XenShm.Kernel

open Library

/-- What has ended a wait, by the part of its condition that was found true. -/
inductive WaitEnd where
  /-- The flag `user_signal` was set. -/
  | user
  /-- The flag `initial_signal` was set. -/
  | initial
  /-- The flag `latent_user_signal` was set. -/
  | latent
  /-- One end was closed in the header page. -/
  | broken
  /-- No tick of the timeout was left. -/
  | timeout
  deriving DecidableEq, Repr

/-- A call of the process, with the records about it that only the proofs need. -/
structure WaitCall where
  /-- The call itself, as the code makes it. -/
  call : Call
  /-- The number of events that were handled when the call began. -/
  since : Nat
  /-- What has ended the wait of the call. -/
  ended : Option WaitEnd
  /-- The first event was received by then. -/
  connected : Bool
  deriving DecidableEq, Repr

/-- A call that has not begun, with the number of events handled so far. -/
def WaitCall.enter (req : Request) (handled : Nat) : WaitCall :=
  ⟨.enter req, handled, none, false⟩

/-- What ends the wait of a call that goes to the end of its wait now. -/
def Call.endedBy (c : Call) : Choice → WaitEnd
  | .timeout => .timeout
  | _ =>
    match c.pc with
    | .checkUser => .user
    | .checkInit => .initial
    | .checkLatent => .latent
    | _ => .broken

/-- One instance with a single caller, who makes one call after the other. -/
structure Waiter where
  /-- What its calls share with the handler and with others. -/
  shared : Shared
  /-- The run of the handler, when there is one. -/
  handler : Option HandlerPc
  /-- The last call that was made. -/
  current : Option WaitCall
  /-- Events handled: runs of the handler that have set a signal. -/
  handled : Nat
  /-- How many calls have returned 0. -/
  returned : Nat

/-- What happens next around the caller, in any order. -/
inductive Waiter.Input where
  /-- The caller makes its next call, with this timeout. -/
  | enter (timeoutMs : Nat)
  /-- The call in progress goes on. -/
  | call (choice : Choice)
  /-- An event is delivered, and a run of the handler begins. -/
  | deliver
  /-- The handler goes on with its next access. -/
  | handler
  /-- The caller is woken for another reason. -/
  | wake
  /-- A call of another process resets `user_signal`. -/
  | resetUser
  /-- A call of another process clears `latent_user_signal`. -/
  | clearLatent
  /-- The peer changes the header page to this one. -/
  | peer (header : Header)

/-- This step of the handler sets `initial_signal` or `user_signal`, by which the event counts. -/
def HandlerPc.handles : HandlerPc → Bool
  | .setInitial | .setUser => true
  | _ => false

/-- The call at this place has returned. -/
def AwaitPc.isDone : AwaitPc → Bool
  | .done _ => true
  | _ => false

/-- Record the step of a call, and with it what has ended the wait. -/
def WaitCall.record (c : WaitCall) (call : Call) (choice : Choice) (connected : Bool) : WaitCall :=
  if call.pc = .clear then ⟨call, c.since, some (c.call.endedBy choice), connected⟩
  else { c with call := call }

/-- Wake the caller, if it sleeps. -/
def Waiter.wake (s : Waiter) : Waiter :=
  { s with current := s.current.map fun c => { c with call := c.call.wake } }

/-- One step, where `request` is the argument of a call with this timeout. -/
def Waiter.step (request : Nat → Request) (s : Waiter) : Input → Option Waiter
  | .enter timeoutMs =>
    if s.current.all fun c => c.call.pc.isDone then
      some { s with current := some (.enter (request timeoutMs) s.handled) }
    else none
  | .call choice => do
    let c ← s.current
    let (shared, call) ← c.call.step s.shared choice
    return { s with
      shared := shared
      current := some (c.record call choice s.shared.signals.initialSignal)
      returned := s.returned + if call.pc = .done .ok then 1 else 0 }
  | .deliver => if s.handler.isSome then none else some { s with handler := some .start }
  | .handler => do
    let pc ← s.handler
    let (shared, next) := pc.step s.shared
    let s : Waiter := { s with
      shared := shared
      handler := next
      handled := s.handled + if pc.handles then 1 else 0 }
    return if pc = .wakeUp then s.wake else s
  | .wake => some s.wake
  | .resetUser => some { s with shared := s.shared.setUser false }
  | .clearLatent => some { s with shared := s.shared.setLatent false }
  | .peer header => some { s with shared := { s.shared with header := header } }

/-- The waiter before it has made any call. -/
def Waiter.initial (shared : Shared) (handler : Option HandlerPc) : Waiter :=
  ⟨shared, handler, none, 0, 0⟩

/-- The handler has made its next access, and the event is counted when it sets a signal. -/
def Waiter.afterHandler (s : Waiter) (pc : HandlerPc) : Waiter := { s with
  shared := (pc.step s.shared).1
  handler := (pc.step s.shared).2
  handled := s.handled + if pc.handles then 1 else 0 }

/-- What one step does, one constructor for each kind of step. -/
inductive Waiter.Steps (request : Nat → Request) (s : Waiter) : Input → Waiter → Prop where
  /-- The caller makes a call after the last one has returned. -/
  | enter (timeoutMs : Nat) : Steps request s (.enter timeoutMs)
      { s with current := some (.enter (request timeoutMs) s.handled) }
  /-- The call makes a step, which is recorded. -/
  | call (choice : Choice) (c : WaitCall) (shared : Shared) (call : Call)
      (hc : s.current = some c) (hcall : c.call.step s.shared choice = some (shared, call)) :
      Steps request s (.call choice) { s with
        shared := shared
        current := some (c.record call choice s.shared.signals.initialSignal)
        returned := s.returned + if call.pc = .done .ok then 1 else 0 }
  /-- The handler makes a step that wakes nobody. -/
  | handler (pc : HandlerPc) : Steps request s .handler (s.afterHandler pc)
  /-- The handler wakes the caller. -/
  | wakeUp (pc : HandlerPc) : Steps request s .handler (s.afterHandler pc).wake
  /-- Another party wakes the caller. -/
  | wake : Steps request s .wake s.wake
  /-- The step sets no signal and leaves the call alone. -/
  | other (input : Input) (t : Waiter) (hcurrent : t.current = s.current)
      (hhandled : t.handled = s.handled) (hreturned : t.returned = s.returned)
      (hinitial : t.shared.signals.initialSignal = s.shared.signals.initialSignal)
      (huser : t.shared.signals.userSignal = true → s.shared.signals.userSignal = true) :
      Steps request s input t

/-- Every step is one of these kinds. -/
theorem Waiter.steps {request : Nat → Request} {s t : Waiter} {input : Input}
    (h : s.step request input = some t) : s.Steps request input t := by
  cases input with
  | enter timeoutMs =>
    simp only [step, Option.ite_none_right_eq_some, Option.some.injEq] at h
    obtain ⟨-, rfl⟩ := h
    exact .enter timeoutMs
  | call choice =>
    simp only [step, Option.bind_eq_bind, Option.bind_eq_some_iff] at h
    obtain ⟨c, hc, ⟨shared, call⟩, hcall, h⟩ := h
    exact Option.some.inj h ▸ .call choice c shared call hc hcall
  | deliver =>
    simp only [step, Option.ite_none_left_eq_some, Option.some.injEq] at h
    obtain ⟨-, rfl⟩ := h
    exact .other _ _ rfl rfl rfl rfl id
  | handler =>
    simp only [step, Option.bind_eq_bind, Option.bind_eq_some_iff] at h
    obtain ⟨pc, -, h⟩ := h
    obtain rfl := Option.some.inj h
    split
    · exact .wakeUp pc
    · exact .handler pc
  | wake => exact Option.some.inj h ▸ .wake
  | resetUser =>
    obtain rfl := Option.some.inj h
    exact .other _ _ rfl rfl rfl rfl fun hset => absurd hset Bool.false_ne_true
  | clearLatent | peer _ =>
    obtain rfl := Option.some.inj h
    exact .other _ _ rfl rfl rfl rfl id

/-- A call that is not behind its wait has not returned. -/
theorem AwaitPc.isDone_of_not_behind {pc : AwaitPc} (h : pc.behind = false) :
    pc.isDone = false := by
  cases pc <;> first | rfl | cases h

section Record

variable {c : WaitCall} {call : Call} {choice : Choice} {connected : Bool}

/-- A step that does not end the wait of the call adds nothing to the record. -/
theorem WaitCall.record_of_ne (h : call.pc ≠ .clear) :
    c.record call choice connected = { c with call := call } := if_neg h

/-- A step that ends the wait of the call records what has ended it. -/
theorem WaitCall.record_clear (h : call.pc = .clear) : c.record call choice connected =
    ⟨call, c.since, some (c.call.endedBy choice), connected⟩ := if_pos h

end Record

end XenShm.Kernel
