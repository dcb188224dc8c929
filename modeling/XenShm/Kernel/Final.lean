import XenShm.Kernel.Stages

/-!
# Whether closed is final

The offerer and the receivers of a page set their states to CLOSED when they are released.
The offerer never takes that back. The INIT ioctl of a later receiver does: it sets
`receiver_state` to OPENED without looking at it.
-/

namespace XenShm.Kernel

open Library

variable {p q : Page}

/-- The call has not looked at the page yet. -/
def Ioctl.begun : Ioctl → Bool
  | .await c => c.pc = .start
  | .ssig pc => pc = .start

/-- The ioctl has failed with `EPIPE`, or it will in its first step. -/
def Ioctl.broken (ioctl : Ioctl) : Bool := ioctl.begun || ioctl.result = some (.error .epipe)

/-- Closed is final: who has set its state to CLOSED still finds it there, and the calls made
since then on initialised instances fail. -/
def Page.ClosedFinal (p : Page) : Prop :=
  (p.offererClosed = true → p.header.offererState = .closed) ∧
    (p.receiverClosed = true → p.header.receiverState = .closed) ∧
    ∀ c ∈ p.calls, c.late = true → c.ioctl.broken = true

/-- No receiver sets its state to OPENED after some receiver has set it to CLOSED. -/
def Page.keepsClosed (p : Page) : Page.Input → Bool
  | .init (.receiver n) _ => !((p.ends (.receiver n)).init = some .announce && p.receiverClosed)
  | _ => true

/-- The invariant that keeps closed states closed, with the stages of the page it rests on. -/
structure Page.Closing (p : Page) : Prop where
  staged : p.Staged
  /-- An offerer that has closed its state is being released. -/
  offerer : p.offererClosed = true →
    p.header.offererState = .closed ∧ (p.ends .offerer).release.isSome = true
  /-- A receiver can only be closed after the offerer has shown its port. -/
  receiver : p.receiverClosed = true → p.header.receiverState = .closed ∧
    ((p.ends .offerer).state ≠ .opened ∨ (p.ends .offerer).init = some .commit)
  /-- A call made behind a closing fails. -/
  late : ∀ c ∈ p.calls, c.late = true → (p.offererClosed || p.receiverClosed) = true ∧
    (p.ends c.side).state ≠ .opened ∧ c.ioctl.broken = true

/-- Closed states are final wherever the invariant holds. -/
theorem Page.Closing.final (h : p.Closing) : p.ClosedFinal :=
  ⟨fun ho => (h.offerer ho).1, fun hr => (h.receiver hr).1, fun c hc hl => (h.late c hc hl).2.2⟩

/-- A closed state can be read in the header page. -/
theorem Page.Closing.isBrokenPipe (h : p.Closing)
    (hc : (p.offererClosed || p.receiverClosed) = true) : p.header.isBrokenPipe = true := by
  simp only [Header.isBrokenPipe, decide_eq_true_eq]
  rcases Bool.or_eq_true_iff.mp hc with hc | hc
  · exact .inl (h.offerer hc).1
  · exact .inr (h.receiver hc).1

/-- A late call fails in its first step. -/
theorem Page.CallMoved.broken {k : Nat} {i : Page.Input} {c d : Syscall} (hm : p.CallMoved k i c d)
    (hstate : (p.ends c.side).state ≠ .opened) (hbroken : p.header.isBrokenPipe = true)
    (hc : c.ioctl.broken = true) : d.ioctl.broken = true := by
  cases hm with
  | same => exact hc
  | woken _ h => rw [h] at hc; exact hc
  | checks _ h => simp [Ioctl.broken, Ioctl.result, hstate, hbroken]
  | signals _ h => simp [h, Ioctl.broken, Ioctl.begun, Ioctl.result] at hc
  | @awaits choice call call' shared _ h hcall =>
    simp only [h, Ioctl.broken, Ioctl.begun, Ioctl.result, Bool.or_eq_true, decide_eq_true_eq] at hc
    cases hpc : call.pc <;> simp [hpc] at hc
    · cases choice <;> simp [Call.step, Call.proceed, Call.met, hpc, Page.shared, hstate,
        hbroken] at hcall
      simp [← hcall.2, Ioctl.broken, Ioctl.result]
    · cases choice <;> simp [Call.step, Call.proceed, Call.met, hpc] at hcall

/-- That an end was closed is recorded for ever. -/
theorem Page.Moved.closed {i : Page.Input} (hm : p.Moved i q)
    (h : (p.offererClosed || p.receiverClosed) = true) :
    (q.offererClosed || q.receiverClosed) = true := by
  cases hm.states with
  | closes _ _ _ _ hoff hrec =>
    rw [hoff, hrec]
    rcases Bool.or_eq_true_iff.mp h with h | h <;> simp [h]
  | _ => simp_all

/-- A step that opens no closed receiver again keeps closed states closed. -/
theorem Page.Closing.step {i : Page.Input} (h : p.Closing) (hfine : p.keepsClosed i = true)
    (hm : p.Moved i q) : q.Closing := by
  have hstaged := h.staged.step hm
  have hconn := h.staged.connectable hm
  -- A closed offerer is not in an INIT ioctl, and no page with a closed receiver is filled.
  have hinit : ∀ {pc}, (p.ends .offerer).init = some pc → p.offererClosed = false := fun hpc => by
    by_contra ho
    have hsome := (h.offerer (by simpa using ho)).2
    rw [h.staged.released .offerer (by simp [hpc])] at hsome
    contradiction
  have hoff : q.offererClosed = true →
      q.header.offererState = .closed ∧ (q.ends .offerer).release.isSome = true := by
    intro ho
    cases hm.states with
    | same hofferer _ hsame _ =>
      rw [hsame] at ho
      exact ⟨hofferer.trans (h.offerer ho).1, hm.release (h.offerer ho).2⟩
    | prepares hpc _ hsame _ | announces hpc _ hsame _ => simp [hsame, hinit hpc] at ho
    | reports _ _ hq _ hsame _ =>
      rw [hsame] at ho
      exact ⟨by rw [hq]; exact (h.offerer ho).1, hm.release (h.offerer ho).2⟩
    | @closes s hi hrelease hstate hq hsame _ =>
      cases s with
      | offerer => exact ⟨by rw [hq]; rfl, hm.release (by simp [hrelease])⟩
      | receiver n =>
        have ho : p.offererClosed = true := by simpa [hsame] using ho
        exact ⟨by rw [hq]; exact (h.offerer ho).1, hm.release (h.offerer ho).2⟩
  have hrec : q.receiverClosed = true → q.header.receiverState = .closed ∧
      ((q.ends .offerer).state ≠ .opened ∨ (q.ends .offerer).init = some .commit) := by
    intro hr
    cases hm.states with
    | same _ hreceiver _ hsame =>
      rw [hsame] at hr
      exact ⟨hreceiver.trans (h.receiver hr).1, hconn (h.receiver hr).2⟩
    | prepares hpc _ _ hsame =>
      rw [hsame] at hr
      have hready := h.staged.ready .offerer
      simp only [End.Ready, hpc] at hready
      rcases (h.receiver hr).2 with hs | hs
      · exact absurd hready hs
      · simp [hpc] at hs
    | announces _ hq _ hsame =>
      rw [hsame] at hr
      exact ⟨by rw [hq]; exact (h.receiver hr).1, hconn (h.receiver hr).2⟩
    | reports hi hpc _ _ _ hsame =>
      rw [hsame] at hr
      simp [hi, Page.keepsClosed, hpc, hr] at hfine
    | @closes s hi hrelease hstate hq _ hsame =>
      cases s with
      | offerer =>
        have hr : p.receiverClosed = true := by simpa [hsame] using hr
        exact ⟨by rw [hq]; exact (h.receiver hr).1, hconn (h.receiver hr).2⟩
      | receiver n =>
        refine ⟨by rw [hq]; rfl, hconn ?_⟩
        by_contra hnot
        simp only [not_or, not_not, ne_eq] at hnot
        exact hstate (h.staged.alone hnot.1 hnot.2 n).1
  refine ⟨hstaged, hoff, hrec, fun c hc hlate => ?_⟩
  obtain ⟨k, hk⟩ := List.getElem?_of_mem hc
  cases hd : p.calls[k]? with
  | none =>
    obtain ⟨-, hnew, hbegun⟩ := hm.entered hd hk
    rw [hlate] at hnew
    obtain ⟨hclosed, hstate⟩ := Bool.and_eq_true_iff.mp hnew.symm
    have hstate : (p.ends c.side).state ≠ .opened := of_decide_eq_true hstate
    refine ⟨hm.closed hclosed, h.staged.state hm hstate ▸ hstate, ?_⟩
    obtain ⟨req, hc⟩ | hc := hbegun <;> rw [hc] <;> rfl
  | some d =>
    obtain ⟨c', hc', hcm⟩ := hm.call hd
    obtain rfl := Option.some.inj (hc'.symm.trans hk)
    obtain ⟨hclosed, hstate, hbroken⟩ := h.late d (List.mem_of_getElem? hd) (hcm.late_eq ▸ hlate)
    refine ⟨hm.closed hclosed, ?_, hcm.broken hstate (h.isBrokenPipe hclosed) hbroken⟩
    rw [hcm.side_eq, h.staged.state hm hstate]
    exact hstate

/-- A receiver that comes after a closed one makes the page look open again. -/
theorem Page.reopened {i : Page.Input} (hfine : p.keepsClosed i = false)
    (hi : p.step i = some q) : ¬ q.ClosedFinal := by
  cases i with
  | init side ok =>
    cases side with
    | offerer => simp [keepsClosed] at hfine
    | receiver n =>
      simp only [keepsClosed, Bool.not_eq_eq_eq_not, Bool.not_false, Bool.and_eq_true,
        decide_eq_true_eq] at hfine
      obtain ⟨hinit, hclosed⟩ := hfine
      simp only [step, init, initReceiver, hinit, Option.some.injEq] at hi
      rintro ⟨-, hr, -⟩
      rw [← hi] at hr
      exact absurd (hr hclosed) (by simp [Header.setState])
  | _ => simp [keepsClosed] at hfine

/-- A fresh page has no closed state. -/
theorem Page.Closing.initial (header : Header) : (Page.initial header).Closing :=
  ⟨.initial header, nofun, nofun, fun _ hc => absurd hc List.not_mem_nil⟩

/-- **Closed is final exactly as long as no receiver comes after a closed one.** -/
theorem closed_final_iff (header : Header) (is : List Page.Input) :
    Always Page.step Page.ClosedFinal (.initial header) is ↔
      Along Page.step (fun p i => p.keepsClosed i = true) (.initial header) is :=
  always_iff_along (fun _ => Page.Closing.final)
    (fun _ _ _ h hf hi => h.step hf (Page.step_moved hi))
    (fun _ _ _ _ hf hi => Page.reopened (by simpa using hf) hi) is _ (Page.Closing.initial header)

/-- A call on the offerer that is asleep and waits for a user signal. -/
def sleeper : Ioctl := .await ⟨⟨true, false, false, false, 0⟩, .asleep, false, none⟩

/-- A receiver is initialised and released, another one is initialised, and the offerer waits. -/
def lateReceiver : List Page.Input :=
  List.replicate 6 (.init .offerer true) ++ List.replicate 6 (.init (.receiver 0) true) ++
    List.replicate 5 (.release (.receiver 0)) ++ List.replicate 5 (.init (.receiver 1) true) ++
    .await .offerer ⟨true, false, false, false, 0⟩ :: List.replicate 8 (.call 0 .proceed)

/-- `receiver_state` is OPENED again, and the late call of the offerer is asleep. -/
theorem not_closed_final : ∃ p, Reaches Page.step (fun _ _ => true) (.initial .zero) p ∧
    p.header.receiverState = .opened ∧
    p.calls.any (fun c => c.late && c.ioctl = sleeper) = true ∧ ¬ p.ClosedFinal := by
  have hrun : (run Page.step (fun _ _ => true) (.initial .zero) lateReceiver).any (fun p =>
      p.header.receiverState = .opened ∧ p.receiverClosed = true ∧
        p.calls.any (fun c => c.late && c.ioctl = sleeper) = true) = true := by decide +kernel
  obtain ⟨p, hreach, hp⟩ := exists_reaches_of_run hrun
  obtain ⟨hopened, hclosed, hcall⟩ := of_decide_eq_true hp
  refine ⟨p, hreach, hopened, hcall, fun hfinal => ?_⟩
  rw [hfinal.2.1 hclosed] at hopened
  contradiction

end XenShm.Kernel
