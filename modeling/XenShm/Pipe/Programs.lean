import XenShm.Pipe.Refinement

/-!
# Programs over a pipe

A program at one end of a pipe makes one call after the other and goes on with what each
returns. What it does in between touches nothing shared. What is proved of a
program along the account of its own end and along what it was told holds in every run of
two programs over a pipe, for the account of what is seen in this run.
-/

namespace XenShm.Pipe

open XenShm.Library

/-- A call a program makes on its handle. -/
inductive Request where
  /-- `xen_shm_pipe_read` or `xen_shm_pipe_write`, or the `_all` form. -/
  | transfer (all : Bool) (buf nbytes : Nat) (mem : Nat → UInt8)
  /-- The program calls `xen_shm_pipe_flush`. -/
  | flush
  /-- The program calls `xen_shm_pipe_free`. -/
  | free

/-- The call on the handle of one end. -/
def Request.input (m : Mod) : Request → Input
  | .transfer all buf nbytes mem => .transfer m all buf nbytes mem
  | .flush => .flush
  | .free => .free

/-- A program that drives one end of a pipe. -/
structure Program (σ κ : Type*) where
  /-- The call that the program makes next, if it makes one. -/
  next : σ → Option Request
  /-- The program goes on with what is seen of its end. -/
  sees : σ → Channel.Event UInt8 → σ
  /-- The program is told something between two calls. -/
  told : σ → κ → Option σ

/-- A pipe with a program at each end. -/
structure Driven (σ τ : Type*) where
  /-- The pipe that both programs use. -/
  sys : System
  /-- The program that drives the writer. -/
  writer : σ
  /-- The program that drives the reader. -/
  reader : τ

/-- What happens next to the pipe or to one of the programs, in any order. -/
inductive Driven.Input (κ ι : Type*) where
  /-- The program of an end makes its next call. -/
  | call (m : Mod)
  /-- The library goes on at one end. -/
  | tick (m : Mod)
  /-- The `ioctl` in progress at one end returns. -/
  | ioctl (m : Mod) (r : IoctlResult)
  /-- The program of the writer is told something. -/
  | tellWriter (k : κ)
  /-- The program of the reader is told something. -/
  | tellReader (k : ι)

namespace Driven

variable {σ τ κ ι : Type*} (w : Program σ κ) (r : Program τ ι) (g : Geometry) (d : Driven σ τ)

/-- A step of the pipe. Each program sees what concerns its end. -/
def advance (x : Mod × Pipe.Input) : Option (Driven σ τ) :=
  (d.sys.step g x).map fun t =>
    match x.1 with
    | .write => ⟨t, (d.sys.see x t).foldl w.sees d.writer, d.reader⟩
    | .read => ⟨t, d.writer, (d.sys.see x t).foldl r.sees d.reader⟩

/-- One step of a program or of its library, `none` where the input does not apply. -/
def step (d : Driven σ τ) : Input κ ι → Option (Driven σ τ)
  | .call .write => (w.next d.writer).bind fun q => d.advance w r g (.write, q.input .write)
  | .call .read => (r.next d.reader).bind fun q => d.advance w r g (.read, q.input .read)
  | .tick m => d.advance w r g (m, .tick)
  | .ioctl m res => d.advance w r g (m, .ioctl res)
  | .tellWriter k =>
    if d.sys.writer.pc = .idle then (w.told d.writer k).map fun a => { d with writer := a }
    else none
  | .tellReader k =>
    if d.sys.reader.pc = .idle then (r.told d.reader k).map fun b => { d with reader := b }
    else none

/-- What the users see of a step of the pipe. -/
def see (d : Driven σ τ) : Input κ ι → Driven σ τ → List (Channel.Event UInt8)
  | .call .write, e =>
    ((w.next d.writer).map fun q => d.sys.see (.write, q.input .write) e.sys).getD []
  | .call .read, e =>
    ((r.next d.reader).map fun q => d.sys.see (.read, q.input .read) e.sys).getD []
  | .tick m, e => d.sys.see (m, .tick) e.sys
  | .ioctl m res, e => d.sys.see (m, .ioctl res) e.sys
  | _, _ => []

/-- What the program of the writer is told by an input. -/
def Input.toWriter : Input κ ι → Option κ
  | .tellWriter k => some k
  | _ => none

/-- What the program of the reader is told by an input. -/
def Input.toReader : Input κ ι → Option ι
  | .tellReader k => some k
  | _ => none

end Driven

/-- What a step shows of the end that takes it. -/
inductive System.Shown (s t : System) (m : Mod) : Input → List (Channel.Event UInt8) → Prop where
  /-- A call of the user begins. -/
  | called (fn : Mod) (all : Bool) (buf nbytes : Nat) (mem : Nat → UInt8)
      (before : (s.proc m).busy = false) (after : (t.proc m).busy = true) :
      Shown s t m (.transfer fn all buf nbytes mem) [m.called buf nbytes mem]
  /-- A call begins and returns at once. -/
  | nothing (fn : Mod) (all : Bool) (buf nbytes : Nat) (mem : Nat → UInt8) (value : Int)
      (got : List UInt8) (before : (s.proc m).busy = false) (after : (t.proc m).busy = false) :
      Shown s t m (.transfer fn all buf nbytes mem) [m.called buf nbytes mem, m.returned value got]
  /-- A call of the user returns. -/
  | returned (value : Int) (got : List UInt8) (before : (s.proc m).busy = true)
      (after : (t.proc m).busy = false) : Shown s t m .tick [m.returned value got]
  /-- The writer closes its end. -/
  | close (write : m = .write) (before : (s.proc m).busy = false)
      (after : (t.proc m).busy = false) : Shown s t m .free [.close]
  /-- Nothing is seen of the step. -/
  | quiet (i : Input) (same : (t.proc m).busy = (s.proc m).busy) : Shown s t m i []

section Shown

variable {g : Geometry} {s t : System} {m : Mod} {i : Input}

/-- What is seen of a step is what the step shows. -/
theorem System.shown_see (hs : s.step g (m, i) = some t) : s.Shown t m i (s.see (m, i) t) := by
  have hstep := System.step_proc hs
  -- a call of the user is made between two calls
  have hidle : (∀ r, i ≠ .ioctl r) → i ≠ .tick → (s.proc m).busy = false := by
    intro hioctl htick
    cases hb : (s.proc m).busy with
    | false => rfl
    | true =>
      have hpc : (s.proc m).pc ≠ .idle := fun hpc => by simp [Proc.busy, hpc] at hb
      cases i with
      | tick => exact absurd rfl htick
      | ioctl r => exact absurd rfl (hioctl r)
      | transfer | flush | free => simp [Proc.step, hpc] at hstep
  cases i with
  | transfer fn all buf nbytes mem =>
    have hbefore := hidle (by simp) (by simp)
    cases hb : (t.proc m).busy with
    | true =>
      simp only [System.see, hb, if_true]
      exact .called fn all buf nbytes mem hbefore hb
    | false =>
      simp only [System.see, hb, Bool.false_eq_true, if_false]
      exact .nothing fn all buf nbytes mem _ _ hbefore hb
  | tick =>
    cases hb : (s.proc m).busy <;> cases hb' : (t.proc m).busy <;>
      simp only [System.see, hb, hb', Bool.not_true, Bool.not_false, Bool.and_true, Bool.and_false,
        if_true, Bool.false_eq_true, if_false]
    · exact .quiet _ (by rw [hb, hb'])
    · obtain ⟨_, _, _, _, _, _, _, hi, _⟩ := Proc.busy_of_step hb hb' hstep
      cases hi
    · exact .returned _ _ hb hb'
    · exact .quiet _ (by rw [hb, hb'])
  | ioctl res =>
    have hsame : (t.proc m).busy = (s.proc m).busy := by
      cases hb : (s.proc m).busy with
      | true =>
        by_cases hret : (s.proc m).pc = .ret
        · have hi := (Proc.step_ret hret hstep).1
          cases hi
        · exact (Proc.step_continues hb hret hstep).busy
      | false =>
        cases hb' : (t.proc m).busy with
        | false => rfl
        | true =>
          obtain ⟨_, _, _, _, _, _, _, hi, _⟩ := Proc.busy_of_step hb hb' hstep
          cases hi
    cases m <;> exact .quiet _ hsame
  | flush | free =>
    have hbefore := hidle (by simp) (by simp)
    have hafter : (t.proc m).busy = false := by
      cases hb' : (t.proc m).busy with
      | false => rfl
      | true =>
        obtain ⟨_, _, _, _, _, _, _, hi, _⟩ := Proc.busy_of_step hbefore hb' hstep
        cases hi
    cases m <;> first
      | exact .close rfl hbefore hafter
      | exact .quiet _ (by rw [hbefore, hafter])

end Shown

/-- Accounts that tell the same of one end. -/
def Account.Same (m : Mod) (x y : Account UInt8) : Prop :=
  match m with
  | .write => y.given = x.given ∧ y.accepted = x.accepted
  | .read => y.asked = x.asked ∧ y.delivered = x.delivered ∧ y.ended = x.ended

/-- What a program keeps along what it was told and along the account of its end, in a call or
not. -/
structure Program.Keeps {σ κ : Type*} (w : Program σ κ) (m : Mod)
    (inv : σ → List κ → Bool → Account UInt8 → Prop) : Prop where
  /-- A program that makes a call keeps the invariant. -/
  call : ∀ a ks x all buf nbytes mem, inv a ks false x →
    w.next a = some (.transfer all buf nbytes mem) →
    inv (w.sees a (m.called buf nbytes mem)) ks true (x.after (m.called buf nbytes mem))
  /-- A program whose call returns keeps the invariant. -/
  returned : ∀ a ks x value got, inv a ks true x → x.Allows (m.returned value got) →
    inv (w.sees a (m.returned value got)) ks false (x.after (m.returned value got))
  /-- A program that frees its handle keeps the invariant. -/
  close : ∀ a ks x, inv a ks false x → inv (w.sees a .close) ks false (x.after .close)
  /-- A program that is told something keeps the invariant, with that added to what it was told. -/
  told : ∀ a b ks x k, inv a ks false x → w.told a k = some b → inv b (ks ++ [k]) false x
  /-- The invariant does not depend on the part of the other end. -/
  same : ∀ a ks b x y, inv a ks b x → Account.Same m x y → inv a ks b y

namespace Driven

variable {σ τ κ ι : Type*} {w : Program σ κ} {r : Program τ ι} {g : Geometry} {m : Mod}

/-- What is shown of one end leaves the part of the account about the other end. -/
private theorem same_foldl {s t : System} {i : Pipe.Input} {es : List (Channel.Event UInt8)}
    (h : s.Shown t m i es) (x : Account UInt8) :
    Account.Same m.peer x (es.foldl Account.after x) := by
  cases h <;> cases m <;> simp [Account.Same, Mod.peer, Mod.called, Mod.returned, Account.after]

/-- The part of the end that takes the step. -/
private theorem keeps_step {w : Program σ κ} {inv : σ → List κ → Bool → Account UInt8 → Prop}
    (hw : w.Keeps m inv) {a : σ} {ks : List κ} {s t : System} {x : Account UInt8}
    {i : Pipe.Input} {es : List (Channel.Event UInt8)}
    (hinv : inv a ks (s.proc m).busy x) (hshown : s.Shown t m i es) (hallowed : x.Allowed es)
    (hnext : ∀ fn all buf nbytes mem, i = .transfer fn all buf nbytes mem →
      w.next a = some (.transfer all buf nbytes mem)) :
    inv (es.foldl w.sees a) ks (t.proc m).busy (es.foldl Account.after x) := by
  cases hshown with
  | called fn all buf nbytes mem before after =>
    rw [before] at hinv
    rw [after]
    exact hw.call a ks x all buf nbytes mem hinv (hnext fn all buf nbytes mem rfl)
  | nothing fn all buf nbytes mem value got before after =>
    rw [before] at hinv
    rw [after]
    have hcall := hw.call a ks x all buf nbytes mem hinv (hnext fn all buf nbytes mem rfl)
    exact hw.returned _ _ _ value got hcall hallowed.2.1
  | returned value got before after =>
    rw [before] at hinv
    rw [after]
    exact hw.returned a ks x value got hinv hallowed.1
  | close write before after =>
    rw [before] at hinv
    rw [after]
    exact hw.close a ks x hinv
  | quiet i same =>
    rw [same]
    exact hinv

variable {inv : σ → List κ → Bool → Account UInt8 → Prop}
  {inv' : τ → List ι → Bool → Account UInt8 → Prop}

/-- How a pipe and its programs stand to the account and to what the programs were told. -/
structure Accounted (g : Geometry) (inv : σ → List κ → Bool → Account UInt8 → Prop)
    (inv' : τ → List ι → Bool → Account UInt8 → Prop) (d : Driven σ τ) (ks : List κ)
    (js : List ι) (x : Account UInt8) : Prop where
  /-- The pipe tells the account. -/
  sys : d.sys.Told g x
  /-- The program of the writer keeps its invariant. -/
  writer : inv d.writer ks d.sys.writer.busy x
  /-- The program of the reader keeps its invariant. -/
  reader : inv' d.reader js d.sys.reader.busy x

variable {ks : List κ} {js : List ι} {d e : Driven σ τ} {x : Account UInt8}

/-- A step of the pipe at the end of a program keeps both programs and the account together. -/
private theorem Accounted.advance {i : Pipe.Input}
    (hw : w.Keeps .write inv) (hr : r.Keeps .read inv') (h : Accounted g inv inv' d ks js x)
    (hnext : ∀ fn all buf nbytes mem, i = .transfer fn all buf nbytes mem →
      match m with
      | .write => w.next d.writer = some (.transfer all buf nbytes mem)
      | .read => r.next d.reader = some (.transfer all buf nbytes mem))
    (hs : d.advance w r g (m, i) = some e) :
    Accounted g inv inv' e ks js ((d.sys.see (m, i) e.sys).foldl Account.after x) := by
  simp only [Driven.advance, Option.map_eq_some_iff] at hs
  obtain ⟨t, ht, rfl⟩ := hs
  obtain ⟨hallowed, htold⟩ := h.sys.step ht
  have hshown := System.shown_see ht
  have hsame := same_foldl hshown x
  have hpeer := System.proc_peer_step ht
  cases m with
  | write =>
    refine ⟨htold, keeps_step hw h.writer hshown hallowed hnext, ?_⟩
    rw [show t.reader = d.sys.reader from hpeer]
    exact hr.same _ _ _ _ _ h.reader hsame
  | read =>
    refine ⟨htold, ?_, keeps_step hr h.reader hshown hallowed hnext⟩
    rw [show t.writer = d.sys.writer from hpeer]
    exact hw.same _ _ _ _ _ h.writer hsame

/-- One step of the pipe or of a program. -/
theorem Accounted.step {i : Input κ ι} (hw : w.Keeps .write inv) (hr : r.Keeps .read inv')
    (h : Accounted g inv inv' d ks js x) (hs : d.step w r g i = some e) :
    Accounted g inv inv' e (ks ++ i.toWriter.toList) (js ++ i.toReader.toList)
      ((see w r d i e).foldl Account.after x) := by
  cases i with
  | call m =>
    cases m <;> simp only [Driven.step, Option.bind_eq_some_iff] at hs <;>
      obtain ⟨q, hq, hs⟩ := hs <;>
      simp only [see, hq, Option.map_some, Option.getD_some, Input.toWriter, Input.toReader,
        Option.toList_none, List.append_nil]
    · refine h.advance hw hr (fun fn all buf nbytes mem hi => ?_) hs
      cases q <;> cases hi
      exact hq
    · refine h.advance hw hr (fun fn all buf nbytes mem hi => ?_) hs
      cases q <;> cases hi
      exact hq
  | tick m =>
    simpa [Input.toWriter, Input.toReader, see] using h.advance hw hr (by simp) hs
  | ioctl m res =>
    simpa [Input.toWriter, Input.toReader, see] using h.advance hw hr (by simp) hs
  | tellWriter k =>
    simp only [Driven.step] at hs
    split at hs
    · rename_i hpc
      obtain ⟨a, ha, rfl⟩ := Option.map_eq_some_iff.mp hs
      have hbusy : d.sys.writer.busy = false := by simp [Proc.busy, hpc]
      have hwriter := h.writer
      rw [hbusy] at hwriter
      refine ⟨h.sys, ?_, by simpa [Input.toReader, see] using h.reader⟩
      rw [hbusy]
      exact hw.told _ _ _ _ k hwriter ha
    · contradiction
  | tellReader k =>
    simp only [Driven.step] at hs
    split at hs
    · rename_i hpc
      obtain ⟨b, hb, rfl⟩ := Option.map_eq_some_iff.mp hs
      have hbusy : d.sys.reader.busy = false := by simp [Proc.busy, hpc]
      have hreader := h.reader
      rw [hbusy] at hreader
      refine ⟨h.sys, by simpa [Input.toWriter, see] using h.writer, ?_⟩
      rw [hbusy]
      exact hr.told _ _ _ _ k hreader hb
    · contradiction

/-- A map with gaps of a list begins with what it makes of the first element. -/
private theorem filterMap_cons_toList {α β : Type*} (f : α → Option β) (a : α) (l : List α) :
    (a :: l).filterMap f = (f a).toList ++ l.filterMap f := by
  rw [List.filterMap_cons]
  cases f a <;> rfl

/-- What was seen and told in a run goes on behind what was before. -/
private theorem Accounted.run (hw : w.Keeps .write inv) (hr : r.Keeps .read inv')
    {is : List (Input κ ι)} {es : List (Channel.Event UInt8)} (h : Accounted g inv inv' d ks js x)
    (hrun : observe (Driven.step w r g) (see w r) d is = some (e, es)) :
    Accounted g inv inv' e (ks ++ is.filterMap Input.toWriter) (js ++ is.filterMap Input.toReader)
      (es.foldl Account.after x) := by
  induction is generalizing d ks js x es with
  | nil =>
    cases hrun
    simpa using h
  | cons i is ih =>
    simp only [observe, Option.bind_eq_some_iff, Option.map_eq_some_iff] at hrun
    obtain ⟨u, hu, ⟨e', es'⟩, hrest, heq⟩ := hrun
    cases heq
    have hlater := ih (h.step hw hr hu) hrest
    rw [List.append_assoc, List.append_assoc] at hlater
    rw [List.foldl_append, filterMap_cons_toList, filterMap_cons_toList]
    exact hlater

/-- Every run of two programs over a pipe. -/
theorem accounted {conv : Conv} {buffer memReader memWriter : Nat → UInt8} {a : σ} {b : τ}
    {is : List (Input κ ι)} {es : List (Channel.Event UInt8)}
    (hw : w.Keeps .write inv) (hr : r.Keeps .read inv') (ha : inv a [] false .start)
    (hb : inv' b [] false .start)
    (h : observe (step w r g) (see w r) ⟨.offered conv buffer memReader memWriter, a, b⟩ is =
      some (d, es)) : Accounted g inv inv' d (is.filterMap Input.toWriter)
        (is.filterMap Input.toReader) (es.foldl Account.after .start) := by
  have hstart : Accounted g inv inv' ⟨.offered conv buffer memReader memWriter, a, b⟩ [] []
      .start := by
    refine ⟨System.told_offered g conv buffer memReader memWriter, ?_, ?_⟩
    · cases conv <;> exact ha
    · cases conv <;> exact hb
  exact hstart.run hw hr h

end Driven

end XenShm.Pipe
