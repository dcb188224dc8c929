import XenShm.Library.Spacing
import XenShm.Pipe.Copying

/-!
# How long a copying loop keeps its peer waiting

The loop looks at the peer at its check boundary, which is moved one interval at a
time; the fast copy may leave up to seven bytes before the boundary for the next
round. So a round copies at most one interval and seven bytes, and so does the loop
between two looks at the peer, however the peer moves.
-/

namespace XenShm.Pipe

open XenShm.Library

namespace Event

/-- The event is a test of the flag of the peer. -/
def isTest : Event → Bool
  | .tested _ => true
  | _ => false

/-- The event is a store of the own index. -/
def isStore : Event → Bool
  | .stored => true
  | _ => false

/-- The number of bytes that the event has copied. -/
def bytes : Event → Nat
  | .copied k => k
  | _ => 0

end Event

namespace Transfer

variable {g : Geometry} {m : Mod} {s : Shared} {t : Transfer} {count stop untested unstored : Nat}

/-- The bound `I + 7`, in bytes, on what is moved between two looks at the peer. -/
def slack (g : Geometry) : Nat := g.waitCheckInterval + 7

/-- The loop with `untested` bytes copied since the last test and `unstored` since the last
store. -/
def Paced (g : Geometry) (untested unstored : Nat) (t : Transfer) : Prop :=
  match t.pc with
  | .loadRead | .loadWrite | .loadFlags => untested = 0 ∧ unstored = 0
  | .loop => untested + (t.granMax - t.current) ≤ slack g ∧ unstored = 0
  | .align | .words | .bytes =>
    untested + (t.granMax - t.current) ≤ slack g ∧ unstored + (t.minMax - t.current) ≤ slack g ∧
      (t.granCheck = true → t.minMax = t.granMax)
  | .check =>
    untested + (t.granMax - t.current) ≤ slack g ∧ unstored ≤ slack g ∧
      (t.granCheck = true → t.granMax ≤ t.current + 7)
  | .checkSignal | .loadPeer | .storeOwn =>
    untested + (t.granMax - t.current) ≤ slack g ∧ unstored ≤ slack g
  | .lastCheck | .lastSignal | .done => untested ≤ slack g ∧ unstored = 0

/-- The next step tests the flag of the peer. -/
def tests (t : Transfer) : Bool :=
  match t.pc with
  | .loadFlags | .lastCheck => true
  | .check => t.granCheck ∨ t.current = t.granMax
  | _ => false

/-- The boundary of a round is the check boundary where the round ends with a test. -/
private theorem enter_gran : (t.enter g m).granMax = t.granMax ∧
    (t.enter g m).minMax ≤ t.granMax ∧
    ((t.enter g m).granCheck = true → (t.enter g m).minMax = t.granMax) := by
  have hle : t.nearMax g ≤ t.granMax := by
    unfold nearMax
    split <;> omega
  have heq : decide (t.granMax < t.innerMax g) = true → t.nearMax g = t.granMax := by
    intro h
    rw [nearMax, if_pos (of_decide_eq_true h)]
  unfold enter
  split_ifs <;> exact ⟨rfl, hle, heq⟩

/-- A copy goes on within the pace that its loop has left. -/
private theorem Paced.step_copy (h : Paced g untested unstored t) (hs : Sound g m count stop t)
    (hcopy : t.copies ≠ 0) :
    Paced g (untested + t.copies) (unstored + t.copies) (t.step g m s) := by
  obtain ⟨_, hspan, hfit⟩ := hs.copies_fit hcopy
  have hgran := hspan.gran
  rw [step_of_copies hcopy]
  have hpc : t.pc = .align ∨ t.pc = .words ∨ t.pc = .bytes := by
    cases hpc : t.pc <;> simp_all [copies]
  rcases hpc with hpc | hpc | hpc <;> simp only [Paced, hpc] at h <;>
    simp only [Paced, advance_pc, hpc] <;> refine ⟨?_, ?_, h.2.2⟩ <;> simp only [advance] <;>
    omega

/-- One step of the loop keeps the pace. -/
theorem Paced.step (h : Paced g untested unstored t) (hs : Sound g m count stop t) :
    Paced g (if t.tests then 0 else untested + t.copies)
      (if t.pc = .storeOwn then 0 else unstored + t.copies) (t.step g m s) := by
  have hinterval := g.waitCheckInterval_ge
  by_cases hcopy : t.copies = 0
  swap
  · have hplain : t.tests = false ∧ t.pc ≠ .storeOwn := by
      cases hpc : t.pc <;> simp_all [copies, tests]
    rw [hplain.1, if_neg Bool.false_ne_true, if_neg hplain.2]
    exact h.step_copy hs hcopy
  have hat := hs.atPc
  rw [hcopy, Nat.add_zero, Nat.add_zero]
  cases hpc : t.pc <;> simp only [Paced, hpc] at h <;> simp only [AtPc, hpc] at hat <;>
    simp only [copies, hpc] at hcopy
  case loadRead | loadWrite => cases m <;> simpa [Paced, tests, Transfer.step, hpc] using h
  case loadFlags =>
    obtain ⟨-, -, -, hcur⟩ := hat
    simp only [Transfer.step, hpc, tests, Paced, if_true, reduceCtorEq, if_false, slack, hcur,
      fastCheckInterval]
    split <;> omega
  case loop =>
    obtain ⟨hgran, hmin, hcheck⟩ := enter_gran (g := g) (m := m) (t := t)
    simp only [Transfer.step, hpc, tests, Bool.false_eq_true, reduceCtorEq, if_false]
    split
    · rcases enter_pc (g := g) (m := m) (t := t) with he | he | he <;>
        simp only [Paced, he, enter_current, hgran] <;> refine ⟨h.1, by omega, hcheck⟩
    · exact ⟨by omega, h.2⟩
  case align =>
    simp only [Transfer.step, hpc, tests, Bool.false_eq_true, reduceCtorEq, if_false]
    split
    · simp_all
    · exact h
  case words =>
    have hlast : t.current = t.minMax64 := by
      by_contra hne
      simp [hne] at hcopy
    simp only [Transfer.step, hpc, tests, Bool.false_eq_true, reduceCtorEq, if_false,
      if_neg (not_not.mpr hlast)]
    split
    · exact h
    · refine ⟨h.1, by omega, fun hg => ?_⟩
      have hmin := h.2.2 hg
      change t.granMax ≤ t.current + 7
      simp only [minMax64] at hlast
      omega
  case bytes =>
    have hlast : t.current = t.minMax := by
      by_contra hne
      simp [hne] at hcopy
    simp only [Transfer.step, hpc, tests, Bool.false_eq_true, reduceCtorEq, if_false,
      if_neg (not_not.mpr hlast)]
    refine ⟨h.1, by omega, fun hg => ?_⟩
    change t.granMax ≤ t.current + 7
    rw [hlast, h.2.2 hg]
    omega
  case check =>
    obtain ⟨htest, hstore, hcheck⟩ := h
    have hle := hat.2.2
    simp only [Transfer.step, hpc, tests, reduceCtorEq, if_false]
    by_cases hlook : t.granCheck = true ∨ t.current = t.granMax
    · have hnear : t.granMax ≤ t.current + 7 := by
        rcases hlook with hg | hg
        · exact hcheck hg
        · omega
      have hnext : 0 + (t.granMax + g.waitCheckInterval - t.current) ≤ slack g := by
        simp only [slack]
        omega
      simp only [if_pos hlook, decide_eq_true hlook, if_true]
      cases hasFlag (s.flags m.peer) .sleeping <;> exact ⟨hnext, hstore⟩
    · simp only [if_neg hlook, decide_eq_false hlook, Bool.false_eq_true, if_false]
      exact ⟨htest, hstore⟩
  case lastCheck =>
    simp only [Transfer.step, hpc, tests, if_true, reduceCtorEq, if_false]
    cases hasFlag (s.flags m.peer) .sleeping <;> exact ⟨Nat.zero_le _, h.2⟩
  case storeOwn =>
    simp only [Transfer.step, hpc, tests, if_true, Bool.false_eq_true, if_false]
    exact ⟨h.1, rfl⟩
  case checkSignal | loadPeer | lastSignal | done =>
    simp only [Transfer.step, hpc, tests, Bool.false_eq_true, reduceCtorEq, if_false]
    simpa [Paced, hpc] using h

/-- What the events of one step add to the bytes since the last mark. -/
private theorem sinceMark_events (es : List Event) :
    sinceMark Event.isTest Event.bytes (es ++ t.events m s) =
        (if t.tests then 0 else sinceMark Event.isTest Event.bytes es + t.copies) ∧
      sinceMark Event.isStore Event.bytes (es ++ t.events m s) =
        (if t.pc = .storeOwn then 0 else sinceMark Event.isStore Event.bytes es + t.copies) := by
  cases hpc : t.pc <;> simp only [events, hpc, tests]
  case align | words | bytes =>
    by_cases hz : t.copies = 0
    · simp [hz]
    · simp [hz, Event.isTest, Event.isStore, Event.bytes]
  case check =>
    have hz : t.copies = 0 := by simp [copies, hpc]
    by_cases hlook : t.granCheck = true ∨ t.current = t.granMax <;>
      simp [hlook, hz, Event.isTest, Event.isStore, Event.bytes]
  all_goals
    simp [copies, hpc, Event.isTest, Event.isStore, Event.bytes]

/-- The next copy still fits into the bound. -/
private theorem Paced.fits (h : Paced g untested unstored t) (hs : Sound g m count stop t) :
    untested + t.copies ≤ slack g ∧ unstored + t.copies ≤ slack g := by
  by_cases hcopy : t.copies = 0
  · rw [hcopy]
    cases hpc : t.pc <;> simp only [Paced, hpc] at h <;> omega
  · obtain ⟨_, hspan, hfit⟩ := hs.copies_fit hcopy
    have hgran := hspan.gran
    cases hpc : t.pc <;> simp only [copies, hpc, ne_eq, not_true_eq_false] at hcopy hfit ⊢ <;>
      simp only [Paced, hpc] at h <;> omega

/-- A step is at most one event, with the bytes it copies. -/
private theorem events_eq (m : Mod) (s : Shared) (t : Transfer) :
    t.events m s = [] ∨ ∃ e, t.events m s = [e] ∧ e.bytes = t.copies := by
  cases hpc : t.pc <;> simp only [events, hpc]
  case align | words | bytes =>
    by_cases hz : t.copies = 0
    · exact .inl (if_pos hz)
    · exact .inr ⟨_, if_neg hz, rfl⟩
  case check =>
    split
    · exact .inr ⟨_, rfl, by simp [Event.bytes, copies, hpc]⟩
    · exact .inl rfl
  case loadRead | loadWrite | loop | loadPeer | done => exact .inl trivial
  all_goals exact .inr ⟨_, rfl, by simp [Event.bytes, copies, hpc]⟩

/-- A paced loop spaces its tests and its stores. -/
theorem Paced.spaced_events {es : List Event} (hs : Sound g m count stop t)
    (hpace : Paced g (sinceMark Event.isTest Event.bytes es)
      (sinceMark Event.isStore Event.bytes es) t)
    (htest : Spaced Event.isTest Event.bytes (slack g) es)
    (hstore : Spaced Event.isStore Event.bytes (slack g) es) :
    Spaced Event.isTest Event.bytes (slack g) (es ++ t.events m s) ∧
      Spaced Event.isStore Event.bytes (slack g) (es ++ t.events m s) := by
  obtain ⟨hfit, hfit'⟩ := hpace.fits hs
  rcases events_eq m s t with he | ⟨e, he, hbytes⟩
  · rw [he, List.append_nil]
    exact ⟨htest, hstore⟩
  · rw [he]
    exact ⟨htest.concat fun _ => hbytes ▸ hfit, hstore.concat fun _ => hbytes ▸ hfit'⟩

end Transfer

/-- The call ends with a test of the flag of the peer, and with a signal if it was set. -/
def Told (es : List Event) : Prop :=
  ∃ before, es = before ++ [.tested false] ∨ es = before ++ [.tested true, .signalled]

/-- A call that does not let its peer wait. -/
structure Prompt (g : Geometry) (c : Copying) : Prop where
  /-- At most `I + 7` bytes are copied without a test of the flag of the peer. -/
  tests : Spaced Event.isTest Event.bytes (g.waitCheckInterval + 7) c.events
  /-- At most `I + 7` bytes are copied without a store of the own index. -/
  stores : Spaced Event.isStore Event.bytes (g.waitCheckInterval + 7) c.events
  /-- The last thing the call does is to test the flag and to signal a peer that is asleep. -/
  told : c.Returned → Told c.events

namespace Transfer

variable {g : Geometry} {m : Mod} {s : Shared} {t : Transfer} {es : List Event}

/-- What the peer was told by a loop that is at its end, by the place where it is. -/
def Tells (es : List Event) (t : Transfer) : Prop :=
  match t.pc with
  | .lastSignal => ∃ before, es = before ++ [.tested true]
  | .done => Told es
  | _ => True

/-- A step of the loop keeps the peer told, with its own events added. -/
theorem tells_step (h : t.Tells es) : (t.step g m s).Tells (es ++ t.events m s) := by
  cases hpc : t.pc <;> simp only [Tells, hpc] at h
  case lastCheck =>
    simp only [step, hpc, events]
    cases hasFlag (s.flags m.peer) .sleeping
    · exact ⟨es, .inl rfl⟩
    · exact ⟨es, rfl⟩
  case lastSignal =>
    obtain ⟨before, rfl⟩ := h
    simp only [step, hpc, events]
    exact ⟨before, .inr (by simp)⟩
  case done => simpa [step, hpc, events, Tells] using h
  case loop =>
    simp only [step, hpc]
    split
    · rcases enter_pc (g := g) (m := m) (t := t) with he | he | he <;> simp [Tells, he]
    · trivial
  all_goals
    cases m <;> simp only [step, hpc] <;> (repeat' split) <;> simp_all [Tells]

end Transfer

namespace Copying

variable {g : Geometry} {m : Mod} {p : Proc} {s : Shared} {c c' : Copying} {base : Nat}

/-- What holds all through a call whose peer moves. -/
structure Delayed (g : Geometry) (m : Mod) (p : Proc) (base : Nat) (c : Copying) : Prop where
  /-- The index of the peer stays in the ring. -/
  peer : c.shared.index m.peer < g.bufferSize
  /-- While the call is in the loop, the loop keeps its pace. -/
  loop : c.proc.pc = .avail → (∃ stop, Kept g m p base stop c) ∧
    Transfer.Paced g (sinceMark Event.isTest Event.bytes c.events)
      (sinceMark Event.isStore Event.bytes c.events) c.proc.xfer ∧
    c.proc.xfer.Tells c.events
  /-- What others see of the call is prompt. -/
  prompt : Prompt g c

/-- A call that begins with both indices in the ring has not delayed anybody. -/
theorem delayed_enter (hpeer : s.index m.peer < g.bufferSize) (hown : s.index m < g.bufferSize) :
    Delayed g m p (s.index m + g.bufferSize) (enter p s) := by
  refine ⟨hpeer, fun _ => ⟨⟨0, kept_enter p ?_⟩, ⟨rfl, rfl⟩, trivial⟩, spaced_nil, spaced_nil, ?_⟩
  · rw [Nat.add_mod_right, Nat.mod_eq_of_lt hown]
  · exact fun h => absurd rfl h

/-- A step of the loop itself delays nobody. -/
private theorem Delayed.step_own (h : Delayed g m p base c) (hbase : g.bufferSize ≤ base)
    {i : Input} (hs : c.step g m (.own i) = some c') : Delayed g m p base c' := by
  obtain ⟨hpc, hstep, hevents⟩ := Copying.step_own hs
  obtain ⟨⟨stop, hkept⟩, hpace, htells⟩ := h.loop hpc
  have hl := Proc.step_looped hpc hstep
  obtain ⟨htests, hstores⟩ :=
    hpace.spaced_events (s := c.shared) hkept.sound h.prompt.tests h.prompt.stores
  rw [← hevents] at htests hstores
  rcases hl.next with ⟨_, hpc', hx⟩ | ⟨hdone, hpc', _⟩
  · refine ⟨hl.peer ▸ h.peer, fun _ => ⟨?_, ?_, ?_⟩, htests, hstores, fun hne => absurd hpc' hne⟩
    · obtain ⟨other, hslot, hwin⟩ :=
        exists_bound g m (show g.bufferSize ≤ base + c.count by omega) h.peer
      exact ⟨_, hkept.step_own hs hpc' hslot hwin⟩
    · obtain ⟨htest, hstore⟩ :=
        Transfer.sinceMark_events (m := m) (s := c.shared) (t := c.proc.xfer) c.events
      rw [hevents, htest, hstore, hx]
      exact hpace.step hkept.sound
    · rw [hevents, hx]
      exact Transfer.tells_step htells
  · refine ⟨hl.peer ▸ h.peer, fun he => ?_, htests, hstores, fun _ => ?_⟩
    · simp [hpc'] at he
    · rw [hevents]
      simpa [Transfer.Tells, hdone, Transfer.events] using htells

/-- What is stored from outside, the index of the peer staying in the ring. -/
private theorem Delayed.outside (h : Delayed g m p base c) {sh : Shared}
    (hown : sh.index m = c.shared.index m) (hpeer : sh.index m.peer < g.bufferSize) :
    Delayed g m p base { c with shared := sh } := by
  refine ⟨hpeer, fun hpc => ?_, h.prompt.tests, h.prompt.stores, h.prompt.told⟩
  obtain ⟨⟨stop, hkept⟩, hpace, htells⟩ := h.loop hpc
  exact ⟨⟨stop, hkept.outside hown⟩, hpace, htells⟩

/-- A step during a call whose peer moves. -/
theorem Delayed.step (h : Delayed g m p base c) (hbase : g.bufferSize ≤ base) {t : Turn}
    (ht : moving g c t = true) (hs : c.step g m t = some c') : Delayed g m p base c' := by
  cases t with
  | own i => exact h.step_own hbase hs
  | flags m' f =>
    obtain rfl := Option.some.inj hs
    exact h.outside (Shared.index_setFlags ..) (by simpa using h.peer)
  | index i =>
    obtain rfl := Option.some.inj hs
    refine h.outside ?_ (by simpa [moving] using ht)
    simpa using Shared.index_setIndex_peer c.shared m.peer i
  | byte slot v =>
    obtain rfl := Option.some.inj hs
    exact h.outside (by cases m <;> rfl) (by cases m <;> exact h.peer)

end Copying

/-- Whatever the peer does, a call of a copying loop tests its flag and stores the own index at
least every `I + 7` bytes, and does not end without a last look at the peer. -/
theorem delay_bounded (g : Geometry) (m : Mod) (p : Proc) (s : Shared)
    (hown : s.index m < g.bufferSize) (hpeer : s.index m.peer < g.bufferSize) (c : Copying)
    (h : Reaches (Copying.step g m) (Copying.moving g) (.enter p s) c) : Prompt g c :=
  (h.invariant (Copying.delayed_enter hpeer hown) fun _ _ _ hd ht hs =>
    hd.step (Nat.le_add_left _ _) ht hs).prompt

/-- A writer of three bytes whose reader frees one slot, then three more, and falls asleep. -/
private def lateReader : List Turn :=
  List.replicate 7 (.own .tick) ++ [.index 5] ++ List.replicate 10 (.own .tick) ++
  [.flags .read (setFlag 0#32 .sleeping), .own .tick, .own (.ioctl .ok), .own .tick]

/-- A writer whose reader falls asleep during the call tests it, stores its index and signals in
time. -/
theorem delay_bounded_lateReader : ∃ c : Copying, c.events = [.tested false, .copied 1, .stored,
    .copied 1, .copied 1, .stored, .tested true, .signalled] ∧ Prompt .onePage c := by
  have hrun : (run (Copying.step .onePage .write) (Copying.moving .onePage)
      (.enter { Proc.init .idle true fun _ => 0 with nbytes := 3 } ⟨0#32, 0#32, 0, 2, fun _ => 0⟩)
      lateReader).any (fun c => decide (c.events = [.tested false, .copied 1, .stored, .copied 1,
        .copied 1, .stored, .tested true, .signalled])) = true := by decide +kernel
  obtain ⟨c, hc, hevents⟩ := exists_reaches_of_run hrun
  exact ⟨c, of_decide_eq_true hevents,
    delay_bounded .onePage .write _ _ (by decide) (by decide) c hc⟩

end XenShm.Pipe
