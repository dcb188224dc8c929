import XenShm.Library.Simulation

/-!
# A bounded channel with calls

The elements of a channel leave it in the order in which they entered. A call puts a part of
what it was given, or gets a part of what it asked for, at any pace; it returns how much
that was, and fails only when it was nothing. A get that finds the end of the elements
returns 0. The account of a run is taken from its events alone.
-/

namespace XenShm.Library

variable {α : Type*}

/-- A call that puts elements into the channel and is still in progress. -/
structure Put (α : Type*) where
  /-- The elements that the call was given. -/
  data : List α
  /-- How many of them have entered the channel. -/
  done : Nat

/-- A call that gets elements from the channel and is still in progress. -/
structure Get (α : Type*) where
  /-- How many elements the call has asked for. -/
  asked : Nat
  /-- The elements that have left the channel for the call. -/
  got : List α

/-- What a call that puts may return, by what it has done. -/
inductive Put.Returns (p : Put α) : Int → Prop where
  /-- Something has entered, or nothing was given. -/
  | done (h : 0 < p.done ∨ p.data = []) : Returns p p.done
  /-- The call fails without an element entered. -/
  | failed (h : p.done = 0) : Returns p (-1)

/-- A channel and the calls in progress at its two ends. -/
structure Channel (α : Type*) where
  /-- The elements in the channel, the oldest first. -/
  queue : List α
  /-- The call that puts, if there is one. -/
  put : Option (Put α)
  /-- The call that gets, if there is one. -/
  get : Option (Get α)
  /-- Whether nothing enters any more. -/
  closed : Bool

/-- What a call that gets may return, by what it has got. -/
inductive Get.Returns (c : Channel α) (r : Get α) : Int → Prop where
  /-- Something has left, or nothing was asked for. -/
  | done (h : r.got ≠ [] ∨ r.asked = 0) : Returns c r r.got.length
  /-- The end: nothing will enter the empty channel any more. -/
  | ended (h : r.got = []) (hclosed : c.closed = true) (hempty : c.queue = []) : Returns c r 0
  /-- The call fails without an element got. -/
  | failed (h : r.got = []) : Returns c r (-1)

namespace Channel

/-- What is seen of a channel from outside: the calls and what they return. -/
inductive Event (α : Type*) where
  /-- A call to put these elements is made. -/
  | put (data : List α)
  /-- The call that puts returns this value. -/
  | putReturned (value : Int)
  /-- The last call to put was made. -/
  | close
  /-- A call to get so many elements. -/
  | get (asked : Nat)
  /-- The call that gets returns this value, and with it these elements. -/
  | getReturned (value : Int) (got : List α)
  deriving DecidableEq

/-- A channel of which nothing was seen yet. -/
def empty : Channel α := ⟨[], none, none, false⟩

/-- One step of a channel that holds at most `cap` elements. -/
inductive Next (cap : Nat) : Channel α → Option (Event α) → Channel α → Prop where
  | put (c : Channel α) (data : List α) (hput : c.put = none) (hopen : c.closed = false) :
      Next cap c (some (.put data)) { c with put := some ⟨data, 0⟩ }
  /-- Elements enter the channel, as many as there is room for at most. -/
  | enters (c : Channel α) (p : Put α) (k : Nat) (hput : c.put = some p)
      (hdata : p.done + k ≤ p.data.length) (hroom : c.queue.length + k ≤ cap) :
      Next cap c none { c with
        queue := c.queue ++ (p.data.drop p.done).take k
        put := some { p with done := p.done + k } }
  | putReturned (c : Channel α) (p : Put α) (value : Int) (hput : c.put = some p)
      (hvalue : p.Returns value) : Next cap c (some (.putReturned value)) { c with put := none }
  | close (c : Channel α) (hput : c.put = none) (hopen : c.closed = false) :
      Next cap c (some .close) { c with closed := true }
  | get (c : Channel α) (asked : Nat) (hget : c.get = none) :
      Next cap c (some (.get asked)) { c with get := some ⟨asked, []⟩ }
  /-- Elements leave the channel in their order. -/
  | leaves (c : Channel α) (r : Get α) (k : Nat) (hget : c.get = some r)
      (hasked : r.got.length + k ≤ r.asked) (hqueue : k ≤ c.queue.length) :
      Next cap c none { c with
        queue := c.queue.drop k
        get := some { r with got := r.got ++ c.queue.take k } }
  | getReturned (c : Channel α) (r : Get α) (value : Int) (hget : c.get = some r)
      (hvalue : r.Returns c value) :
      Next cap c (some (.getReturned value r.got)) { c with get := none }

end Channel

/-- What the events of a run tell about its elements. -/
structure Account (α : Type*) where
  /-- What the last call to put was given. -/
  given : List α
  /-- What the calls to put have returned for. -/
  accepted : List α
  /-- How much the last call to get asked for. -/
  asked : Nat
  /-- What the calls to get have returned. -/
  delivered : List α
  /-- One of them has found the end. -/
  ended : Bool

namespace Account

/-- The account before the first event of a run. -/
def start : Account α := ⟨[], [], 0, [], false⟩

/-- The account with one more event of the run. -/
def after (x : Account α) : Channel.Event α → Account α
  | .put data => { x with given := data }
  | .putReturned value => { x with accepted := x.accepted ++ x.given.take value.toNat }
  | .close => x
  | .get asked => { x with asked := asked }
  | .getReturned value got =>
    { x with
      delivered := x.delivered ++ got
      ended := x.ended || (decide (value = 0) && decide (x.asked ≠ 0)) }

/-- What may be seen next behind an account: a call moves no more than it was asked for, and gives
its own number. -/
def Allows (x : Account α) : Channel.Event α → Prop
  | .putReturned value => value = -1 ∨ 0 ≤ value ∧ value.toNat ≤ x.given.length ∧
      (value = 0 → x.given = [])
  | .getReturned value got => value = -1 ∧ got = [] ∨ value = got.length ∧ got.length ≤ x.asked
  | _ => True

/-- A list of events, each behind the ones before. -/
def Allowed (x : Account α) : List (Channel.Event α) → Prop
  | [] => True
  | e :: es => x.Allows e ∧ Allowed (x.after e) es

end Account

namespace Channel

/-- The elements that the call in progress has put into the channel. -/
def entered (c : Channel α) : List α :=
  match c.put with
  | some p => p.data.take p.done
  | none => []

/-- The elements that the call in progress has got from the channel. -/
def left (c : Channel α) : List α :=
  match c.get with
  | some r => r.got
  | none => []

/-- How a channel stands to the account of its run. -/
structure Balances (cap : Nat) (x : Account α) (c : Channel α) : Prop where
  /-- No element is lost, doubled or overtaken. -/
  elements : x.accepted ++ c.entered = x.delivered ++ c.left ++ c.queue
  /-- There is room in the channel for all elements that are in it. -/
  room : c.queue.length ≤ cap
  /-- The call that puts was given the elements of the account. -/
  given : ∀ p, c.put = some p → x.given = p.data ∧ p.done ≤ p.data.length
  /-- The call that gets has asked for the number of the account. -/
  asked : ∀ r, c.get = some r → x.asked = r.asked ∧ r.got.length ≤ r.asked
  /-- A channel is not closed while something enters. -/
  closed : c.closed = true → c.put = none
  /-- Behind the end nothing comes any more. -/
  ended : x.ended = true → c.closed = true ∧ c.queue = [] ∧ c.left = []

variable {cap : Nat} {x : Account α} {c d : Channel α} {e : Event α}

/-- A step that shows nothing keeps the balance. -/
private theorem Balances.silent (h : Balances cap x c) (hn : Next cap c none d) :
    Balances cap x d := by
  have helements := h.elements
  cases hn with
  | enters p k hput hdata hroom =>
    have hclosed : c.closed = false := by
      by_contra hc
      rw [h.closed (by simpa using hc)] at hput
      contradiction
    refine ⟨?_, ?_, fun q hq => ?_, h.asked, fun hc => ?_, fun he => ?_⟩
    · simp only [entered, left, hput] at helements ⊢
      rw [List.take_add, ← List.append_assoc, helements]
      simp only [List.append_assoc]
    · simp only [List.length_append, List.length_take, List.length_drop]
      omega
    · cases hq
      exact ⟨(h.given p hput).1, hdata⟩
    · simp [hclosed] at hc
    · exact absurd (h.ended he).1 (by simp [hclosed])
  | leaves r k hget hasked hqueue =>
    refine ⟨?_, ?_, h.given, fun q hq => ?_, h.closed, fun he => ?_⟩
    · simp only [entered, left, hget] at helements ⊢
      rw [helements]
      simp only [List.append_assoc, List.take_append_drop]
    · rw [List.length_drop]
      have := h.room
      omega
    · cases hq
      refine ⟨(h.asked r hget).1, ?_⟩
      rw [List.length_append, List.length_take, Nat.min_eq_left hqueue]
      exact hasked
    · obtain ⟨hc, hq, hl⟩ := h.ended he
      simp only [left, hget] at hl
      exact ⟨hc, by simp [hq], by simp [left, hl, hq]⟩

/-- A step that shows an event keeps the balance with the account of that event. -/
private theorem Balances.event (h : Balances cap x c) (hn : Next cap c (some e) d) :
    Balances cap (x.after e) d := by
  have helements := h.elements
  cases hn with
  | put data hput hopen =>
    refine ⟨?_, h.room, fun q hq => ?_, h.asked, fun hc => ?_, fun he => ?_⟩
    · simpa [Account.after, entered, left, hput] using helements
    · cases hq
      exact ⟨rfl, Nat.zero_le _⟩
    · simp [hopen] at hc
    · exact absurd (h.ended he).1 (by simp [hopen])
  | putReturned p value hput hvalue =>
    have hvalue : value.toNat = p.done := by
      cases hvalue with
      | done => rfl
      | failed hdone => exact hdone.symm
    refine ⟨?_, h.room, fun q hq => (by cases hq), h.asked, fun _ => rfl, h.ended⟩
    simp only [entered, hput] at helements
    simpa [Account.after, entered, left, (h.given p hput).1, hvalue] using helements
  | close hput hopen =>
    refine ⟨helements, h.room, h.given, h.asked, fun _ => hput, fun he => ?_⟩
    exact ⟨rfl, (h.ended he).2⟩
  | get asked hget =>
    refine ⟨?_, h.room, h.given, fun q hq => ?_, h.closed, fun he => ?_⟩
    · simpa [Account.after, entered, left, hget] using helements
    · cases hq
      exact ⟨rfl, Nat.zero_le _⟩
    · exact ⟨(h.ended he).1, (h.ended he).2.1, rfl⟩
  | getReturned r value hget hvalue =>
    refine ⟨?_, h.room, h.given, fun q hq => (by cases hq), h.closed, fun he => ?_⟩
    · simp only [left, hget] at helements
      simpa [Account.after, entered, left] using helements
    · simp only [Account.after, Bool.or_eq_true, Bool.and_eq_true, decide_eq_true_eq] at he
      rcases he with he | ⟨rfl, hasked⟩
      · exact ⟨(h.ended he).1, (h.ended he).2.1, rfl⟩
      · rw [(h.asked r hget).1] at hasked
        generalize hz : (0 : Int) = value at hvalue
        cases hvalue with
        | done hgot =>
          have hnil : r.got = [] := List.length_eq_zero_iff.mp (by omega)
          exact (hgot.elim (absurd hnil) hasked).elim
        | ended _ hclosed hempty => exact ⟨hclosed, hempty, rfl⟩
        | failed => contradiction

/-- What is seen is allowed by the account. -/
theorem Balances.allows (h : Balances cap x c) (hn : Next cap c (some e) d) : x.Allows e := by
  cases hn with
  | put | close | get => trivial
  | putReturned p value hput hvalue =>
    obtain ⟨hgiven, hdone⟩ := h.given p hput
    cases hvalue with
    | done hsome =>
      refine .inr ⟨by omega, by rw [hgiven]; exact hdone, fun hzero => ?_⟩
      rw [hgiven]
      exact hsome.resolve_left (by omega)
    | failed => exact .inl rfl
  | getReturned r value hget hvalue =>
    obtain ⟨hasked, hgot⟩ := h.asked r hget
    cases hvalue with
    | done => exact .inr ⟨rfl, by rw [hasked]; exact hgot⟩
    | ended hnil => exact .inr ⟨by simp [hnil], by simp [hnil]⟩
    | failed hnil => exact .inl ⟨rfl, hnil⟩

/-- Every run of a channel goes on with its account. -/
theorem Balances.run (h : Balances cap x c) {es : List (Event α)} (hrun : Shows (Next cap) c es d) :
    x.Allowed es ∧ Balances cap (es.foldl Account.after x) d := by
  induction hrun generalizing x with
  | refl => exact ⟨trivial, h⟩
  | silent hstep _ ih => exact ih (h.silent hstep)
  | event hstep _ ih =>
    obtain ⟨hallowed, hbalances⟩ := ih (h.event hstep)
    exact ⟨⟨h.allows hstep, hallowed⟩, hbalances⟩

/-- A channel of which nothing was seen balances the account before the first event. -/
theorem balances_empty (cap : Nat) : Balances cap (.start : Account α) empty :=
  ⟨rfl, Nat.zero_le cap, fun _ hp => (by cases hp), fun _ hr => (by cases hr), fun _ => rfl,
    fun he => (by cases he)⟩

/-- What was delivered is a beginning of what has entered. -/
theorem Balances.delivered (h : Balances cap x c) : x.delivered <+: x.accepted ++ c.entered := by
  rw [h.elements, List.append_assoc]
  exact List.prefix_append ..

/-- At the end of the channel everything that was accepted was delivered. -/
theorem Balances.complete (h : Balances cap x c) (he : x.ended = true) :
    x.delivered = x.accepted := by
  obtain ⟨hclosed, hqueue, hleft⟩ := h.ended he
  have helements := h.elements
  simpa [entered, h.closed hclosed, hqueue, hleft] using helements.symm

end Channel

end XenShm.Library
