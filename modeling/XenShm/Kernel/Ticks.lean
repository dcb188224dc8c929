import XenShm.Kernel.Instance
import XenShm.Library.CInt

/-!
# The timeout of a wait

The timeout is given in milliseconds, the scheduler counts ticks, and what is left is given back
in milliseconds. On the way the ticks pass through an `int`.
-/

namespace XenShm.Kernel

open Library

/-- The ticks that `__xen_shm_ioctl_await` asks for, at least one. The product of timeout and
`HZ` wraps around. -/
def jiffies (hz timeoutMs : Nat) : Nat :=
  let jiffies := toUnsigned 64 (timeoutMs * hz : Nat) / 1000
  if jiffies = 0 then 1 else jiffies

/-- `retval` behind a timed wait: the `long` that `wait_event_interruptible_timeout` returns is
assigned to an `int`. -/
def waitRetval (r : Int) : Int := toSigned 32 r

/-- What is assigned to `remaining_ms` of the argument when the timed wait has returned. -/
def remainingMs (hz timeoutMs : Nat) (retval : Int) : Nat :=
  if toUnsigned 64 retval = jiffies hz timeoutMs then timeoutMs
  else toUnsigned 64 ((toSigned 32 (retval * 1000)).tdiv hz)

/-- What a timed wait leaves behind for the caller of the ioctl. -/
structure Timed where
  /-- The value that the wait returns. -/
  retval : Int
  /-- What is assigned to `remaining_ms`, if it is assigned. -/
  remaining : Option Nat
  deriving DecidableEq, Repr

/-- `__xen_shm_ioctl_await` from its timed wait on: `r` is the result of
`wait_event_interruptible_timeout`, and afterwards the pipe is found broken or not. -/
def timedWait (hz timeoutMs : Nat) (r : Int) (broken : Bool) : Timed :=
  let retval := waitRetval r
  if retval < 0 then ⟨retval, none⟩
  else ⟨if broken then Errno.epipe.value else 0, some (remainingMs hz timeoutMs retval)⟩

/-- A timed wait gives back what is left of its timeout. -/
structure GivesRemaining (hz timeoutMs : Nat) (r : Int) : Prop where
  /-- At least one tick is asked for. -/
  oneTick : 1 ≤ jiffies hz timeoutMs
  /-- A wait that was not interrupted succeeds when the pipe is intact. -/
  succeeds : 0 ≤ r → (timedWait hz timeoutMs r false).retval = 0
  /-- Nothing is left exactly after the timeout, and never more than the timeout. -/
  remaining : 0 ≤ r → ∀ broken, ∃ left, (timedWait hz timeoutMs r broken).remaining = some left ∧
    (left = 0 ↔ r = 0) ∧ left ≤ timeoutMs

/-- The ticks left are none or all that were asked for, or they keep their sign as an `int`, and
a thousand times them as an `int` is at least one millisecond, or so far below zero that the
unsigned result is not above the timeout. -/
def TicksFit (hz timeoutMs : Nat) (r : Int) : Prop :=
  r ≤ 0 ∨ (r = jiffies hz timeoutMs ∧ r < 2 ^ 31) ∨ 0 ≤ toSigned 32 r ∧
    (hz ≤ toSigned 32 (toSigned 32 r * 1000) ∨
      toSigned 32 (toSigned 32 r * 1000) ≤ -hz ∧
        2 ^ 64 ≤ timeoutMs + (-toSigned 32 (toSigned 32 r * 1000)) / hz)

section Ticks

variable {hz timeoutMs : Nat} {r retval : Int}

/-- A timed wait is never asked to wait for no tick at all. -/
theorem one_le_jiffies (hz timeoutMs : Nat) : 1 ≤ jiffies hz timeoutMs := by
  unfold jiffies
  dsimp only
  split_ifs <;> omega

/-- The ticks are one, or at most the timeout. -/
theorem jiffies_le (hz timeoutMs : Nat) :
    jiffies hz timeoutMs = 1 ∨ 1000 * jiffies hz timeoutMs ≤ timeoutMs * hz := by
  have hle : toUnsigned 64 (timeoutMs * hz : Nat) ≤ timeoutMs * hz := by
    rw [toUnsigned_natCast]
    exact Nat.mod_le ..
  unfold jiffies
  dsimp only
  split_ifs
  · exact .inl rfl
  · exact .inr (by omega)

/-- The division of a negative number rounds towards zero. -/
theorem tdiv_of_neg {w : Int} (hw : w < 0) : w.tdiv hz = -((-w) / hz) := by
  have hdiv : (-w).tdiv hz = (-w) / hz := Int.tdiv_eq_ediv_of_nonneg (by omega)
  rw [← hdiv, Int.neg_tdiv, neg_neg]

/-- What is assigned when not the whole timeout is left, and where it is negative. -/
theorem remaining_cases (hhz : 0 < hz) (hne : toUnsigned 64 retval ≠ jiffies hz timeoutMs) :
    let w := toSigned 32 (retval * 1000)
    hz ≤ w ∧ (remainingMs hz timeoutMs retval : Int) = w / hz ∨
      (-hz < w ∧ w < hz) ∧ remainingMs hz timeoutMs retval = 0 ∨
      w ≤ -hz ∧ (remainingMs hz timeoutMs retval : Int) = 2 ^ 64 - (-w) / hz := by
  intro w
  obtain ⟨hlo, hhi⟩ := toSigned_range 31 (retval * 1000)
  change -2 ^ 31 ≤ w at hlo
  change w < 2 ^ 31 at hhi
  have heq : remainingMs hz timeoutMs retval = toUnsigned 64 (w.tdiv hz) := if_neg hne
  rw [heq]
  have hone : (0 : Int) < hz := by omega
  rcases lt_or_ge w 0 with hneg | hpos
  · rw [tdiv_of_neg hneg]
    have hquot : 0 ≤ (-w) / (hz : Int) := Int.ediv_nonneg (by omega) (by omega)
    have hquotle : (-w) / (hz : Int) ≤ -w := Int.ediv_le_self _ (by omega)
    by_cases hsmall : -(hz : Int) < w
    · refine .inr (.inl ⟨⟨hsmall, by omega⟩, ?_⟩)
      rw [Int.ediv_eq_zero_of_lt (by omega) (by omega)]
      rfl
    · refine .inr (.inr ⟨by omega, ?_⟩)
      have hquotpos : 1 ≤ (-w) / (hz : Int) := Int.le_ediv_of_mul_le hone (by omega)
      rw [toUnsigned_of_neg (by omega) (by omega)]
      omega
  · rw [Int.tdiv_eq_ediv_of_nonneg hpos]
    have hquot : 0 ≤ w / (hz : Int) := Int.ediv_nonneg hpos (by omega)
    have hquotle : w / (hz : Int) ≤ w := Int.ediv_le_self _ hpos
    rw [toUnsigned_of_range hquot (by omega)]
    by_cases hlarge : (hz : Int) ≤ w
    · exact .inl ⟨hlarge, Int.toNat_of_nonneg hquot⟩
    · refine .inr (.inl ⟨⟨by omega, by omega⟩, ?_⟩)
      rw [Int.ediv_eq_zero_of_lt hpos (by omega)]
      rfl

/-- With a result that does not become negative, what is left fits the ticks exactly when they do
not overflow. -/
theorem remaining_iff (hhz : 0 < hz) (htimeout : 0 < timeoutMs) (hbig : timeoutMs < 2 ^ 64)
    (hr : 0 < r) (hrequest : r ≤ jiffies hz timeoutMs) (hretval : 0 ≤ toSigned 32 r) :
    (remainingMs hz timeoutMs (toSigned 32 r) ≠ 0 ∧
      remainingMs hz timeoutMs (toSigned 32 r) ≤ timeoutMs) ↔ TicksFit hz timeoutMs r := by
  obtain ⟨hlo, hhi⟩ : -2 ^ 31 ≤ toSigned 32 r ∧ toSigned 32 r < 2 ^ 31 := toSigned_range 31 r
  have hle : toSigned 32 r ≤ r := toSigned_le hr.le
  have hunsigned : toUnsigned 64 (toSigned 32 r) = (toSigned 32 r).toNat :=
    toUnsigned_of_range hretval (by omega)
  by_cases hall : toUnsigned 64 (toSigned 32 r) = jiffies hz timeoutMs
  · -- the ticks asked for and the ticks left are the same number
    rw [remainingMs, if_pos hall]
    rw [hunsigned] at hall
    refine iff_of_true ⟨by omega, Nat.le_refl _⟩ (.inr (.inl ?_))
    omega
  have hnotAll : ¬ (r = jiffies hz timeoutMs ∧ r < 2 ^ 31) := by
    rintro ⟨heq, hsmall⟩
    have hkept : toSigned 32 r = r := toSigned_of_range (by omega) hsmall
    rw [hunsigned, hkept] at hall
    omega
  have hjiffies : 1000 * jiffies hz timeoutMs ≤ timeoutMs * hz := by
    refine (jiffies_le hz timeoutMs).resolve_left fun hone => ?_
    rw [hunsigned] at hall
    have hzero : toSigned 32 r = 0 := by omega
    have hkept : toSigned 32 r = r := toSigned_of_range (by omega) (by omega)
    omega
  rw [TicksFit, or_iff_right (by omega), or_iff_right hnotAll, and_iff_right hretval]
  have hone : (0 : Int) < hz := by omega
  rcases remaining_cases hhz hall with ⟨hlarge, heq⟩ | ⟨hsmall, heq⟩ | ⟨hneg, heq⟩
  · refine iff_of_true ?_ (.inl hlarge)
    have hquot : 1 ≤ toSigned 32 (toSigned 32 r * 1000) / (hz : Int) :=
      Int.le_ediv_of_mul_le hone (by omega)
    have hwle : toSigned 32 (toSigned 32 r * 1000) ≤ toSigned 32 r * 1000 :=
      toSigned_le (by omega)
    have hbound : toSigned 32 (toSigned 32 r * 1000) ≤ timeoutMs * hz := by
      have hcast : (1000 * jiffies hz timeoutMs : Int) ≤ timeoutMs * hz := by
        exact_mod_cast hjiffies
      omega
    have hquotle : toSigned 32 (toSigned 32 r * 1000) / (hz : Int) ≤ timeoutMs :=
      Int.ediv_le_of_le_mul hone hbound
    omega
  · exact iff_of_false (fun h => h.1 heq) (by omega)
  · have hquotle : (-toSigned 32 (toSigned 32 r * 1000)) / (hz : Int) ≤
        -toSigned 32 (toSigned 32 r * 1000) := Int.ediv_le_self _ (by omega)
    have hwlo : -2 ^ 31 ≤ toSigned 32 (toSigned 32 r * 1000) := (toSigned_range 31 _).1
    constructor
    · intro h
      exact .inr ⟨hneg, by omega⟩
    · intro h
      rcases h with h | ⟨-, h⟩
      · omega
      · exact ⟨by omega, by omega⟩

/-- When the timeout has elapsed, nothing is left. -/
theorem remaining_zero (hz timeoutMs : Nat) : remainingMs hz timeoutMs 0 = 0 := by
  have hone := one_le_jiffies hz timeoutMs
  have hzero : toUnsigned 64 0 = 0 := rfl
  rw [remainingMs, if_neg (by omega)]
  have hprod : toSigned 32 (0 * 1000) = 0 := rfl
  rw [hprod, Int.zero_tdiv]
  rfl

end Ticks

/-- A timed wait gives back what is left of its timeout exactly when the ticks fit. -/
theorem gives_remaining_iff (hz timeoutMs : Nat) (r : Int) (hhz : 1 ≤ hz ∧ hz ≤ 1000)
    (htimeout : 0 < timeoutMs ∧ timeoutMs < 2 ^ 64) (hrequest : r ≤ jiffies hz timeoutMs) :
    GivesRemaining hz timeoutMs r ↔ TicksFit hz timeoutMs r := by
  rcases lt_trichotomy r 0 with hneg | rfl | hpos
  · exact iff_of_true ⟨one_le_jiffies hz timeoutMs, fun h => absurd h (by omega),
      fun h => absurd h (by omega)⟩ (.inl hneg.le)
  · exact iff_of_true ⟨one_le_jiffies hz timeoutMs, fun _ => rfl,
      fun _ _ => ⟨_, rfl, iff_of_true (remaining_zero hz timeoutMs) rfl,
        (remaining_zero hz timeoutMs).le.trans (Nat.zero_le _)⟩⟩ (.inl (Int.le_refl 0))
  · by_cases hretval : 0 ≤ toSigned 32 r
    · rw [← remaining_iff hhz.1 htimeout.1 htimeout.2 hpos hrequest hretval]
      have hcall : ∀ broken, timedWait hz timeoutMs r broken =
          ⟨if broken then Errno.epipe.value else 0,
            some (remainingMs hz timeoutMs (toSigned 32 r))⟩ :=
        fun broken => if_neg (not_lt.mpr hretval)
      constructor
      · intro h
        obtain ⟨left, hleft, hzero, hle⟩ := h.remaining hpos.le false
        rw [hcall] at hleft
        obtain rfl := Option.some.inj hleft
        exact ⟨fun h => hpos.ne' (hzero.mp h), hle⟩
      · intro h
        refine ⟨one_le_jiffies hz timeoutMs, fun _ => by rw [hcall]; rfl, fun _ broken => ?_⟩
        rw [hcall]
        exact ⟨_, rfl, iff_of_false h.1 hpos.ne', h.2⟩
    · refine iff_of_false (fun h => ?_) fun h => ?_
      · have hzero := h.succeeds hpos.le
        rw [timedWait, waitRetval, if_pos (not_le.mp hretval)] at hzero
        exact hretval (le_of_eq hzero.symm)
      · rcases h with h | ⟨-, hsmall⟩ | ⟨h, -⟩
        · omega
        · exact hretval (by rw [toSigned_of_range (by omega) hsmall]; exact hpos.le)
        · exact hretval h

/-- A quarter of a second at 250 ticks a second, of which one tick is left. -/
theorem gives_remaining_oneTick : GivesRemaining 250 250 1 :=
  (gives_remaining_iff 250 250 1 ⟨by decide, by decide⟩ ⟨by decide, by decide⟩ (by decide)).mpr
    (.inr (.inr (by decide)))

/-- With an hour at a thousand ticks a second, more than an hour is left after one tick. -/
theorem not_gives_remaining : jiffies 1000 3600000 = 3600000 ∧
    (timedWait 1000 3600000 3599999 false).remaining = some 18446744073708856648 ∧
    ¬ GivesRemaining 1000 3600000 3599999 := by
  have hvalue : (timedWait 1000 3600000 3599999 false).remaining = some 18446744073708856648 := by
    decide
  refine ⟨by decide, hvalue, fun h => ?_⟩
  obtain ⟨left, hleft, -, hle⟩ := h.remaining (by decide) false
  rw [hvalue] at hleft
  obtain rfl := Option.some.inj hleft
  exact absurd hle (by decide)

@[simp] theorem waitRetval_zero : waitRetval 0 = 0 := rfl

-- The conversion is not unfolded where a call is only followed from place to place.
attribute [irreducible] waitRetval

end XenShm.Kernel
