import Mathlib.Algebra.Order.Field.Rat
import Mathlib.Algebra.Order.Floor.Ring
import Mathlib.Data.Rat.Floor
import Mathlib.Tactic.Linarith
import Mathlib.Tactic.Ring
import Mathlib.Tactic.FieldSimp

/-!
# Free-running counters

A clock of `p` ticks in `q` time units (`ticks p q`), read through a register that
holds it modulo `m`.

- `elapsed`: what a reader computes from two readouts. It is the number of ticks
  between them as long as these are fewer than `m` (`elapsed_eq`), and zero if they
  are `m` (`elapsed_period`).
- `abs_ticks_sub_lt_one`: a reader that takes ticks for time is off by less than a
  tick.
- `ticks_mod_period`: reducing the time by whole periods of the register before
  scaling it changes no readout.
- `count`, `iterate_count`: a register may also count events one by one and start over
  when it reaches `m`; it holds their number modulo `m`.
- `eventsUntil`: events at a constant rate, from any phase on. Between two times there
  are those of the rate, up to less than one.
-/

namespace Rollover

/-- The whole ticks up to a time, `p` of them in `q` units. -/
def ticks (p q t : ℕ) : ℕ := t * p / q

/-- The difference of two readouts in the arithmetic of the register. -/
def elapsed (m a b : ℕ) : ℕ := (m - a % m + b % m) % m

variable {m p q a b s t : ℕ}

/-- A reader sees the ticks between two readouts modulo the register. -/
theorem elapsed_mod (hm : 0 < m) (h : a ≤ b) : elapsed m a b = (b - a) % m := by
  obtain ⟨d, rfl⟩ := Nat.exists_eq_add_of_le h
  have hlt : a % m < m := Nat.mod_lt a hm
  have hdecomp : m - a % m + (a + d) = d + m * (a / m + 1) := by
    have hdiv := Nat.mod_add_div a m
    rw [Nat.mul_add, Nat.mul_one]
    omega
  rw [elapsed, Nat.add_mod_mod, hdecomp, Nat.add_mul_mod_self_left, Nat.add_sub_cancel_left]

theorem elapsed_eq (h : a ≤ b) (hlt : b - a < m) : elapsed m a b = b - a := by
  rw [elapsed_mod (by omega) h, Nat.mod_eq_of_lt hlt]

/-- After exactly one period the readout is the same again. -/
theorem elapsed_period (hm : 0 < m) (h : b = a + m) : elapsed m a b = 0 := by
  rw [elapsed_mod hm (by omega), h, Nat.add_sub_cancel_left, Nat.mod_self]

/-- A time may be reduced by a whole number of periods before it is scaled. -/
theorem ticks_mod_period {period : ℕ} (hq : 0 < q) (h : period * p = m * q) (t : ℕ) :
    ticks p q (t % period) % m = ticks p q t % m := by
  have hsplit : t * p = t % period * p + q * (m * (t / period)) := by
    calc t * p = (t % period + period * (t / period)) * p := by rw [Nat.mod_add_div]
      _ = t % period * p + period * p * (t / period) := by ring
      _ = t % period * p + q * (m * (t / period)) := by rw [h]; ring
  rw [ticks, ticks, hsplit, Nat.add_mul_div_left _ _ hq, Nat.add_mul_mod_self_left]

theorem ticks_mono (h : s ≤ t) : ticks p q s ≤ ticks p q t :=
  Nat.div_le_div_right (Nat.mul_le_mul_right p h)

/-- A time span of at most `n` ticks holds at most `n` ticks. -/
theorem ticks_sub_le (hq : 0 < q) {n : ℕ} (hspan : (t - s) * p ≤ n * q) :
    ticks p q t - ticks p q s ≤ n := by
  have hscaled : t * p ≤ s * p + q * n := by
    rw [Nat.sub_mul] at hspan
    rw [Nat.mul_comm q n]
    omega
  have hdiv := Nat.div_le_div_right (c := q) hscaled
  rw [Nat.add_mul_div_left _ _ hq] at hdiv
  rw [ticks, ticks]
  omega

/-- The exact time lies less than a tick after the last whole tick. -/
theorem ticks_le_lt (hq : 0 < q) (t : ℕ) :
    (ticks p q t : ℚ) ≤ (t : ℚ) * p / q ∧ (t : ℚ) * p / q < ticks p q t + 1 := by
  have hq' : (0 : ℚ) < q := by exact_mod_cast hq
  have hlow : ticks p q t * q ≤ t * p := Nat.div_mul_le_self _ _
  have hhigh : t * p < (ticks p q t + 1) * q := Nat.lt_mul_of_div_lt (Nat.lt_succ_self _) hq
  constructor
  · rw [le_div_iff₀ hq']
    exact_mod_cast hlow
  · rw [div_lt_iff₀ hq']
    exact_mod_cast hhigh

/-- The ticks between two times differ from the exact span by less than one. -/
theorem abs_ticks_sub_lt_one (hq : 0 < q) (h : s ≤ t) :
    |((ticks p q t - ticks p q s : ℕ) : ℚ) - ((t : ℚ) - s) * p / q| < 1 := by
  obtain ⟨hslow, hshigh⟩ := ticks_le_lt (p := p) hq s
  obtain ⟨htlow, hthigh⟩ := ticks_le_lt (p := p) hq t
  have hspan : ((t : ℚ) - s) * p / q = (t : ℚ) * p / q - (s : ℚ) * p / q := by ring
  rw [Nat.cast_sub (ticks_mono h), hspan, abs_sub_lt_iff]
  constructor <;> linarith

/-! ## Counting events -/

/-- One more event. -/
def count (m c : ℕ) : ℕ := if c + 1 = m then 0 else c + 1

theorem iterate_count {c : ℕ} (hc : c < m) (n : ℕ) : (count m)^[n] c = (c + n) % m := by
  induction n with
  | zero => exact (Nat.mod_eq_of_lt hc).symm
  | succ n ih =>
    have hlt : (c + n) % m < m := Nat.mod_lt _ (Nat.zero_lt_of_lt hc)
    have hnext : (c + (n + 1)) % m = ((c + n) % m + 1) % m := (Nat.mod_add_mod (c + n) m 1).symm
    rw [Function.iterate_succ_apply', ih, count, hnext]
    by_cases hwrap : (c + n) % m + 1 = m
    · rw [if_pos hwrap, hwrap, Nat.mod_self]
    · rw [if_neg hwrap]
      exact (Nat.mod_eq_of_lt (by omega)).symm

section

variable {K : Type*} [Field K] [LinearOrder K] [IsStrictOrderedRing K] [FloorRing K]
  {rate phase u v : K}

/-- The events up to a time, `rate` of them in each unit. -/
def eventsUntil (rate phase u : K) : ℤ := ⌊rate * u + phase⌋

theorem eventsUntil_mono (hrate : 0 ≤ rate) (h : u ≤ v) :
    eventsUntil rate phase u ≤ eventsUntil rate phase v := by
  have hscaled := mul_le_mul_of_nonneg_left h hrate
  exact Int.floor_le_floor (by linarith)

/-- Between two times there are the events of the rate, up to less than one. -/
theorem abs_eventsUntil_sub_lt_one (rate phase u v : K) :
    |((eventsUntil rate phase v - eventsUntil rate phase u : ℤ) : K) - rate * (v - u)| < 1 := by
  have hulow := Int.floor_le (rate * u + phase)
  have huhigh := Int.lt_floor_add_one (rate * u + phase)
  have hvlow := Int.floor_le (rate * v + phase)
  have hvhigh := Int.lt_floor_add_one (rate * v + phase)
  rw [eventsUntil, eventsUntil, Int.cast_sub, abs_sub_lt_iff]
  constructor <;> linarith

end

end Rollover
