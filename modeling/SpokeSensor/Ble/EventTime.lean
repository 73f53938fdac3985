import SpokeSensor.Ble.Measurement
import SpokeSensor.Lib.Rollover

/-!
# The event time as a clock

`eventTime1024` (`csc_measurement.hpp:15–19`) is a clock of 1024 ticks a second behind
a 16-bit register, and a collector takes the wrapped difference of two readings for
the time between two events.

- `eventTime1024_toNat`: the register holds the ticks modulo `2^16`; the reduction
  modulo 64 s in front of the product loses nothing, since 64 s are a whole period.
- `eventTime1024_sub_eq`, `eventTime1024_sub_period`: for two times within 64 s the
  difference is the exact number of ticks, unless these are exactly one period.
- `eventTime1024_difference`: the difference is the time between the two events to
  less than a tick as long as the clock has not gone round exactly once.

The facts about registers in general are those of `Rollover`.
-/

namespace SpokeSensor

/-- The ticks of 1/1024 s up to a time in microseconds. -/
abbrev eventTicks (us : ℕ) : ℕ := Rollover.ticks 1024 1000000 us

/-- The product fits 64 bits, so the division is applied to the exact value. -/
theorem eventTime1024_product (t : UInt64) :
    (t % 64000000 * 1024).toNat = t.toNat % 64000000 * 1024 := by
  have hlt : t.toNat % 64000000 < 64000000 := Nat.mod_lt _ (by omega)
  rw [UInt64.toNat_mul, UInt64.toNat_mod]
  show t.toNat % 64000000 * 1024 % 2 ^ 64 = _
  omega

theorem eventTime1024_toNat (t : UInt64) :
    (eventTime1024 t).toNat = eventTicks t.toNat % 2 ^ 16 := by
  have hvalue : (t % 64000000 * 1024 / 1000000).toNat = eventTicks (t.toNat % 64000000) := by
    rw [UInt64.toNat_div, eventTime1024_product]
    rfl
  rw [eventTime1024, UInt64.toNat_toUInt16, hvalue]
  exact Rollover.ticks_mod_period (by omega) (by omega) t.toNat

/-- The difference in 16-bit arithmetic is what a reader of the register computes. -/
theorem eventTime1024_sub (t₁ t₂ : UInt64) :
    (eventTime1024 t₂ - eventTime1024 t₁).toNat
      = Rollover.elapsed (2 ^ 16) (eventTicks t₁.toNat) (eventTicks t₂.toNat) := by
  rw [UInt16.toNat_sub, eventTime1024_toNat, eventTime1024_toNat]
  rfl

section

variable {t₁ t₂ : UInt64} (hle : t₁.toNat ≤ t₂.toNat) (hspan : t₂.toNat - t₁.toNat < 64 * 10 ^ 6)

include hle hspan

/-- 64 s are one period of the register: short of it the difference is exact. -/
theorem eventTime1024_sub_eq (hround : eventTicks t₂.toNat - eventTicks t₁.toNat ≠ 2 ^ 16) :
    (eventTime1024 t₂ - eventTime1024 t₁).toNat = eventTicks t₂.toNat - eventTicks t₁.toNat := by
  have hmono : eventTicks t₁.toNat ≤ eventTicks t₂.toNat := Rollover.ticks_mono hle
  have hmost : eventTicks t₂.toNat - eventTicks t₁.toNat ≤ 2 ^ 16 :=
    Rollover.ticks_sub_le (by omega) (by omega)
  rw [eventTime1024_sub]
  exact Rollover.elapsed_eq hmono (by omega)

/-- A full period is read as no time at all, where almost 64 s have passed. -/
theorem eventTime1024_sub_period (hround : eventTicks t₂.toNat - eventTicks t₁.toNat = 2 ^ 16) :
    (eventTime1024 t₂ - eventTime1024 t₁).toNat = 0 ∧ 63999023 < t₂.toNat - t₁.toNat := by
  have hmono : eventTicks t₁.toNat ≤ eventTicks t₂.toNat := Rollover.ticks_mono hle
  constructor
  · rw [eventTime1024_sub]
    exact Rollover.elapsed_period (by omega) (by omega)
  · by_contra hshort
    have hfew : eventTicks t₂.toNat - eventTicks t₁.toNat ≤ 65535 :=
      Rollover.ticks_sub_le (by omega) (by omega)
    omega

end

/-- The event time is `⌊t · 1024 / 10⁶⌋` modulo `2¹⁶`, computed without overflow. For
two times less than 64 s apart the wrapped difference is within a tick of the
exact one unless the clock has gone round exactly once, which takes more than
63 999 023 µs; then it is zero. -/
theorem eventTime1024_difference :
    (∀ t : UInt64, (t % 64000000 * 1024).toNat = t.toNat % 64000000 * 1024 ∧
      (eventTime1024 t).toNat = t.toNat * 1024 / 10 ^ 6 % 2 ^ 16) ∧
    ∀ t₁ t₂ : UInt64, t₁ ≤ t₂ → t₂.toNat - t₁.toNat < 64 * 10 ^ 6 →
      (|((eventTime1024 t₂ - eventTime1024 t₁).toNat : ℚ)
          - ((t₂.toNat : ℚ) - t₁.toNat) * 1024 / 10 ^ 6| < 1 ↔
        t₂.toNat * 1024 / 10 ^ 6 - t₁.toNat * 1024 / 10 ^ 6 ≠ 2 ^ 16) ∧
      (t₂.toNat * 1024 / 10 ^ 6 - t₁.toNat * 1024 / 10 ^ 6 = 2 ^ 16 →
        eventTime1024 t₂ - eventTime1024 t₁ = 0 ∧ 63999023 < t₂.toNat - t₁.toNat) := by
  refine ⟨fun t => ⟨eventTime1024_product t, eventTime1024_toNat t⟩, ?_⟩
  intro t₁ t₂ hle hspan
  have hle : t₁.toNat ≤ t₂.toNat := UInt64.le_iff_toNat_le.mp hle
  have hnear := Rollover.abs_ticks_sub_lt_one (p := 1024) (q := 1000000) (by omega) hle
  show (_ ↔ eventTicks t₂.toNat - eventTicks t₁.toNat ≠ 2 ^ 16) ∧
    (eventTicks t₂.toNat - eventTicks t₁.toNat = 2 ^ 16 → _)
  by_cases hround : eventTicks t₂.toNat - eventTicks t₁.toNat = 2 ^ 16
  · obtain ⟨hzero, hlong⟩ := eventTime1024_sub_period hle hspan hround
    constructor
    · refine iff_of_false ?_ (not_not.mpr hround)
      have hlarge : (63999023 : ℚ) < (t₂.toNat : ℚ) - t₁.toNat := by
        rw [← Nat.cast_sub hle]
        exact_mod_cast hlong
      rw [hzero, Nat.cast_zero, zero_sub, abs_neg, not_lt]
      refine le_trans ?_ (le_abs_self _)
      rw [le_div_iff₀ (by norm_num)]
      linarith
    · exact fun _ => ⟨UInt16.toNat_inj.mp hzero, hlong⟩
  · constructor
    · refine iff_of_true ?_ hround
      rw [eventTime1024_sub_eq hle hspan hround]
      convert hnear using 4 <;> norm_num
    · exact fun h => absurd h hround

/-- Events at 900 µs and 63 999 999 µs later have the same event time. -/
theorem eventTime1024_round_once :
    (900 : UInt64) ≤ 64000899 ∧
      (64000899 : UInt64).toNat - (900 : UInt64).toNat < 64 * 10 ^ 6 ∧
      ¬ |((eventTime1024 64000899 - eventTime1024 900).toNat : ℚ)
          - (((64000899 : UInt64).toNat : ℚ) - (900 : UInt64).toNat) * 1024 / 10 ^ 6| < 1 := by
  have hsame : eventTime1024 64000899 - eventTime1024 900 = 0 := by decide
  refine ⟨by decide, by decide, ?_⟩
  rw [hsame]
  show ¬ |((0 : ℕ) : ℚ) - (((64000899 : ℕ) : ℚ) - (900 : ℕ)) * 1024 / 10 ^ 6| < 1
  norm_num

/-- Two events a second apart, across a rollover. -/
theorem eventTime1024_difference_second :
    |((eventTime1024 64500000 - eventTime1024 63500000).toNat : ℚ)
        - (((64500000 : UInt64).toNat : ℚ) - (63500000 : UInt64).toNat) * 1024 / 10 ^ 6| < 1 :=
  ((eventTime1024_difference.2 63500000 64500000 (by decide) (by decide)).1).mpr (by decide)

end SpokeSensor
