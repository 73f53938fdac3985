import SpokeSensor.Core.Identification
import SpokeSensor.Core.RotationSearch
import Mathlib.Algebra.Order.Archimedean.Real.Basic
import Mathlib.Algebra.Order.Floor.Semifield
import Mathlib.RingTheory.Coprime.Lemmas
import Mathlib.Tactic.LinearCombination

/-!
# Uniform wheels

The spokes of a uniform wheel pass at `φ + k T`, rounded down to whole microseconds.
The intervals are then `⌊T⌋` or one more, a rotation word, and what `infer_count`
makes of them (`ir_spoke_pattern.c:12–40`) is a question about the squares in that
word.

- When the denominator of `T` is at most 24 the word has a period of at most 24, and
  the wheel is never locked on.
- Otherwise the word shows a lone repetition somewhere (`exists_loneRepeat`), and the
  estimator locks there on a count that says nothing about the wheel.
- `exists_phase_locks`, `uniform_locks`: some start phase shows it at the 192nd
  interval, and every phase shows it within one period of the word (`exists_shows`).
- `uniform_never_locks_iff`: so the wheel is never locked on exactly for the
  denominators up to 24.
-/

namespace SpokeSensor.Pattern

open Rotation

/-- The microsecond in which the spoke number `k` passes. -/
noncomputable def tick (φ : ℝ) (T : ℚ) (k : ℕ) : ℕ := ⌊φ + k * T⌋₊

/-- The timestamp of the spoke number `k`. -/
noncomputable def stamp (φ : ℝ) (T : ℚ) (k : ℕ) : UInt64 := UInt64.ofNat (tick φ T k)

/-- The interval after the spoke number `k`. -/
noncomputable def spacing (φ : ℝ) (T : ℚ) (k : ℕ) : ℕ := tick φ T (k + 1) - tick φ T k

section Spacing

variable {φ : ℝ} {T : ℚ}

theorem tick_arg_nonneg (hφ : 1 ≤ φ) (hT : 70 ≤ T) (k : ℕ) : 0 ≤ φ + k * T := by
  have hT' : (0 : ℝ) ≤ T := by exact_mod_cast (by linarith : (0 : ℚ) ≤ T)
  positivity

/-- Consecutive ticks are between 70 and 14999 apart. -/
theorem tick_succ_mem (hφ : 1 ≤ φ) (hT : 70 ≤ T ∧ T ≤ 14999) (k : ℕ) :
    tick φ T k + 70 ≤ tick φ T (k + 1) ∧ tick φ T (k + 1) ≤ tick φ T k + 14999 := by
  have h0 := tick_arg_nonneg hφ hT.1 k
  have hlo : (70 : ℝ) ≤ T := by exact_mod_cast hT.1
  have hhi : (T : ℝ) ≤ 14999 := by exact_mod_cast hT.2
  -- whole microseconds may be taken out of the floor
  constructor
  · calc tick φ T k + 70 = ⌊φ + k * T + (70 : ℕ)⌋₊ := (Nat.floor_add_natCast h0 70).symm
      _ ≤ tick φ T (k + 1) := Nat.floor_mono (by push_cast; linarith)
  · calc tick φ T (k + 1) ≤ ⌊φ + k * T + (14999 : ℕ)⌋₊ :=
          Nat.floor_mono (by push_cast; linarith)
      _ = tick φ T k + 14999 := Nat.floor_add_natCast h0 14999

theorem spacing_accepted (hφ : 1 ≤ φ) (hT : 70 ≤ T ∧ T ≤ 14999) : Accepted (spacing φ T) := by
  intro k
  have h := tick_succ_mem hφ hT k
  unfold spacing
  omega

/-- The timestamps are those of the spacings. -/
theorem stamp_eq_edgeAt (hφ : 1 ≤ φ) (hT : 70 ≤ T ∧ T ≤ 14999) (k : ℕ) :
    stamp φ T k = edgeAt (stamp φ T 0) (spacing φ T) k := by
  induction k with
  | zero => rw [edgeAt_zero]
  | succ k ih =>
    have h := tick_succ_mem hφ hT k
    rw [edgeAt_succ, ← ih, stamp, stamp, ← UInt64.ofNat_add, spacing]
    congr 1
    omega

/-- A uniform wheel's edges are a wheel run. -/
theorem ingestAll_stamps (hφ : 1 ≤ φ) (hT : 70 ≤ T ∧ T ≤ 14999) (k : ℕ) :
    init.ingestAll ((List.range (k + 1)).map (stamp φ T))
      = wheelRun (stamp φ T 0) (spacing φ T) k := by
  exact congrArg (fun f => init.ingestAll ((List.range (k + 1)).map f))
    (funext (stamp_eq_edgeAt hφ hT))

/-- The spacings repeat after `T.den` spokes. -/
theorem spacing_periodic (hφ : 1 ≤ φ) (hT : 70 ≤ T) :
    Function.Periodic (spacing φ T) T.den := by
  have htick : ∀ k, tick φ T (k + T.den) = tick φ T k + T.num.toNat := by
    intro k
    have hnum : ((T.num.toNat : ℕ) : ℝ) = T.den * T := by
      have hpos : 0 ≤ T.num := Rat.num_nonneg.mpr (by linarith)
      have hcast : ((T.num.toNat : ℕ) : ℚ) = T.num := by
        exact_mod_cast Int.toNat_of_nonneg hpos
      have hmul : (T.den : ℚ) * T = T.num := Rat.den_mul_eq_num T
      have hrat : ((T.num.toNat : ℕ) : ℚ) = T.den * T := hcast.trans hmul.symm
      exact_mod_cast hrat
    rw [tick, tick, ← Nat.floor_add_natCast (tick_arg_nonneg hφ hT k), hnum]
    congr 1
    push_cast
    ring
  intro k
  rw [spacing, spacing, show k + T.den + 1 = k + 1 + T.den by ring, htick, htick]
  omega

/-- With a denominator of at most 24 no run locks. -/
theorem uniform_unlocked (hφ : 1 ≤ φ) (hT : 70 ≤ T ∧ T ≤ 14999) (hden : T.den ≤ 24) {N : ℕ}
    (hstamp : ∀ k < N, stamp φ T k ≠ 0) :
    (init.ingestAll ((List.range N).map (stamp φ T)) : Pattern ℚ).estimate.countLocked
      = false := by
  cases N with
  | zero => rfl
  | succ N =>
    rw [ingestAll_stamps hφ hT]
    refine unlocked_of_period_le (N := N) (spacing_accepted hφ hT) (fun k hk => ?_) T.den_pos
      hden (spacing_periodic hφ hT.1) le_rfl
    rw [← stamp_eq_edgeAt hφ hT]
    exact hstamp k (by omega)

end Spacing

/-! ## Events that show a given stretch of the word

A uniform wheel shows the word of the fraction of its spacing, letter by letter. Which
stretch is in the ring at the event that may lock depends on the phase, and every
stretch occurs for some phase.
-/

/-- Ticks in whole numbers. -/
theorem tick_eq_ediv {φ : ℝ} {T : ℚ} (hφ : 1 ≤ φ) (hT : 70 ≤ T) (k : ℕ) :
    (tick φ T k : ℤ) = (⌊φ * T.den⌋ + k * T.num) / T.den := by
  have hden : (T.den : ℝ) ≠ 0 := by exact_mod_cast T.den_ne_zero
  have hnum : (T : ℝ) * T.den = T.num := by exact_mod_cast Rat.mul_den_eq_num T
  have hsplit : φ + k * T = (φ * T.den + ((k * T.num : ℤ) : ℝ)) / T.den := by
    rw [eq_div_iff hden, add_mul, mul_assoc, hnum]
    push_cast
    rfl
  rw [tick, Int.natCast_floor_eq_floor (tick_arg_nonneg hφ hT k), hsplit, Int.floor_div_natCast,
    Int.floor_add_intCast]

/-- The interval number `k` is the letter `J` of the word: the phase at its end is
`J T`, up to a whole number `m`. -/
def Shows (φ : ℝ) (T : ℚ) (k J : ℕ) (m : ℤ) : Prop :=
  ⌊φ * T.den⌋ + (k + 1) * T.num = m * T.den + J * T.num

/-- Every letter is shown, from any phase, within `T.den` intervals. -/
theorem exists_shows (φ : ℝ) (T : ℚ) (J : ℕ) :
    ∃ k m, 191 ≤ k ∧ k < 191 + T.den ∧ Shows φ T k J m := by
  have hcop : IsCoprime T.num (T.den : ℤ) := Int.isCoprime_iff_gcd_eq_one.mpr T.reduced
  obtain ⟨u, v, huv⟩ := hcop
  have hden : (0 : ℤ) < T.den := by exact_mod_cast T.den_pos
  -- `u` inverts the numerator, so the letter is `u ⌊φ q⌋` steps away
  let r : ℤ := (J - 192 - u * ⌊φ * T.den⌋) % T.den
  have hr0 : 0 ≤ r := Int.emod_nonneg _ hden.ne'
  have hr1 : r < T.den := Int.emod_lt_of_pos _ hden
  have hdiv : r + T.den * ((J - 192 - u * ⌊φ * T.den⌋) / T.den) = J - 192 - u * ⌊φ * T.den⌋ :=
    Int.emod_add_mul_ediv _ _
  refine ⟨191 + r.toNat, ⌊φ * T.den⌋ * v
    - ((J - 192 - u * ⌊φ * T.den⌋) / T.den) * T.num, by omega, by omega, ?_⟩
  have hcast : ((191 + r.toNat : ℕ) : ℤ) = 191 + r := by
    rw [Nat.cast_add, Int.toNat_of_nonneg hr0]
    rfl
  rw [Shows, hcast]
  linear_combination T.num * hdiv - ⌊φ * T.den⌋ * huv

section Shows

variable {φ : ℝ} {T : ℚ} {J k : ℕ} {m : ℤ}

/-- The ticks around a shown letter, split at the whole part of the spacing. -/
theorem Shows.tick_eq (h : Shows φ T k J m) (hφ : 1 ≤ φ) (hT : 70 ≤ T) (l : ℕ) :
    (tick φ T l : ℤ)
      = m + (J - (k + 1) + l) * ⌊T⌋ + ⌊((J - (k + 1) + l : ℤ) : ℚ) * Int.fract T⌋ := by
  have hden : (T.den : ℤ) ≠ 0 := by exact_mod_cast T.den_ne_zero
  have hshift : ⌊φ * T.den⌋ + l * T.num = (J - (k + 1) + l) * T.num + m * T.den := by
    unfold Shows at h
    linear_combination h
  have hfloor : ((J - (k + 1) + l) * T.num : ℤ) / T.den = ⌊((J - (k + 1) + l : ℤ) : ℚ) * T⌋ := by
    rw [← Rat.floor_intCast_div_natCast, Int.cast_mul, mul_div_assoc, Rat.num_div_den]
  have hsplit : ((J - (k + 1) + l : ℤ) : ℚ) * T
      = (((J - (k + 1) + l) * ⌊T⌋ : ℤ) : ℚ) + ((J - (k + 1) + l : ℤ) : ℚ) * Int.fract T := by
    rw [Int.fract]
    push_cast
    ring
  rw [tick_eq_ediv hφ hT, hshift, Int.add_mul_ediv_right _ _ hden, hfloor, hsplit,
    Int.floor_intCast_add]
  ring

/-- The intervals up to the shown letter, read backwards, are the letters from it
on. -/
theorem Shows.spacing_eq (h : Shows φ T k J m) (hφ : 1 ≤ φ) (hT : 70 ≤ T ∧ T ≤ 14999) {i : ℕ}
    (hi : i ≤ k) : (spacing φ T (k - i) : ℤ) = ⌊T⌋ + letter (Int.fract T) (J - i) := by
  have hle := (tick_succ_mem hφ hT (k - i)).1
  have h1 : (J : ℤ) - (k + 1) + ((k - i + 1 : ℕ) : ℤ) = J - i := by omega
  have h2 : (J : ℤ) - (k + 1) + ((k - i : ℕ) : ℤ) = J - i - 1 := by omega
  rw [spacing, Nat.cast_sub (by omega), h.tick_eq hφ hT.1, h.tick_eq hφ hT.1, h1, h2, letter]
  ring

theorem Shows.repeats_iff (h : Shows φ T k J m) (hφ : 1 ≤ φ) (hT : 70 ≤ T ∧ T ≤ 14999)
    (hk : 191 ≤ k) {n : ℕ} (hn : n ≤ countMax) :
    Repeats (fun i => spacing φ T (k - i)) n ↔ RepeatsAt (Int.fract T) J n := by
  have hval := generated_values
  refine forall₂_congr fun i hi => ?_
  have h1 := h.spacing_eq hφ hT (i := i) (by omega)
  have h2 := h.spacing_eq hφ hT (i := i + n) (by omega)
  show spacing φ T (k - i) = spacing φ T (k - (i + n)) ↔ _
  omega

/-- An estimator that is shown a lone repetition is locked from then on, if it was
not before. -/
theorem Shows.locked (h : Shows φ T k J m) (hφ : 1 ≤ φ) (hT : 70 ≤ T ∧ T ≤ 14999)
    (hk : 191 ≤ k) (hlt : k + 1 < 2 ^ 32) (hstamp : ∀ l, l ≤ k + 1 → stamp φ T l ≠ 0)
    (hlone : LoneRepeat (Int.fract T) J) :
    ∃ N ≤ k + 2, (init.ingestAll ((List.range N).map (stamp φ T)) : Pattern ℚ).estimate.countLocked
      = true := by
  have hval := generated_values
  have hx := spacing_accepted hφ hT
  have hedge : ∀ l, l ≤ k + 1 → edgeAt (stamp φ T 0) (spacing φ T) l ≠ 0 := by
    intro l hl
    rw [← stamp_eq_edgeAt hφ hT]
    exact hstamp l hl
  cases hl : (wheelRun (stamp φ T 0) (spacing φ T) k).estimate.countLocked with
  | true =>
    refine ⟨k + 1, by omega, ?_⟩
    rw [ingestAll_stamps hφ hT, hl]
  | false =>
    refine ⟨k + 2, le_rfl, ?_⟩
    obtain ⟨n, hn, hrep, huniq⟩ := hlone
    rw [ingestAll_stamps hφ hT]
    refine (lock_step hx hedge (Nat.lt_succ_self k) (by omega) hlt hl hn ?_ ?_).1
    · exact (h.repeats_iff hφ hT hk hn.2).mpr hrep
    · exact fun j hge hle hj => huniq j hge hle ((h.repeats_iff hφ hT hk hle).mp hj)

end Shows

/-- Slopes with a denominator above 24 show a lone repetition somewhere. -/
theorem exists_letter {T : ℚ} (hden : 24 < T.den) :
    ∃ J : ℕ, J ≤ 63 ∧ LoneRepeat (Int.fract T) J := by
  have hden' : 24 < (Int.fract T).den := by rwa [Rat.den_intFract]
  have hpos : 0 < Int.fract T := by
    refine lt_of_le_of_ne (Int.fract_nonneg T) fun h => ?_
    rw [← h] at hden'
    exact absurd hden' (by decide)
  exact exists_loneRepeat hpos (Int.fract_lt_one T) hden'

/-- With a denominator above 24 every phase locks within `T.den` inferences. -/
theorem uniform_locks {φ : ℝ} {T : ℚ} (hφ : 1 ≤ φ) (hT : 70 ≤ T ∧ T ≤ 14999)
    (hden : 24 < T.den) (hlt : T.den + 192 ≤ 2 ^ 32)
    (hstamp : ∀ k < T.den + 192, stamp φ T k ≠ 0) :
    ∃ N ≤ T.den + 192,
      (init.ingestAll ((List.range N).map (stamp φ T)) : Pattern ℚ).estimate.countLocked
        = true := by
  obtain ⟨J, -, hlone⟩ := exists_letter hden
  obtain ⟨k, m, hk, hk', hshows⟩ := exists_shows φ T J
  obtain ⟨N, hN, hlocked⟩ := hshows.locked hφ hT hk (by omega)
    (fun l hl => hstamp l (by omega)) hlone
  exact ⟨N, by omega, hlocked⟩

/-- The phase that shows the letter `J` at the 192nd interval. -/
def phaseFor (T : ℚ) (J : ℕ) : ℚ := 3000000 + ((J : ℚ) - 192) * T

theorem phaseFor_mem {T : ℚ} {J : ℕ} (hT : 70 ≤ T ∧ T ≤ 14999) (hJ : J ≤ 63) :
    1 ≤ phaseFor T J ∧ phaseFor T J ≤ 3000000 := by
  have hJ' : (J : ℚ) ≤ 63 := by exact_mod_cast hJ
  have hJ0 : (0 : ℚ) ≤ J := by positivity
  unfold phaseFor
  constructor <;> nlinarith [hT.1, hT.2]

theorem shows_phaseFor (T : ℚ) (J : ℕ) : Shows (phaseFor T J : ℚ) T 191 J 3000000 := by
  have hwhole : ((phaseFor T J : ℚ) : ℝ) * T.den
      = ((3000000 * T.den + (J - 192) * T.num : ℤ) : ℝ) := by
    have hrat : phaseFor T J * T.den = ((3000000 * T.den + (J - 192) * T.num : ℤ) : ℚ) := by
      rw [phaseFor, add_mul, mul_assoc, Rat.mul_den_eq_num]
      push_cast
      rfl
    exact_mod_cast congrArg (fun y : ℚ => (y : ℝ)) hrat
  rw [Shows, hwhole, Int.floor_intCast]
  push_cast
  ring

/-- With a denominator above 24 some phase locks at the 192nd interval, long
before the timestamps wrap. -/
theorem exists_phase_locks {T : ℚ} (hT : 70 ≤ T ∧ T ≤ 14999) (hden : 24 < T.den) :
    ∃ φ : ℝ, 1 ≤ φ ∧ ∃ N, (∀ k < N, stamp φ T k ≠ 0) ∧
      (init.ingestAll ((List.range N).map (stamp φ T)) : Pattern ℚ).estimate.countLocked
        = true := by
  obtain ⟨J, hJ, hlone⟩ := exists_letter hden
  have hmem := phaseFor_mem hT hJ
  have hphase : (1 : ℝ) ≤ (phaseFor T J : ℚ) := by exact_mod_cast hmem.1
  have hstamp : ∀ k, k ≤ 192 → stamp (phaseFor T J : ℚ) T k ≠ 0 := by
    -- the first tick is at most `3 000 000`
    have htick : tick (phaseFor T J : ℚ) T 0 = ⌊((phaseFor T J : ℚ) : ℝ)⌋₊ := by
      rw [tick, Nat.cast_zero, zero_mul, add_zero]
    have hge : 1 ≤ tick (phaseFor T J : ℚ) T 0 := by
      rw [htick]
      exact Nat.le_floor (by exact_mod_cast hmem.1)
    have hle : tick (phaseFor T J : ℚ) T 0 ≤ 3000000 := by
      rw [htick]
      exact Nat.floor_le_of_le (by exact_mod_cast hmem.2)
    have hnat : (stamp (phaseFor T J : ℚ) T 0).toNat = tick (phaseFor T J : ℚ) T 0 :=
      UInt64.toNat_ofNat_of_lt' (lt_of_le_of_lt hle (by decide))
    intro k hk
    rw [stamp_eq_edgeAt hphase hT]
    refine edgeAt_ne_zero (spacing_accepted hphase hT) (fun h0 => ?_) (by omega) k hk
    rw [h0] at hnat
    have : (0 : UInt64).toNat = 0 := rfl
    omega
  obtain ⟨N, hN, hlocked⟩ := (shows_phaseFor T J).locked hphase hT le_rfl (by decide)
    hstamp hlone
  exact ⟨(phaseFor T J : ℚ), hphase, N, fun k hk => hstamp k (by omega), hlocked⟩

/-- No run of the uniform wheel locks, whatever the number of edges, as long as
none of them is stamped with the reserved value `0`. -/
def NeverLocks (φ : ℝ) (T : ℚ) : Prop :=
  ∀ N, (∀ k < N, stamp φ T k ≠ 0) →
    (init.ingestAll ((List.range N).map (stamp φ T)) : Pattern ℚ).estimate.countLocked = false

/-- A uniform wheel stays unlocked, from every phase and after any number of
edges, exactly when the denominator of its spacing is at most 24. Above that every
single phase locks, unless the timestamps or the event counter wrap before the
word has come round once. -/
theorem uniform_never_locks_iff {T : ℚ} (hT : 70 ≤ T ∧ T ≤ 14999) :
    ((∀ φ : ℝ, 1 ≤ φ → NeverLocks φ T) ↔ T.den ≤ 24) ∧
    ∀ φ : ℝ, 1 ≤ φ → T.den + 192 ≤ 2 ^ 32 → (∀ k < T.den + 192, stamp φ T k ≠ 0) →
      (NeverLocks φ T ↔ T.den ≤ 24) := by
  have hnever : T.den ≤ 24 → ∀ φ : ℝ, 1 ≤ φ → NeverLocks φ T :=
    fun hden φ hφ N hstamp => uniform_unlocked hφ hT hden hstamp
  constructor
  · constructor
    · intro hall
      by_contra hden
      obtain ⟨φ, hφ, N, hstamp, hlocked⟩ := exists_phase_locks hT (by omega)
      rw [hall φ hφ N hstamp] at hlocked
      cases hlocked
    · exact hnever
  · intro φ hφ hlt hstamp
    constructor
    · intro h
      by_contra hden
      obtain ⟨N, hN, hlocked⟩ := uniform_locks hφ hT (by omega) hlt hstamp
      rw [h N fun k hk => hstamp k (by omega)] at hlocked
      cases hlocked
    · exact fun hden => hnever hden φ hφ

/-- A spacing of 1000 microseconds, from every phase. -/
theorem uniform_never_locks_thousand :
    ((∀ φ : ℝ, 1 ≤ φ → NeverLocks φ 1000) ↔ (1000 : ℚ).den ≤ 24) ∧
    ∀ φ : ℝ, 1 ≤ φ → (1000 : ℚ).den + 192 ≤ 2 ^ 32 →
      (∀ k < (1000 : ℚ).den + 192, stamp φ 1000 k ≠ 0) →
      (NeverLocks φ 1000 ↔ (1000 : ℚ).den ≤ 24) :=
  uniform_never_locks_iff (by norm_num)

/-- The ticks of the spacing `1000 + 1/25` from phase one. -/
theorem tick_twentyFive (k : ℕ) : tick 1 (25001 / 25) k = 1 + 1000 * k + k / 25 := by
  have hdiv : (1 : ℝ) + k * ((25001 / 25 : ℚ) : ℝ)
      = ((k : ℕ) : ℝ) / (25 : ℕ) + ((1 + 1000 * k : ℕ) : ℝ) := by
    push_cast
    ring
  rw [tick, hdiv, Nat.floor_add_natCast (by positivity), Nat.floor_div_natCast,
    Nat.floor_natCast]
  omega

/-- A spacing of `1000 + 1/25` microseconds locks on 25 spokes. -/
theorem uniform_locks_twentyFive :
    (70 ≤ (25001 / 25 : ℚ) ∧ (25001 / 25 : ℚ) ≤ 14999) ∧ (1 : ℝ) ≤ 1 ∧
      (∀ k < 193, stamp 1 (25001 / 25) k ≠ 0) ∧
      (init.ingestAll ((List.range 193).map (stamp 1 (25001 / 25))) :
        Pattern ℚ).estimate.countLocked = true := by
  have hT : 70 ≤ (25001 / 25 : ℚ) ∧ (25001 / 25 : ℚ) ≤ 14999 := by norm_num
  have hspacing : spacing 1 (25001 / 25) = fun k => if (k + 1) % 25 = 0 then 1001 else 1000 := by
    funext k
    rw [spacing, tick_twentyFive, tick_twentyFive]
    split <;> omega
  have hx := spacing_accepted (φ := 1) le_rfl hT
  have hzero : stamp 1 (25001 / 25) 0 = 1 := by
    rw [stamp, tick_twentyFive]
    rfl
  have hedge : ∀ k, k ≤ 192 → edgeAt (stamp 1 (25001 / 25) 0) (spacing 1 (25001 / 25)) k ≠ 0 := by
    rw [hzero]
    exact edgeAt_ne_zero hx (by decide) (by decide)
  refine ⟨hT, le_rfl, fun k hk => ?_, ?_⟩
  · rw [stamp_eq_edgeAt le_rfl hT]
    exact hedge k (by omega)
  · rw [ingestAll_stamps le_rfl hT 192]
    refine (locked_of_period_ge hx hedge le_rfl (by decide) ?_ ?_ ?_).1
    · rw [hspacing]
      intro k
      simp only [show k + 25 + 1 = k + 1 + 25 by ring, Nat.add_mod_right]
    · -- the long interval is at 24, and nowhere before
      intro p h0 hp hper
      have h := hper 24
      simp only [hspacing] at h
      rw [if_neg (by omega), if_pos trivial] at h
      exact absurd h (by decide)
    · rw [hspacing]
      intro m hge hlt
      have hall : ∀ m < 25, countMin ≤ m →
          ¬ Repeats (fun i => if (191 - i + 1) % 25 = 0 then 1001 else 1000) m := by decide
      exact hall m hlt hge

end SpokeSensor.Pattern
