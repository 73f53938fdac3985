import SpokeSensor.Core.Binary32
import Mathlib.Tactic.Linarith
import Mathlib.Tactic.NormNum

/-!
# The runtime configuration (`ir_spoke_config.c`)

- `RuntimeConfig`, `configDefaults` (`ir_spoke_config.c:3–20`): the thirteen fields,
  and what they start from.
- `configValidate` (22–45): the code of the first check that fails. The codes are not
  in the order of the checks.
- `Valid`, `configValidate_eq_zero_iff`: what a configuration it accepts satisfies.
- `dutyInRange_iff`, `ratioInRange_iff`: the literals with the suffix `f` are the
  `float` next to the decimal, so a check against one is a check against a midpoint
  (`ofRat_two_tenths`, `ofRat_eight_tenths`).
- `gpio_check_iff` to `blockage_check_iff`: the other checks, each without its C
  types.
- `configDefaults_valid`, `Valid.withLimits`: the defaults pass, and so they do with
  any other ordered limits.
-/

namespace SpokeSensor

open Ieee

/-- `ir_spoke_runtime_config_t` -/
structure RuntimeConfig where
  txGpio : Int32
  rxGpio : Int32
  carrierHz : UInt32
  carrierDuty : Binary32
  rmtResolutionHz : UInt32
  rmtMemBlockSymbols : UInt32
  rmtTxQueueDepth : UInt32
  rxDemodRatio : Binary32
  rxDemodDuty : Binary32
  rxGlitchFilterUs : UInt32
  blockageMinUs : UInt32
  blockageMaxUs : UInt32
  linkLossUs : UInt32
  deriving DecidableEq

namespace RuntimeConfig

/-- What `ir_spoke_config_defaults` writes (3–20). -/
def configDefaults : RuntimeConfig where
  txGpio := 1
  rxGpio := 2
  carrierHz := 38000
  carrierDuty := ofRat (5 / 10)
  rmtResolutionHz := 1000000
  rmtMemBlockSymbols := 64
  rmtTxQueueDepth := 2
  rxDemodRatio := ofRat (66 / 100)
  rxDemodDuty := ofRat (5 / 10)
  rxGlitchFilterUs := 3
  blockageMinUs := blockMinUs.toUInt32
  blockageMaxUs := blockMaxUs.toUInt32
  linkLossUs := SpokeSensor.linkLossUs.toUInt32

/-- `ir_spoke_config_validate` (22–45); `none` is the null pointer. `8u * carrier_hz`
wraps, as it does in C. -/
def configValidate : Option RuntimeConfig → ℤ
  | none => -1
  | some c =>
    if c.txGpio < 0 ∨ 48 < c.txGpio ∨ c.rxGpio < 0 ∨ 48 < c.rxGpio ∨ c.txGpio = c.rxGpio then -2
    else if c.carrierHz < 25000 ∨ 50000 < c.carrierHz then -3
    else if c.carrierDuty < ofRat (2 / 10) ∨ ofRat (8 / 10) < c.carrierDuty then -4
    else if c.rmtResolutionHz < 8 * c.carrierHz ∨ 80000000 < c.rmtResolutionHz then -5
    else if c.rmtMemBlockSymbols < 48 ∨ 512 < c.rmtMemBlockSymbols ∨
        c.rmtTxQueueDepth < 1 ∨ 8 < c.rmtTxQueueDepth then -11
    else if c.rxDemodRatio < ofRat (5 / 10) ∨ ofRat 1 ≤ c.rxDemodRatio then -6
    else if c.rxDemodDuty < ofRat (2 / 10) ∨ ofRat (8 / 10) < c.rxDemodDuty then -7
    else if c.rxGlitchFilterUs = 0 ∨
        (ofRat (5 / 10 * 10 ^ 6) : Binary32)
          ≤ ofRat c.rxGlitchFilterUs.toNat * ofRat c.carrierHz.toNat then -8
    else if c.blockageMinUs = 0 ∨ c.blockageMaxUs ≤ c.blockageMinUs then -9
    else if c.linkLossUs ≤ c.blockageMaxUs then -10
    else 0

/-- `ir_spoke_config_rx_demod_hz` (47–49), which truncates; the result is missing
where C does not define the conversion. -/
def configRxDemodHz : Option RuntimeConfig → Option UInt32
  | none => some 0
  | some c => Binary32.toUInt32 (ofRat c.carrierHz.toNat * c.rxDemodRatio)

/-- The range checks of a duty cycle. -/
def DutyInRange (duty : Binary32) : Prop :=
  ¬ (duty < ofRat (2 / 10) ∨ ofRat (8 / 10) < duty)

/-- What the checks of `configValidate` let through. -/
structure Valid (c : RuntimeConfig) : Prop where
  gpio : ¬ (c.txGpio < 0 ∨ 48 < c.txGpio ∨ c.rxGpio < 0 ∨ 48 < c.rxGpio ∨ c.txGpio = c.rxGpio)
  carrier : ¬ (c.carrierHz < 25000 ∨ 50000 < c.carrierHz)
  carrierDuty : DutyInRange c.carrierDuty
  resolution : ¬ (c.rmtResolutionHz < 8 * c.carrierHz ∨ 80000000 < c.rmtResolutionHz)
  memory : ¬ (c.rmtMemBlockSymbols < 48 ∨ 512 < c.rmtMemBlockSymbols ∨
    c.rmtTxQueueDepth < 1 ∨ 8 < c.rmtTxQueueDepth)
  demodRatio : ¬ (c.rxDemodRatio < ofRat (5 / 10) ∨ ofRat 1 ≤ c.rxDemodRatio)
  demodDuty : DutyInRange c.rxDemodDuty
  glitch : ¬ (c.rxGlitchFilterUs = 0 ∨ (ofRat (5 / 10 * 10 ^ 6) : Binary32)
    ≤ ofRat c.rxGlitchFilterUs.toNat * ofRat c.carrierHz.toNat)
  blockage : ¬ (c.blockageMinUs = 0 ∨ c.blockageMaxUs ≤ c.blockageMinUs)
  linkLoss : ¬ c.linkLossUs ≤ c.blockageMaxUs

variable {c : RuntimeConfig}

/-- One check of a chain: nothing but its error code is returned when it fails. -/
theorem check_eq_zero_iff {p : Prop} [Decidable p] {code rest : ℤ} (hcode : code ≠ 0) :
    (if p then code else rest) = 0 ↔ ¬ p ∧ rest = 0 := by
  split_ifs with h
  · exact iff_of_false hcode fun hno => hno.1 h
  · exact (and_iff_right h).symm

/-- A configuration is accepted iff no check fails. -/
theorem configValidate_eq_zero_iff : configValidate (some c) = 0 ↔ c.Valid := by
  rw [configValidate, check_eq_zero_iff (by decide : (-2 : ℤ) ≠ 0),
    check_eq_zero_iff (by decide : (-3 : ℤ) ≠ 0),
    check_eq_zero_iff (by decide : (-4 : ℤ) ≠ 0),
    check_eq_zero_iff (by decide : (-5 : ℤ) ≠ 0),
    check_eq_zero_iff (by decide : (-11 : ℤ) ≠ 0),
    check_eq_zero_iff (by decide : (-6 : ℤ) ≠ 0),
    check_eq_zero_iff (by decide : (-7 : ℤ) ≠ 0),
    check_eq_zero_iff (by decide : (-8 : ℤ) ≠ 0),
    check_eq_zero_iff (by decide : (-9 : ℤ) ≠ 0),
    check_eq_zero_iff (by decide : (-10 : ℤ) ≠ 0)]
  constructor
  · rintro ⟨h2, h3, h4, h5, h11, h6, h7, h8, h9, h10, -⟩
    exact ⟨h2, h3, h4, h5, h11, h6, h7, h8, h9, h10⟩
  · rintro ⟨h2, h3, h4, h5, h11, h6, h7, h8, h9, h10⟩
    exact ⟨h2, h3, h4, h5, h11, h6, h7, h8, h9, h10, rfl⟩

/-- The limits of a valid configuration are ordered. -/
theorem Valid.limits (h : c.Valid) :
    0 < c.blockageMinUs.toNat ∧ c.blockageMinUs.toNat < c.blockageMaxUs.toNat ∧
      c.blockageMaxUs.toNat < c.linkLossUs.toNat := by
  obtain ⟨hmin, hmax⟩ := not_or.mp h.blockage
  have hlink := h.linkLoss
  rw [UInt32.not_le, UInt32.lt_iff_toNat_lt] at hmax hlink
  refine ⟨Nat.pos_of_ne_zero fun h0 => hmin ?_, hmax, hlink⟩
  exact UInt32.toNat_inj.mp h0

/-! ## The literals

The constants that the checks compare with, each as the nearest `float`, and what a
comparison with it says of a number that has been rounded as well.
-/

/-- `0.2f` -/
theorem ofRat_two_tenths : (ofRat (2 / 10) : Binary32) = .finite ((13421773 : ℤ) * 2 ^ (-26 : ℤ)) :=
  Binary32.ofRat_eq_of_near (l := -3) rfl (by norm_num) (by norm_num) (by norm_num) (by norm_num)
    (by norm_num [abs_le])

/-- `0.8f` -/
theorem ofRat_eight_tenths :
    (ofRat (8 / 10) : Binary32) = .finite ((13421773 : ℤ) * 2 ^ (-24 : ℤ)) :=
  Binary32.ofRat_eq_of_near (l := -1) rfl (by norm_num) (by norm_num) (by norm_num) (by norm_num)
    (by norm_num [abs_le])

/-- `0.5f` -/
theorem ofRat_five_tenths : (ofRat (5 / 10) : Binary32) = .finite ((1 : ℤ) * 2 ^ (-1 : ℤ)) := by
  have h : (ofRat (5 / 10) : Binary32) = .finite ((8388608 : ℤ) * 2 ^ (-24 : ℤ)) :=
    Binary32.ofRat_eq_of_near (l := -1) rfl (by norm_num) (by norm_num) (by norm_num) (by norm_num)
      (by norm_num [abs_le])
  rw [h]
  norm_num

/-- `0.66f` -/
theorem ofRat_default_ratio :
    (ofRat (66 / 100) : Binary32) = .finite ((11072963 : ℤ) * 2 ^ (-24 : ℤ)) :=
  Binary32.ofRat_eq_of_near (l := -1) rfl (by norm_num) (by norm_num) (by norm_num) (by norm_num)
    (by norm_num [abs_le])

/-- `1.0f` -/
theorem ofRat_one : (ofRat 1 : Binary32) = .finite 1 := by
  exact_mod_cast Binary32.ofRat_natCast (n := 1) (by norm_num)

/-- `0.5e6f` -/
theorem ofRat_half_million :
    (ofRat (5 / 10 * 10 ^ 6) : Binary32) = ofRat ((500000 : ℕ) : ℚ) := by
  congr 1
  norm_num

/-- A duty cycle is in range iff it lies between the midpoints next to `0.2f` and
`0.8f`. -/
theorem dutyInRange_iff (q : ℚ) :
    DutyInRange (ofRat q) ↔ 26843545 / 2 ^ 27 < q ∧ q < 26843547 / 2 ^ 25 := by
  have hlo : ¬ (ofRat q : Binary32) < ofRat (2 / 10) ↔ 26843545 / 2 ^ 27 < q := by
    rw [ofRat_two_tenths, Binary32.ofRat_def,
      Number.not_ofRat_lt_finite (Binary32.lt_bound (by norm_num [abs_le])), ← Binary32.ofRat_def,
      Binary32.finite_le_ofRat_iff (l := -3) (k := 13421773) (e := -26) (by decide) (by norm_num)
        (by norm_num [abs_le]) (by norm_num) (by norm_num)]
    norm_num
    constructor <;> intro h <;> linarith
  have hhi : ¬ ofRat (8 / 10) < (ofRat q : Binary32) ↔ q < 26843547 / 2 ^ 25 := by
    rw [ofRat_eight_tenths, Binary32.ofRat_def,
      Number.not_finite_lt_ofRat (Binary32.lt_bound (by norm_num [abs_le])), ← Binary32.ofRat_def,
      Binary32.ofRat_le_finite_iff (l := -1) (k := 13421773) (e := -24) (by decide) (by norm_num)
        (by norm_num [abs_le]) (by norm_num) (by norm_num)]
    norm_num
    constructor <;> intro h <;> linarith
  rw [DutyInRange, not_or, hlo, hhi]

/-- The demodulator ratio, in the same way. -/
theorem ratioInRange_iff (q : ℚ) :
    ¬ ((ofRat q : Binary32) < ofRat (5 / 10) ∨ ofRat 1 ≤ (ofRat q : Binary32)) ↔
      33554431 / 2 ^ 26 ≤ q ∧ q < 33554431 / 2 ^ 25 := by
  have hhalf : (ofRat (5 / 10) : Binary32) = .finite ((16777216 : ℤ) * 2 ^ (-25 : ℤ)) := by
    rw [ofRat_five_tenths]
    norm_num
  have hone : (ofRat 1 : Binary32) = .finite ((16777216 : ℤ) * 2 ^ (-24 : ℤ)) := by
    rw [ofRat_one]
    norm_num
  have hlo : ¬ (ofRat q : Binary32) < ofRat (5 / 10) ↔ 33554431 / 2 ^ 26 ≤ q := by
    rw [hhalf, Binary32.ofRat_def,
      Number.not_ofRat_lt_finite (Binary32.lt_bound (by norm_num [abs_le])), ← Binary32.ofRat_def,
      Binary32.finite_le_ofRat_iff (l := -2) (k := 16777216) (e := -25) (by decide) (by norm_num)
        (by norm_num [abs_le]) (by norm_num) (by norm_num), and_iff_left (by decide),
      ← le_iff_lt_or_eq']
    norm_num
    constructor <;> intro h <;> linarith
  have hhi : ¬ ofRat 1 ≤ (ofRat q : Binary32) ↔ q < 33554431 / 2 ^ 25 := by
    rw [hone, Binary32.finite_le_ofRat_iff (l := -1) (k := 16777216) (e := -24) (by decide)
        (by norm_num) (by norm_num [abs_le]) (by norm_num) (by norm_num), and_iff_left (by decide),
      ← le_iff_lt_or_eq', not_le]
    norm_num
    constructor <;> intro h <;> linarith
  rw [not_or, hlo, hhi]

/-! ## The checks

`ir_spoke_config_validate` in its own order (`ir_spoke_config.c:22–45`), and the same
as a list of bounds.
-/

theorem gpio_check_iff {tx rx : Int32} :
    ¬ (tx < 0 ∨ 48 < tx ∨ rx < 0 ∨ 48 < rx ∨ tx = rx) ↔
      (0 ≤ tx.toInt ∧ tx.toInt ≤ 48) ∧ (0 ≤ rx.toInt ∧ rx.toInt ≤ 48) ∧ tx.toInt ≠ rx.toInt := by
  have h0 : (0 : Int32).toInt = 0 := by decide
  have h48 : (48 : Int32).toInt = 48 := by decide
  simp only [Int32.lt_iff_toInt_lt, ← Int32.toInt_inj, h0, h48]
  omega

theorem carrier_check_iff {carrier : UInt32} :
    ¬ (carrier < 25000 ∨ 50000 < carrier) ↔ 25000 ≤ carrier.toNat ∧ carrier.toNat ≤ 50000 := by
  rw [UInt32.lt_iff_toNat_lt, UInt32.lt_iff_toNat_lt, not_or, not_lt, not_lt]
  exact Iff.rfl

/-- Eight times a carrier in range does not wrap. -/
theorem resolution_check_iff {resolution carrier : UInt32} (hcarrier : carrier.toNat ≤ 50000) :
    ¬ (resolution < 8 * carrier ∨ 80000000 < resolution) ↔
      8 * carrier.toNat ≤ resolution.toNat ∧ resolution.toNat ≤ 80000000 := by
  have h8 : (8 * carrier).toNat = 8 * carrier.toNat := by
    rw [UInt32.toNat_mul]
    exact Nat.mod_eq_of_lt (by change 8 * carrier.toNat < 4294967296; omega)
  rw [UInt32.lt_iff_toNat_lt, UInt32.lt_iff_toNat_lt, h8, not_or, not_lt, not_lt]
  exact Iff.rfl

theorem memory_check_iff {memBlockSymbols txQueueDepth : UInt32} :
    ¬ (memBlockSymbols < 48 ∨ 512 < memBlockSymbols ∨ txQueueDepth < 1 ∨ 8 < txQueueDepth) ↔
      (48 ≤ memBlockSymbols.toNat ∧ memBlockSymbols.toNat ≤ 512) ∧
        (1 ≤ txQueueDepth.toNat ∧ txQueueDepth.toNat ≤ 8) := by
  simp only [UInt32.lt_iff_toNat_lt, not_or, not_lt, and_assoc]
  exact Iff.rfl

/-- The product is compared after rounding; it stays on its side of the limit. -/
theorem glitch_check_iff {glitch carrier : UInt32} (hpos : 0 < carrier.toNat)
    (hcarrier : carrier.toNat ≤ 50000) :
    ¬ (glitch = 0 ∨ (ofRat (5 / 10 * 10 ^ 6) : Binary32)
        ≤ ofRat glitch.toNat * ofRat carrier.toNat) ↔
      0 < glitch.toNat ∧ glitch.toNat * carrier.toNat < 500000 := by
  have hzero : glitch = 0 ↔ glitch.toNat = 0 := by
    rw [← UInt32.toNat_inj]
    exact Iff.rfl
  have hproduct : (ofRat (5 / 10 * 10 ^ 6) : Binary32) ≤ ofRat glitch.toNat * ofRat carrier.toNat ↔
      500000 ≤ glitch.toNat * carrier.toNat := by
    rw [ofRat_half_million]
    exact Binary32.natCast_le_mul (by norm_num) glitch.toNat_lt hpos (by omega)
  rw [not_or, hzero, hproduct]
  omega

theorem blockage_check_iff {lo hi : UInt32} :
    ¬ (lo = 0 ∨ hi ≤ lo) ↔ 0 < lo.toNat ∧ lo.toNat < hi.toNat := by
  have hzero : lo = 0 ↔ lo.toNat = 0 := by
    rw [← UInt32.toNat_inj]
    exact Iff.rfl
  rw [UInt32.le_iff_toNat_le, hzero]
  omega

/-! ## Defaults

The defaults pass their own checks (`ir_spoke_config.c:3–20`).
-/

/-- The product of two whole numbers below `2^24` whose product is below `2^24` too. -/
theorem ofRat_mul_ofRat {m n : ℕ} (hm : m < 2 ^ 24) (hn : n < 2 ^ 24) (h : m * n < 2 ^ 24) :
    (ofRat (m : ℚ) : Binary32) * ofRat (n : ℚ) = .finite ((m * n : ℕ) : ℚ) := by
  rw [Binary32.ofRat_natCast hm, Binary32.ofRat_natCast hn, Number.finite_mul_finite,
    ← Nat.cast_mul]
  exact Binary32.ofRat_natCast h

/-- The defaults pass every check. -/
theorem configDefaults_valid : configDefaults.Valid := by
  have hduty : DutyInRange (ofRat (5 / 10)) := by
    rw [DutyInRange, ofRat_two_tenths, ofRat_five_tenths, ofRat_eight_tenths,
      Number.finite_lt_finite, Number.finite_lt_finite]
    norm_num
  refine ⟨by decide, by decide, hduty, by decide, by decide, ?_, hduty, ?_, by decide, by decide⟩
  · show ¬ ((ofRat (66 / 100) : Binary32) < ofRat (5 / 10) ∨
      ofRat 1 ≤ (ofRat (66 / 100) : Binary32))
    rw [ofRat_five_tenths, ofRat_default_ratio, ofRat_one, Number.finite_lt_finite,
      Number.finite_le_finite]
    norm_num
  · have hproduct :
        (ofRat ((3 : ℕ) : ℚ) : Binary32) * ofRat ((38000 : ℕ) : ℚ) = .finite 114000 := by
      rw [ofRat_mul_ofRat (by norm_num) (by norm_num) (by norm_num)]
      norm_num
    rintro (h | h)
    · exact absurd h (by decide)
    · rw [ofRat_half_million, Binary32.ofRat_natCast (by norm_num)] at h
      exact absurd (h.trans_eq hproduct) (by norm_num)

/-- Changing the limits alone keeps a configuration valid as long as they are ordered. -/
theorem Valid.withLimits (h : c.Valid) {lo hi link : UInt32} (hlo : lo ≠ 0) (hhi : lo < hi)
    (hlink : hi < link) :
    ({ c with blockageMinUs := lo, blockageMaxUs := hi, linkLossUs := link }).Valid where
  gpio := h.gpio
  carrier := h.carrier
  carrierDuty := h.carrierDuty
  resolution := h.resolution
  memory := h.memory
  demodRatio := h.demodRatio
  demodDuty := h.demodDuty
  glitch := h.glitch
  blockage := not_or.mpr ⟨hlo, UInt32.not_le.mpr hhi⟩
  linkLoss := UInt32.not_le.mpr hlink

end RuntimeConfig

end SpokeSensor
