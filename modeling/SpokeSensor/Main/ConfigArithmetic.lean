import SpokeSensor.Main.Start
import SpokeSensor.Main.Timestamps

/-!
# What the sensor computes from its configuration

- `receiveConfig`: `receive_loop` turns two durations into nanoseconds
  (`ir_spoke_rmt_adapter.c:79–82`), in 32 bits.
- `configRxDemodHz`: `ir_spoke_rmt_start` derives the frequency of the demodulator
  (260, `ir_spoke_config.c:47–49`).
- `ticksToUs`: the receiver measures in ticks of 15 bits, and the resolution divides
  (37–40).
- `ArithmeticSafe`: none of this wraps, overflows a field or divides by zero, and the
  two limits that the driver is given are ordered.
- `arithmeticSafe_iff`: the checks of `ir_spoke_config_validate` bound all of it
  except for two inputs. The time of a lost link has no upper bound and is not
  compared with the glitch filter (`ir_spoke_config.c:43`), and a ratio that is not a
  number passes both of its comparisons (36).

`longLinkLoss_wraps` is an accepted configuration whose upper limit wraps below the
lower one.
-/

namespace SpokeSensor

open Ieee Rounding

/-- `rmt_receive_config_t` -/
structure RmtReceiveConfig where
  signalRangeMinNs : UInt32
  signalRangeMaxNs : UInt32
  deriving DecidableEq

namespace RuntimeConfig

/-- The constant at the start of `receive_loop`. -/
def receiveConfig (c : RuntimeConfig) : RmtReceiveConfig where
  signalRangeMinNs := c.rxGlitchFilterUs * 1000
  signalRangeMaxNs := c.linkLossUs * 1000

/-- Nothing that is computed from a configuration wraps, overflows a field or divides
by zero, and the limits that the driver is given are ordered. -/
structure ArithmeticSafe (c : RuntimeConfig) : Prop where
  minNs : c.receiveConfig.signalRangeMinNs.toNat = c.rxGlitchFilterUs.toNat * 1000
  maxNs : c.receiveConfig.signalRangeMaxNs.toNat = c.linkLossUs.toNat * 1000
  ordered : c.receiveConfig.signalRangeMinNs < c.receiveConfig.signalRangeMaxNs
  linkTicks : c.linkLossUs.toNat * c.rmtResolutionHz.toNat / 10 ^ 6 < 2 ^ 15
  demod : ∃ hz, configRxDemodHz (some c) = some hz ∧ 0 < hz
  /-- `capture_resolution_hz` is the one that `ir_spoke_rmt_start` has stored. -/
  ticks : ∀ (s : RmtAdapter) (platform : Platform) (p : Pipeline Binary32) (ticks : BitVec 15),
    let res := (s.rmtStart platform (some c) (some p)).1.captureResolutionHz
    res ≠ 0 ∧ (ticks.toNat * 1000000 + res.toNat / 2) / res.toNat < 2 ^ 32 ∧
      checkedTicksToUs res ticks = some (ticksToUs res ticks) ∧
      (ticksToUs res ticks).toNat = (ticks.toNat * 1000000 + res.toNat / 2) / res.toNat

/-! ## Nanoseconds

The filter and the idle time are multiplied by a thousand in 32 bits.
-/

theorem mul_thousand_toNat (us : UInt32) : (us * 1000).toNat = us.toNat * 1000 % 2 ^ 32 := by
  rw [UInt32.toNat_mul]
  rfl

/-- The product wraps from 4294968 us on. -/
theorem mul_thousand_exact_iff (us : UInt32) :
    (us * 1000).toNat = us.toNat * 1000 ↔ us.toNat < 4294968 := by
  rw [mul_thousand_toNat]
  omega

variable {c : RuntimeConfig}

/-- The bounds that the checks put on the integers of a valid configuration. -/
theorem Valid.bounds (h : c.Valid) :
    (25000 ≤ c.carrierHz.toNat ∧ c.carrierHz.toNat ≤ 50000) ∧ Admitted c.rmtResolutionHz ∧
      0 < c.rxGlitchFilterUs.toNat ∧ c.rxGlitchFilterUs.toNat < 20 := by
  have hcarrier := carrier_check_iff.mp h.carrier
  obtain ⟨hlow, hhigh⟩ := (resolution_check_iff hcarrier.2).mp h.resolution
  obtain ⟨hpos, hproduct⟩ := (glitch_check_iff (by omega) hcarrier.2).mp h.glitch
  refine ⟨hcarrier, ⟨by omega, hhigh⟩, hpos, ?_⟩
  -- the carrier is at least 25 kHz
  have hleast : c.rxGlitchFilterUs.toNat * 25000 ≤ c.rxGlitchFilterUs.toNat * c.carrierHz.toNat :=
    Nat.mul_le_mul_left _ hcarrier.1
  omega

/-! ## The demodulator

The frequency of the demodulator is a product of a whole number and a ratio, truncated
(`ir_spoke_config.c:47–49`).
-/

/-- A ratio that passes the checks is a number between one half and one, or none. -/
theorem Valid.ratio_cases (h : c.Valid) :
    c.rxDemodRatio = .nan ∨ ∃ x : ℚ, c.rxDemodRatio = .finite x ∧ 1 / 2 ≤ x ∧ x < 1 := by
  have hratio := h.demodRatio
  rw [ofRat_five_tenths, ofRat_one] at hratio
  cases hx : c.rxDemodRatio with
  | nan => exact .inl rfl
  | finite x =>
    rw [hx, Number.finite_lt_finite, Number.finite_le_finite, not_or, not_lt, not_le] at hratio
    refine .inr ⟨x, rfl, ?_, hratio.2⟩
    calc (1 / 2 : ℚ) = (1 : ℤ) * 2 ^ (-1 : ℤ) := by norm_num
      _ ≤ x := hratio.1
  | inf negative =>
    rw [hx] at hratio
    cases negative with
    | true => exact absurd (.inl rfl) hratio
    | false => exact absurd (.inr rfl) hratio

/-- The conversion of a positive number below `2^16` is defined, and positive from
`2^13` on. -/
theorem toUInt32_pos {x : ℚ} (hlow : 2 ^ 13 ≤ x) (hhigh : x < 2 ^ 16) :
    ∃ hz, Binary32.toUInt32 (Number.ofRat binary32 x) = some hz ∧ 0 < hz := by
  set r := binary32.grid.round x with hr
  have hrlow : (2 : ℚ) ^ 13 ≤ r := by
    exact_mod_cast Format.zpow_le_round (f := binary32) (l := 13) (by decide)
      (by exact_mod_cast hlow)
  have hrhigh : r ≤ 2 ^ 16 := by
    have hround := Grid.round_le_zpow (g := binary32.grid) (l := 16) (x := x) (by decide)
      (by rw [Format.base_eq]; exact_mod_cast hhigh)
    rw [Format.base_eq] at hround
    exact_mod_cast hround
  have hfinite : Number.ofRat binary32 x = .finite r := by
    rw [Number.ofRat, if_pos]
    refine Binary32.lt_bound ?_
    rw [← hr, abs_of_nonneg (by linarith)]
    linarith
  refine ⟨⌊r⌋.toNat.toUInt32, ?_, ?_⟩
  · rw [hfinite, Binary32.toUInt32, if_pos ⟨by linarith, by linarith⟩]
  · have hfloorLow : (2 ^ 13 : ℤ) ≤ ⌊r⌋ := Int.le_floor.mpr (by exact_mod_cast hrlow)
    have hfloorHigh : ⌊r⌋ ≤ 2 ^ 16 := by
      have hle := Int.floor_le_floor hrhigh
      exact_mod_cast hle
    rw [UInt32.lt_iff_toNat_lt]
    show 0 < (UInt32.ofNat ⌊r⌋.toNat).toNat
    rw [UInt32.toNat_ofNat_of_lt' (by show ⌊r⌋.toNat < 4294967296; omega)]
    omega

/-- The frequency of the demodulator is positive as soon as the ratio is a number. -/
theorem Valid.demod_iff (h : c.Valid) :
    (∃ hz, configRxDemodHz (some c) = some hz ∧ 0 < hz) ↔ c.rxDemodRatio ≠ .nan := by
  obtain ⟨hlow, hhigh⟩ := h.bounds.1
  have hcarrier : (ofRat (c.carrierHz.toNat : ℚ) : Binary32) = .finite c.carrierHz.toNat :=
    Binary32.ofRat_natCast (by omega)
  rw [configRxDemodHz, hcarrier]
  rcases h.ratio_cases with hnan | ⟨x, hx, hhalf, hone⟩
  · rw [hnan]
    refine iff_of_false ?_ (not_not.mpr rfl)
    rintro ⟨hz, hsome, -⟩
    cases hsome
  · rw [hx, Number.finite_mul_finite]
    refine iff_of_true ?_ nofun
    have hlowq : (25000 : ℚ) ≤ c.carrierHz.toNat := by exact_mod_cast hlow
    have hhighq : (c.carrierHz.toNat : ℚ) ≤ 50000 := by exact_mod_cast hhigh
    refine toUInt32_pos ?_ ?_
    · calc (2 : ℚ) ^ 13 ≤ 25000 * (1 / 2) := by norm_num
        _ ≤ c.carrierHz.toNat * x := mul_le_mul hlowq hhalf (by norm_num) (by linarith)
    · calc (c.carrierHz.toNat : ℚ) * x ≤ c.carrierHz.toNat * 1 :=
          mul_le_mul_of_nonneg_left hone.le (by linarith)
        _ < 2 ^ 16 := by linarith

/-! ## Ticks

The idle time in ticks of the resolution has to fit the 15 bits of a symbol.
-/

/-- With a valid configuration `ticks_to_us` is the rounded quotient for every duration
of 15 bits. -/
theorem Valid.ticks_safe (h : c.Valid) (ticks : BitVec 15) :
    c.rmtResolutionHz ≠ 0 ∧
      (ticks.toNat * 1000000 + c.rmtResolutionHz.toNat / 2) / c.rmtResolutionHz.toNat < 2 ^ 32 ∧
      checkedTicksToUs c.rmtResolutionHz ticks = some (ticksToUs c.rmtResolutionHz ticks) ∧
      (ticksToUs c.rmtResolutionHz ticks).toNat
        = (ticks.toNat * 1000000 + c.rmtResolutionHz.toNat / 2) / c.rmtResolutionHz.toNat := by
  have hres := h.bounds.2.1
  have hlt := quotient_lt hres ticks
  refine ⟨?_, by omega, checkedTicksToUs_eq hres ticks, ?_⟩
  · intro h0
    have hlow := hres.low
    rw [h0] at hlow
    exact absurd hlow (by decide)
  · rw [ticksToUs, UInt64.toNat_toUInt32, quotient_toNat]
    exact Nat.mod_eq_of_lt (hlt.trans (by norm_num))

/-- What is computed from an accepted configuration is safe exactly when the ratio is
a number and the time of a lost link lies above the glitch filter and below `2^15`
ticks. All the rest follows from the checks (`Valid.bounds`): the carrier is bounded,
the glitch filter by the carrier, and the resolution on both sides. -/
theorem arithmeticSafe_iff (h : configValidate (some c) = 0) :
    c.ArithmeticSafe ↔
      c.rxDemodRatio ≠ .nan ∧ c.rxGlitchFilterUs < c.linkLossUs ∧
        c.linkLossUs.toNat * c.rmtResolutionHz.toNat < 32768 * 10 ^ 6 := by
  have hvalid := configValidate_eq_zero_iff.mp h
  obtain ⟨-, hres, -, hglitch⟩ := hvalid.bounds
  have hmin : c.receiveConfig.signalRangeMinNs.toNat = c.rxGlitchFilterUs.toNat * 1000 :=
    (mul_thousand_exact_iff _).mpr (by omega)
  have hfield : c.linkLossUs.toNat * c.rmtResolutionHz.toNat / 10 ^ 6 < 2 ^ 15 ↔
      c.linkLossUs.toNat * c.rmtResolutionHz.toNat < 32768 * 10 ^ 6 :=
    Nat.div_lt_iff_lt_mul (by norm_num)
  constructor
  · intro hsafe
    refine ⟨hvalid.demod_iff.mp hsafe.demod, ?_, hfield.mp hsafe.linkTicks⟩
    have hordered := UInt32.lt_iff_toNat_lt.mp hsafe.ordered
    rw [hsafe.minNs, hsafe.maxNs] at hordered
    rw [UInt32.lt_iff_toNat_lt]
    omega
  · rintro ⟨hratio, hlink, hticks⟩
    -- at 200 kHz or more, 15 bits of ticks are less than 0.17 s
    have hleast : c.linkLossUs.toNat * 200000 ≤ c.linkLossUs.toNat * c.rmtResolutionHz.toNat :=
      Nat.mul_le_mul_left _ hres.low
    have hmax : c.receiveConfig.signalRangeMaxNs.toNat = c.linkLossUs.toNat * 1000 :=
      (mul_thousand_exact_iff _).mpr (by omega)
    rw [UInt32.lt_iff_toNat_lt] at hlink
    exact {
      minNs := hmin
      maxNs := hmax
      ordered := by
        rw [UInt32.lt_iff_toNat_lt, hmin, hmax]
        omega
      linkTicks := hfield.mpr hticks
      demod := hvalid.demod_iff.mpr hratio
      ticks := fun s platform p ticks => by
        rw [s.rmtStart_captureResolutionHz platform hvalid p]
        exact hvalid.ticks_safe ticks }

theorem configDefaults_arithmeticSafe : configDefaults.ArithmeticSafe := by
  refine (arithmeticSafe_iff (configValidate_eq_zero_iff.mpr configDefaults_valid)).mpr
    ⟨?_, by decide, by decide⟩
  show (ofRat (66 / 100) : Binary32) ≠ .nan
  rw [ofRat_default_ratio]
  exact nofun

/-- A link that counts as lost after 4294968 us: the limit wraps to 704 ns, which is
less than the 3000 ns of the glitch filter. -/
theorem longLinkLoss_wraps :
    configValidate (some { configDefaults with linkLossUs := 4294968 }) = 0 ∧
      RuntimeConfig.receiveConfig { configDefaults with linkLossUs := 4294968 } = ⟨3000, 704⟩ ∧
      ¬ RuntimeConfig.ArithmeticSafe { configDefaults with linkLossUs := 4294968 } := by
  refine ⟨?_, rfl, ?_⟩
  · exact configValidate_eq_zero_iff.mpr
      (configDefaults_valid.withLimits (by decide) (by decide) (by decide))
  · intro hsafe
    exact absurd hsafe.ordered (by decide)

end RuntimeConfig

end SpokeSensor
