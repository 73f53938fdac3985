import SpokeSensor.Server.PyNumber

/-!
# The parameters of a simulation (`ir_spoke_sim.py:90–138`)

The requested values that the wheel, the beam and the 3.3 V rail depend on, and the
checks by which `simulate` rejects a set of parameters.

- `Parameters`, `Parameters.default`: the values, with those of `config/system.json`
  (90–115).
- `checkWindow` (123–128), `checkPower` (283–288, 343–344): the checks, in the order
  of the source.
- `timing` (130–138): how long a spoke blocks the beam and how often, with a division
  by zero as an exception.
- `accept`, `accept_eq_ok`: which sets of parameters come through, and with what
  timing. `math.pi` cancels in it (`blockage_eq`).

Arithmetic is exact; `math.pi` keeps the value of the `float`. The optical and analog
stages are left out: what they contribute here is the comparator's samples, which
stand for any.
-/

namespace SpokeSensor.Simulation

open LocalServer

/-- The requested values, and the window `duration_s`. -/
structure Parameters where
  speedKmh : ℚ
  spokeCount : ℚ
  spokeWidthMm : ℚ
  wheelDiameterM : ℚ
  beamRadiusM : ℚ
  residualTransmissionBlocked : ℚ
  carrierHz : ℚ
  carrierDuty : ℚ
  rxDemodRatio : ℚ
  cpuActiveDuty : ℚ
  wifiTxDuty : ℚ
  supplyRiseUs : ℚ
  regulatorEfficiency : ℚ
  canEnabled : Bool
  canBusActivityDuty : ℚ
  durationS : ℚ
  sampleRateHz : ℤ
  deriving DecidableEq

/-- The values of `config/system.json`. -/
def Parameters.default : Parameters where
  speedKmh := 60
  spokeCount := 32
  spokeWidthMm := 2
  wheelDiameterM := 702 / 1000
  beamRadiusM := 1 / 4
  residualTransmissionBlocked := 5 / 100
  carrierHz := 38000
  carrierDuty := 1 / 2
  rxDemodRatio := 66 / 100
  cpuActiveDuty := 1 / 10
  wifiTxDuty := 5 / 100
  supplyRiseUs := 500
  regulatorEfficiency := 9 / 10
  canEnabled := false
  canBusActivityDuty := 1 / 10
  durationS := 24 / 1000
  sampleRateHz := 2000000

/-- `math.pi` -/
def mathPi : ℚ := 884279719003555 / 281474976710656

/-- `x / y` -/
def divide (x y : ℚ) : Except PyError ℚ :=
  if y = 0 then .error (.other "ZeroDivisionError" "float division by zero") else .ok (x / y)

/-- `x % y` and `np.mod(x, y)`: the remainder has the sign of the divisor. -/
def npMod (x y : ℚ) : ℚ := x - y * ⌊x / y⌋

namespace Parameters

variable (p : Parameters)

/-- The checks at the head of `simulate` (123–128). -/
def checkWindow : Except PyError Unit := do
  raiseIf (¬ (25000 ≤ p.carrierHz ∧ p.carrierHz ≤ 50000))
    (.valueError "carrier_hz outside analog-compatible configured range")
  raiseIf (p.speedKmh ≤ 0 ∨ p.spokeCount < 1)
    (.valueError "speed and spoke count must be positive")
  raiseIf (p.durationS ≤ 0 ∨ p.sampleRateHz < 10 * p.carrierHz)
    (.valueError "duration must be positive and sample rate >= 10x carrier")

/-- The checks of the power scenario (283–288, 343–344). -/
def checkPower : Except PyError Unit := do
  raiseIf (¬ (0 ≤ p.cpuActiveDuty ∧ p.cpuActiveDuty ≤ 1) ∨
      ¬ (0 ≤ p.wifiTxDuty ∧ p.wifiTxDuty ≤ 1))
    (.valueError "CPU and Wi-Fi duty cycles must be from zero to one")
  raiseIf (¬ (0 ≤ p.canBusActivityDuty ∧ p.canBusActivityDuty ≤ 1))
    (.valueError "CAN bus activity duty must be from zero to one")
  raiseIf (p.supplyRiseUs * (1 / 1000000) ≤ 0) (.valueError "supply_rise_us must be positive")
  raiseIf (¬ (0 < p.regulatorEfficiency ∧ p.regulatorEfficiency ≤ 1))
    (.valueError "regulator_efficiency must be greater than zero and at most one")

/-- How long a spoke blocks the beam, and how often. -/
structure Timing where
  blockedS : ℚ
  spokePeriodS : ℚ

/-- From `speed_mps` to `spoke_period_s` (130–137). -/
def timing : Except PyError Timing := do
  let speedMps := p.speedKmh / (36 / 10)
  let circumference := mathPi * p.wheelDiameterM
  let wheelHz ← divide speedMps circumference
  let omega := 2 * mathPi * wheelHz
  let spokeHz := wheelHz * p.spokeCount
  let tangentialSpeed := omega * p.beamRadiusM
  let blockedS ← divide (p.spokeWidthMm / 1000) tangentialSpeed
  let spokePeriodS ← divide 1 spokeHz
  return { blockedS, spokePeriodS }

/-- The part of `simulate` that is modelled, up to the traces: every check that raises a
`ValueError` about these parameters, in the order of the source. -/
def accept : Except PyError Timing := do
  p.checkWindow
  let timing ← p.timing
  p.checkPower
  return timing

variable {p}

theorem checkWindow_eq_ok : p.checkWindow = .ok () ↔
    (25000 ≤ p.carrierHz ∧ p.carrierHz ≤ 50000) ∧ (0 < p.speedKmh ∧ 1 ≤ p.spokeCount) ∧
      0 < p.durationS ∧ 10 * p.carrierHz ≤ p.sampleRateHz := by
  simp [checkWindow, bind_eq_ok, raiseIf_eq_ok]

theorem checkPower_eq_ok : p.checkPower = .ok () ↔
    ((0 ≤ p.cpuActiveDuty ∧ p.cpuActiveDuty ≤ 1) ∧ (0 ≤ p.wifiTxDuty ∧ p.wifiTxDuty ≤ 1)) ∧
      (0 ≤ p.canBusActivityDuty ∧ p.canBusActivityDuty ≤ 1) ∧ 0 < p.supplyRiseUs ∧
      0 < p.regulatorEfficiency ∧ p.regulatorEfficiency ≤ 1 := by
  have hrise : ¬ p.supplyRiseUs * (1 / 1000000) ≤ 0 ↔ 0 < p.supplyRiseUs := by
    rw [not_le]
    constructor <;> intro h <;> linarith
  rw [checkPower]
  simp only [bind_eq_ok, raiseIf_eq_ok, exists_const, hrise, not_or, not_not]

theorem divide_eq_ok {x y z : ℚ} : divide x y = .ok z ↔ y ≠ 0 ∧ x / y = z := by
  rw [divide]
  by_cases hy : y = 0
  · rw [if_pos hy]
    exact iff_of_false nofun fun h => h.1 hy
  · rw [if_neg hy]
    exact ⟨fun h => ⟨hy, Except.ok.inj h⟩, fun h => congrArg Except.ok h.2⟩

/-- How long a spoke blocks the beam: `math.pi` cancels. -/
def blockage (p : Parameters) : ℚ :=
  p.spokeWidthMm * p.wheelDiameterM * 36 / (20000 * p.speedKmh * p.beamRadiusM)

/-- The time from one spoke to the next. -/
def period (p : Parameters) : ℚ :=
  mathPi * p.wheelDiameterM * 36 / (10 * p.speedKmh * p.spokeCount)

theorem mathPi_pos : 0 < mathPi := by
  norm_num [mathPi]

theorem blockage_eq (hspeed : p.speedKmh ≠ 0) (hd : p.wheelDiameterM ≠ 0)
    (hr : p.beamRadiusM ≠ 0) :
    p.spokeWidthMm / 1000
        / (2 * mathPi * (p.speedKmh / (36 / 10) / (mathPi * p.wheelDiameterM)) * p.beamRadiusM)
      = p.blockage := by
  have hpi : mathPi ≠ 0 := mathPi_pos.ne'
  rw [blockage]
  field_simp
  ring

theorem period_eq (hspeed : p.speedKmh ≠ 0) (hcount : p.spokeCount ≠ 0)
    (hd : p.wheelDiameterM ≠ 0) :
    1 / (p.speedKmh / (36 / 10) / (mathPi * p.wheelDiameterM) * p.spokeCount) = p.period := by
  have hpi : mathPi ≠ 0 := mathPi_pos.ne'
  rw [period]
  field_simp

/-- The timing in terms of the requested values. -/
theorem timing_eq_ok (hspeed : 0 < p.speedKmh) (hcount : 1 ≤ p.spokeCount) {w : Timing} :
    p.timing = .ok w ↔ (p.wheelDiameterM ≠ 0 ∧ p.beamRadiusM ≠ 0) ∧
      w = { blockedS := p.blockage, spokePeriodS := p.period } := by
  have hpi : mathPi ≠ 0 := mathPi_pos.ne'
  have hv : p.speedKmh ≠ 0 := hspeed.ne'
  have hn : p.spokeCount ≠ 0 := by linarith
  rw [timing]
  simp only [bind_eq_ok, divide_eq_ok, ok_eq_ok]
  constructor
  · rintro ⟨_, ⟨hd, rfl⟩, _, ⟨hr, rfl⟩, _, ⟨-, rfl⟩, rfl⟩
    have hd : p.wheelDiameterM ≠ 0 := right_ne_zero_of_mul hd
    have hr : p.beamRadiusM ≠ 0 := right_ne_zero_of_mul hr
    rw [blockage_eq hv hd hr, period_eq hv hn hd]
    exact ⟨⟨hd, hr⟩, rfl⟩
  · rintro ⟨⟨hd, hr⟩, rfl⟩
    refine ⟨_, ⟨mul_ne_zero hpi hd, rfl⟩, _, ⟨by positivity, rfl⟩, _, ⟨by positivity, rfl⟩, ?_⟩
    rw [blockage_eq hv hd hr, period_eq hv hn hd]

theorem accept_eq_ok {w : Timing} : p.accept = .ok w ↔
    p.checkWindow = .ok () ∧ p.timing = .ok w ∧ p.checkPower = .ok () := by
  rw [accept]
  simp only [bind_eq_ok, ok_eq_ok]
  constructor
  · rintro ⟨_, hwindow, w, htiming, _, hpower, rfl⟩
    exact ⟨hwindow, htiming, hpower⟩
  · rintro ⟨hwindow, htiming, hpower⟩
    exact ⟨(), hwindow, w, htiming, (), hpower, rfl⟩

end Parameters

end SpokeSensor.Simulation
