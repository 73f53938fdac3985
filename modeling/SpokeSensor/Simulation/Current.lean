import SpokeSensor.Simulation.Transmission
import SpokeSensor.Simulation.CarrierRemove
import Mathlib.Analysis.Complex.Exponential

/-!
# The current of the 3.3 V rail (`ir_spoke_sim.py:277–520`)

The trace `system_current_ma` (370–373) adds up nine contributions sample by sample;
the estimate `system_current_ma_peak_estimate` is assembled on its own, from the
largest value of each.

- `tx`, `power`: the constants of `config/system.json`.
- `esp32CurrentMa` (289–308), `canCurrentMa` (310–325), `afeCurrentMa` (335–369): the
  contributions, at any sample.
- `systemPeakEstimateMa`, `rail`: what `simulate` reports, after its checks.
- `esp32CurrentMa_le` to `vrefStartupExtraMa_le`: every contribution is below its
  largest value.
- `current_le_peak`: so every sample stays below the estimate, for every accepted set
  of parameters, whatever the samples of the comparator.

Of the exponential of the reference's startup (354) only its range is used; it is the
one value that need not be rational.
-/

namespace SpokeSensor.Simulation

open LocalServer Rounding

/-! ## The configuration

The values of `config/system.json` that the currents are computed from, as they stand
there.
-/

/-- `transmitter`, as far as the current depends on it. -/
structure Transmitter where
  supplyV : ℚ
  ledVfVTyp : ℚ
  driverVceSatVTyp : ℚ
  driverVbeVTypEstimate : ℚ
  ledSeriesOhm : ℚ
  baseResistorOhm : ℚ
  cableLengthMm : ℚ
  cableConductorOhmPerM : ℚ
  connectorContactOhmMax : ℚ

def tx : Transmitter where
  supplyV := 3.3
  ledVfVTyp := 1.35
  driverVceSatVTyp := 0.18
  driverVbeVTypEstimate := 0.8
  ledSeriesOhm := 39
  baseResistorOhm := 1000
  cableLengthMm := 600
  cableConductorOhmPerM := 0.214
  connectorContactOhmMax := 0.03

/-- `analog_frontend.supply_v` -/
def afeSupplyV : ℚ := 3.3

/-- `power`, as far as the current depends on it. -/
structure Power where
  esp32WaitiAllPeripheralsMaTyp : ℚ
  esp32ActiveSingleCoreAllPeripheralsMaTyp : ℚ
  esp32WifiTxPeakMa : ℚ
  xiaoBoardOverheadMaEstimate : ℚ
  xiao3v3RegulatorCapacityMa : ℚ
  esp32RecommendedSupplyCapacityMa : ℚ
  opampQuiescentUaPerAmplifierTyp : ℚ
  opampAmplifierCount : ℚ
  comparatorQuiescentUaTyp : ℚ
  gpioAndTraceCapacitancePfEstimate : ℚ
  localDecouplingUf : ℚ
  canControllerActiveMaMax : ℚ
  canTransceiverRecessiveMaMax : ℚ
  canDominantLineDriveMaEstimate : ℚ
  canBoardLedsMaEstimate : ℚ

def power : Power where
  esp32WaitiAllPeripheralsMaTyp := 42.3
  esp32ActiveSingleCoreAllPeripheralsMaTyp := 54.6
  esp32WifiTxPeakMa := 340
  xiaoBoardOverheadMaEstimate := 2
  xiao3v3RegulatorCapacityMa := 700
  esp32RecommendedSupplyCapacityMa := 500
  opampQuiescentUaPerAmplifierTyp := 538
  opampAmplifierCount := 2
  comparatorQuiescentUaTyp := 5
  gpioAndTraceCapacitancePfEstimate := 5
  localDecouplingUf := 0.2
  canControllerActiveMaMax := 10
  canTransceiverRecessiveMaMax := 17
  canDominantLineDriveMaEstimate := 33
  canBoardLedsMaEstimate := 8

/-! ## Constant contributions

The currents that do not change over the samples (`ir_spoke_sim.py:154–160, 317–353`).
-/

def cableLoopOhm : ℚ :=
  2 * tx.cableLengthMm * 1e-3 * tx.cableConductorOhmPerM + 2 * tx.connectorContactOhmMax

def ledMa : ℚ :=
  (tx.supplyV - tx.ledVfVTyp - tx.driverVceSatVTyp) / (tx.ledSeriesOhm + cableLoopOhm) * 1000

def basePeakMa : ℚ :=
  max 0 ((tx.supplyV - tx.driverVbeVTypEstimate) / tx.baseResistorOhm * 1000)

def vrefDividerMa : ℚ := afeSupplyV / (10000 + 10000) * 1000

def afeStaticMa : ℚ :=
  (power.opampQuiescentUaPerAmplifierTyp * power.opampAmplifierCount
    + power.comparatorQuiescentUaTyp) / 1000 + vrefDividerMa

def vrefTauS : ℚ := 5000 * 1e-6

namespace Parameters

variable (p : Parameters)

def canIdleMa : ℚ :=
  if p.canEnabled then
    power.canControllerActiveMaMax + power.canTransceiverRecessiveMaMax
      + power.canBoardLedsMaEstimate
  else 0

def supplyRiseS : ℚ := p.supplyRiseUs * 1e-6

def localBypassInrushMa : ℚ :=
  power.localDecouplingUf * 1e-6 * afeSupplyV / p.supplyRiseS * 1000

/-! ## Samples

The nine contributions to a sample (`ir_spoke_sim.py:302–372`), each as a function of
its number.
-/

/-- `dt` -/
def dt : ℚ := 1 / p.sampleRateHz

/-- `t.size` of `np.arange(0, duration_s, dt)` -/
def size : ℕ := ⌈p.durationS / p.dt⌉₊

/-- `t[i]` -/
def time (i : ℕ) : ℚ := i * p.dt

def carrier (i : ℕ) : ℚ := if npMod (p.time i * p.carrierHz) 1 < p.carrierDuty then 1 else 0

/-- `[start, start + samples)` of a burst of `round(duty * t.size)` samples, in the middle. -/
def burst (duty : ℚ) : ℕ × ℕ :=
  let samples := min p.size (max 0 (nearestEven (duty * p.size))).toNat
  ((p.size - samples) / 2, samples)

def inBurst (duty : ℚ) (i : ℕ) : Bool :=
  (p.burst duty).1 ≤ i && i < (p.burst duty).1 + (p.burst duty).2

/-- `hold_samples` of the demodulator -/
def demodHold : Except PyError ℕ := do
  let demodHoldUs ← divide 1e6 (p.carrierHz * p.rxDemodRatio)
  return (max 1 (nearestEven (demodHoldUs * 1e-6 * p.sampleRateHz))).toNat

/-- Where `np.diff` is not zero, plus one. -/
def changes (x : List ℕ) : List ℕ :=
  (List.range x.length).filter fun i => 1 ≤ i && x[i]? ≠ x[i - 1]?

/-- `cpu_active`, from the edges of the demodulated signal. -/
def cpuActive (eventEdges : List ℕ) (i : ℕ) : Bool :=
  if eventEdges.length ≠ 0 ∧ p.cpuActiveDuty ≠ 0 then
    let samplesPerEvent :=
      (max 1 (nearestEven (p.cpuActiveDuty * p.size / eventEdges.length))).toNat
    eventEdges.any fun edge => edge ≤ i && i < min p.size (edge + samplesPerEvent)
  else false

def esp32CurrentMa (eventEdges : List ℕ) (i : ℕ) : ℚ :=
  (if p.inBurst p.wifiTxDuty i then power.esp32WifiTxPeakMa
    else if p.cpuActive eventEdges i then power.esp32ActiveSingleCoreAllPeripheralsMaTyp
    else power.esp32WaitiAllPeripheralsMaTyp)
  + power.xiaoBoardOverheadMaEstimate

def canDominant (i : ℕ) : Bool := p.canEnabled && p.inBurst p.canBusActivityDuty i

def canCurrentMa (i : ℕ) : ℚ :=
  p.canIdleMa + (if p.canDominant i then power.canDominantLineDriveMaEstimate else 0)

def inrushMa (i : ℕ) : ℚ := if p.time i < p.supplyRiseS then p.localBypassInrushMa else 0

/-- The charge of one comparator edge, within one sample. -/
def edgeMa : ℚ :=
  1 / 2 * power.gpioAndTraceCapacitancePfEstimate * 1e-12 * afeSupplyV / p.dt * 1000

def comparatorDynamicMa (comparator : List ℕ) (i : ℕ) : ℚ :=
  (if 1 ≤ i ∧ comparator[i]? ≠ comparator[i - 1]? then 1 else 0) * p.edgeMa

section Trace

variable {K : Type} [Field K]

/-- `vref_startup_extra_ma`, for any exponential. -/
def vrefStartupExtraMa (exp : ℚ → K) (i : ℕ) : K :=
  (vrefDividerMa : K) * exp (-p.time i / vrefTauS)

def afeCurrentMa (exp : ℚ → K) (comparator : List ℕ) (i : ℕ) : K :=
  (afeStaticMa : K) + (p.inrushMa i : K) + p.vrefStartupExtraMa exp i
    + (p.comparatorDynamicMa comparator i : K)

def systemCurrentMa (exp : ℚ → K) (comparator eventEdges : List ℕ) (i : ℕ) : K :=
  (p.esp32CurrentMa eventEdges i : K) + ((p.carrier i * ledMa : ℚ) : K)
    + ((p.carrier i * basePeakMa : ℚ) : K) + p.afeCurrentMa exp comparator i
    + (p.canCurrentMa i : K)

/-- `comparator_dynamic_ma.max(initial=0.0)` -/
def comparatorDynamicMax (comparator : List ℕ) : ℚ :=
  (List.range p.size).foldl (fun m i => max m (p.comparatorDynamicMa comparator i)) 0

/-- `system_peak_estimate_ma` -/
def systemPeakEstimateMa (comparator : List ℕ) : ℚ :=
  power.esp32WifiTxPeakMa + power.xiaoBoardOverheadMaEstimate + ledMa + basePeakMa
    + afeStaticMa + p.localBypassInrushMa + vrefDividerMa + p.comparatorDynamicMax comparator
    + (if p.canEnabled then p.canIdleMa + power.canDominantLineDriveMaEstimate else 0)

/-- What `simulate` reports about the rail. -/
structure Rail (K : Type) where
  systemCurrentMa : ℕ → K
  systemCurrentMaPeakEstimate : ℚ
  withinXiao3v3Capacity : Bool
  withinEsp32RecommendedSupplyCapacity : Bool

/-- The rail in a window in which the comparator gives these samples. -/
def rail (exp : ℚ → K) (comparator : List ℕ) : Except PyError (Rail K) := do
  p.checkWindow
  let _ ← p.timing
  let holdSamples ← p.demodHold
  match comparator with
  | [] => .error indexError
  | first :: _ =>
    let blocked := (carrierLoop holdSamples 0 first comparator).map fun clear => 1 - clear
    p.checkPower
    let peak := p.systemPeakEstimateMa comparator
    return {
      systemCurrentMa := p.systemCurrentMa exp comparator (changes blocked)
      systemCurrentMaPeakEstimate := peak
      withinXiao3v3Capacity := peak < power.xiao3v3RegulatorCapacityMa
      withinEsp32RecommendedSupplyCapacity := peak < power.esp32RecommendedSupplyCapacityMa }

end Trace

/-! ## Every contribution is below its largest value

One lemma for each contribution, with the value that the estimate of the peak has for
it (`ir_spoke_sim.py:405–414`); their sum is the result.
-/

variable {p}

theorem ledMa_nonneg : 0 ≤ ledMa := by
  norm_num [ledMa, tx, cableLoopOhm]

theorem basePeakMa_nonneg : 0 ≤ basePeakMa := le_max_left _ _

theorem vrefDividerMa_nonneg : 0 ≤ vrefDividerMa := by
  norm_num [vrefDividerMa, afeSupplyV]

theorem carrier_mul_le {x : ℚ} (hx : 0 ≤ x) (i : ℕ) : p.carrier i * x ≤ x := by
  rw [carrier]
  split
  · rw [one_mul]
  · rwa [zero_mul]

theorem esp32CurrentMa_le (eventEdges : List ℕ) (i : ℕ) :
    p.esp32CurrentMa eventEdges i
      ≤ power.esp32WifiTxPeakMa + power.xiaoBoardOverheadMaEstimate := by
  rw [esp32CurrentMa]
  split
  · exact le_rfl
  · split <;> norm_num [power]

/-- A disabled controller draws nothing, an enabled one at most its dominant current. -/
theorem canCurrentMa_le (i : ℕ) :
    p.canCurrentMa i
      ≤ if p.canEnabled then p.canIdleMa + power.canDominantLineDriveMaEstimate else 0 := by
  rw [canCurrentMa, canDominant]
  cases hcan : p.canEnabled with
  | false => simp [canIdleMa, hcan]
  | true =>
    rw [if_pos rfl]
    refine add_le_add_right ?_ _
    split <;> norm_num [power]

theorem localBypassInrushMa_nonneg (hrise : 0 < p.supplyRiseUs) : 0 ≤ p.localBypassInrushMa := by
  have hs : 0 < p.supplyRiseS := mul_pos hrise (by norm_num)
  have hcharge : 0 ≤ power.localDecouplingUf * 1e-6 * afeSupplyV := by
    norm_num [power, afeSupplyV]
  exact mul_nonneg (div_nonneg hcharge hs.le) (by norm_num)

theorem inrushMa_le (hrise : 0 < p.supplyRiseUs) (i : ℕ) :
    p.inrushMa i ≤ p.localBypassInrushMa := by
  rw [inrushMa]
  split
  · exact le_rfl
  · exact localBypassInrushMa_nonneg hrise

/-- A running maximum is at least every value it has seen. -/
theorem le_foldl_max (f : ℕ → ℚ) (l : List ℕ) (m : ℚ) :
    m ≤ l.foldl (fun m i => max m (f i)) m ∧ ∀ i ∈ l, f i ≤ l.foldl (fun m i => max m (f i)) m := by
  induction l generalizing m with
  | nil => exact ⟨le_rfl, nofun⟩
  | cons j l ih =>
    obtain ⟨hm, hl⟩ := ih (max m (f j))
    refine ⟨(le_max_left _ _).trans hm, fun i hi => ?_⟩
    rcases List.mem_cons.mp hi with rfl | hi
    · exact (le_max_right _ _).trans hm
    · exact hl i hi

theorem comparatorDynamicMa_le (comparator : List ℕ) {i : ℕ} (hi : i < p.size) :
    p.comparatorDynamicMa comparator i ≤ p.comparatorDynamicMax comparator :=
  (le_foldl_max _ _ 0).2 i (List.mem_range.mpr hi)

section Bound

variable {K : Type} [Field K] [LinearOrder K] [IsStrictOrderedRing K] {exp : ℚ → K}

/-- The startup of the reference decays from the current of its divider. -/
theorem vrefStartupExtraMa_le (hexp : ∀ x ≤ 0, 0 < exp x ∧ exp x ≤ 1) (hrate : 0 ≤ p.sampleRateHz)
    (i : ℕ) : p.vrefStartupExtraMa exp i ≤ (vrefDividerMa : K) := by
  have hrate' : (0 : ℚ) ≤ p.sampleRateHz := by exact_mod_cast hrate
  have htime : 0 ≤ p.time i := mul_nonneg (Nat.cast_nonneg i) (div_nonneg zero_le_one hrate')
  have hneg : -p.time i / vrefTauS ≤ 0 :=
    div_nonpos_of_nonpos_of_nonneg (by linarith) (by norm_num [vrefTauS])
  have hdivider : (0 : K) ≤ (vrefDividerMa : K) := by exact_mod_cast vrefDividerMa_nonneg
  exact mul_le_of_le_one_right hdivider (hexp _ hneg).2

theorem systemCurrentMa_le (hexp : ∀ x ≤ 0, 0 < exp x ∧ exp x ≤ 1) (hrate : 0 ≤ p.sampleRateHz)
    (hrise : 0 < p.supplyRiseUs) (comparator eventEdges : List ℕ) {i : ℕ} (hi : i < p.size) :
    p.systemCurrentMa exp comparator eventEdges i ≤ (p.systemPeakEstimateMa comparator : K) := by
  have hesp : (p.esp32CurrentMa eventEdges i : K)
      ≤ ((power.esp32WifiTxPeakMa + power.xiaoBoardOverheadMaEstimate : ℚ) : K) := by
    exact_mod_cast esp32CurrentMa_le eventEdges i
  have hled : ((p.carrier i * ledMa : ℚ) : K) ≤ (ledMa : K) := by
    exact_mod_cast carrier_mul_le ledMa_nonneg i
  have hbase : ((p.carrier i * basePeakMa : ℚ) : K) ≤ (basePeakMa : K) := by
    exact_mod_cast carrier_mul_le basePeakMa_nonneg i
  have hinrush : (p.inrushMa i : K) ≤ (p.localBypassInrushMa : K) := by
    exact_mod_cast inrushMa_le hrise i
  have hvref := p.vrefStartupExtraMa_le hexp hrate i
  have hdynamic : (p.comparatorDynamicMa comparator i : K)
      ≤ (p.comparatorDynamicMax comparator : K) := by
    exact_mod_cast comparatorDynamicMa_le comparator hi
  have hcan : (p.canCurrentMa i : K) ≤ ((if p.canEnabled then
      p.canIdleMa + power.canDominantLineDriveMaEstimate else 0 : ℚ) : K) := by
    exact_mod_cast canCurrentMa_le i
  rw [systemCurrentMa, afeCurrentMa, systemPeakEstimateMa]
  push_cast at hesp hled hbase hcan ⊢
  linarith

omit [LinearOrder K] [IsStrictOrderedRing K] in
/-- What an accepted set of parameters makes `simulate` report. -/
theorem rail_eq_ok {comparator : List ℕ} {r : Rail K} (h : p.rail exp comparator = .ok r) :
    (p.checkWindow = .ok () ∧ p.checkPower = .ok ()) ∧
    (∃ eventEdges, r.systemCurrentMa = p.systemCurrentMa exp comparator eventEdges) ∧
    r.systemCurrentMaPeakEstimate = p.systemPeakEstimateMa comparator ∧
    (r.withinXiao3v3Capacity = true ↔
      p.systemPeakEstimateMa comparator < power.xiao3v3RegulatorCapacityMa) ∧
    (r.withinEsp32RecommendedSupplyCapacity = true ↔
      p.systemPeakEstimateMa comparator < power.esp32RecommendedSupplyCapacityMa) := by
  rw [rail] at h
  obtain ⟨_, hwindow, _, -, hold, -, h⟩ := by
    simpa only [bind_eq_ok] using h
  cases comparator with
  | nil => cases h
  | cons first rest =>
    obtain ⟨_, hpower, h⟩ := bind_eq_ok.mp h
    obtain rfl := ok_eq_ok.mp h
    exact ⟨⟨hwindow, hpower⟩, ⟨_, rfl⟩, rfl, decide_eq_true_iff, decide_eq_true_iff⟩

/-- The reported peak bounds every sample of the trace, so a supply check that passes
holds at every instant. Each of the nine contributions is below the value that the
estimate takes for it, and the estimate is their sum. -/
theorem current_le_peak (p : Parameters) {exp : ℚ → K} (hexp : ∀ x ≤ 0, 0 < exp x ∧ exp x ≤ 1)
    (comparator : List ℕ) (r : Rail K) (h : p.rail exp comparator = .ok r) (i : ℕ)
    (hi : i < p.size) :
    r.systemCurrentMa i ≤ (r.systemCurrentMaPeakEstimate : K) ∧
    (r.withinXiao3v3Capacity = true →
      r.systemCurrentMa i < (power.xiao3v3RegulatorCapacityMa : K)) ∧
    (r.withinEsp32RecommendedSupplyCapacity = true →
      r.systemCurrentMa i < (power.esp32RecommendedSupplyCapacityMa : K)) := by
  obtain ⟨⟨hwindow, hpower⟩, ⟨eventEdges, htrace⟩, hpeak, hxiao, hesp⟩ := rail_eq_ok h
  obtain ⟨⟨hcarrier, -⟩, -, -, hrate⟩ := checkWindow_eq_ok.mp hwindow
  obtain ⟨-, -, hrise, -⟩ := checkPower_eq_ok.mp hpower
  have hrate' : (0 : ℚ) ≤ p.sampleRateHz := by linarith
  have hle := systemCurrentMa_le hexp (by exact_mod_cast hrate') hrise comparator eventEdges hi
  rw [htrace, hpeak]
  refine ⟨hle, fun hbelow => hle.trans_lt ?_, fun hbelow => hle.trans_lt ?_⟩
  · exact_mod_cast hxiao.mp hbelow
  · exact_mod_cast hesp.mp hbelow

end Bound

/-- Two samples at the default parameters. -/
def short : Parameters := { Parameters.default with speedKmh := 60, durationS := 1 / 1000000 }

theorem short_size : short.size = 2 := by
  norm_num [short, size, dt, Parameters.default]

theorem short_rail : ∃ r, short.rail (fun x => Real.exp x) [0, 1] = .ok r := by
  have haccept := default_accepted (v := 60) (D := 1 / 1000000) (by norm_num) (by norm_num)
  obtain ⟨hwindow, htiming, hpower⟩ := accept_eq_ok.mp haccept
  have hhold : ∃ n, short.demodHold = .ok n := by
    refine ⟨_, bind_eq_ok.mpr ⟨_, divide_eq_ok.mpr ⟨?_, rfl⟩, rfl⟩⟩
    norm_num [short, Parameters.default]
  obtain ⟨n, hn⟩ := hhold
  have hwindow : short.checkWindow = .ok () := hwindow
  have htiming : short.timing = .ok _ := htiming
  have hpower : short.checkPower = .ok () := hpower
  rw [rail, hwindow, htiming, hn, hpower]
  exact ⟨_, rfl⟩

/-- The bound with the exponential itself. -/
theorem short_current_le_peak :
    ∃ r : Rail ℝ, short.rail (fun x => Real.exp x) [0, 1] = .ok r ∧
      r.systemCurrentMa 1 ≤ (r.systemCurrentMaPeakEstimate : ℝ) := by
  obtain ⟨r, hr⟩ := short_rail
  refine ⟨r, hr, (current_le_peak short (fun x hx => ⟨Real.exp_pos _, ?_⟩) [0, 1] r hr 1 ?_).1⟩
  · rw [Real.exp_le_one_iff]
    exact_mod_cast hx
  · rw [short_size]
    decide

end Parameters

end SpokeSensor.Simulation
