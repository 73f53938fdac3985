import SpokeSensor.Core.Config
import SpokeSensor.Lib.Rollover
import Mathlib.Data.List.ReduceOption

/-!
# The monitor of the optical link (`ir_spoke_link_monitor.c`)

A pulse counter sees the raw output of the receiver. Every `LINK_SAMPLE_MS` the task
reads it, sets it back to zero, and compares the rate with a share of the carrier.

- `pcntEdge`: the counter has no accumulation (78–81); when it reaches its upper limit
  it starts over at zero.
- `sample`, `report` (31–67): a turn of `link_monitor_task`, with its conversions.
- `carrierWindow`, `ReportsCarrier`: the edges of an undisturbed carrier in a window,
  and what a right report of them says.
- `carrier_up_iff`: a window with as many edges as the limit is reported with a rate
  that is far too low, and all the others are right.

Two things are idealised. The reading of the counter, of the clock and the reset of
the counter (32–34) count as one instant, in whole microseconds; between the actual
calls an edge may come that belongs to no window. And the counter is taken as zero at
`sample_start_us` (22); the unit is started a little before the task takes that time
(111–116), so the first window may hold some edges more.
-/

namespace SpokeSensor

open Rollover

/-- `ir_spoke_link_state_t` -/
inductive LinkState where
  | unknown
  | down
  | up
  deriving DecidableEq, Repr

/-- `pcnt_unit_config_t` -/
structure PcntUnitConfig where
  lowLimit : ℤ
  highLimit : ℕ

namespace LinkMonitor

/-- The options of the menu "Optical link detector", in their ranges. -/
structure Options where
  linkSampleMs : ℕ
  linkMinCarrierPercent : ℕ
  sampleMs_range : 20 ≤ linkSampleMs ∧ linkSampleMs ≤ 1000
  percent_range : 5 ≤ linkMinCarrierPercent ∧ linkMinCarrierPercent ≤ 90

/-- The defaults of the menu. -/
def Options.default : Options where
  linkSampleMs := 100
  linkMinCarrierPercent := 25
  sampleMs_range := by decide
  percent_range := by decide

/-- `unit_config` of `ir_spoke_link_monitor_start` -/
def unitConfig : PcntUnitConfig where
  lowLimit := -1
  highLimit := 30000

/-- A rising edge, in a counter without accumulation. -/
def pcntEdge (c : ℕ) : ℕ := count unitConfig.highLimit c

/-- The arguments of `ir_spoke_debug_carrier_link_state`. -/
structure Report where
  state : LinkState
  measuredCarrierHz : UInt32
  expectedCarrierHz : UInt32
  risingEdges : UInt32
  sampleMs : UInt32
  deriving DecidableEq

/-- What the driver and the timer return in one turn of the loop. -/
structure Reading where
  /-- `edge_count`, unless `pcnt_unit_get_count` fails -/
  edgeCount : Option ℤ
  sampleEndUs : ℤ
  /-- `pcnt_unit_clear_count` succeeds -/
  cleared : Bool

/-- `measured_hz` -/
def measuredHz (edges : UInt32) (elapsedUs : UInt64) : UInt32 :=
  if elapsedUs ≠ 0 then ((edges.toUInt64 * 1000000 + elapsedUs / 2) / elapsedUs).toUInt32 else 0

/-- `minimum_hz` -/
def minimumHz (o : Options) (carrierHz : UInt32) : UInt32 :=
  (carrierHz.toUInt64 * UInt64.ofNat o.linkMinCarrierPercent / 100).toUInt32

/-- The report that the task makes before its loop. -/
def firstReport (o : Options) (linkConfig : RuntimeConfig) : Report where
  state := .unknown
  measuredCarrierHz := 0
  expectedCarrierHz := linkConfig.carrierHz
  risingEdges := 0
  sampleMs := UInt32.ofNat o.linkSampleMs

/-- The end of a turn, from `edges` and `elapsed_us` on. -/
def report (o : Options) (linkConfig : RuntimeConfig) (edges : UInt32) (elapsedUs : UInt64) :
    Report where
  state :=
    if minimumHz o linkConfig.carrierHz ≤ measuredHz edges elapsedUs then .up else .down
  measuredCarrierHz := measuredHz edges elapsedUs
  expectedCarrierHz := linkConfig.carrierHz
  risingEdges := edges
  sampleMs := ((elapsedUs + 500) / 1000).toUInt32

/-- One turn of the loop of `link_monitor_task` after the delay: `sample_start_us`, and
the report. -/
def sample (o : Options) (linkConfig : RuntimeConfig) (sampleStartUs : ℤ) (r : Reading) :
    ℤ × Option Report :=
  match r.edgeCount, r.cleared with
  | some edgeCount, true =>
    let elapsedUs : UInt64 :=
      if sampleStartUs < r.sampleEndUs then UInt64.ofNat (r.sampleEndUs - sampleStartUs).toNat
      else UInt64.ofNat o.linkSampleMs * 1000
    let edges : UInt32 := if 0 < edgeCount then UInt32.ofNat edgeCount.toNat else 0
    (r.sampleEndUs, some (report o linkConfig edges elapsedUs))
  | _, _ => (r.sampleEndUs, none)

/-! ## The monitor in its surroundings

The carrier as a sequence of edges at a fixed rate, and the windows as FreeRTOS makes
them: `vTaskDelay` may return up to a tick early and any time late.
-/

/-- The variable of the task and the register of the counter. -/
structure State where
  sampleStartUs : ℤ
  count : ℕ

/-- One turn of the loop, seen from outside: the edges that arrive up to the reading,
its time, and whether the driver does what it is asked. -/
structure Window where
  edges : ℕ
  endUs : ℤ
  readOk : Bool
  clearOk : Bool

/-- One turn of the loop. -/
def step (o : Options) (linkConfig : RuntimeConfig) (s : State) (w : Window) :
    State × Option Report :=
  let count := pcntEdge^[w.edges] s.count
  let r := sample o linkConfig s.sampleStartUs
    { edgeCount := if w.readOk then some (count : ℤ) else none
      sampleEndUs := w.endUs
      cleared := w.clearOk }
  ({ sampleStartUs := r.1, count := if w.clearOk then 0 else count }, r.2)

/-- Turn after turn, with what each of them reports. -/
def run (o : Options) (linkConfig : RuntimeConfig) (s : State) : List Window → List (Option Report)
  | [] => []
  | w :: windows =>
    (step o linkConfig s w).2 :: run o linkConfig (step o linkConfig s w).1 windows

/-- `link_monitor_task`: what it reports from its start on. -/
def linkMonitorTask (o : Options) (linkConfig : RuntimeConfig) (startUs : ℤ)
    (windows : List Window) : List Report :=
  firstReport o linkConfig :: (run o linkConfig ⟨startUs, 0⟩ windows).reduceOption

/-- The rising edges of an undisturbed carrier up to a time. -/
def edgesUntil (carrierHz : UInt32) (phase : ℚ) (us : ℤ) : ℤ :=
  eventsUntil ((carrierHz.toNat : ℚ) / 10 ^ 6) phase us

/-- The edges between two times. -/
def edgesIn (carrierHz : UInt32) (phase : ℚ) (span : ℤ × ℤ) : ℕ :=
  (edgesUntil carrierHz phase span.2 - edgesUntil carrierHz phase span.1).toNat

/-- The windows between the start of the task and the times of its readings. -/
def spans (startUs : ℤ) (ends : List ℤ) : List (ℤ × ℤ) := (startUs :: ends).zip ends

/-- A window of an undisturbed carrier. -/
def carrierWindow (carrierHz : UInt32) (phase : ℚ) (span : ℤ × ℤ) : Window where
  edges := edgesIn carrierHz phase span
  endUs := span.2
  readOk := true
  clearOk := true

/-- The ticks of FreeRTOS, at the default of ESP-IDF or faster. -/
structure TickRate where
  hz : ℕ
  default_le : 100 ≤ hz

/-- `pdMS_TO_TICKS` -/
def pdMsToTicks (rate : TickRate) (ms : ℕ) : ℕ := ms * rate.hz / 1000

/-- `vTaskDelay` has let all ticks pass but the one that was running, and the task has
been given the processor within an hour. -/
structure Delayed (rate : TickRate) (o : Options) (span : ℤ × ℤ) : Prop where
  ticks : ((pdMsToTicks rate o.linkSampleMs - 1 : ℕ) : ℤ) * 10 ^ 6 ≤ rate.hz * (span.2 - span.1)
  hour : span.2 - span.1 ≤ 3600 * 10 ^ 6

/-- The link is up, and the rate is that of the carrier to within one edge in the
window, rounded. -/
structure ReportsCarrier (carrierHz : UInt32) (span : ℤ × ℤ) (r : Report) : Prop where
  up : r.state = .up
  near : |(r.measuredCarrierHz.toNat : ℚ) - carrierHz.toNat|
    ≤ 10 ^ 6 / (span.2 - span.1 : ℤ) + 1 / 2

/-! ## Arithmetic

The measured rate and the threshold are computed in 64 bits and cast
(`ir_spoke_link_monitor.c:45–58`).
-/

theorem iterate_pcntEdge (n : ℕ) : pcntEdge^[n] 0 = n % 30000 := by
  have hiterate := iterate_count (m := 30000) (c := 0) (by norm_num) n
  rw [Nat.zero_add] at hiterate
  exact hiterate

/-- A quotient rounded to the nearest number. -/
theorem rounded_div_bounds (n : ℕ) {d : ℕ} (hd : 0 < d) :
    2 * ((n + d / 2) / d * d) ≤ 2 * n + d ∧ 2 * n < 2 * ((n + d / 2) / d * d) + d + 1 := by
  have hlow := Nat.div_mul_le_self (n + d / 2) d
  have hhigh := Nat.lt_div_mul_add hd (a := n + d / 2)
  constructor <;> omega

theorem measuredHz_toNat {edges : UInt32} {elapsedUs : UInt64} (hedges : edges.toNat < 30000)
    (hlow : 6000 ≤ elapsedUs.toNat) (hhigh : elapsedUs.toNat ≤ 3600 * 10 ^ 6) :
    (measuredHz edges elapsedUs).toNat
      = (edges.toNat * 10 ^ 6 + elapsedUs.toNat / 2) / elapsedUs.toNat := by
  have hne : elapsedUs ≠ 0 := by
    rintro rfl
    exact absurd hlow (by decide)
  have hproduct : (edges.toUInt64 * 1000000).toNat = edges.toNat * 10 ^ 6 := by
    rw [UInt64.toNat_mul, UInt32.toNat_toUInt64]
    exact Nat.mod_eq_of_lt (by show edges.toNat * 1000000 < 2 ^ 64; omega)
  have hhalf : (elapsedUs / 2).toNat = elapsedUs.toNat / 2 := UInt64.toNat_div _ _
  have hsum : (edges.toUInt64 * 1000000 + elapsedUs / 2).toNat
      = edges.toNat * 10 ^ 6 + elapsedUs.toNat / 2 := by
    rw [UInt64.toNat_add, hproduct, hhalf]
    exact Nat.mod_eq_of_lt (by omega)
  rw [measuredHz, if_pos hne, UInt64.toNat_toUInt32, UInt64.toNat_div, hsum]
  refine Nat.mod_eq_of_lt ?_
  rw [Nat.div_lt_iff_lt_mul (by omega)]
  omega

theorem minimumHz_toNat (o : Options) (carrierHz : UInt32) :
    (minimumHz o carrierHz).toNat = carrierHz.toNat * o.linkMinCarrierPercent / 100 := by
  have hcarrier := carrierHz.toNat_lt
  have hpercent := o.percent_range.2
  have hbound : carrierHz.toNat * o.linkMinCarrierPercent ≤ carrierHz.toNat * 90 :=
    Nat.mul_le_mul_left _ hpercent
  have hofNat : (UInt64.ofNat o.linkMinCarrierPercent).toNat = o.linkMinCarrierPercent :=
    UInt64.toNat_ofNat_of_lt' (by show _ < 2 ^ 64; omega)
  have hproduct : (carrierHz.toUInt64 * UInt64.ofNat o.linkMinCarrierPercent).toNat
      = carrierHz.toNat * o.linkMinCarrierPercent := by
    rw [UInt64.toNat_mul, UInt32.toNat_toUInt64, hofNat]
    exact Nat.mod_eq_of_lt (by omega)
  rw [minimumHz, UInt64.toNat_toUInt32, UInt64.toNat_div, hproduct]
  exact Nat.mod_eq_of_lt (by show _ / 100 < 2 ^ 32; omega)

/-! ## One window

How many edges an undisturbed carrier has in a window, and what is reported of them.
The counter starts again at its limit, so from there on edges are missing.
-/

variable {o : Options} {rate : TickRate} {span : ℤ × ℤ} {linkConfig : RuntimeConfig} {phase : ℚ}

/-- A window lasts six milliseconds at least. -/
theorem Delayed.six_ms_le (h : Delayed rate o span) : 6000 ≤ span.2 - span.1 := by
  have hrate := rate.default_le
  have hticks := h.ticks
  have hleast : 20 * rate.hz / 1000 ≤ pdMsToTicks rate o.linkSampleMs :=
    Nat.div_le_div_right (Nat.mul_le_mul_right _ o.sampleMs_range.1)
  by_contra hshort
  have hproduct : (rate.hz : ℤ) * (span.2 - span.1) ≤ rate.hz * 5999 :=
    mul_le_mul_of_nonneg_left (by omega) (Int.natCast_nonneg _)
  omega

/-- The edges in a window, without fractions. -/
theorem edgesIn_bounds (carrierHz : UInt32) (phase : ℚ) (h : span.1 ≤ span.2) :
    edgesIn carrierHz phase span * 10 ^ 6
        < carrierHz.toNat * (span.2 - span.1).toNat + 10 ^ 6 ∧
      carrierHz.toNat * (span.2 - span.1).toNat
        < edgesIn carrierHz phase span * 10 ^ 6 + 10 ^ 6 := by
  have hrate : (0 : ℚ) ≤ (carrierHz.toNat : ℚ) / 10 ^ 6 := by positivity
  have hmono : edgesUntil carrierHz phase span.1 ≤ edgesUntil carrierHz phase span.2 :=
    eventsUntil_mono hrate (by exact_mod_cast h)
  have hnear := abs_eventsUntil_sub_lt_one ((carrierHz.toNat : ℚ) / 10 ^ 6) phase span.1 span.2
  have hedges : ((edgesIn carrierHz phase span : ℕ) : ℤ)
      = edgesUntil carrierHz phase span.2 - edgesUntil carrierHz phase span.1 :=
    Int.toNat_of_nonneg (by omega)
  have hspan : (((span.2 - span.1).toNat : ℕ) : ℤ) = span.2 - span.1 :=
    Int.toNat_of_nonneg (by omega)
  have hspanq : (((span.2 - span.1).toNat : ℕ) : ℚ) = (span.2 : ℚ) - span.1 := by
    exact_mod_cast hspan
  have hedgesq : ((edgesIn carrierHz phase span : ℕ) : ℚ)
      = ((edgesUntil carrierHz phase span.2 - edgesUntil carrierHz phase span.1 : ℤ) : ℚ) := by
    exact_mod_cast hedges
  rw [← edgesUntil, ← edgesUntil, ← hedgesq, ← hspanq, abs_sub_lt_iff] at hnear
  obtain ⟨hhigh, hlow⟩ := hnear
  constructor
  · have hq : ((edgesIn carrierHz phase span : ℕ) : ℚ) * 10 ^ 6
        < carrierHz.toNat * (span.2 - span.1).toNat + 10 ^ 6 := by linarith
    exact_mod_cast hq
  · have hq : (carrierHz.toNat : ℚ) * (span.2 - span.1).toNat
        < edgesIn carrierHz phase span * 10 ^ 6 + 10 ^ 6 := by linarith
    exact_mod_cast hq

/-- A window that is some whole number of periods long has that many edges. -/
theorem edgesIn_eq {carrierHz : UInt32} {n : ℕ} (phase : ℚ) (h : span.1 ≤ span.2)
    (hwhole : carrierHz.toNat * (span.2 - span.1).toNat = n * 10 ^ 6) :
    edgesIn carrierHz phase span = n := by
  obtain ⟨hfew, hmany⟩ := edgesIn_bounds carrierHz phase h
  omega

/-- A window of an undisturbed carrier that starts with an empty counter: what the task
makes of it, and the counter is empty again. -/
theorem step_carrierWindow (o : Options) (linkConfig : RuntimeConfig) (phase : ℚ)
    (h : span.1 < span.2) :
    step o linkConfig ⟨span.1, 0⟩ (carrierWindow linkConfig.carrierHz phase span)
      = (⟨span.2, 0⟩, some (report o linkConfig
          (UInt32.ofNat (edgesIn linkConfig.carrierHz phase span % 30000))
          (UInt64.ofNat (span.2 - span.1).toNat))) := by
  have hedges : (if (0 : ℤ) < (edgesIn linkConfig.carrierHz phase span % 30000 : ℕ)
      then UInt32.ofNat ((edgesIn linkConfig.carrierHz phase span % 30000 : ℕ) : ℤ).toNat else 0)
      = UInt32.ofNat (edgesIn linkConfig.carrierHz phase span % 30000) := by
    rw [Int.toNat_natCast]
    split_ifs with hpos
    · rfl
    · have hzero : edgesIn linkConfig.carrierHz phase span % 30000 = 0 := by omega
      rw [hzero]
      rfl
  rw [step, carrierWindow]
  dsimp only [sample]
  rw [iterate_pcntEdge, if_pos rfl, if_pos h]
  dsimp only
  rw [hedges]
  rfl

/-- The rate in that report, and when the link counts as up. -/
theorem report_carrierWindow (linkConfig : RuntimeConfig) (hdelayed : Delayed rate o span)
    {n : ℕ} (hn : n < 30000) :
    let r := report o linkConfig (UInt32.ofNat n) (UInt64.ofNat (span.2 - span.1).toNat)
    r.measuredCarrierHz.toNat
        = (n * 10 ^ 6 + (span.2 - span.1).toNat / 2) / (span.2 - span.1).toNat ∧
      (r.state = .up ↔ linkConfig.carrierHz.toNat * o.linkMinCarrierPercent / 100
        ≤ r.measuredCarrierHz.toNat) := by
  have hlow := hdelayed.six_ms_le
  have hhigh := hdelayed.hour
  have helapsed : (UInt64.ofNat (span.2 - span.1).toNat).toNat = (span.2 - span.1).toNat :=
    UInt64.toNat_ofNat_of_lt' (by show _ < 2 ^ 64; omega)
  have hedges : (UInt32.ofNat n).toNat = n :=
    UInt32.toNat_ofNat_of_lt' (by show _ < 2 ^ 32; omega)
  constructor
  · rw [report, measuredHz_toNat (by rw [hedges]; exact hn) (by rw [helapsed]; omega)
      (by rw [helapsed]; omega), hedges, helapsed]
  · rw [← minimumHz_toNat, ← UInt32.le_iff_toNat_le, report]
    split_ifs with hup
    · exact iff_of_true rfl hup
    · exact iff_of_false nofun hup

/-- The distance of two rates in a window of `d` microseconds, without fractions. -/
theorem near_iff {m f d : ℕ} (hd : 0 < d) :
    |(m : ℚ) - f| ≤ 10 ^ 6 / d + 1 / 2 ↔
      2 * (m * d) ≤ 2 * (f * d) + 2 * 10 ^ 6 + d ∧ 2 * (f * d) ≤ 2 * (m * d) + 2 * 10 ^ 6 + d := by
  have hdq : (0 : ℚ) < d := by exact_mod_cast hd
  have hsum : (10 : ℚ) ^ 6 / d + 1 / 2 = (2 * 10 ^ 6 + d) / (2 * d) := by
    field_simp
  rw [hsum, abs_sub_le_iff, le_div_iff₀ (by positivity), le_div_iff₀ (by positivity)]
  constructor
  · rintro ⟨hhigh, hlow⟩
    constructor
    · have hq : 2 * ((m : ℚ) * d) ≤ 2 * (f * d) + 2 * 10 ^ 6 + d := by linarith
      exact_mod_cast hq
    · have hq : 2 * ((f : ℚ) * d) ≤ 2 * (m * d) + 2 * 10 ^ 6 + d := by linarith
      exact_mod_cast hq
  · rintro ⟨hhigh, hlow⟩
    have hhighq : 2 * ((m : ℚ) * d) ≤ 2 * (f * d) + 2 * 10 ^ 6 + d := by exact_mod_cast hhigh
    have hlowq : 2 * ((f : ℚ) * d) ≤ 2 * (m * d) + 2 * 10 ^ 6 + d := by exact_mod_cast hlow
    constructor <;> linarith

/-- A rate that is one edge and one half too low still reaches the highest threshold. -/
theorem threshold_le {m f d percent : ℕ} (hf : 25000 ≤ f) (hpercent : percent ≤ 90)
    (hd : 6000 ≤ d) (h : 2 * (f * d) ≤ 2 * (m * d) + 2 * 10 ^ 6 + d) : f * percent / 100 ≤ m := by
  have hshare : f * percent ≤ f * 90 := Nat.mul_le_mul_left _ hpercent
  by_contra hlt
  -- a rate below the threshold lacks more than 2499 Hz
  have hmissing : (m + 2500) * d ≤ f * d := Nat.mul_le_mul_right _ (by omega)
  rw [Nat.add_mul] at hmissing
  omega

/-- A window of an undisturbed carrier is reported right exactly when the counter has
not come to its limit. -/
theorem reportsCarrier_iff (hlow : 25000 ≤ linkConfig.carrierHz.toNat)
    (hdelayed : Delayed rate o span) :
    ReportsCarrier linkConfig.carrierHz span (report o linkConfig
        (UInt32.ofNat (edgesIn linkConfig.carrierHz phase span % 30000))
        (UInt64.ofNat (span.2 - span.1).toNat)) ↔
      edgesIn linkConfig.carrierHz phase span < 30000 := by
  have hsix := hdelayed.six_ms_le
  have hhour := hdelayed.hour
  obtain ⟨hrate, hstate⟩ := report_carrierWindow linkConfig hdelayed
    (Nat.mod_lt (edgesIn linkConfig.carrierHz phase span) (by norm_num : 30000 > 0))
  have hle : span.1 ≤ span.2 := by omega
  obtain ⟨hfew, hmany⟩ := edgesIn_bounds linkConfig.carrierHz phase hle
  have hspan : ((span.2 - span.1).toNat : ℤ) = span.2 - span.1 := Int.toNat_of_nonneg (by omega)
  have hd : 6000 ≤ (span.2 - span.1).toNat := by omega
  have hd' : (span.2 - span.1).toNat ≤ 3600 * 10 ^ 6 := by omega
  have hcast : ((span.2 - span.1 : ℤ) : ℚ) = ((span.2 - span.1).toNat : ℕ) := by
    exact_mod_cast hspan.symm
  have hpos : 0 < (span.2 - span.1).toNat := by omega
  obtain ⟨hquot, hquot'⟩ := rounded_div_bounds
    (edgesIn linkConfig.carrierHz phase span % 30000 * 10 ^ 6) hpos
  rw [← hrate] at hquot hquot'
  constructor
  · rintro ⟨-, hnear⟩
    rw [hcast, near_iff hpos] at hnear
    by_contra hlimit
    -- thirty thousand edges are missing
    have hmod : edgesIn linkConfig.carrierHz phase span % 30000 + 30000
        ≤ edgesIn linkConfig.carrierHz phase span := by omega
    omega
  · intro hlimit
    rw [Nat.mod_eq_of_lt hlimit] at hquot hquot' hrate hstate ⊢
    refine ⟨hstate.mpr (threshold_le hlow o.percent_range.2 hd (by omega)), ?_⟩
    rw [hcast, near_iff hpos]
    constructor <;> omega

/-! ## All windows

Every window of a run is one of these, since the counter is cleared at its end.
-/

theorem report_state_ne (o : Options) (linkConfig : RuntimeConfig) (edges : UInt32)
    (elapsedUs : UInt64) : (report o linkConfig edges elapsedUs).state ≠ .unknown := by
  by_cases hup : minimumHz o linkConfig.carrierHz ≤ measuredHz edges elapsedUs
  · rw [report, if_pos hup]
    exact nofun
  · rw [report, if_neg hup]
    exact nofun

theorem sample_state_ne {startUs : ℤ} {reading : Reading} {r : Report}
    (h : (sample o linkConfig startUs reading).2 = some r) : r.state ≠ .unknown := by
  rw [sample] at h
  split at h
  · obtain rfl := Option.some.inj h
    exact report_state_ne _ _ _ _
  · cases h

/-- A report of the loop says whether the link is up, whatever the driver does. -/
theorem state_ne_unknown (o : Options) (linkConfig : RuntimeConfig) (s : State)
    (windows : List Window) : ∀ r, some r ∈ run o linkConfig s windows → r.state ≠ .unknown := by
  induction windows generalizing s with
  | nil => exact fun r hr => absurd hr List.not_mem_nil
  | cons w windows ih =>
    intro r hr
    rcases List.mem_cons.mp hr with hfirst | hrest
    · exact sample_state_ne hfirst.symm
    · exact ih _ r hrest

/-- The state is unknown once, before the first window. -/
theorem unknown_only_first (o : Options) (linkConfig : RuntimeConfig) (startUs : ℤ)
    (windows : List Window) :
    (linkMonitorTask o linkConfig startUs windows).countP (fun r => r.state = .unknown) = 1 := by
  have hrest : (run o linkConfig ⟨startUs, 0⟩ windows).reduceOption.countP
      (fun r => r.state = .unknown) = 0 := by
    rw [List.countP_eq_zero]
    intro r hr
    have hne := state_ne_unknown o linkConfig ⟨startUs, 0⟩ windows r
      (List.reduceOption_mem_iff.mp hr)
    simpa using hne
  rw [linkMonitorTask, List.countP_cons_of_pos (by rfl), hrest]

@[simp] theorem spans_cons (startUs endUs : ℤ) (ends : List ℤ) :
    spans startUs (endUs :: ends) = (startUs, endUs) :: spans endUs ends := rfl

/-- While the carrier is undisturbed, the reports are right in exactly those windows in
which fewer edges arrive than the limit of the counter. A window is the time between two
readings; the counter is zero at its start, and the reading, the clock and the reset are one
instant. -/
theorem carrier_up_iff (rate : TickRate) (o : Options) (linkConfig : RuntimeConfig)
    (hlow : 25000 ≤ linkConfig.carrierHz.toNat) (phase : ℚ) (startUs : ℤ) (ends : List ℤ)
    (hdelayed : ∀ span ∈ spans startUs ends, Delayed rate o span) :
    List.Forall₂ (fun span result =>
        (∃ r, result = some r ∧ ReportsCarrier linkConfig.carrierHz span r) ↔
          edgesIn linkConfig.carrierHz phase span < 30000)
      (spans startUs ends)
      (run o linkConfig ⟨startUs, 0⟩
        ((spans startUs ends).map (carrierWindow linkConfig.carrierHz phase))) := by
  induction ends generalizing startUs with
  | nil => exact .nil
  | cons endUs ends ih =>
    rw [spans_cons] at hdelayed ⊢
    obtain ⟨hfirst, hrest⟩ := List.forall_mem_cons.mp hdelayed
    have hsix : 6000 ≤ endUs - startUs := hfirst.six_ms_le
    have hlt : ((startUs, endUs) : ℤ × ℤ).1 < (startUs, endUs).2 := by
      show startUs < endUs
      omega
    rw [List.map_cons, run, step_carrierWindow o linkConfig phase hlt]
    refine .cons ?_ (ih endUs hrest)
    rw [← reportsCarrier_iff hlow hfirst]
    constructor
    · rintro ⟨r, hr, hreports⟩
      obtain rfl := Option.some.inj hr
      exact hreports
    · intro hreports
      exact ⟨_, rfl, hreports⟩

/-- The default window is far from the limit. -/
theorem default_carrier_up : ∃ r,
    run .default .configDefaults ⟨0, 0⟩ [carrierWindow 38000 0 (0, 100000)] = [some r] ∧
      ReportsCarrier 38000 (0, 100000) r := by
  have hdelayed : Delayed ⟨100, le_rfl⟩ .default (0, 100000) := ⟨by decide, by norm_num⟩
  have hedges : edgesIn 38000 0 (0, 100000) = 3800 :=
    edgesIn_eq 0 (by norm_num) (by decide)
  have hwindows := carrier_up_iff ⟨100, le_rfl⟩ .default .configDefaults (by decide) 0 0 [100000]
    fun span hspan => List.mem_singleton.mp hspan ▸ hdelayed
  obtain ⟨result, rest, hresult, hrest, hrun⟩ := List.forall₂_cons_left_iff.mp hwindows
  obtain rfl := List.forall₂_nil_left_iff.mp hrest
  obtain ⟨r, rfl, hreports⟩ := hresult.mpr (hedges.trans_lt (by norm_num))
  exact ⟨r, hrun, hreports⟩

/-- A window of one second at 38 kHz: of the 38000 edges the counter holds 8000. -/
theorem second_carrier_down :
    ∃ r, run ⟨1000, 25, by decide, by decide⟩ .configDefaults ⟨0, 0⟩
        [carrierWindow 38000 0 (0, 1000000)] = [some r] ∧
      r.measuredCarrierHz = 8000 ∧ r.state = .down ∧ ¬ ReportsCarrier 38000 (0, 1000000) r := by
  have hedges : edgesIn 38000 0 (0, 1000000) = 38000 :=
    edgesIn_eq 0 (by norm_num) (by decide)
  have hlt : ((0, 1000000) : ℤ × ℤ).1 < (0, 1000000).2 := by norm_num
  have hstep := step_carrierWindow ⟨1000, 25, by decide, by decide⟩ .configDefaults 0 hlt
  change step _ _ ⟨0, 0⟩ (carrierWindow 38000 0 (0, 1000000)) = (_, some (report _ _
    (UInt32.ofNat (edgesIn 38000 0 (0, 1000000) % 30000)) _)) at hstep
  rw [hedges] at hstep
  refine ⟨_, by rw [run, hstep, run], by decide, by decide, fun hreports => ?_⟩
  exact absurd hreports.up (by decide)

end LinkMonitor

end SpokeSensor
