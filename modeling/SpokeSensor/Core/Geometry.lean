import SpokeSensor.Core.PulseRun
import Mathlib.Tactic.FieldSimp
import Mathlib.Tactic.Positivity
import Mathlib.Tactic.Ring

/-!
# Wheel geometry (`ir_spoke_geometry.c`), and the two windows

`geometryCalculate` (`ir_spoke_geometry.c:5–20`) is exact here, over any ordered
field.

- `WheelRun`: a wheel that turns at a constant speed gives pulses that begin at
  equidistant times, read off a clock of whole microseconds, each of the calculated
  width.
- `spacing_mul_count`: width and spacing are tied by the geometry. With 32 spokes or
  more the slowest wheel whose width is accepted still has its spacing accepted
  (`spacing_upper`); with fewer it need not.
- `wheel_run_windows`: every pulse of such a run is accepted, and its spacing enters
  the history unless it is longer than the link-loss limit (`ir_spoke_pattern.c:66`).
- `wheel_run_loses_spacing`: 16 spokes at 16.848 km/h, of which no spacing enters.
-/

namespace SpokeSensor

variable {K : Type} [Field K] [LinearOrder K]

/-- `ir_spoke_geometry_result_t` -/
structure GeometryResult (K : Type) where
  wheelHz : K
  wheelRpm : K
  eventHz : K
  blockageUs : K

namespace Geometry

/-- The literal for `pi`. -/
def pi : K := 314159265358979323846 / 10 ^ 20

/-- `ir_spoke_geometry_calculate` (5–20), with `none` for the return value `-1`. The
null pointer for the result has no counterpart. -/
def geometryCalculate (speedKmh wheelDiameterM beamRadiusM spokeWidthMm : K)
    (spokeCount : UInt8) : Option (GeometryResult K) :=
  if speedKmh ≤ 0 ∨ wheelDiameterM ≤ 0 ∨ beamRadiusM ≤ 0 ∨ spokeWidthMm ≤ 0 ∨ spokeCount = 0 then
    none
  else
    let wheelHz := (speedKmh / (36 / 10)) / (pi * wheelDiameterM)
    some {
      wheelHz
      wheelRpm := 60 * wheelHz
      eventHz := spokeCount.toNat * wheelHz
      blockageUs := 10 ^ 6 * (spokeWidthMm * (1 / 10 ^ 3)) / (2 * pi * wheelHz * beamRadiusM) }

/-- The time between two spokes in microseconds. -/
def spacingUs (g : GeometryResult K) : K := 10 ^ 6 / g.eventHz

variable [IsStrictOrderedRing K]

theorem pi_bounds : (314 / 100 : K) < pi ∧ (pi : K) < 3142 / 1000 := by
  constructor
  · rw [pi, div_lt_div_iff₀ (by positivity) (by positivity)]
    norm_num
  · rw [pi, div_lt_div_iff₀ (by positivity) (by positivity)]
    norm_num

theorem pi_pos : (0 : K) < pi := pi_bounds.1.trans' (by norm_num)

/-- With the configured beam radius and spoke width the spacing is a fixed multiple of
the blockage. -/
theorem spacing_mul_count {speed diameter : K} {n : UInt8} {g : GeometryResult K}
    (hg : geometryCalculate speed diameter (25 / 100) 2 n = some g) :
    spacingUs g * n.toNat = 250 * pi * g.blockageUs := by
  rw [geometryCalculate] at hg
  split_ifs at hg with hbad
  obtain ⟨hspeed, hdiameter, -, -, hcount⟩ : 0 < speed ∧ 0 < diameter ∧ _ ∧ _ ∧ n ≠ 0 := by
    simpa only [not_or, not_le] using hbad
  cases hg
  have hn : (n.toNat : K) ≠ 0 :=
    Nat.cast_ne_zero.mpr fun h => hcount (UInt8.toNat_inj.mp h)
  have hpi : (pi : K) ≠ 0 := pi_pos.ne'
  have hs : speed ≠ 0 := hspeed.ne'
  have hd : diameter ≠ 0 := hdiameter.ne'
  simp only [spacingUs]
  field_simp
  ring

section

variable {speed diameter : K} {n : UInt8} {g : GeometryResult K}
  (hg : geometryCalculate speed diameter (25 / 100) 2 n = some g)

include hg

/-- No wheel with at most 48 spokes has spacings as short as the detector's minimum. -/
theorem spacing_lower (hn : 0 < n.toNat ∧ n.toNat ≤ 48) (hb : 70 ≤ g.blockageUs) :
    1000 < spacingUs g := by
  have hmul := spacing_mul_count hg
  have hpi := (pi_bounds (K := K)).1
  have hpos : (0 : K) < n.toNat := by exact_mod_cast hn.1
  have hle : (n.toNat : K) ≤ 48 := by exact_mod_cast hn.2
  have hprod : (314 / 100 : K) * 70 ≤ pi * g.blockageUs :=
    mul_le_mul hpi.le hb (by norm_num) pi_pos.le
  by_contra hsmall
  have hupper : spacingUs g * n.toNat ≤ 1000 * 48 :=
    mul_le_mul (not_lt.mp hsmall) hle hpos.le (by norm_num)
  linarith

/-- With 32 spokes or more the spacing stays below the link-loss limit. -/
theorem spacing_upper (hn : 32 ≤ n.toNat) (hb : 0 ≤ g.blockageUs ∧ g.blockageUs ≤ 600) :
    spacingUs g < 14800 := by
  have hmul := spacing_mul_count hg
  have hpi := (pi_bounds (K := K)).2
  have hle : (32 : K) ≤ n.toNat := by exact_mod_cast hn
  have hprod : pi * g.blockageUs ≤ (3142 / 1000 : K) * 600 :=
    mul_le_mul hpi.le hb.2 hb.1 (by norm_num)
  by_contra hbig
  have hlower : (14800 : K) * 32 ≤ spacingUs g * n.toNat :=
    mul_le_mul (not_lt.mp hbig) hle (by norm_num) ((not_lt.mp hbig).trans' (by norm_num))
  linarith

end

/-! ## Runs at constant speed

A wheel at constant speed produces pulses at a regular spacing and of a regular width,
on a clock of whole microseconds. Which of the two windows they meet is a question
about two numbers of `ir_spoke_geometry_calculate`.
-/

variable [FloorRing K]

/-- The pulses of a wheel at constant speed: the `k`-th begins at
`phase + k * spacing`, and the clock counts whole microseconds; a width is read as one
of the two whole microseconds around it. No timestamp is the reserved `0`. -/
structure WheelRun (g : GeometryResult K) (phase : K) (u : Pulse) (us : List Pulse) : Prop where
  nonzero : ∀ v ∈ u :: us, v.edgeUs ≠ 0
  width : ∀ v ∈ u :: us,
    ⌊g.blockageUs⌋ ≤ v.durationUs.toNat ∧ (v.durationUs.toNat : ℤ) ≤ ⌈g.blockageUs⌉
  spacing : ∀ k gap : ℕ, (Pipeline.gaps u.edgeUs us)[k]? = some gap →
    (gap : ℤ) = ⌊phase + (k + 1) * spacingUs g⌋ - ⌊phase + k * spacingUs g⌋

/-- A measured spacing is off by less than a microsecond. -/
theorem WheelRun.abs_gap_sub_lt {g : GeometryResult K} {phase : K} {u : Pulse} {us : List Pulse}
    (h : WheelRun g phase u us) {gap : ℕ} (hgap : gap ∈ Pipeline.gaps u.edgeUs us) :
    |(gap : K) - spacingUs g| < 1 := by
  obtain ⟨k, hk⟩ := List.mem_iff_getElem?.mp hgap
  have hcast : (gap : K) = ⌊phase + (k + 1) * spacingUs g⌋ - ⌊phase + k * spacingUs g⌋ := by
    exact_mod_cast congrArg (Int.cast (R := K)) (h.spacing k gap hk)
  have hstart := Int.floor_le (phase + k * spacingUs g)
  have hstart' := Int.lt_floor_add_one (phase + k * spacingUs g)
  have hend := Int.floor_le (phase + (k + 1) * spacingUs g)
  have hend' := Int.lt_floor_add_one (phase + (k + 1) * spacingUs g)
  rw [hcast, abs_lt]
  constructor <;> linarith

omit [IsStrictOrderedRing K] in
/-- A measured width stays in a window with whole bounds. -/
theorem WheelRun.width_mem {g : GeometryResult K} {phase : K} {u : Pulse} {us : List Pulse}
    (h : WheelRun g phase u us) (hb : 70 ≤ g.blockageUs ∧ g.blockageUs ≤ 600) {v : Pulse}
    (hv : v ∈ u :: us) : 70 ≤ v.durationUs.toNat ∧ v.durationUs.toNat ≤ 600 := by
  obtain ⟨hlo, hhi⟩ := h.width v hv
  have hfloor : (70 : ℤ) ≤ ⌊g.blockageUs⌋ := Int.le_floor.mpr (by exact_mod_cast hb.1)
  have hceil : ⌈g.blockageUs⌉ ≤ (600 : ℤ) := Int.ceil_le.mpr (by exact_mod_cast hb.2)
  omega

/-- The spacings are those of neighbours in the run. -/
theorem gap_mem {us before after : List Pulse} {u a b : Pulse}
    (h : u :: us = before ++ a :: b :: after) :
    (b.edgeUs - a.edgeUs).toNat ∈ Pipeline.gaps u.edgeUs us := by
  induction before generalizing u us with
  | nil =>
    obtain ⟨rfl, rfl⟩ := List.cons.inj h
    exact List.mem_cons_self ..
  | cons v before ih =>
    obtain ⟨rfl, htail⟩ := List.cons.inj h
    obtain _ | ⟨w, ws⟩ := us
    · exact absurd htail (by simp)
    · exact List.mem_cons_of_mem _ (ih htail)

section

variable {speed diameter phase : K} {n : UInt8} {g : GeometryResult K} {u : Pulse}
  {us : List Pulse} {gap : ℕ} (hg : geometryCalculate speed diameter (25 / 100) 2 n = some g)
  (hb : 70 ≤ g.blockageUs ∧ g.blockageUs ≤ 600) (hrun : WheelRun g phase u us)
  (hgap : gap ∈ Pipeline.gaps u.edgeUs us)

include hg hb hrun hgap

/-- No spacing is below the shortest accepted one. -/
theorem le_gap (hn : 16 ≤ n.toNat ∧ n.toNat ≤ 48) : 70 ≤ gap := by
  have hnear := abs_lt.mp (hrun.abs_gap_sub_lt hgap)
  have hlower := spacing_lower hg ⟨by omega, hn.2⟩ hb.1
  have hcast : ((70 : ℕ) : K) ≤ gap := by
    push_cast
    linarith
  exact_mod_cast hcast

/-- With 32 spokes or more none exceeds the link-loss limit. -/
theorem gap_le (hcount : 32 ≤ n.toNat) : gap ≤ 15000 := by
  have hnear := abs_lt.mp (hrun.abs_gap_sub_lt hgap)
  have hupper := spacing_upper hg hcount ⟨hb.1.trans' (by norm_num), hb.2⟩
  have hcast : (gap : K) ≤ ((15000 : ℕ) : K) := by
    push_cast
    linarith
  exact_mod_cast hcast

end

/-- A wheel at a constant speed whose width is in the detector's window: every pulse is
accepted, and a spacing enters the history unless it exceeds the link-loss limit, which
with 32 spokes or more never happens. -/
theorem wheel_run_windows {speed diameter : K} {n : UInt8} {g : GeometryResult K} {phase : K}
    {u : Pulse} {us : List Pulse} (hn : 16 ≤ n.toNat ∧ n.toNat ≤ 48)
    (hg : geometryCalculate speed diameter (25 / 100) 2 n = some g)
    (hb : 70 ≤ g.blockageUs ∧ g.blockageUs ≤ 600) (hrun : WheelRun g phase u us) :
    (∀ before v after, u :: us = before ++ v :: after →
        (Pipeline.init : Pipeline Binary32).Accepted before v) ∧
      (∀ before a b after, u :: us = before ++ a :: b :: after →
        (((Pipeline.init : Pipeline Binary32).ingestAll (before ++ [a])).enters b.edgeUs
            b.durationUs = true ↔ (b.edgeUs - a.edgeUs).toNat ≤ 15000)) ∧
      ((32 ≤ n.toNat ∨ ∀ gap ∈ Pipeline.gaps u.edgeUs us, gap ≤ 15000) →
        ((Pipeline.init : Pipeline Binary32).ingestAll (u :: us)).pattern.acceptedEvents
          = ((Pipeline.init : Pipeline Binary32).ingestAll (u :: us)).detector.accepted - 1) := by
  have hwidth : ∀ v ∈ u :: us, 70 ≤ v.durationUs.toNat ∧ v.durationUs.toNat ≤ 600 :=
    fun v hv => hrun.width_mem hb hv
  have hlong : ∀ gap ∈ Pipeline.gaps u.edgeUs us, 70 ≤ gap :=
    fun gap hgap => le_gap hg hb hrun hgap hn
  refine ⟨?_, ?_, ?_⟩
  · intro before v after h
    exact (Pipeline.accepted_iff ..).mpr (hwidth v (by simp [h]))
  · intro before a b after h
    rw [Pipeline.enters_iff_spacing before []]
    · exact and_iff_right (hlong _ (gap_mem h))
    · intro v hv
      refine hrun.nonzero v ?_
      simp only [List.nil_append, List.mem_append, List.mem_cons, List.not_mem_nil, or_false] at hv
      simp only [h, List.mem_append, List.mem_cons]
      tauto
    · exact (Pipeline.accepted_iff ..).mpr (hwidth a (by simp [h]))
    · exact (Pipeline.accepted_iff ..).mpr (hwidth b (by simp [h]))
    · exact fun v hv => absurd hv List.not_mem_nil
  · intro hshort
    have hkeeps : ∀ gap ∈ Pipeline.gaps u.edgeUs us, Pipeline.keeps gap = true := by
      intro gap hgap
      rw [Pipeline.keeps, Bool.and_eq_true, decide_eq_true_iff, decide_eq_true_iff]
      refine ⟨hlong gap hgap, ?_⟩
      rcases hshort with hcount | hall
      · exact gap_le hg hb hrun hgap hcount
      · exact hall gap hgap
    obtain ⟨haccepted, hevents⟩ := Pipeline.counts_init hrun.nonzero hwidth
    rw [haccepted, hevents, List.countP_eq_length.mpr hkeeps, Pipeline.length_gaps,
      UInt32.ofNat_add]
    exact (UInt32.add_sub_cancel ..).symm

/-- The geometry at 16.848 km/h, where a spoke takes 600 us. -/
def slowest (n : UInt8) : GeometryResult ℚ where
  wheelHz := 20 / (3 * pi)
  wheelRpm := 400 / pi
  eventHz := n.toNat * (20 / (3 * pi))
  blockageUs := 600

theorem geometryCalculate_slowest {n : UInt8} (hn : n ≠ 0) :
    geometryCalculate (16848 / 1000 : ℚ) (702 / 1000) (25 / 100) 2 n = some (slowest n) := by
  have hhz : (16848 / 1000 / (36 / 10) / (pi * (702 / 1000)) : ℚ) = 20 / (3 * pi) := by
    rw [pi]
    norm_num
  rw [geometryCalculate, if_neg (by norm_num [hn])]
  dsimp only
  rw [hhz]
  congr 2
  · rw [pi]
    norm_num
  · rw [pi]
    norm_num

/-- Two pulses of 600 us as the slowest wheel gives them. -/
theorem wheelRun_slowest {n : UInt8} {second : UInt64} (hsecond : second ≠ 0) {count gap : ℕ}
    (hcount : n.toNat = count) (hgap : (second - 1).toNat = gap)
    (hlo : (gap : ℚ) ≤ 150000 * pi / count) (hhi : 150000 * pi / count < (gap : ℚ) + 1) :
    WheelRun (slowest n) 1 ⟨1, 600⟩ [⟨second, 600⟩] where
  nonzero := by simpa using hsecond
  width := by
    intro v hv
    have hduration : v.durationUs = 600 := by
      simp only [List.mem_cons, List.not_mem_nil, or_false] at hv
      rcases hv with rfl | rfl <;> rfl
    rw [hduration, slowest, Int.floor_ofNat, Int.ceil_ofNat]
    decide
  spacing := by
    intro k x hx
    cases k with
    | zero =>
      have heq : gap = x := hgap.symm.trans (Option.some.inj hx)
      have hspacing : spacingUs (slowest n) = 150000 * pi / count := by
        rw [spacingUs, slowest, hcount, mul_div_assoc', div_div_eq_mul_div]
        ring
      have hfloor : ⌊1 + spacingUs (slowest n)⌋ = (gap : ℤ) + 1 := by
        rw [hspacing, Int.floor_eq_iff]
        push_cast
        constructor <;> linarith
      simp [← heq, hfloor]
    | succ k => exact absurd hx (by simp [Pipeline.gaps])

/-- 32 spokes at the slowest accepted speed. -/
theorem wheel_run_windows_slowest :
    ((Pipeline.init : Pipeline Binary32).ingestAll [⟨1, 600⟩, ⟨14727, 600⟩]).pattern.acceptedEvents
      = ((Pipeline.init : Pipeline Binary32).ingestAll
          [⟨1, 600⟩, ⟨14727, 600⟩]).detector.accepted - 1 :=
  (wheel_run_windows (n := 32) ⟨by decide, by decide⟩ (geometryCalculate_slowest (by decide))
    (by norm_num [slowest])
    (wheelRun_slowest (by decide) (show UInt8.toNat 32 = 32 from rfl)
      (show ((14727 : UInt64) - 1).toNat = 14726 from rfl) (by norm_num [pi])
      (by norm_num [pi]))).2.2 (.inl (by decide))

/-- 16 spokes at 16.848 km/h: the pulses of 600 us are accepted, and their spacing of
29452 us is not. -/
theorem wheel_run_loses_spacing :
    geometryCalculate (16848 / 1000) (702 / 1000) (25 / 100) 2 16 = some (slowest 16) ∧
      (70 ≤ (slowest 16).blockageUs ∧ (slowest 16).blockageUs ≤ 600) ∧
      WheelRun (slowest 16) 1 ⟨1, 600⟩ [⟨29453, 600⟩] ∧
      ((Pipeline.init : Pipeline Binary32).ingestAll
          [⟨1, 600⟩, ⟨29453, 600⟩]).pattern.acceptedEvents
        ≠ ((Pipeline.init : Pipeline Binary32).ingestAll
          [⟨1, 600⟩, ⟨29453, 600⟩]).detector.accepted - 1 := by
  have hrun : WheelRun (slowest 16) 1 ⟨1, 600⟩ [⟨29453, 600⟩] :=
    wheelRun_slowest (by decide) (show UInt8.toNat 16 = 16 from rfl)
      (show ((29453 : UInt64) - 1).toNat = 29452 from rfl) (by norm_num [pi]) (by norm_num [pi])
  have hb : 70 ≤ (slowest 16).blockageUs ∧ (slowest 16).blockageUs ≤ 600 := by norm_num [slowest]
  refine ⟨geometryCalculate_slowest (by decide), hb, hrun, ?_⟩
  obtain ⟨haccepted, hevents⟩ := Pipeline.counts_init hrun.nonzero fun v hv => hrun.width_mem hb hv
  rw [haccepted, hevents]
  decide

end Geometry

end SpokeSensor
