import SpokeSensor.Simulation.Parameters
import Mathlib.Tactic.Positivity

/-!
# The blockage in the window (`ir_spoke_sim.py:145–152`)

The transmission of the beam is a shifted modulo of the spoke period. `simulate` means
to put one complete blockage in the centre of every window; no check relates the
window to the blockage.

- `centeredStartS` (147), `transmission` (148–152): the source's expressions, at any
  time of the window.
- `CentredBlockage`: what the comment above them promises.
- `Fits`: the blockage is shorter than the window and than the spoke period.
- `centredBlockage_iff`: a window of accepted parameters contains a complete centred
  blockage exactly then.
- `slow_window_blocked`: at walking pace a short window lies inside the blockage.
-/

namespace SpokeSensor.Simulation

/-! ## `np.mod`

The remainder with the sign of the divisor: it is the number itself on the first
period.
-/

section Mod

variable {x y : ℚ}

theorem npMod_eq_sub : npMod x y = x - ⌊x / y⌋ * y := by
  rw [npMod, mul_comm]

theorem npMod_lt (hy : 0 < y) : npMod x y < y := by
  rw [npMod_eq_sub]
  exact Int.sub_floor_div_mul_lt x hy

/-- A negative divisor leaves a remainder that is not positive. -/
theorem npMod_nonpos (hy : y < 0) : npMod x y ≤ 0 := by
  have hle := Int.floor_le (x / y)
  rw [le_div_iff_of_neg hy] at hle
  rw [npMod_eq_sub]
  linarith

theorem npMod_of_lt (h0 : 0 ≤ x) (hx : x < y) : npMod x y = x := by
  have hy : 0 < y := h0.trans_lt hx
  have hfloor : ⌊x / y⌋ = 0 := by
    rw [Int.floor_eq_zero_iff, Set.mem_Ico]
    exact ⟨div_nonneg h0 hy.le, (div_lt_one hy).mpr hx⟩
  rw [npMod, hfloor, Int.cast_zero, mul_zero, sub_zero]

/-- One period earlier. -/
theorem npMod_of_neg (hy : -y ≤ x) (hx : x < 0) : npMod x y = x + y := by
  have hpos : 0 < y := by linarith
  have hfloor : ⌊x / y⌋ = -1 := by
    rw [Int.floor_eq_iff, Int.cast_neg, Int.cast_one]
    constructor
    · rw [le_div_iff₀ hpos]
      linarith
    · rw [div_lt_iff₀ hpos]
      linarith
  rw [npMod, hfloor, Int.cast_neg, Int.cast_one]
  ring

end Mod

/-! ## The transmission

The blockage of the middle of the window, and those before and after it by whole
periods.
-/

namespace Parameters

variable (p : Parameters)

/-- `centered_start_s` (147) -/
def centeredStartS (w : Timing) : ℚ := 1 / 2 * p.durationS - 1 / 2 * w.blockedS

/-- `transmission` at the time `t` (148–152) -/
def transmission (w : Timing) (t : ℚ) : ℚ :=
  if w.blockedS ≤ npMod (t - p.centeredStartS w) w.spokePeriodS then 1
  else p.residualTransmissionBlocked

/-- The window contains one complete blockage, in its centre. -/
structure CentredBlockage (w : Timing) : Prop where
  lasts : 0 < w.blockedS
  starts : 0 < p.durationS / 2 - w.blockedS / 2
  ends : p.durationS / 2 + w.blockedS / 2 < p.durationS
  blocked : ∀ t, p.durationS / 2 - w.blockedS / 2 ≤ t → t < p.durationS / 2 + w.blockedS / 2 →
    p.transmission w t = p.residualTransmissionBlocked
  clearBefore : ∃ ε > 0, ∀ t, p.durationS / 2 - w.blockedS / 2 - ε < t →
    t < p.durationS / 2 - w.blockedS / 2 → p.transmission w t = 1
  clearAfter : ∃ ε > 0, ∀ t, p.durationS / 2 + w.blockedS / 2 ≤ t →
    t < p.durationS / 2 + w.blockedS / 2 + ε → p.transmission w t = 1

/-- What the window, the blockage and the period have to satisfy. -/
def Fits : Prop :=
  0 < p.blockage ∧ p.blockage < p.durationS ∧
    (p.blockage < p.period ∨ p.residualTransmissionBlocked = 1)

variable {p} {w : Timing}

theorem sub_start (t : ℚ) : t - p.centeredStartS w = t - (p.durationS / 2 - w.blockedS / 2) := by
  rw [centeredStartS]
  ring

/-- A blockage that fits into the window and the period is complete and centred. -/
theorem centredBlockage_of_fits (h0 : 0 < w.blockedS) (hwindow : w.blockedS < p.durationS)
    (hclear : w.blockedS < w.spokePeriodS ∨ p.residualTransmissionBlocked = 1) :
    p.CentredBlockage w := by
  refine ⟨h0, by linarith, by linarith, fun t hlo hhi => ?_, ?_, ?_⟩
  · rw [transmission, sub_start]
    rcases hclear with hperiod | hone
    · rw [npMod_of_lt (by linarith) (by linarith), if_neg (by linarith)]
    · rw [hone, ite_self]
  · rcases hclear with hperiod | hone
    · refine ⟨w.spokePeriodS - w.blockedS, by linarith, fun t hlo hhi => ?_⟩
      rw [transmission, sub_start, npMod_of_neg (by linarith) (by linarith), if_pos (by linarith)]
    · exact ⟨1, one_pos, fun t _ _ => by rw [transmission, hone, ite_self]⟩
  · rcases hclear with hperiod | hone
    · refine ⟨w.spokePeriodS - w.blockedS, by linarith, fun t hlo hhi => ?_⟩
      rw [transmission, sub_start, npMod_of_lt (by linarith) (by linarith), if_pos (by linarith)]
    · exact ⟨1, one_pos, fun t _ _ => by rw [transmission, hone, ite_self]⟩

/-- A beam that is clear after the blockage is clear for part of every period. -/
theorem CentredBlockage.fits (h : p.CentredBlockage w) (hperiod : w.spokePeriodS ≠ 0) :
    w.blockedS < w.spokePeriodS ∨ p.residualTransmissionBlocked = 1 := by
  obtain ⟨ε, hε, hafter⟩ := h.clearAfter
  have hlasts := h.lasts
  have hone := hafter (p.durationS / 2 + w.blockedS / 2) le_rfl (by linarith)
  rw [transmission] at hone
  by_cases hphase : w.blockedS ≤ npMod (p.durationS / 2 + w.blockedS / 2 - p.centeredStartS w)
      w.spokePeriodS
  · refine .inl (lt_of_le_of_lt hphase (npMod_lt ?_))
    by_contra hneg
    have hneg : w.spokePeriodS < 0 := lt_of_le_of_ne (not_lt.mp hneg) hperiod
    linarith [npMod_nonpos (x := p.durationS / 2 + w.blockedS / 2 - p.centeredStartS w) hneg]
  · rw [if_neg hphase] at hone
    exact .inr hone

/-- Every window of an accepted set of parameters contains a complete centred blockage
exactly when the blockage fits. If it is as long as the window, the beam is blocked at
its ends already; if it is as long as the period, the beam is never clear. -/
theorem centredBlockage_iff (p : Parameters) (w : Timing) (h : p.accept = .ok w) :
    p.CentredBlockage w ↔ p.Fits := by
  obtain ⟨hwindow, htiming, -⟩ := accept_eq_ok.mp h
  obtain ⟨-, ⟨hspeed, hcount⟩, -, -⟩ := checkWindow_eq_ok.mp hwindow
  obtain ⟨⟨hd, hr⟩, rfl⟩ := (timing_eq_ok hspeed hcount).mp htiming
  constructor
  · intro hblock
    have hlasts : 0 < p.blockage := hblock.lasts
    have hstarts : 0 < p.durationS / 2 - p.blockage / 2 := hblock.starts
    have hperiod : p.period ≠ 0 := by
      have hpi := mathPi_pos
      rw [period]
      positivity
    exact ⟨hlasts, by linarith, hblock.fits hperiod⟩
  · rintro ⟨hlasts, hshort, hclear⟩
    exact centredBlockage_of_fits hlasts hshort hclear

/-- The configured parameters are accepted at every speed and with every window. -/
theorem default_accepted {v D : ℚ} (hv : 0 < v) (hD : 0 < D) :
    { Parameters.default with speedKmh := v, durationS := D }.accept
      = .ok { blockedS := { Parameters.default with speedKmh := v, durationS := D }.blockage
              spokePeriodS :=
                { Parameters.default with speedKmh := v, durationS := D }.period } := by
  refine accept_eq_ok.mpr ⟨checkWindow_eq_ok.mpr ?_, (timing_eq_ok hv ?_).mpr ⟨?_, rfl⟩,
    checkPower_eq_ok.mpr ?_⟩
  · norm_num [Parameters.default, hv, hD]
  · norm_num [Parameters.default]
  · norm_num [Parameters.default]
  · norm_num [Parameters.default]

/-- At the design speed. -/
theorem default_window :
    ∃ w, Parameters.default.accept = .ok w ∧
      (Parameters.default.CentredBlockage w ↔ Parameters.default.Fits) :=
  ⟨_, default_accepted (v := 60) (D := 24 / 1000) (by norm_num) (by norm_num),
    centredBlockage_iff _ _
      (default_accepted (v := 60) (D := 24 / 1000) (by norm_num) (by norm_num))⟩

/-- Walking pace, in a window of two milliseconds. -/
def slow : Parameters := { Parameters.default with speedKmh := 1, durationS := 2 / 1000 }

/-- The blockage lasts ten milliseconds: the window lies inside it. -/
theorem slow_window_blocked : ∃ w, slow.accept = .ok w ∧ ¬ slow.CentredBlockage w := by
  refine ⟨_, default_accepted (v := 1) (D := 2 / 1000) (by norm_num) (by norm_num), fun h => ?_⟩
  have hstarts := h.starts
  norm_num [slow, Parameters.default, blockage] at hstarts

end Parameters

end SpokeSensor.Simulation
