import Mathlib.Algebra.Order.Field.Basic
import Mathlib.Algebra.Order.AbsoluteValue.Basic
import Mathlib.Tactic.Linarith
import Mathlib.Tactic.Ring

/-!
# Gated exponential smoothing

A cell `c` that follows samples `x` by `c + α (x - c)`, and ignores a sample whose
distance exceeds `gate c`.

- `step_eq_iff`: a sample leaves the cell as it is only if it equals it or is gated
  out.
- `abs_step_sub_le`: no step is longer than the share `α` of the gate.
- `gate_persists`: for a gate `max g₀ (ρ c)` with `0 ≤ ρ ≤ 1` a constant sample that
  passes once passes for ever.
- `iterate_of_pass`, `iterate_of_fail`: so the distance to it shrinks by the factor
  `1 - α` at every step, and a sample that fails once leaves the cell frozen.
-/

namespace Smoothing

universe u

variable {K : Type u} [Field K] [LinearOrder K] [IsStrictOrderedRing K]

/-- One smoothing step. -/
def step (α : K) (gate : K → K) (c x : K) : K :=
  if |x - c| ≤ gate c then c + α * (x - c) else c

variable {α c x lo hi : K} {gate : K → K}

omit [IsStrictOrderedRing K] in
theorem step_of_pass (h : |x - c| ≤ gate c) : step α gate c x = c + α * (x - c) :=
  if_pos h

omit [IsStrictOrderedRing K] in
theorem step_of_fail (h : ¬ |x - c| ≤ gate c) : step α gate c x = c :=
  if_neg h

/-- A cell that a sample leaves unchanged either equals it or gates it out. -/
theorem step_eq_iff (hα : α ≠ 0) : step α gate c x = c ↔ x = c ∨ gate c < |x - c| := by
  by_cases h : |x - c| ≤ gate c
  · rw [step_of_pass h, add_eq_left, mul_eq_zero, or_iff_right hα, sub_eq_zero]
    exact (or_iff_left (not_lt.mpr h)).symm
  · rw [step_of_fail h]
    constructor
    · exact fun _ => .inr (not_le.mp h)
    · exact fun _ => rfl

/-- Cells and samples within bounds keep the cell within them. -/
theorem step_mem (h0 : 0 ≤ α) (h1 : α ≤ 1) (hc : lo ≤ c ∧ c ≤ hi) (hx : lo ≤ x ∧ x ≤ hi) :
    lo ≤ step α gate c x ∧ step α gate c x ≤ hi := by
  by_cases h : |x - c| ≤ gate c
  · -- a convex combination of the cell and the sample
    rw [step_of_pass h]
    constructor <;> nlinarith [hc.1, hc.2, hx.1, hx.2]
  · rw [step_of_fail h]
    exact hc

/-- No step is longer than the share `α` of the gate. -/
theorem abs_step_sub_le (h0 : 0 ≤ α) (hgate : 0 ≤ gate c) :
    |step α gate c x - c| ≤ α * gate c := by
  by_cases h : |x - c| ≤ gate c
  · rw [step_of_pass h, add_sub_cancel_left, abs_mul, abs_of_nonneg h0]
    exact mul_le_mul_of_nonneg_left h h0
  · rw [step_of_fail h, sub_self, abs_zero]
    exact mul_nonneg h0 hgate

/-! ## A constant sample -/

/-- The gate used below: an absolute floor and a share of the cell. -/
def shareGate (g₀ ρ : K) (c : K) : K := max g₀ (ρ * c)

variable {g₀ ρ : K}

/-- A sample inside the gate stays inside it after the step towards it. -/
theorem gate_persists (h0 : 0 ≤ α) (h1 : α ≤ 1) (hρ0 : 0 ≤ ρ) (hρ1 : ρ ≤ 1)
    (h : |x - c| ≤ shareGate g₀ ρ c) :
    |x - (c + α * (x - c))| ≤ shareGate g₀ ρ (c + α * (x - c)) := by
  have hdist : |x - (c + α * (x - c))| = (1 - α) * |x - c| := by
    rw [show x - (c + α * (x - c)) = (1 - α) * (x - c) by ring, abs_mul,
      abs_of_nonneg (by linarith)]
  have hpos : 0 ≤ |x - c| := abs_nonneg _
  rw [hdist]
  rcases le_max_iff.mp h with hfloor | hshare
  · -- the floor does not move and the distance shrinks
    refine le_max_of_le_left ?_
    nlinarith
  · refine le_max_of_le_right ?_
    -- the cell drops by at most `α |x - c|`, the gate by at most `ρ` times that
    have hcell : c - α * |x - c| ≤ c + α * (x - c) := by
      nlinarith [neg_abs_le (x - c)]
    calc (1 - α) * |x - c| ≤ |x - c| - ρ * (α * |x - c|) := by
          nlinarith [mul_nonneg h0 hpos]
      _ ≤ ρ * c - ρ * (α * |x - c|) := by linarith
      _ = ρ * (c - α * |x - c|) := by ring
      _ ≤ ρ * (c + α * (x - c)) := mul_le_mul_of_nonneg_left hcell hρ0

/-- Inside the gate the distance shrinks geometrically. -/
theorem iterate_of_pass (h0 : 0 ≤ α) (h1 : α ≤ 1) (hρ0 : 0 ≤ ρ) (hρ1 : ρ ≤ 1)
    (h : |x - c| ≤ shareGate g₀ ρ c) (k : ℕ) :
    (fun c => step α (shareGate g₀ ρ) c x)^[k] c = x - (1 - α) ^ k * (x - c) := by
  induction k generalizing c with
  | zero => simp
  | succ k ih =>
    rw [Function.iterate_succ_apply, step_of_pass h,
      ih (gate_persists h0 h1 hρ0 hρ1 h), pow_succ]
    ring

omit [IsStrictOrderedRing K] in
/-- Outside the gate the cell is frozen. -/
theorem iterate_of_fail (h : ¬ |x - c| ≤ gate c) (k : ℕ) :
    (fun c => step α gate c x)^[k] c = c := by
  induction k with
  | zero => rfl
  | succ k ih =>
    rw [Function.iterate_succ_apply, step_of_fail h, ih]

end Smoothing
