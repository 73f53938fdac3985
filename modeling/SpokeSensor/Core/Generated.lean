import Mathlib.Data.Rat.Floor
import Mathlib.Algebra.Order.Field.Rat

/-!
# Generated constants and the C `float`

What the modelled functions share before any of them is written down.

- The constants of `ir_spoke_generated_c.h` that they read, under their source words
  without the `IR_SPOKE_` prefix; `generated_values` hands their values to arithmetic.
- `historyCapacity`: the size of the ring (`ir_spoke_pattern.h`), twice the largest
  count and eight more.
- `CFloat F`: what C fixes about `float` beyond the four operations and the
  comparisons. The estimator is written over any such `F`, so that facts about its
  control flow hold whatever the rounding is.

`F = ℚ` is the exact reading (`ofRat` rounds nothing), on which the numerical results
are stated; `Binary32` is the reading of the target.
-/

namespace SpokeSensor

/-! ## `ir_spoke_generated_c.h`

The macros that the modelled functions read, under their own names.
-/

/-- `IR_SPOKE_BLOCK_MIN_US` -/
abbrev blockMinUs : ℕ := 70
/-- `IR_SPOKE_BLOCK_MAX_US` -/
abbrev blockMaxUs : ℕ := 600
/-- `IR_SPOKE_LINK_LOSS_US` -/
abbrev linkLossUs : ℕ := 15000
/-- `IR_SPOKE_COUNT_MIN` -/
abbrev countMin : ℕ := 16
/-- `IR_SPOKE_COUNT_MAX` -/
abbrev countMax : ℕ := 48
/-- `IR_SPOKE_CONFIDENCE_EVENTS` -/
abbrev confidenceEvents : ℕ := 192
/-- `IR_SPOKE_LEARNING_RATE` -/
abbrev learningRate : ℚ := 8 / 100
/-- `IR_SPOKE_OUTLIER_SIGMA` -/
abbrev outlierSigma : ℚ := 35 / 10
/-- `IR_SPOKE_HISTORY_SIZE` of `ir_spoke_pattern.h`: two windows of the largest
candidate fit, with eight intervals to spare. -/
abbrev historyCapacity : ℕ := 2 * countMax + 8

/-- The values of the integer constants, for arithmetic that mentions them by name. -/
theorem generated_values :
    blockMinUs = 70 ∧ blockMaxUs = 600 ∧ linkLossUs = 15000 ∧ countMin = 16 ∧ countMax = 48 ∧
      confidenceEvents = 192 ∧ historyCapacity = 104 :=
  ⟨rfl, rfl, rfl, rfl, rfl, rfl, rfl⟩

/-! ## `float`

The operations of `float` that the estimator uses. Results about what it does with
numbers are about `ℚ`; results about where it stores them hold for every instance.
-/

/-- The parts of C's `float` that the arithmetic classes do not give: the value
of a decimal literal or of a converted integer, `<math.h>` and `<float.h>`. -/
class CFloat (F : Type) where
  ofRat : ℚ → F
  fabsf : F → F
  fmaxf : F → F → F
  fminf : F → F → F
  fltMax : F
  isfinite : F → Bool

export CFloat (ofRat fabsf fmaxf fminf fltMax isfinite)

/-- Exact arithmetic: nothing is rounded and every value is finite. `FLT_MAX`
keeps its value `(2^24 - 1) * 2^104`. -/
instance : CFloat ℚ where
  ofRat q := q
  fabsf x := |x|
  fmaxf := max
  fminf := min
  fltMax := (2 ^ 24 - 1) * 2 ^ 104
  isfinite _ := true

@[simp] theorem ofRat_rat (q : ℚ) : (ofRat q : ℚ) = q := rfl

@[simp] theorem fabsf_rat (x : ℚ) : fabsf x = |x| := rfl

@[simp] theorem fmaxf_rat (x y : ℚ) : fmaxf x y = max x y := rfl

@[simp] theorem fminf_rat (x y : ℚ) : fminf x y = min x y := rfl

@[simp] theorem isfinite_rat (x : ℚ) : isfinite x = true := rfl

theorem fltMax_rat : (fltMax : ℚ) = (2 ^ 24 - 1) * 2 ^ 104 := rfl

end SpokeSensor
