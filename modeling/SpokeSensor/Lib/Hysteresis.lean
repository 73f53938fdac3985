import SpokeSensor.Lib.Lag

/-!
# A comparator with hysteresis

A switch that goes on above the upper threshold and off below the lower one.

- `output_mono`: with the lower threshold below the upper it is monotone in its input.
- `output_eq_of_between`: so an input between two others that give the same output
  gives this output too.
- `output_of_le`: below the upper threshold a switch that is off stays off.
- `flips_mul_le`: between two flips the input has to come all the way from one
  threshold to the other, so the number of flips is bounded by the variation of the
  input. `variation_le` bounds that for an input that moves slowly.
-/

namespace Hysteresis

universe u

variable {K : Type u}

/-- The next state. -/
def next [LT K] [DecidableLT K] (lower upper : K) (s : Bool) (x : K) : Bool :=
  if s = false ∧ upper < x then true
  else if s = true ∧ x < lower then false
  else s

/-- The state after each input. -/
def output [LT K] [DecidableLT K] (lower upper : K) : Bool → List K → List Bool
  | _, [] => []
  | s, x :: xs => next lower upper s x :: output lower upper (next lower upper s x) xs

/-- How often the state changes. -/
def flips : Bool → List Bool → ℕ
  | _, [] => 0
  | s, t :: ts => (if t = s then 0 else 1) + flips t ts

section LinearOrder

variable [LinearOrder K] {lower upper x y : K} {s t : Bool} {xs ys zs : List K}

theorem next_off : next lower upper false x = true ↔ upper < x := by
  simp [next]

theorem next_on : next lower upper true x = false ↔ x < lower := by
  simp [next]

theorem output_cons : output lower upper s (x :: xs)
    = next lower upper s x :: output lower upper (next lower upper s x) xs := rfl

@[simp] theorem length_output : (output lower upper s xs).length = xs.length := by
  induction xs generalizing s with
  | nil => rfl
  | cons x xs ih => rw [output_cons, List.length_cons, ih, List.length_cons]

/-- One step is monotone. -/
theorem next_mono (h : lower ≤ upper) (hs : s ≤ t) (hxy : x ≤ y) :
    next lower upper s x ≤ next lower upper t y := by
  rw [Bool.le_iff_imp]
  intro hon
  cases t with
  | false =>
    obtain rfl : s = false := le_bot_iff.mp hs
    exact next_off.mpr ((next_off.mp hon).trans_le hxy)
  | true =>
    by_contra hoff
    have hy : y < lower := next_on.mp (Bool.eq_false_of_not_eq_true hoff)
    cases s with
    | false =>
      have hx := next_off.mp hon
      exact absurd (hx.trans_le (hxy.trans hy.le)) (not_lt.mpr h)
    | true =>
      have hx : ¬ x < lower := fun hx => by
        rw [next_on.mpr hx] at hon
        exact Bool.noConfusion hon
      exact hx (hxy.trans_lt hy)

/-- A larger input switches on no later and off no earlier. -/
theorem output_mono (h : lower ≤ upper) (hs : s ≤ t) (hxy : List.Forall₂ (· ≤ ·) xs ys) :
    List.Forall₂ (· ≤ ·) (output lower upper s xs) (output lower upper t ys) := by
  induction hxy generalizing s t with
  | nil => exact .nil
  | cons hxy _ ih =>
    have hnext := next_mono h hs hxy
    exact .cons hnext (ih hnext)

/-- What lies between two inputs with the same output has this output. -/
theorem output_eq_of_between (h : lower ≤ upper) (hxy : List.Forall₂ (· ≤ ·) xs ys)
    (hyz : List.Forall₂ (· ≤ ·) ys zs)
    (heq : output lower upper s xs = output lower upper s zs) :
    output lower upper s ys = output lower upper s xs := by
  have hle := output_mono (s := s) h le_rfl hxy
  have hge := output_mono (s := s) h le_rfl hyz
  rw [← heq] at hge
  have hboth : List.Forall₂ (· = ·) (output lower upper s ys) (output lower upper s xs) :=
    List.forall₂_iff_get.mpr ⟨hge.length_eq, fun i h₁ h₂ =>
      le_antisymm (hge.get h₁ h₂) (hle.get h₂ h₁)⟩
  exact List.forall₂_eq_eq_eq ▸ hboth

/-- Below the upper threshold a switch that is off stays off. -/
theorem output_of_le (hxs : ∀ x ∈ xs, x ≤ upper) :
    output lower upper false xs = List.replicate xs.length false := by
  induction xs with
  | nil => rfl
  | cons x xs ih =>
    have hoff : next lower upper false x = false := by
      rw [Bool.eq_false_iff]
      exact fun hon => absurd (next_off.mp hon) (not_lt.mpr (hxs x List.mem_cons_self))
    rw [output_cons, hoff, ih fun y hy => hxs y (List.mem_cons_of_mem x hy)]
    rfl

end LinearOrder

section Field

variable [Field K] [LinearOrder K] [IsStrictOrderedRing K] {lower upper d x last : K} {s : Bool}
  {xs ys : List K}

/-- The way that a sequence makes from `last` on. -/
def variation (last : K) : List K → K
  | [] => 0
  | x :: xs => |x - last| + variation x xs

/-- How far the input is beyond the threshold at which the state has been entered. -/
def slack (lower upper : K) (s : Bool) (x : K) : K :=
  max 0 (if s then upper - x else x - lower)

/-- Every flip but the first takes the whole way between the thresholds. -/
theorem flips_mul_le (lower upper : K) (s : Bool) (last : K) (xs : List K) :
    flips s (output lower upper s xs) * (upper - lower)
      ≤ variation last xs + slack lower upper s last := by
  induction xs generalizing s last with
  | nil =>
    show ((0 : ℕ) : K) * _ ≤ 0 + _
    rw [Nat.cast_zero, zero_mul, zero_add]
    exact le_max_left _ _
  | cons x xs ih =>
    have hrest := ih (next lower upper s x) x
    rw [output_cons, flips, variation]
    have habs := abs_sub_comm x last ▸ le_abs_self (last - x)
    have habs' := le_abs_self (x - last)
    by_cases hflip : next lower upper s x = s
    · -- the slack changes by no more than the input
      rw [if_pos hflip, Nat.zero_add]
      rw [hflip] at hrest ⊢
      have hslack : slack lower upper s x ≤ |x - last| + slack lower upper s last := by
        unfold slack
        cases s with
        | false =>
          rw [if_neg Bool.false_ne_true, if_neg Bool.false_ne_true]
          refine max_le (add_nonneg (abs_nonneg _) (le_max_left _ _)) ?_
          have hmax := le_max_right 0 (last - lower)
          linarith
        | true =>
          rw [if_pos rfl, if_pos rfl]
          refine max_le (add_nonneg (abs_nonneg _) (le_max_left _ _)) ?_
          have hmax := le_max_right 0 (upper - last)
          linarith
      linarith
    · -- the input is beyond the other threshold now
      rw [if_neg hflip, Nat.cast_add, Nat.cast_one, add_mul, one_mul]
      cases s with
      | false =>
        have hon : next lower upper false x = true := Bool.eq_true_of_not_eq_false hflip
        have hx := next_off.mp hon
        rw [hon] at hrest ⊢
        have hzero : slack lower upper true x = 0 := max_eq_left (by rw [if_pos rfl]; linarith)
        have hmax : last - lower ≤ slack lower upper false last := le_max_right _ _
        linarith
      | true =>
        have hoff : next lower upper true x = false := Bool.eq_false_of_not_eq_true hflip
        have hx := next_on.mp hoff
        rw [hoff] at hrest ⊢
        have hzero : slack lower upper false x = 0 := max_eq_left (by
          rw [if_neg Bool.false_ne_true]
          linarith)
        have hmax : upper - last ≤ slack lower upper true last := le_max_right _ _
        linarith

/-- A sequence that moves slowly varies little. -/
theorem variation_le (hslew : Lag.Slew d last xs) : variation last xs ≤ xs.length * d := by
  induction xs generalizing last with
  | nil => simp [variation]
  | cons x xs ih =>
    have hrest := ih hslew.2
    have hstep := hslew.1
    rw [variation, List.length_cons, Nat.cast_add, Nat.cast_one, add_mul, one_mul]
    linarith

end Field

end Hysteresis
