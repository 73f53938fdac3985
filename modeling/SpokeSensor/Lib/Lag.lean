import Mathlib.Algebra.Order.Field.Basic
import Mathlib.Algebra.Order.AbsoluteValue.Basic
import Mathlib.Data.List.Forall2
import Mathlib.Tactic.Linarith
import Mathlib.Tactic.Ring

/-!
# A first-order lag

A state that follows its input by a share `α` of the distance.

- `output_add`: it is linear, so a constant that is added to the input and to the
  state is added to the output.
- `output_mem`: with `0 ≤ α ≤ 1` it stays between bounds of the input and the state.
- `output_close`: two of them come no further apart than their inputs and states are.
- `slew_output`: it moves by at most the share `α` of the width of the bounds at a
  time.

`Close` and `Slew` are also kept by maps that spread by at most a factor (`Close.map`,
`Slew.map`), so that stages can be chained.
-/

namespace Lag

universe u

variable {K : Type u}

/-- The state after each input. -/
def output [Ring K] (α : K) : K → List K → List K
  | _, [] => []
  | acc, x :: xs => (acc + α * (x - acc)) :: output α (acc + α * (x - acc)) xs

@[simp] theorem output_nil [Ring K] (α acc : K) : output α acc [] = [] := rfl

theorem output_cons [Ring K] (α acc x : K) (xs : List K) :
    output α acc (x :: xs)
      = (acc + α * (x - acc)) :: output α (acc + α * (x - acc)) xs := rfl

@[simp] theorem length_output [Ring K] (α acc : K) (xs : List K) :
    (output α acc xs).length = xs.length := by
  induction xs generalizing acc with
  | nil => rfl
  | cons x xs ih => rw [output_cons, List.length_cons, ih, List.length_cons]

/-- A constant passes. -/
theorem output_add [CommRing K] (α acc c : K) (xs : List K) :
    output α (acc + c) (xs.map (· + c)) = (output α acc xs).map (· + c) := by
  induction xs generalizing acc with
  | nil => rfl
  | cons x xs ih =>
    have hstep : acc + c + α * (x + c - (acc + c)) = acc + α * (x - acc) + c := by ring
    rw [List.map_cons, output_cons, hstep, ih, output_cons, List.map_cons]

variable [Field K] [LinearOrder K] [IsStrictOrderedRing K] {α acc acc' lo hi ε x : K}
  {xs ys : List K}

/-- Samples that differ by at most `ε`. -/
def Close (ε : K) : List K → List K → Prop := List.Forall₂ fun x y => |x - y| ≤ ε

/-- All samples lie between the bounds. -/
def Within (lo hi : K) (xs : List K) : Prop := ∀ x ∈ xs, lo ≤ x ∧ x ≤ hi

/-- Each sample differs from the one before it by at most `d`. -/
def Slew (d : K) : K → List K → Prop
  | _, [] => True
  | last, x :: xs => |x - last| ≤ d ∧ Slew d x xs

/-- One step stays between the bounds. -/
theorem step_mem (h0 : 0 ≤ α) (h1 : α ≤ 1) (hacc : lo ≤ acc ∧ acc ≤ hi) (hx : lo ≤ x ∧ x ≤ hi) :
    lo ≤ acc + α * (x - acc) ∧ acc + α * (x - acc) ≤ hi := by
  have hrest : 0 ≤ 1 - α := sub_nonneg.mpr h1
  have hmix : acc + α * (x - acc) = (1 - α) * acc + α * x := by ring
  rw [hmix]
  constructor
  · calc lo = (1 - α) * lo + α * lo := by ring
      _ ≤ (1 - α) * acc + α * x :=
        add_le_add (mul_le_mul_of_nonneg_left hacc.1 hrest) (mul_le_mul_of_nonneg_left hx.1 h0)
  · calc (1 - α) * acc + α * x ≤ (1 - α) * hi + α * hi :=
        add_le_add (mul_le_mul_of_nonneg_left hacc.2 hrest) (mul_le_mul_of_nonneg_left hx.2 h0)
      _ = hi := by ring

theorem output_mem (h0 : 0 ≤ α) (h1 : α ≤ 1) (hacc : lo ≤ acc ∧ acc ≤ hi) (hxs : Within lo hi xs) :
    Within lo hi (output α acc xs) := by
  induction xs generalizing acc with
  | nil => exact fun x hx => absurd hx List.not_mem_nil
  | cons x xs ih =>
    have hstep := step_mem h0 h1 hacc (hxs x List.mem_cons_self)
    intro y hy
    rcases List.mem_cons.mp hy with rfl | hrest
    · exact hstep
    · exact ih hstep (fun z hz => hxs z (List.mem_cons_of_mem x hz)) y hrest

/-- The two outputs are as close as the states and the inputs. -/
theorem output_close (h0 : 0 ≤ α) (h1 : α ≤ 1) (hacc : |acc - acc'| ≤ ε) (h : Close ε xs ys) :
    Close ε (output α acc xs) (output α acc' ys) := by
  induction h generalizing acc acc' with
  | nil => exact .nil
  | @cons x y xs ys hxy _ ih =>
    have hstep : |acc + α * (x - acc) - (acc' + α * (y - acc'))| ≤ ε := by
      have hmix : acc + α * (x - acc) - (acc' + α * (y - acc'))
          = acc - acc' + α * (x - y - (acc - acc')) := by ring
      rw [hmix, abs_le]
      exact step_mem h0 h1 (abs_le.mp hacc) (abs_le.mp hxy)
    exact .cons hstep (ih hstep)

/-- The output moves by a share of the width of the bounds. -/
theorem slew_output (h0 : 0 ≤ α) (h1 : α ≤ 1) (hacc : lo ≤ acc ∧ acc ≤ hi)
    (hxs : Within lo hi xs) : Slew (α * (hi - lo)) acc (output α acc xs) := by
  induction xs generalizing acc with
  | nil => trivial
  | cons x xs ih =>
    have hx := hxs x List.mem_cons_self
    have hstep := step_mem h0 h1 hacc hx
    refine ⟨?_, ih hstep fun z hz => hxs z (List.mem_cons_of_mem x hz)⟩
    have hmove : acc + α * (x - acc) - acc = α * (x - acc) := by ring
    have hdist : |x - acc| ≤ hi - lo := abs_sub_le_iff.mpr ⟨by linarith, by linarith⟩
    rw [hmove, abs_mul, abs_of_nonneg h0]
    exact mul_le_mul_of_nonneg_left hdist h0

/-! ## Samples

Signals that are close to each other, that stay between bounds, or that move little
from one sample to the next, and the maps that keep this.
-/

omit [IsStrictOrderedRing K] in
theorem Close.length_eq (h : Close ε xs ys) : xs.length = ys.length := List.Forall₂.length_eq h

theorem Close.nonneg (h : Close ε xs ys) (hne : xs ≠ []) : 0 ≤ ε := by
  cases h with
  | nil => exact absurd rfl hne
  | cons hxy _ => exact (abs_nonneg _).trans hxy

theorem close_refl (hε : 0 ≤ ε) (xs : List K) : Close ε xs xs :=
  List.forall₂_same.mpr fun x _ => by rwa [sub_self, abs_zero]

/-- A map that spreads by at most a factor. -/
theorem Close.map {k : K} {f : K → K} (hf : ∀ x y, |f x - f y| ≤ k * |x - y|) (hk : 0 ≤ k)
    (h : Close ε xs ys) : Close (k * ε) (xs.map f) (ys.map f) := by
  refine List.forall₂_map_left_iff.mpr (List.forall₂_map_right_iff.mpr (h.imp fun x y hxy => ?_))
  exact (hf x y).trans (mul_le_mul_of_nonneg_left hxy hk)

/-- Differences of close samples. -/
theorem Close.sub {δ : K} {us vs : List K} (h : Close ε xs ys) (h' : Close δ us vs) :
    Close (ε + δ) (List.zipWith (· - ·) xs us) (List.zipWith (· - ·) ys vs) := by
  induction h generalizing us vs with
  | nil => exact .nil
  | @cons x y xs ys hxy hrest ih =>
    cases h' with
    | nil => exact .nil
    | @cons u v us vs huv hrest' =>
      refine .cons ?_ (ih hrest')
      have hsub : x - u - (y - v) = x - y - (u - v) := by ring
      rw [hsub]
      exact (abs_sub _ _).trans (add_le_add hxy huv)

/-- A map that spreads by at most a factor, along a sequence. -/
theorem Slew.map {d k last : K} {f : K → K} (hf : ∀ x y, |f x - f y| ≤ k * |x - y|) (hk : 0 ≤ k)
    (h : Slew d last xs) : Slew (k * d) (f last) (xs.map f) := by
  induction xs generalizing last with
  | nil => trivial
  | cons x xs ih =>
    exact ⟨(hf x last).trans (mul_le_mul_of_nonneg_left h.1 hk), ih h.2⟩

end Lag
