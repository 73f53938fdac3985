import SpokeSensor.Lib.Rounding

/-!
# Binary floating-point numbers

`Number f` are the values of a binary format `f` as a program can tell them apart by
arithmetic and comparisons: one zero and one NaN.

- `Format`, `binary32`, `binary64`: the significant bits, the smallest spacing, and
  the magnitude that is no longer finite.
- `ofRat`: the value next to a rational, to nearest and ties to even, which overflows
  to an infinity. Every operation is the exact one followed by `ofRat`.
- `finite_le_ofRat`, `ofRat_le_finite`: comparing `ofRat x` with a finite value is
  comparing the rounded rational, which `Rounding.Grid` turns into a threshold on `x`.
- `ofRat_eq`, `round_natCast`: points of the grid keep their value, whole numbers of
  few bits among them.
- `binary64_overflow`: from which magnitude on there is no finite value next to a
  number.
-/

namespace Ieee

open Rounding

/-- A binary format: its significant bits, the exponent of its smallest positive
value and the exponent at which it overflows. -/
structure Format where
  precision : ℕ
  least : ℤ
  overflow : ℕ

def binary32 : Format := ⟨24, -149, 128⟩

def binary64 : Format := ⟨53, -1074, 1024⟩

namespace Format

/-- The finite values of a format, without the bound on their size. -/
def grid (f : Format) : Grid := .binary f.precision f.least

/-- The magnitude that is no longer finite. -/
def bound (f : Format) : ℚ := 2 ^ f.overflow

variable {f : Format}

theorem base_eq : f.grid.base = 2 := rfl

theorem exponent_eq (e : ℤ) : f.grid.exponent e = max (e - (f.precision - 1)) f.least := rfl

theorem lt_bound {x : ℚ} {n : ℕ} (h : x ≤ 2 ^ n) (hn : n < f.overflow) : x < f.bound :=
  h.trans_lt (pow_lt_pow_right₀ one_lt_two hn)

/-- Whole numbers that need no more bits than the format has lie on its grid. -/
theorem round_natCast {n : ℕ} (h : n < 2 ^ f.precision) (hleast : f.least ≤ 0) :
    f.grid.round (n : ℚ) = n := by
  rcases Nat.eq_zero_or_pos n with rfl | hpos
  · rw [Nat.cast_zero, Grid.round_zero]
  have hlog := Nat.log_lt_of_lt_pow hpos.ne' h
  refine Grid.round_eq (k := n) (e := 0) ?_ (by simp)
  rw [exponent_eq, base_eq, Nat.abs_cast, Int.log_natCast]
  omega

/-- Rounding stays above a power of two. -/
theorem zpow_le_round {l : ℤ} {x : ℚ} (hl : max (l - (f.precision - 1)) f.least ≤ l)
    (h : (2 : ℚ) ^ l ≤ x) : (2 : ℚ) ^ l ≤ f.grid.round x := by
  have hround := Grid.zpow_le_round (g := f.grid) (x := x) hl (by rw [base_eq]; exact_mod_cast h)
  rw [base_eq] at hround
  exact_mod_cast hround

/-- Rounding moves a value by less than its relative precision. -/
theorem abs_round_sub_le_mul {x : ℚ} (hx : x ≠ 0)
    (hnormal : f.least ≤ Int.log 2 |x| - (f.precision - 1)) :
    |f.grid.round x - x| ≤ |x| * 2 ^ (-(f.precision : ℤ)) := by
  have hself : ((2 : ℕ) : ℚ) ^ Int.log 2 |x| ≤ |x| :=
    Int.zpow_log_le_self Nat.one_lt_two (abs_pos.mpr hx)
  have hspacing : f.grid.spacing x = ((2 : ℕ) : ℚ) ^ (Int.log 2 |x| - (f.precision - 1)) := by
    rw [Grid.spacing, base_eq, exponent_eq, max_eq_left hnormal]
  calc |f.grid.round x - x| ≤ f.grid.spacing x / 2 := Grid.abs_round_sub_le x
    _ = ((2 : ℕ) : ℚ) ^ Int.log 2 |x| * 2 ^ (-(f.precision : ℤ)) := by
      rw [hspacing, show Int.log 2 |x| - ((f.precision : ℤ) - 1)
        = Int.log 2 |x| + (-(f.precision : ℤ)) + 1 by ring, Nat.cast_ofNat,
        zpow_add_one₀ two_ne_zero, zpow_add₀ two_ne_zero]
      ring
    _ ≤ |x| * 2 ^ (-(f.precision : ℤ)) :=
      mul_le_mul_of_nonneg_right hself (zpow_nonneg zero_le_two _)

end Format

/-- The largest magnitudes: from the midpoint above the largest finite value on, rounding
leaves the format. -/
theorem binary64_overflow (x : ℚ) :
    |binary64.grid.round x| < binary64.bound ↔ |x| < 2 ^ 1024 - 2 ^ 970 := by
  -- everything in units of half the spacing at the largest finite value
  obtain ⟨u, hu⟩ : ∃ u : ℚ, u = 2 ^ 970 := ⟨_, rfl⟩
  have hpos : 0 < u := by
    rw [hu]
    exact pow_pos two_pos 970
  have hspacing : ((binary64.grid.base : ℕ) : ℚ) ^ binary64.grid.exponent 1023 = 2 * u := by
    show ((2 : ℕ) : ℚ) ^ ((971 : ℕ) : ℤ) = 2 * u
    rw [zpow_natCast, Nat.cast_ofNat, hu, pow_succ']
  have hlow : ((binary64.grid.base : ℕ) : ℚ) ^ (1023 : ℤ) = 2 ^ 53 * u := by
    show ((2 : ℕ) : ℚ) ^ ((1023 : ℕ) : ℤ) = 2 ^ 53 * u
    rw [zpow_natCast, Nat.cast_ofNat, hu, ← pow_add]
  have hhigh : (2 : ℚ) ^ 1024 = 2 ^ 54 * u := by
    rw [hu, ← pow_add]
  have hnext : ((binary64.grid.base : ℕ) : ℚ) ^ (1023 + 1 : ℤ) = 2 ^ 54 * u := by
    show ((2 : ℕ) : ℚ) ^ ((1024 : ℕ) : ℤ) = 2 ^ 54 * u
    rw [zpow_natCast, Nat.cast_ofNat, hhigh]
  have hreach := Grid.le_round_iff (g := binary64.grid) (l := 1023) (k := 2 ^ 53) (x := |x|)
    (by decide) (by rw [hlow, hspacing]; norm_num; linarith only [hpos])
    (by rw [hnext, hspacing]; norm_num; linarith only [hpos])
  rw [hspacing, le_nearestEven_iff] at hreach
  have hbound : binary64.bound = ((2 ^ 53 : ℤ) : ℚ) * (2 * u) := by
    show (2 : ℚ) ^ 1024 = _
    rw [hhigh]
    push_cast
    ring
  rw [Grid.abs_round, ← not_le, hbound, hreach, ← not_le (b := |x|), not_iff_not, hhigh, ← hu,
    lt_div_iff₀ (by positivity), div_eq_iff (by positivity)]
  norm_num
  constructor
  · rintro (h | h) <;> linarith only [h]
  · intro h
    rcases h.lt_or_eq with h | h
    · exact .inl (by linarith only [h])
    · exact .inr (by linarith only [h])

/-- A value of the format `f`. -/
inductive Number (f : Format) where
  | finite (x : ℚ)
  | inf (negative : Bool)
  | nan
  deriving DecidableEq

namespace Number

variable {f : Format}

/-- The value of the format next to a rational. -/
def ofRat (f : Format) (x : ℚ) : Number f :=
  if |f.grid.round x| < f.bound then .finite (f.grid.round x)
  else .inf (decide (x < 0))

def add : Number f → Number f → Number f
  | .finite x, .finite y => ofRat f (x + y)
  | .inf s, .inf t => if s = t then .inf s else .nan
  | .inf s, .finite _ => .inf s
  | .finite _, .inf t => .inf t
  | .nan, _ => .nan
  | _, .nan => .nan

def neg : Number f → Number f
  | .finite x => .finite (-x)
  | .inf s => .inf !s
  | .nan => .nan

/-- The product of an infinity and a finite value of the given sign. -/
def scaleInf (s : Bool) (x : ℚ) : Number f :=
  if x = 0 then .nan else .inf (s != decide (x < 0))

def mul : Number f → Number f → Number f
  | .finite x, .finite y => ofRat f (x * y)
  | .inf s, .inf t => .inf (s != t)
  | .inf s, .finite y => scaleInf s y
  | .finite x, .inf t => scaleInf t x
  | .nan, _ => .nan
  | _, .nan => .nan

def div : Number f → Number f → Number f
  | .finite x, .finite y =>
    if y = 0 then (if x = 0 then .nan else .inf (decide (x < 0))) else ofRat f (x / y)
  | .inf _, .inf _ => .nan
  | .inf s, .finite y => .inf (s != decide (y < 0))
  | .finite _, .inf _ => .finite 0
  | .nan, _ => .nan
  | _, .nan => .nan

/-- `x < y`, which is false as soon as one of the two is NaN. -/
def lt : Number f → Number f → Bool
  | .finite x, .finite y => decide (x < y)
  | .finite _, .inf t => !t
  | .inf s, .finite _ => s
  | .inf s, .inf t => s && !t
  | .nan, _ => false
  | _, .nan => false

/-- `x ≤ y`, which is false as soon as one of the two is NaN. -/
def le : Number f → Number f → Bool
  | .finite x, .finite y => decide (x ≤ y)
  | .finite _, .inf t => !t
  | .inf s, .finite _ => s
  | .inf s, .inf t => s || !t
  | .nan, _ => false
  | _, .nan => false

instance : Add (Number f) := ⟨add⟩
instance : Sub (Number f) := ⟨fun x y => add x y.neg⟩
instance : Mul (Number f) := ⟨mul⟩
instance : Div (Number f) := ⟨div⟩
instance : LT (Number f) := ⟨fun x y => lt x y = true⟩
instance : LE (Number f) := ⟨fun x y => le x y = true⟩
instance : DecidableLT (Number f) := fun x y => inferInstanceAs (Decidable (lt x y = true))
instance : DecidableLE (Number f) := fun x y => inferInstanceAs (Decidable (le x y = true))

/-- The largest finite value. -/
def largest (f : Format) : Number f :=
  .finite ((2 ^ f.precision - 1) * 2 ^ (f.overflow - f.precision))

def abs : Number f → Number f
  | .finite x => .finite |x|
  | .inf _ => .inf false
  | .nan => .nan

/-- The larger value; a NaN counts as missing. -/
def max (x y : Number f) : Number f :=
  if x = .nan then y else if y = .nan then x else if x < y then y else x

/-- The smaller value; a NaN counts as missing. -/
def min (x y : Number f) : Number f :=
  if x = .nan then y else if y = .nan then x else if x < y then x else y

def isFinite : Number f → Bool
  | .finite _ => true
  | _ => false

/-! ## Comparisons

Comparisons follow the numbers, and `nan` is comparable with nothing.
-/

@[simp] theorem finite_lt_finite {x y : ℚ} : (finite x : Number f) < finite y ↔ x < y :=
  decide_eq_true_iff

@[simp] theorem finite_le_finite {x y : ℚ} : (finite x : Number f) ≤ finite y ↔ x ≤ y :=
  decide_eq_true_iff

@[simp] theorem finite_mul_finite (x y : ℚ) :
    (finite x : Number f) * finite y = ofRat f (x * y) := by
  rfl

/-- A rounded rational is finite, or past the bound on its own side. -/
theorem ofRat_cases (x : ℚ) :
    (|f.grid.round x| < f.bound ∧ ofRat f x = .finite (f.grid.round x)) ∨
    (f.bound ≤ f.grid.round x ∧ ofRat f x = .inf false) ∨
    (f.grid.round x ≤ -f.bound ∧ ofRat f x = .inf true) := by
  have hbound : 0 < f.bound := by
    rw [Format.bound]
    positivity
  rcases lt_or_ge |f.grid.round x| f.bound with h | h
  · exact .inl ⟨h, by rw [ofRat, if_pos h]⟩
  have heq : ofRat f x = .inf (decide (x < 0)) := by rw [ofRat, if_neg h.not_gt]
  rcases lt_or_ge x 0 with hx | hx
  · rw [abs_of_nonpos (Grid.round_nonpos hx.le)] at h
    exact .inr (.inr ⟨le_neg_of_le_neg h, by rw [heq, decide_eq_true hx]⟩)
  · rw [abs_of_nonneg (Grid.round_nonneg hx)] at h
    exact .inr (.inl ⟨h, by rw [heq, decide_eq_false hx.not_gt]⟩)

variable {v x : ℚ}

theorem finite_le_ofRat (hv : |v| < f.bound) : finite v ≤ ofRat f x ↔ v ≤ f.grid.round x := by
  obtain ⟨hlo, hhi⟩ := abs_lt.mp hv
  rcases ofRat_cases (f := f) x with ⟨-, heq⟩ | ⟨hr, heq⟩ | ⟨hr, heq⟩ <;> rw [heq]
  · exact finite_le_finite
  · exact iff_of_true rfl (hhi.le.trans hr)
  · exact iff_of_false Bool.false_ne_true (hr.trans_lt hlo).not_ge

theorem ofRat_le_finite (hv : |v| < f.bound) : ofRat f x ≤ finite v ↔ f.grid.round x ≤ v := by
  obtain ⟨hlo, hhi⟩ := abs_lt.mp hv
  rcases ofRat_cases (f := f) x with ⟨-, heq⟩ | ⟨hr, heq⟩ | ⟨hr, heq⟩ <;> rw [heq]
  · exact finite_le_finite
  · exact iff_of_false Bool.false_ne_true (hhi.trans_le hr).not_ge
  · exact iff_of_true rfl (hr.trans hlo.le)

theorem ofRat_lt_finite (hv : |v| < f.bound) : ofRat f x < finite v ↔ f.grid.round x < v := by
  obtain ⟨hlo, hhi⟩ := abs_lt.mp hv
  rcases ofRat_cases (f := f) x with ⟨-, heq⟩ | ⟨hr, heq⟩ | ⟨hr, heq⟩ <;> rw [heq]
  · exact finite_lt_finite
  · exact iff_of_false Bool.false_ne_true (hhi.le.trans hr).not_gt
  · exact iff_of_true rfl (hr.trans_lt hlo)

theorem finite_lt_ofRat (hv : |v| < f.bound) : finite v < ofRat f x ↔ v < f.grid.round x := by
  obtain ⟨hlo, hhi⟩ := abs_lt.mp hv
  rcases ofRat_cases (f := f) x with ⟨-, heq⟩ | ⟨hr, heq⟩ | ⟨hr, heq⟩ <;> rw [heq]
  · exact finite_lt_finite
  · exact iff_of_true rfl (hhi.trans_le hr)
  · exact iff_of_false Bool.false_ne_true (hr.trans hlo.le).not_gt

theorem not_ofRat_lt_finite (hv : |v| < f.bound) :
    ¬ ofRat f x < finite v ↔ finite v ≤ ofRat f x := by
  rw [ofRat_lt_finite hv, finite_le_ofRat hv, not_lt]

theorem not_finite_lt_ofRat (hv : |v| < f.bound) :
    ¬ finite v < ofRat f x ↔ ofRat f x ≤ finite v := by
  rw [finite_lt_ofRat hv, ofRat_le_finite hv, not_lt]

/-- A point of the grid below the bound keeps its value. -/
theorem ofRat_eq (hround : f.grid.round x = x) (hx : |x| < f.bound) : ofRat f x = .finite x := by
  rw [ofRat, hround, if_pos hx]

end Number

end Ieee
