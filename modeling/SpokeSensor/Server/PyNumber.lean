import SpokeSensor.Lib.Ieee

/-!
# Numbers of the local server

A JSON number is a Python `int` of any size or a `float`. What the server does with
one (`simulation/local_server.py:130–160`) is written down here once.

- `PyNumber.toFloat`, `toInt`, `roundFloat`: `float(x)`, `int(x)` and `round(x)` with
  the exceptions that they raise. An `int` without a double next to it raises, and so
  does `int` of an infinity.
- `ltInt`, `leInt`: comparisons of a number with an `int`, which Python decides
  exactly.
- `PyError`, `raiseIf`: a computation that may raise is an `Except`, and `raiseIf` is
  `if ...: raise`.
- `ofRat_natCast`, `ofRat_finite`: what rounding does to numbers of ordinary size.
-/

namespace SpokeSensor.LocalServer

open Ieee Rounding

/-- Python's `float`. -/
abbrev Double : Type := Number binary64

/-- A number of a parsed JSON body. -/
inductive PyNumber where
  | int (n : ℤ)
  | float (x : Double)
  deriving DecidableEq

/-- The exceptions of the server, by what `do_POST` makes of them: a `ValueError` is a
bad request, everything else an internal error. -/
inductive PyError where
  | valueError (message : String)
  | other (name message : String)
  deriving DecidableEq

/-- `if cond: raise error` -/
def raiseIf (cond : Prop) [Decidable cond] (error : PyError) : Except PyError Unit :=
  if cond then .error error else .ok ()

theorem raiseIf_eq_ok {cond : Prop} [Decidable cond] {error : PyError} {u : Unit} :
    raiseIf cond error = .ok u ↔ ¬ cond := by
  rw [raiseIf]
  split_ifs with h
  · exact iff_of_false nofun (not_not.mpr h)
  · exact iff_of_true rfl h

theorem bind_eq_ok {α β : Type} {x : Except PyError α} {f : α → Except PyError β} {b : β} :
    (x >>= f) = .ok b ↔ ∃ a, x = .ok a ∧ f a = .ok b := by
  cases x with
  | error e => exact iff_of_false nofun nofun
  | ok a =>
    constructor
    · exact fun h => ⟨a, rfl, h⟩
    · rintro ⟨_, ⟨⟩, h⟩
      exact h

theorem ok_eq_ok {α : Type} {a b : α} : (pure a : Except PyError α) = .ok b ↔ a = b :=
  ⟨Except.ok.inj, congrArg Except.ok⟩

namespace PyNumber

/-- The float next to an `int`, unless it overflows. -/
def checkOverflow : Double → Except PyError Double
  | .finite x => .ok (.finite x)
  | _ => .error (.other "OverflowError" "int too large to convert to float")

/-- `float(x)`: a float is its own, and an `int` is taken for the double next to it
unless there is none. -/
def toFloat : PyNumber → Except PyError Double
  | .int n => checkOverflow (.ofRat binary64 n)
  | .float x => .ok x

/-- `int(x)` of a float: the fraction is dropped. -/
def truncate : Double → Except PyError ℤ
  | .finite x => .ok (if 0 ≤ x then ⌊x⌋ else ⌈x⌉)
  | .inf _ => .error (.other "OverflowError" "cannot convert float infinity to integer")
  | .nan => .error (.valueError "cannot convert float NaN to integer")

/-- `int(x)` -/
def toInt : PyNumber → Except PyError ℤ
  | .int n => .ok n
  | .float x => truncate x

/-- `round(x)` of a float: to the nearest integer, a tie to the even one. It raises
for an infinity and for a NaN. -/
def roundFloat : Double → Except PyError ℤ
  | .finite x => .ok (nearestEven x)
  | .inf _ => .error (.other "OverflowError" "cannot convert float infinity to integer")
  | .nan => .error (.valueError "cannot convert float NaN to integer")

/-- `x < n`, which Python decides exactly. -/
def ltInt (n : ℤ) : PyNumber → Prop
  | .int m => m < n
  | .float x => x < .finite n

instance (n : ℤ) : (x : PyNumber) → Decidable (x.ltInt n)
  | .int m => inferInstanceAs (Decidable (m < n))
  | .float x => inferInstanceAs (Decidable (x < .finite n))

/-- `x <= n` -/
def leInt (n : ℤ) : PyNumber → Prop
  | .int m => m ≤ n
  | .float x => x ≤ .finite n

instance (n : ℤ) : (x : PyNumber) → Decidable (x.leInt n)
  | .int m => inferInstanceAs (Decidable (m ≤ n))
  | .float x => inferInstanceAs (Decidable (x ≤ .finite n))

end PyNumber

/-! ## `float` -/

namespace Double

theorem lt_bound {x : ℚ} (h : x ≤ 2 ^ 64) : x < binary64.bound :=
  Format.lt_bound h (by decide)

/-- Whole numbers below `2^53` are not rounded. -/
theorem ofRat_natCast {n : ℕ} (h : n < 2 ^ 53) :
    Number.ofRat binary64 (n : ℚ) = .finite n := by
  refine Number.ofRat_eq (Format.round_natCast h (by decide)) (lt_bound ?_)
  rw [Nat.abs_cast]
  exact_mod_cast h.le.trans (by norm_num)

theorem zpow_le_round {x : ℚ} (h : (2 : ℚ) ^ (-20 : ℤ) ≤ x) :
    (2 : ℚ) ^ (-20 : ℤ) ≤ binary64.grid.round x :=
  Format.zpow_le_round (by decide) h

/-- A value of ordinary size stays positive. -/
theorem not_ofRat_le_zero {x : ℚ} (h : (2 : ℚ) ^ (-20 : ℤ) ≤ x) :
    ¬ Number.ofRat binary64 x ≤ (.finite 0 : Double) := by
  rw [Number.ofRat_le_finite (lt_bound (by norm_num)), not_le]
  exact (zpow_pos two_pos _).trans_le (zpow_le_round h)

/-- Rounding a value up to one stays between multiples of `2^-20`. -/
theorem ofRat_unit {x : ℚ} {j k : ℤ} (hj : 0 < j) (hk : k ≤ 2 ^ 20)
    (hlo : (j : ℚ) * 2 ^ (-20 : ℤ) ≤ x) (hhi : x ≤ (k : ℚ) * 2 ^ (-20 : ℤ)) :
    ∃ y, Number.ofRat binary64 x = (.finite y : Double) ∧ (j : ℚ) * 2 ^ (-20 : ℤ) ≤ y ∧
      y ≤ (k : ℚ) * 2 ^ (-20 : ℤ) := by
  have hjpos : (0 : ℚ) < j * 2 ^ (-20 : ℤ) := mul_pos (by exact_mod_cast hj) (zpow_pos two_pos _)
  have hone : (k : ℚ) * 2 ^ (-20 : ℤ) ≤ 1 := by
    have h : (k : ℚ) ≤ 2 ^ 20 := by exact_mod_cast hk
    norm_num at h ⊢
    linarith
  have hpos : 0 < x := hjpos.trans_le hlo
  have hlog : Int.log 2 |x| ≤ 0 := by
    rw [abs_of_pos hpos]
    refine Int.lt_add_one_iff.mp ((Int.lt_zpow_iff_log_lt Nat.one_lt_two hpos).mp ?_)
    exact (hhi.trans hone).trans_lt (by norm_num)
  have hexponent : binary64.grid.exponent (Int.log 2 |x|) ≤ -20 := by
    rw [Format.exponent_eq]
    norm_num [binary64]
    omega
  have hbelow : (j : ℚ) * 2 ^ (-20 : ℤ) ≤ binary64.grid.round x := Grid.le_round hexponent hlo
  have habove : binary64.grid.round x ≤ (k : ℚ) * 2 ^ (-20 : ℤ) := Grid.round_le hexponent hhi
  refine ⟨binary64.grid.round x, ?_, hbelow, habove⟩
  rw [Number.ofRat, if_pos (lt_bound ?_)]
  rw [abs_of_pos (hjpos.trans_le hbelow)]
  exact (habove.trans hone).trans (by norm_num)

/-- A value of ordinary size is finite. -/
theorem ofRat_finite {x : ℚ} (h0 : 0 ≤ x) (hlt : x < 2 ^ 32) :
    ∃ y, Number.ofRat binary64 x = (.finite y : Double) := by
  have hle : binary64.grid.round x ≤ 2 ^ 32 := by
    have h := Grid.round_le_zpow (g := binary64.grid) (l := 32) (x := x) (by decide)
      (by rw [Format.base_eq]; exact_mod_cast hlt)
    rw [Format.base_eq] at h
    exact_mod_cast h
  refine ⟨binary64.grid.round x, ?_⟩
  rw [Number.ofRat, if_pos (lt_bound ?_)]
  rw [abs_of_nonneg (Grid.round_nonneg h0)]
  exact hle.trans (by norm_num)

end Double

end SpokeSensor.LocalServer
