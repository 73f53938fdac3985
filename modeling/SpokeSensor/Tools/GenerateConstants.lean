import SpokeSensor.Lib.DecimalText
import SpokeSensor.Server.GenerateCode

/-!
# Float constants in generated headers (`tools/generate_constants.py:15–16, 74–150`)

Both generators write a number with nine significant digits and append the suffix `f`:
`generate_constants.py` through `f`, the local server through `fv`
(`local_server.py:159–160`). `Server.GenerateCode` takes such a token for the number that
it stands for; here it is the text, and what a compiler reads of the text is what was
assumed there (`floatLiteral_fv`).

Three things can go wrong with a token (`token_faithful_iff`).

- It has neither a point nor an exponent when the rounded number is a whole number below
  `10^9`, and then it is no floating constant.
- An `int` is formatted as the double next to it, and there is none from `2^1024 - 2^970`
  on (`binary64_overflow`): the generator fails.
- The double next to an `int` may lie on the other side of a midpoint between two decimals
  of nine digits; then the token is not next to the `int` (`Unmoved`). Below `2^53` an `int`
  is a double, and a float is its own.
-/

namespace SpokeSensor.GenerateConstants

open Ieee Rounding DecimalText LocalServer

/-- `f"{x:.9g}"` of a float. -/
def format9g : Double → List Char
  | .finite x => general 9 x
  | .inf negative => (if negative then "-inf" else "inf").toList
  | .nan => "nan".toList

/-- `f`; an `int` is formatted as the float next to it. -/
def f (value : PyNumber) : Except PyError (List Char) := do
  let x ← value.toFloat
  pure (format9g x)

/-- `{f(value)}f` in the headers of `main`. -/
def floatConstant (value : PyNumber) : Except PyError (List Char) := do
  let text ← f value
  pure (text ++ ['f'])

/-- `fv` of the local server, as text. -/
def fvText (value : PyNumber) : Except PyError (List Char) := do
  let x ← value.toFloat
  pure (format9g x ++ ['f'])

/-- The number itself: an `int` of any size, or a finite float. -/
def exact : PyNumber → Option ℚ
  | .int n => some n
  | .float (.finite x) => some x
  | .float _ => none

/-- The double `y` is in the place of `x` when it is less than half a unit of the ninth digit
away from the nine-digit decimal next to `x`, or half a unit if the ninth digit is even. A
number halfway between two decimals is next to both. -/
def Unmoved (x y : ℚ) : Prop :=
  |y - nineDigits.round x| < nineDigits.spacing x / 2 ∨
  (|y - nineDigits.round x| = nineDigits.spacing x / 2 ∧
    nearestEven (x / nineDigits.spacing x) % 2 = 0) ∨
  |x - nineDigits.round x| = nineDigits.spacing x / 2

instance (x y : ℚ) : Decidable (Unmoved x y) := inferInstanceAs (Decidable (_ ∨ _ ∨ _))

/-- An `int` has a double next to it, in its place; a float is a double. -/
def Carried : PyNumber → Prop
  | .int n => |(n : ℚ)| < 2 ^ 1024 - 2 ^ 970 ∧ Unmoved n (binary64.grid.round n)
  | .float _ => True

/-- The token is a floating constant, next to `x` among the numbers of nine digits. -/
def Faithful (token : List Char) (x : ℚ) : Prop :=
  ∃ q, signedConstant token = some q ∧ |q - x| ≤ nineDigits.spacing x / 2

variable {value : PyNumber} {x : ℚ}

theorem suffix_mem : ['f'] ∈ suffixes := by decide

/-- The two generators write the same tokens. -/
theorem fvText_eq_floatConstant (value : PyNumber) : fvText value = floatConstant value := by
  rw [fvText, floatConstant, f]
  cases value.toFloat <;> rfl

theorem floatConstant_finite (h : value.toFloat = .ok (.finite x)) :
    floatConstant value = .ok (general 9 x ++ ['f']) := by
  rw [floatConstant, f, h]
  rfl

/-- The token, read by a compiler. -/
theorem signedConstant_token (x : ℚ) : signedConstant (general 9 x ++ ['f']) =
    if (nineDigits.round x).den = 1 ∧ |nineDigits.round x| < 10 ^ 9 then none
    else some (nineDigits.round x) :=
  signedConstant_general (by norm_num) x suffix_mem

/-- What the generators of headers assume of a compiler is what it makes of the text. -/
theorem floatLiteral_fv (value : PyNumber) :
    floatLiteral <$> fv value
      = (fun token => (signedConstant token).map (Number.ofRat binary32)) <$> fvText value := by
  rw [fv, fvText]
  cases value.toFloat with
  | error e => rfl
  | ok y =>
    cases y with
    | finite x =>
      show Except.ok (floatLiteral (.decimal (nineDigits.round x)))
        = Except.ok ((signedConstant (general 9 x ++ ['f'])).map (Number.ofRat binary32))
      rw [signedConstant_token, floatLiteral]
      split_ifs <;> rfl
    | inf negative => cases negative <;> rfl
    | nan => rfl

/-- A number is whole iff its denominator is one. -/
theorem den_eq_one_iff {q : ℚ} : q.den = 1 ∧ |q| < 10 ^ 9 ↔ ∃ n : ℤ, |n| < 10 ^ 9 ∧ q = n := by
  constructor
  · rintro ⟨hden, hlt⟩
    have hq : q = q.num := (Rat.coe_int_num_of_den_eq_one hden).symm
    refine ⟨q.num, ?_, hq⟩
    rw [hq] at hlt
    exact_mod_cast hlt
  · rintro ⟨n, hlt, rfl⟩
    exact ⟨Rat.den_intCast n, by exact_mod_cast hlt⟩

theorem faithful_iff (x y : ℚ) : Faithful (general 9 y ++ ['f']) x ↔
    (¬ ∃ n : ℤ, |n| < 10 ^ 9 ∧ nineDigits.round y = n) ∧
      |nineDigits.round y - x| ≤ nineDigits.spacing x / 2 := by
  rw [Faithful, signedConstant_token, ← den_eq_one_iff]
  split_ifs with hwhole
  · exact iff_of_false nofun fun h => h.1 hwhole
  · constructor
    · rintro ⟨q, hq, hnear⟩
      obtain rfl := Option.some.inj hq
      exact ⟨hwhole, hnear⟩
    · exact fun h => ⟨_, rfl, h.2⟩

/-- Only a float is a double as it stands. -/
theorem toFloat_int (n : ℤ) :
    (PyNumber.int n).toFloat = if |(n : ℚ)| < 2 ^ 1024 - 2 ^ 970
      then .ok (.finite (binary64.grid.round n))
      else .error (.other "OverflowError" "int too large to convert to float") := by
  rw [PyNumber.toFloat, Number.ofRat]
  by_cases hfits : |(n : ℚ)| < 2 ^ 1024 - 2 ^ 970
  · rw [if_pos hfits, if_pos ((binary64_overflow _).mpr hfits)]
    rfl
  · rw [if_neg hfits, if_neg (mt (binary64_overflow _).mp hfits)]
    rfl

/-- Whole numbers below `2^53` are doubles. -/
theorem round_int_of_lt {n : ℤ} (h : |n| < 2 ^ 53) : binary64.grid.round (n : ℚ) = n := by
  have hlt : n.natAbs < 2 ^ 53 := by
    rw [Int.abs_eq_natAbs] at h
    exact_mod_cast h
  have hnat : binary64.grid.round ((n.natAbs : ℕ) : ℚ) = (n.natAbs : ℕ) :=
    Format.round_natCast hlt (by decide)
  rw [← Int.cast_natCast] at hnat
  rcases Int.natAbs_eq n with hn | hn <;> rw [hn]
  · exact hnat
  · rw [Int.cast_neg, Grid.round_neg, hnat]

theorem nineDigits_exponent (l : ℤ) : nineDigits.exponent l = l - 8 := rfl

theorem nineDigits_fine (l : ℤ) : nineDigits.exponent l ≤ l := by
  rw [nineDigits_exponent]
  omega

/-- A double has so many more digits that it is far less than a unit of the ninth away. -/
theorem round_int_close {n : ℤ} (hn : n ≠ 0) :
    |binary64.grid.round (n : ℚ) - n| ≤ nineDigits.spacing (n : ℚ) / 8 := by
  have hne : (n : ℚ) ≠ 0 := by exact_mod_cast hn
  have hone : (1 : ℚ) ≤ |(n : ℚ)| := by exact_mod_cast Int.one_le_abs hn
  have hlog : 0 ≤ Int.log 2 |(n : ℚ)| :=
    (Int.zpow_le_iff_le_log Nat.one_lt_two (abs_pos.mpr hne)).mp (by simpa using hone)
  have hclose := Format.abs_round_sub_le_mul (f := binary64) hne
    (by show (-1074 : ℤ) ≤ Int.log 2 |(n : ℚ)| - (53 - 1); omega)
  have hbelow : |(n : ℚ)| < ((10 : ℕ) : ℚ) ^ (Int.log 10 |(n : ℚ)| + 1) :=
    Int.lt_zpow_succ_log_self (by norm_num) _
  have hunit : ((10 : ℕ) : ℚ) ^ (Int.log 10 |(n : ℚ)| + 1)
      = nineDigits.spacing (n : ℚ) * 10 ^ 9 := by
    show _ = ((10 : ℕ) : ℚ) ^ (Int.log 10 |(n : ℚ)| - 8) * 10 ^ 9
    rw [show Int.log 10 |(n : ℚ)| + 1 = Int.log 10 |(n : ℚ)| - 8 + (9 : ℕ) by push_cast; ring,
      zpow_add₀ (by norm_num), zpow_natCast]
    norm_num
  have hbits : (2 : ℚ) ^ (-(binary64.precision : ℤ)) = 1 / 2 ^ 53 := by
    show (2 : ℚ) ^ (-((53 : ℕ) : ℤ)) = 1 / 2 ^ 53
    rw [zpow_neg, zpow_natCast, one_div]
  rw [hbits] at hclose
  rw [hunit] at hbelow
  linarith

theorem unmoved_self (x : ℚ) : Unmoved x x := by
  have hhalf := Grid.abs_round_sub_le (g := nineDigits) x
  rw [abs_sub_comm] at hhalf
  rcases hhalf.lt_or_eq with h | h
  · exact .inl h
  · exact .inr (.inr h)

/-- From `10^9` on nine digits do not form a whole number below it. -/
theorem not_whole_of_le {y : ℚ} (h : 10 ^ 9 ≤ |y|) :
    ¬ ∃ n : ℤ, |n| < 10 ^ 9 ∧ nineDigits.round y = n := by
  rintro ⟨n, hlt, hn⟩
  have hround := Grid.zpow_le_round (g := nineDigits) (l := 9) (x := |y|) (nineDigits_fine 9)
    (by
      show ((10 : ℕ) : ℚ) ^ ((9 : ℕ) : ℤ) ≤ |y|
      rw [zpow_natCast]
      exact_mod_cast h)
  have hpower : ((nineDigits.base : ℕ) : ℚ) ^ (9 : ℤ) = 10 ^ 9 := by
    show ((10 : ℕ) : ℚ) ^ ((9 : ℕ) : ℤ) = 10 ^ 9
    rw [zpow_natCast, Nat.cast_ofNat]
  have hltq : |((n : ℤ) : ℚ)| < 10 ^ 9 := by exact_mod_cast hlt
  rw [hpower, ← Grid.abs_round, hn] at hround
  exact hround.not_gt hltq

/-- Nine digits of the double next to an `int`, and of the `int` itself. -/
theorem faithful_int_iff (n : ℤ) :
    Faithful (general 9 (binary64.grid.round (n : ℚ)) ++ ['f']) n ↔
      (¬ ∃ m : ℤ, |m| < 10 ^ 9 ∧ nineDigits.round (n : ℚ) = m) ∧
        Unmoved n (binary64.grid.round n) := by
  rw [faithful_iff]
  rcases lt_or_ge |n| (2 ^ 53) with hsmall | hlarge
  · rw [round_int_of_lt hsmall]
    exact and_congr_right fun _ => iff_of_true (Grid.abs_round_sub_le _) (unmoved_self _)
  · have hn : n ≠ 0 := by
      rintro rfl
      norm_num at hlarge
    have hne : (n : ℚ) ≠ 0 := by exact_mod_cast hn
    have hbig : (2 : ℚ) ^ 53 ≤ |(n : ℚ)| := by exact_mod_cast hlarge
    have hdouble : (2 : ℚ) ^ 53 ≤ |binary64.grid.round (n : ℚ)| := by
      rw [Grid.abs_round]
      have hpower := Format.zpow_le_round (f := binary64) (l := 53) (x := |(n : ℚ)|) (by decide)
        (by exact_mod_cast hbig)
      exact_mod_cast hpower
    have hnine : (10 : ℚ) ^ 9 ≤ 2 ^ 53 := by norm_num
    exact and_congr
      (iff_of_true (not_whole_of_le (hnine.trans hdouble)) (not_whole_of_le (hnine.trans hbig)))
      (Grid.abs_round_sub_le_half_iff nineDigits_fine hne (round_int_close hn))

/-- Both generators write the same token for a finite number, and it is a floating constant
that agrees with the number to nine digits exactly when these digits do not form a whole
number below `10^9`, and the number, if it is an `int`, has a double in its place. -/
theorem token_faithful_iff (hfinite : exact value = some x) :
    (∃ token, floatConstant value = .ok token ∧ fvText value = .ok token ∧ Faithful token x) ↔
      (¬ ∃ n : ℤ, |n| < 10 ^ 9 ∧ nineDigits.round x = n) ∧ Carried value := by
  have htoken : ∀ y, value.toFloat = .ok (.finite y) →
      ((∃ token, floatConstant value = .ok token ∧ fvText value = .ok token ∧ Faithful token x) ↔
        Faithful (general 9 y ++ ['f']) x) := by
    intro y hy
    rw [fvText_eq_floatConstant, floatConstant_finite hy]
    constructor
    · rintro ⟨token, hok, -, hfaithful⟩
      obtain rfl := Except.ok.inj hok
      exact hfaithful
    · exact fun h => ⟨_, rfl, rfl, h⟩
  cases value with
  | int n =>
    obtain rfl := Option.some.inj hfinite
    by_cases hfits : |(n : ℚ)| < 2 ^ 1024 - 2 ^ 970
    · rw [htoken _ (by rw [toFloat_int, if_pos hfits]), faithful_int_iff, Carried]
      exact and_congr_right fun _ => (and_iff_right hfits).symm
    · -- the conversion raises, so there is no token
      refine iff_of_false ?_ fun h => hfits h.2.1
      rintro ⟨token, hok, -⟩
      rw [floatConstant, f, toFloat_int, if_neg hfits] at hok
      cases hok
  | float y =>
    cases y with
    | finite y =>
      obtain rfl := Option.some.inj hfinite
      rw [htoken _ rfl, faithful_iff, Carried]
      exact and_congr_right fun _ => iff_of_true (Grid.abs_round_sub_le _) trivial
    | inf negative => cases hfinite
    | nan => cases hfinite

/-- The duty cycle of the carrier. -/
theorem half_faithful : ∃ token, floatConstant (.float (.finite (1 / 2))) = .ok token ∧
    fvText (.float (.finite (1 / 2))) = .ok token ∧ Faithful token (1 / 2) := by
  have hround : nineDigits.round (1 / 2 : ℚ) = 1 / 2 := by decide +kernel
  have hfinite : exact (.float (.finite (1 / 2))) = some (1 / 2) := rfl
  refine (token_faithful_iff hfinite).mpr ⟨?_, trivial⟩
  rintro ⟨n, -, hn⟩
  rw [hround] at hn
  have hdouble : (1 : ℚ) = 2 * n := by linarith
  have hodd : (1 : ℤ) = 2 * n := by exact_mod_cast hdouble
  omega

/-- The double next to this `int` is the midpoint below it, and goes down to `1e+18`. -/
example : binary64.grid.round (1000000005000000001 : ℚ) = 1000000005000000000 ∧
    ¬ Unmoved 1000000005000000001 (binary64.grid.round 1000000005000000001) := by
  decide +kernel

/-- The width of a spoke, `2.0`, is written as `2f`. -/
theorem two_not_faithful : floatConstant (.float (.finite 2)) = .ok "2f".toList ∧
    fvText (.float (.finite 2)) = .ok "2f".toList ∧ ¬ Faithful "2f".toList 2 := by
  have htoken : floatConstant (.float (.finite 2)) = .ok "2f".toList := by
    rw [floatConstant_finite rfl]
    decide +kernel
  refine ⟨htoken, by rw [fvText_eq_floatConstant, htoken], ?_⟩
  rintro ⟨q, hq, -⟩
  have hnone : signedConstant "2f".toList = none := by decide
  exact absurd (hnone.symm.trans hq) nofun

end SpokeSensor.GenerateConstants
