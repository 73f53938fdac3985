import SpokeSensor.Lib.Rounding
import Mathlib.Data.List.DropRight
import Mathlib.Data.Rat.Floor
import Mathlib.Tactic.NormNum

/-!
# Decimals as text

- `general p`: writes a number the way the conversion `%.{p}g` of C does: rounded to
  `p` significant digits, in fixed or in exponential notation according to its
  magnitude, and without trailing zeros. `fixed p` is the conversion `%.{p}f`.
- `floatingConstant`: reads the decimal floating constants of C, which need a point or
  an exponent (`signedConstant` after an optional minus sign; hexadecimal constants
  are left out).
- `floatingConstant_point`, `floatingConstant_whole`: reading the two forms that are
  written.
- `signedConstant_general`: what is written and given a suffix is read back as the
  rounded number, unless that is a whole number of at most `p` digits. Those are
  written as bare integers, and no suffix makes them a floating constant.
- `signedConstant_fixed`: what `%.{p}f` writes is read back as the nearest multiple of
  `10 ^ -p`.
-/

namespace DecimalText

open Rounding

/-! ## Writing

A number with `p` digits in one of the two usual forms: with a point if its magnitude
is not far from one, and with an exponent otherwise. Trailing zeros are dropped in
both.
-/

/-- The last `k` digits of a number, with leading zeros. -/
def lastDigits : ℕ → ℕ → List Char
  | 0, _ => []
  | k + 1, n => lastDigits k (n / 10) ++ [(n % 10).digitChar]

/-- A fraction without its trailing zeros, after the point if anything is left. -/
def fraction (digits : List Char) : List Char :=
  match digits.rdropWhile (· = '0') with
  | [] => []
  | c :: cs => '.' :: c :: cs

/-- The decimal `n / 10 ^ k`. -/
def fixedPoint (k n : ℕ) : List Char :=
  Nat.toDigits 10 (n / 10 ^ k) ++ fraction (lastDigits k n)

/-- The power of ten, with two digits or more. -/
def exponent (e : ℤ) : List Char :=
  'e' :: (if e < 0 then '-' else '+')
    :: ((if e.natAbs < 10 then ['0'] else []) ++ Nat.toDigits 10 e.natAbs)

/-- A number that `p` digits express exactly. -/
def magnitude (p : ℕ) (r : ℚ) : List Char :=
  let e := Int.log 10 r
  if e < -4 ∨ (p : ℤ) ≤ e then fixedPoint (p - 1) ⌊r * 10 ^ (p - 1 - e)⌋₊ ++ exponent e
  else fixedPoint (p - 1 - e).toNat ⌊r * 10 ^ (p - 1 - e)⌋₊

theorem one_lt_base : 1 < 10 := by decide

/-- The grid of the decimals with `p` significant digits. -/
def decimals (p : ℕ) : Grid := .digits 10 one_lt_base p

/-- The conversion `%.{p}g`. -/
def general (p : ℕ) (x : ℚ) : List Char :=
  (if x < 0 then ['-'] else []) ++ magnitude p |(decimals p).round x|

/-- The conversion `%.{p}f`. -/
def fixed (p : ℕ) (x : ℚ) : List Char :=
  let n := (nearestEven (|x| * 10 ^ p)).toNat
  (if x < 0 then ['-'] else []) ++ (Nat.toDigits 10 (n / 10 ^ p)
    ++ if p = 0 then [] else '.' :: lastDigits p n)

/-! ## Reading

A reader of decimal constants, after the grammar of C: digits with an optional
fraction and exponent, and a suffix.
-/

/-- floating-suffix, or none -/
def suffixes : List (List Char) := [[], ['f'], ['F'], ['l'], ['L']]

/-- sign digit-sequence, and the suffix -/
def signedDigits (negative : Bool) (s : List Char) : Option ℤ :=
  let digits := s.takeWhile Char.isDigit
  if digits ≠ [] ∧ s.dropWhile Char.isDigit ∈ suffixes then
    some (if negative then -(Nat.ofDigitChars 10 digits 0 : ℤ) else Nat.ofDigitChars 10 digits 0)
  else none

/-- exponent-part, and the suffix -/
def scale : List Char → Option ℤ
  | [] => none
  | c :: s =>
    if c = 'e' ∨ c = 'E' then
      match s with
      | '-' :: s => signedDigits true s
      | '+' :: s => signedDigits false s
      | s => signedDigits false s
    else none

/-- The exponent where it may be left out, and the suffix. -/
def optionalScale (s : List Char) : Option ℤ := if s ∈ suffixes then some 0 else scale s

/-- The value of the digits before and after the point. -/
def significand (whole frac : List Char) : ℚ :=
  Nat.ofDigitChars 10 whole 0 + Nat.ofDigitChars 10 frac 0 / 10 ^ frac.length

/-- decimal-floating-constant -/
def floatingConstant (s : List Char) : Option ℚ :=
  let whole := s.takeWhile Char.isDigit
  match s.dropWhile Char.isDigit with
  | '.' :: s =>
    let frac := s.takeWhile Char.isDigit
    if whole = [] ∧ frac = [] then none
    else (optionalScale (s.dropWhile Char.isDigit)).map fun e => significand whole frac * 10 ^ e
  | s => if whole = [] then none else (scale s).map fun e => significand whole [] * 10 ^ e

/-- A floating constant, or its negation. -/
def signedConstant : List Char → Option ℚ
  | '-' :: s => (floatingConstant s).map fun x => -x
  | s => floatingConstant s

/-! ## Digits

The last digits of a number, digit by digit, and what they read as.
-/

/-- All characters are digits. -/
def AllDigits (cs : List Char) : Prop := ∀ c ∈ cs, c.isDigit = true

theorem allDigits_toDigits (n : ℕ) : AllDigits (Nat.toDigits 10 n) := fun _ hc =>
  Nat.isDigit_of_mem_toDigits (by decide) (by decide) hc

theorem allDigits_lastDigits (k n : ℕ) : AllDigits (lastDigits k n) := by
  induction k generalizing n with
  | zero => exact fun c hc => absurd hc List.not_mem_nil
  | succ k ih =>
    intro c hc
    rcases List.mem_append.mp hc with hc | hc
    · exact ih _ c hc
    · rw [List.mem_singleton.mp hc, Nat.isDigit_digitChar]
      exact decide_eq_true (Nat.mod_lt n (by norm_num))

@[simp] theorem length_lastDigits (k n : ℕ) : (lastDigits k n).length = k := by
  induction k generalizing n with
  | zero => rfl
  | succ k ih => rw [lastDigits, List.length_append, ih, List.length_singleton]

@[simp] theorem ofDigitChars_lastDigits (k n : ℕ) :
    Nat.ofDigitChars 10 (lastDigits k n) 0 = n % 10 ^ k := by
  induction k generalizing n with
  | zero => rw [pow_zero, Nat.mod_one, lastDigits, Nat.ofDigitChars_nil]
  | succ k ih =>
    rw [lastDigits, Nat.ofDigitChars_append, ih,
      Nat.ofDigitChars_cons_digitChar_of_lt_ten (Nat.mod_lt n (by norm_num)), Nat.ofDigitChars_nil,
      pow_succ', Nat.mod_mul]
    omega

/-- Zeros at the end of a fraction do not change it. -/
theorem ofDigitChars_rdropWhile (cs : List Char) :
    (Nat.ofDigitChars 10 (cs.rdropWhile (· = '0')) 0 : ℚ) / 10 ^ (cs.rdropWhile (· = '0')).length
      = Nat.ofDigitChars 10 cs 0 / 10 ^ cs.length := by
  have hzeros : cs.rtakeWhile (· = '0')
      = List.replicate (cs.rtakeWhile (· = '0')).length '0' :=
    List.eq_replicate_of_mem fun c hc => by simpa using List.mem_rtakeWhile_imp hc
  have hvalue : Nat.ofDigitChars 10 cs 0 = 10 ^ (cs.rtakeWhile (· = '0')).length
      * Nat.ofDigitChars 10 (cs.rdropWhile (· = '0')) 0 := by
    conv_lhs => rw [← List.rdropWhile_append_rtakeWhile (p := (· = '0')) (l := cs),
      Nat.ofDigitChars_append, hzeros, Nat.ofDigitChars_replicate_zero]
  have hlength : cs.length
      = (cs.rdropWhile (· = '0')).length + (cs.rtakeWhile (· = '0')).length := by
    rw [← List.length_append, List.rdropWhile_append_rtakeWhile]
  rw [hvalue, hlength, pow_add]
  push_cast
  field_simp

/-- Nothing is left of a fraction that is zero. -/
theorem rdropWhile_lastDigits_eq_nil_iff (k n : ℕ) :
    (lastDigits k n).rdropWhile (· = '0') = [] ↔ 10 ^ k ∣ n := by
  constructor
  · intro h
    have hvalue := ofDigitChars_rdropWhile (lastDigits k n)
    rw [h, Nat.ofDigitChars_nil, Nat.cast_zero, zero_div, eq_comm, div_eq_zero_iff,
      or_iff_left (by positivity), Nat.cast_eq_zero, ofDigitChars_lastDigits] at hvalue
    exact Nat.dvd_of_mod_eq_zero hvalue
  · intro h
    induction k generalizing n with
    | zero => rfl
    | succ k ih =>
      obtain ⟨j, rfl⟩ := h
      have hlast : 10 ^ (k + 1) * j % 10 = 0 := by
        rw [pow_succ', Nat.mul_assoc, Nat.mul_mod_right]
      have hrest : 10 ^ (k + 1) * j / 10 = 10 ^ k * j := by
        rw [pow_succ', Nat.mul_assoc, Nat.mul_div_cancel_left _ (by norm_num)]
      rw [lastDigits, hlast, hrest, List.rdropWhile_concat_pos _ _ _ (by decide)]
      exact ih _ (Nat.dvd_mul_right _ _)

/-- A decimal in fixed notation: either a whole number without a point, or a whole
number, a point and more digits. -/
theorem fixedPoint_cases (k n : ℕ) :
    (10 ^ k ∣ n ∧ fixedPoint k n = Nat.toDigits 10 (n / 10 ^ k)) ∨
      (¬ 10 ^ k ∣ n ∧ ∃ frac, AllDigits frac ∧
        fixedPoint k n = Nat.toDigits 10 (n / 10 ^ k) ++ '.' :: frac ∧
        significand (Nat.toDigits 10 (n / 10 ^ k)) frac = (n : ℚ) / 10 ^ k) := by
  rw [fixedPoint, fraction, ← rdropWhile_lastDigits_eq_nil_iff k n]
  cases hfrac : (lastDigits k n).rdropWhile (· = '0') with
  | nil => exact .inl ⟨rfl, List.append_nil _⟩
  | cons c cs =>
    refine .inr ⟨nofun, c :: cs, ?_, rfl, ?_⟩
    · intro d hd
      rw [← hfrac] at hd
      exact allDigits_lastDigits k n d ((List.rdropWhile_prefix _ _).subset hd)
    · have hsplit : (n : ℚ) = 10 ^ k * (n / 10 ^ k : ℕ) + (n % 10 ^ k : ℕ) := by
        exact_mod_cast (Nat.div_add_mod n (10 ^ k)).symm
      rw [significand, ← hfrac, ofDigitChars_rdropWhile, Nat.ofDigitChars_ten_toDigits,
        ofDigitChars_lastDigits, length_lastDigits]
      conv_rhs => rw [hsplit]
      field_simp

/-- A number is written with digits, a point, an exponent and signs. -/
theorem mem_general {p : ℕ} {x : ℚ} {c : Char} (h : c ∈ general p x) :
    c.isDigit = true ∨ c ∈ ['.', 'e', '+', '-'] := by
  have hdigits : ∀ n, c ∈ Nat.toDigits 10 n → c.isDigit = true := fun n => allDigits_toDigits n c
  have hfixed : ∀ k n, c ∈ fixedPoint k n → c.isDigit = true ∨ c ∈ ['.', 'e', '+', '-'] := by
    intro k n hc
    rcases fixedPoint_cases k n with ⟨-, htext⟩ | ⟨-, frac, hfrac, htext, -⟩ <;> rw [htext] at hc
    · exact .inl (hdigits _ hc)
    · rcases List.mem_append.mp hc with hc | hc
      · exact .inl (hdigits _ hc)
      · rcases List.mem_cons.mp hc with rfl | hc
        · exact .inr (by decide)
        · exact .inl (hfrac c hc)
  have hexponent : ∀ e, c ∈ exponent e → c.isDigit = true ∨ c ∈ ['.', 'e', '+', '-'] := by
    intro e hc
    rcases List.mem_cons.mp hc with rfl | hc
    · exact .inr (by decide)
    rcases List.mem_cons.mp hc with rfl | hc
    · split_ifs <;> exact .inr (by decide)
    rcases List.mem_append.mp hc with hc | hc
    · split_ifs at hc
      · exact .inl (by rw [List.mem_singleton.mp hc]; decide)
      · exact absurd hc List.not_mem_nil
    · exact .inl (hdigits _ hc)
  rw [general] at h
  rcases List.mem_append.mp h with h | h
  · split_ifs at h
    · exact .inr (by rw [List.mem_singleton.mp h]; decide)
    · exact absurd h List.not_mem_nil
  · rw [magnitude] at h
    split_ifs at h
    · rcases List.mem_append.mp h with h | h
      · exact hfixed _ _ h
      · exact hexponent _ h
    · exact hfixed _ _ h

/-! ## Reading what is written

The reader takes the whole digits up to the point or the exponent, and then the rest;
what is written leaves no choice in between, so it is read as it was meant.
-/

section

variable {whole frac tail s : List Char} {e : ℤ}

theorem takeWhile_digits (h : AllDigits whole) (htail : ∀ c ∈ tail.head?, c.isDigit = false) :
    (whole ++ tail).takeWhile Char.isDigit = whole := by
  rw [List.takeWhile_append_of_pos h]
  cases tail with
  | nil => exact List.append_nil _
  | cons c cs =>
    rw [List.takeWhile_cons_of_neg (by simp [htail c rfl]), List.append_nil]

theorem dropWhile_digits (h : AllDigits whole) (htail : ∀ c ∈ tail.head?, c.isDigit = false) :
    (whole ++ tail).dropWhile Char.isDigit = tail := by
  rw [List.dropWhile_append_of_pos h]
  cases tail with
  | nil => rfl
  | cons c cs => exact List.dropWhile_cons_of_neg (by simp [htail c rfl])

/-- No suffix starts with a digit, a point or an exponent. -/
theorem suffix_head (hs : s ∈ suffixes) :
    (∀ c ∈ s.head?, c.isDigit = false ∧ c ≠ '.') ∧ scale s = none := by
  have hletter : ∀ c : Char, c.isDigit = false ∧ c ≠ '.' →
      ∀ d ∈ [c].head?, d.isDigit = false ∧ d ≠ '.' := by
    rintro c hc d hd
    obtain rfl := Option.some.inj hd
    exact hc
  simp only [suffixes, List.mem_cons, List.not_mem_nil, or_false] at hs
  rcases hs with rfl | rfl | rfl | rfl | rfl
  · exact ⟨nofun, rfl⟩
  · exact ⟨hletter 'f' (by decide), rfl⟩
  · exact ⟨hletter 'F' (by decide), rfl⟩
  · exact ⟨hletter 'l' (by decide), rfl⟩
  · exact ⟨hletter 'L' (by decide), rfl⟩

/-- An exponent starts with a letter that no suffix has. -/
theorem exponent_head (e : ℤ) (s : List Char) :
    (∀ c ∈ (exponent e ++ s).head?, c.isDigit = false ∧ c ≠ '.') ∧ exponent e ++ s ∉ suffixes := by
  constructor
  · rintro c hc
    obtain rfl := Option.some.inj hc
    decide
  · simp [exponent, suffixes]

theorem signedDigits_append (negative : Bool) (h : AllDigits whole) (hne : whole ≠ [])
    (hs : s ∈ suffixes) :
    signedDigits negative (whole ++ s) = some (if negative
      then -(Nat.ofDigitChars 10 whole 0 : ℤ) else Nat.ofDigitChars 10 whole 0) := by
  have htail : ∀ c ∈ s.head?, c.isDigit = false := fun c hc => ((suffix_head hs).1 c hc).1
  rw [signedDigits, takeWhile_digits h htail, dropWhile_digits h htail, if_pos ⟨hne, hs⟩]

/-- An exponent is read back. -/
theorem scale_exponent (e : ℤ) (hs : s ∈ suffixes) : scale (exponent e ++ s) = some e := by
  set digits := (if e.natAbs < 10 then ['0'] else []) ++ Nat.toDigits 10 e.natAbs with hdigits
  have hall : AllDigits digits := by
    intro c hc
    rcases List.mem_append.mp hc with hc | hc
    · split_ifs at hc
      · rw [List.mem_singleton.mp hc]
        decide
      · exact absurd hc List.not_mem_nil
    · exact allDigits_toDigits _ c hc
  have hne : digits ≠ [] := by simp [hdigits, Nat.toDigits_ne_nil]
  have hvalue : Nat.ofDigitChars 10 digits 0 = e.natAbs := by
    rw [hdigits, Nat.ofDigitChars_append]
    split_ifs <;> simp [Nat.ofDigitChars_cons]
  by_cases hneg : e < 0
  · have htext : exponent e ++ s = 'e' :: '-' :: (digits ++ s) := by
      rw [exponent, if_pos hneg]
      rfl
    rw [htext]
    show signedDigits true (digits ++ s) = some e
    rw [signedDigits_append true hall hne hs, hvalue, if_pos rfl]
    congr 1
    omega
  · have htext : exponent e ++ s = 'e' :: '+' :: (digits ++ s) := by
      rw [exponent, if_neg hneg]
      rfl
    rw [htext]
    show signedDigits false (digits ++ s) = some e
    rw [signedDigits_append false hall hne hs, hvalue, if_neg (by decide)]
    congr 1
    omega

/-- With a point the exponent may be left out. -/
theorem floatingConstant_point (hwhole : AllDigits whole) (hne : whole ≠ [])
    (hfrac : AllDigits frac) (htail : ∀ c ∈ tail.head?, c.isDigit = false) :
    floatingConstant (whole ++ '.' :: (frac ++ tail))
      = (optionalScale tail).map fun e => significand whole frac * 10 ^ e := by
  have hpoint : ∀ c ∈ ('.' :: (frac ++ tail)).head?, c.isDigit = false := by
    rintro c hc
    obtain rfl := Option.some.inj hc
    decide
  rw [floatingConstant, takeWhile_digits hwhole hpoint, dropWhile_digits hwhole hpoint]
  show (if whole = [] ∧ (frac ++ tail).takeWhile Char.isDigit = [] then none
    else (optionalScale ((frac ++ tail).dropWhile Char.isDigit)).map fun e =>
      significand whole ((frac ++ tail).takeWhile Char.isDigit) * 10 ^ e) = _
  rw [takeWhile_digits hfrac htail, dropWhile_digits hfrac htail, if_neg fun h => hne h.1]

/-- Without a point it must be there. -/
theorem floatingConstant_whole (hwhole : AllDigits whole) (hne : whole ≠ [])
    (htail : ∀ c ∈ tail.head?, c.isDigit = false ∧ c ≠ '.') :
    floatingConstant (whole ++ tail)
      = (scale tail).map fun e => significand whole [] * 10 ^ e := by
  have hdigit : ∀ c ∈ tail.head?, c.isDigit = false := fun c hc => (htail c hc).1
  rw [floatingConstant, takeWhile_digits hwhole hdigit, dropWhile_digits hwhole hdigit]
  dsimp only
  split
  · exact absurd rfl (htail '.' rfl).2
  · rw [if_neg hne]

/-- A decimal in fixed notation, as a constant. -/
theorem floatingConstant_fixedPoint (k n : ℕ) (hs : s ∈ suffixes) :
    floatingConstant (fixedPoint k n ++ s)
      = if 10 ^ k ∣ n then none else some ((n : ℚ) / 10 ^ k) := by
  obtain ⟨hhead, hscale⟩ := suffix_head hs
  rcases fixedPoint_cases k n with ⟨hdvd, htext⟩ | ⟨hdvd, frac, hfrac, htext, hvalue⟩
  · rw [if_pos hdvd, htext,
      floatingConstant_whole (allDigits_toDigits _) Nat.toDigits_ne_nil hhead, hscale]
    rfl
  · rw [if_neg hdvd, htext, List.append_assoc, List.cons_append,
      floatingConstant_point (allDigits_toDigits _) Nat.toDigits_ne_nil hfrac
        fun c hc => (hhead c hc).1, optionalScale, if_pos hs, hvalue]
    simp

/-- With an exponent it is always one. -/
theorem floatingConstant_exponent (k n : ℕ) (e : ℤ) (hs : s ∈ suffixes) :
    floatingConstant (fixedPoint k n ++ (exponent e ++ s)) = some ((n : ℚ) / 10 ^ k * 10 ^ e) := by
  obtain ⟨hhead, hsuffix⟩ := exponent_head e s
  rcases fixedPoint_cases k n with ⟨⟨j, rfl⟩, htext⟩ | ⟨hdvd, frac, hfrac, htext, hvalue⟩
  · have hj : 10 ^ k * j / 10 ^ k = j := Nat.mul_div_cancel_left _ (by positivity)
    rw [htext, floatingConstant_whole (allDigits_toDigits _) Nat.toDigits_ne_nil hhead,
      scale_exponent e hs, Option.map_some, significand, Nat.ofDigitChars_ten_toDigits, hj]
    simp
  · rw [htext, List.append_assoc, List.cons_append,
      floatingConstant_point (allDigits_toDigits _) Nat.toDigits_ne_nil hfrac
        fun c hc => (hhead c hc).1, optionalScale, if_neg hsuffix, scale_exponent e hs, hvalue]
    rfl

/-- What `%.{p}f` writes is read back as the nearest multiple of `10 ^ -p`. -/
theorem signedConstant_fixed {p : ℕ} (hp : p ≠ 0) (x : ℚ) :
    ∃ q, signedConstant (fixed p x) = some q ∧ |q - x| ≤ 1 / 2 / 10 ^ p := by
  have hpos : (0 : ℚ) < 10 ^ p := by positivity
  have hnonneg : 0 ≤ nearestEven (|x| * 10 ^ p) :=
    le_nearestEven (by rw [Int.cast_zero]; positivity)
  set n := (nearestEven (|x| * 10 ^ p)).toNat with hn
  have hcast : ((n : ℕ) : ℚ) = nearestEven (|x| * 10 ^ p) := by
    rw [hn]
    exact_mod_cast Int.toNat_of_nonneg hnonneg
  have hclose : |(n : ℚ) / 10 ^ p - (|x|)| ≤ 1 / 2 / 10 ^ p := by
    have hround := abs_nearestEven_sub_le (|x| * 10 ^ p)
    rw [← hcast] at hround
    have hsplit : (n : ℚ) / 10 ^ p - (|x|) = (n - |x| * 10 ^ p) / 10 ^ p := by field_simp
    rw [hsplit, abs_div, abs_of_pos hpos]
    exact div_le_div_of_nonneg_right hround hpos.le
  have hvalue : significand (Nat.toDigits 10 (n / 10 ^ p)) (lastDigits p n) = (n : ℚ) / 10 ^ p := by
    have hsplit : (n : ℚ) = 10 ^ p * (n / 10 ^ p : ℕ) + (n % 10 ^ p : ℕ) := by
      exact_mod_cast (Nat.div_add_mod n (10 ^ p)).symm
    rw [significand, Nat.ofDigitChars_ten_toDigits, ofDigitChars_lastDigits, length_lastDigits]
    conv_rhs => rw [hsplit]
    field_simp
  have hread : floatingConstant (Nat.toDigits 10 (n / 10 ^ p) ++ '.' :: lastDigits p n)
      = some ((n : ℚ) / 10 ^ p) := by
    have htail : ∀ c ∈ ([] : List Char).head?, c.isDigit = false := fun c hc => by cases hc
    have hpoint := floatingConstant_point (allDigits_toDigits (n / 10 ^ p)) Nat.toDigits_ne_nil
      (allDigits_lastDigits p n) htail
    rw [List.append_nil] at hpoint
    rw [hpoint, hvalue]
    simp [optionalScale, suffixes]
  rw [fixed, ← hn, if_neg hp]
  by_cases hneg : x < 0
  · refine ⟨-((n : ℚ) / 10 ^ p), ?_, ?_⟩
    · rw [if_pos hneg, List.singleton_append]
      show (floatingConstant (Nat.toDigits 10 (n / 10 ^ p) ++ '.' :: lastDigits p n)).map _ = _
      rw [hread]
      rfl
    · rw [abs_of_neg hneg] at hclose
      rw [← abs_neg]
      convert hclose using 2
      ring
  · refine ⟨(n : ℚ) / 10 ^ p, ?_, by rwa [abs_of_nonneg (not_lt.mp hneg)] at hclose⟩
    rw [if_neg hneg, List.nil_append, ← hread]
    obtain ⟨c, digits, hdigits⟩ : ∃ c digits, Nat.toDigits 10 (n / 10 ^ p) = c :: digits :=
      List.exists_cons_of_ne_nil Nat.toDigits_ne_nil
    have hc : c.isDigit = true := allDigits_toDigits (n / 10 ^ p) c (by rw [hdigits]; simp)
    rw [hdigits, List.cons_append, signedConstant]
    rintro rest heq
    rw [(List.cons.inj heq).1] at hc
    exact absurd hc (by decide)

end

/-! ## Rounded numbers

A rounded number has a last place, so it is written in full and read back exactly.
-/

variable {p : ℕ}

/-- Rounding leaves a whole multiple of the place of the `p`-th digit. -/
theorem abs_round_eq (p : ℕ) (x : ℚ) : ∃ n : ℕ,
    |(decimals p).round x| = n * 10 ^ (Int.log 10 |x| - (p - 1)) := by
  have hspacing : (decimals p).spacing x = 10 ^ (Int.log 10 |x| - (p - 1)) := by
    norm_num [Grid.spacing, decimals, Grid.digits]
  have hpos : (0 : ℚ) < 10 ^ (Int.log 10 |x| - (p - 1)) := zpow_pos (by norm_num) _
  refine ⟨(nearestEven (x / (decimals p).spacing x)).natAbs, ?_⟩
  rw [Grid.round, hspacing, abs_mul, abs_of_pos hpos, Nat.cast_natAbs, Int.cast_abs]

/-- Rounding goes up to the next power of ten at most. -/
theorem abs_round_le (hp : 0 < p) (x : ℚ) :
    |(decimals p).round x| ≤ 10 ^ (Int.log 10 |x| + 1) := by
  have hexponent : (decimals p).exponent (Int.log 10 |x| + 1) ≤ Int.log 10 |x| + 1 := by
    show Int.log 10 |x| + 1 - (p - 1) ≤ Int.log 10 |x| + 1
    omega
  have hlt := Int.lt_zpow_succ_log_self (b := 10) (by norm_num) |x|
  exact_mod_cast Grid.abs_round_le_zpow (g := decimals p) hexponent hlt

/-- A rounded number is a whole multiple of the place of its own `p`-th digit. -/
theorem exists_digits (hp : 0 < p) (x : ℚ) : ∃ m : ℕ,
    |(decimals p).round x| = m * 10 ^ (Int.log 10 |(decimals p).round x| - (p - 1)) := by
  obtain ⟨n, hn⟩ := abs_round_eq p x
  have hle := abs_round_le hp x
  set r := |(decimals p).round x| with hr
  rcases (abs_nonneg ((decimals p).round x)).eq_or_lt with hzero | hpos
  · refine ⟨0, ?_⟩
    rw [hr, ← hzero]
    norm_num
  rw [← hr] at hpos
  rcases le_or_gt (Int.log 10 r) (Int.log 10 |x|) with hplace | hplace
  · -- the place of the digit is not coarser than before
    obtain ⟨j, hj⟩ : ∃ j : ℕ,
        (Int.log 10 |x| - (p - 1) : ℤ) = (Int.log 10 r - (p - 1)) + j :=
      ⟨(Int.log 10 |x| - Int.log 10 r).toNat, by omega⟩
    refine ⟨n * 10 ^ j, ?_⟩
    calc r = n * 10 ^ (Int.log 10 |x| - (p - 1)) := hn
      _ = n * (10 ^ (Int.log 10 r - (p - 1)) * 10 ^ j) := by
        rw [hj, zpow_add₀ (by norm_num), zpow_natCast]
      _ = (n * 10 ^ j : ℕ) * 10 ^ (Int.log 10 r - (p - 1)) := by
        push_cast
        ring
  · -- rounded up to the next power of ten
    have hself : (10 : ℚ) ^ Int.log 10 r ≤ r := by
      exact_mod_cast Int.zpow_log_le_self (b := 10) (by norm_num) hpos
    have hnext : (10 : ℚ) ^ (Int.log 10 |x| + 1) ≤ 10 ^ Int.log 10 r :=
      zpow_le_zpow_right₀ (by norm_num) (by omega)
    have hpower : r = 10 ^ Int.log 10 r := le_antisymm (hle.trans hnext) hself
    have hsplit : (Int.log 10 r : ℤ) = ((p - 1 : ℕ) : ℤ) + (Int.log 10 r - (p - 1)) := by omega
    refine ⟨10 ^ (p - 1), ?_⟩
    calc r = 10 ^ Int.log 10 r := hpower
      _ = 10 ^ (((p - 1 : ℕ) : ℤ) + (Int.log 10 r - (p - 1))) := by rw [← hsplit]
      _ = (10 ^ (p - 1) : ℕ) * 10 ^ (Int.log 10 r - (p - 1)) := by
        rw [zpow_add₀ (by norm_num), zpow_natCast]
        push_cast
        ring

/-- A number in exponential notation is a fraction, or has more than `p` digits. -/
theorem not_whole_of_exponent (hp : 0 < p) {r : ℚ}
    (h : Int.log 10 r < -4 ∨ (p : ℤ) ≤ Int.log 10 r) : ¬ (r.den = 1 ∧ r < 10 ^ p) := by
  rintro ⟨hden, hlt⟩
  have hpos : 0 < r := by
    by_contra hno
    rw [Int.log_of_right_le_zero 10 (not_lt.mp hno)] at h
    omega
  rcases h with hsmall | hlarge
  · have hone : r < 1 := by
      have hlog := (Int.lt_zpow_iff_log_lt (b := 10) (by norm_num) hpos).mpr
        (hsmall.trans (by norm_num : (-4 : ℤ) < 0))
      rwa [zpow_zero] at hlog
    rw [← Rat.coe_int_num_of_den_eq_one hden] at hpos hone
    have hpos' : 0 < r.num := by exact_mod_cast hpos
    have hone' : r.num < 1 := by exact_mod_cast hone
    omega
  · have hlog := (Int.zpow_le_iff_le_log (b := 10) (by norm_num) hpos).mpr hlarge
    rw [zpow_natCast] at hlog
    push_cast at hlog
    exact absurd hlog (not_le.mpr hlt)

/-- What is written of a number that `p` digits express is read as that number, unless
it is a whole number of at most `p` digits. -/
theorem floatingConstant_magnitude (hp : 0 < p) {r : ℚ} {m : ℕ} {e : ℤ} (he : Int.log 10 r = e)
    (hr : r = m * 10 ^ (e - (p - 1))) {s : List Char} (hs : s ∈ suffixes) :
    floatingConstant (magnitude p r ++ s) = if r.den = 1 ∧ r < 10 ^ p then none else some r := by
  have hfloor : ⌊r * 10 ^ (p - 1 - e : ℤ)⌋₊ = m := by
    have hcancel : (e - (p - 1) + (p - 1 - e) : ℤ) = 0 := by ring
    rw [hr, mul_assoc, ← zpow_add₀ (by norm_num), hcancel, zpow_zero, mul_one, Nat.floor_natCast]
  rw [magnitude, he, hfloor]
  by_cases hstyle : e < -4 ∨ (p : ℤ) ≤ e
  · have hvalue : (m : ℚ) / 10 ^ (p - 1) * 10 ^ e = r := by
      have hplace : (e - (p - 1) : ℤ) = e - ((p - 1 : ℕ) : ℤ) := by omega
      rw [hr, hplace, zpow_sub₀ (by norm_num), zpow_natCast]
      ring
    rw [if_pos hstyle, List.append_assoc, floatingConstant_exponent _ _ _ hs, hvalue,
      if_neg (not_whole_of_exponent hp (he ▸ hstyle))]
  · obtain ⟨-, hlt⟩ := not_or.mp hstyle
    obtain ⟨k, hk⟩ : ∃ k : ℕ, (p - 1 - e : ℤ) = k := ⟨(p - 1 - e).toNat, by omega⟩
    have hplace : (e - (p - 1) : ℤ) = -k := by omega
    have hvalue : r = (m : ℚ) / 10 ^ k := by
      rw [hr, hplace, zpow_neg, zpow_natCast, div_eq_mul_inv]
    have hsize : r < 10 ^ p := by
      have hlog := Int.lt_zpow_succ_log_self (b := 10) (by norm_num) r
      have hmono : (10 : ℚ) ^ (Int.log 10 r + 1) ≤ 10 ^ (p : ℤ) :=
        zpow_le_zpow_right₀ (by norm_num) (by omega)
      rw [zpow_natCast] at hmono
      push_cast at hlog
      exact hlog.trans_le hmono
    have hdvd : r.den = 1 ↔ 10 ^ k ∣ m := by
      rw [hvalue, ← Rat.den_div_natCast_eq_one_iff m (10 ^ k) (by positivity)]
      push_cast
      rfl
    rw [if_neg hstyle, hk, Int.toNat_natCast, floatingConstant_fixedPoint _ _ hs, ← hvalue]
    refine if_congr ?_ rfl rfl
    rw [← hdvd, and_iff_left hsize]

theorem fixedPoint_head (k n : ℕ) : ∃ c cs, fixedPoint k n = c :: cs ∧ c.isDigit = true := by
  cases hdigits : Nat.toDigits 10 (n / 10 ^ k) with
  | nil => exact absurd hdigits Nat.toDigits_ne_nil
  | cons c cs =>
    refine ⟨c, cs ++ fraction (lastDigits k n), ?_, ?_⟩
    · rw [fixedPoint, hdigits, List.cons_append]
    · refine allDigits_toDigits (n / 10 ^ k) c ?_
      rw [hdigits]
      exact List.mem_cons_self

theorem magnitude_head (p : ℕ) (r : ℚ) : ∃ c cs, magnitude p r = c :: cs ∧ c.isDigit = true := by
  rw [magnitude]
  split_ifs
  · obtain ⟨c, cs, htext, hc⟩ := fixedPoint_head (p - 1) ⌊r * 10 ^ (p - 1 - Int.log 10 r)⌋₊
    exact ⟨c, cs ++ exponent (Int.log 10 r), by rw [htext, List.cons_append], hc⟩
  · exact fixedPoint_head _ _

/-- What the conversion writes is read as the rounded number, unless it is a bare
integer. -/
theorem signedConstant_general (hp : 0 < p) (x : ℚ) {s : List Char} (hs : s ∈ suffixes) :
    signedConstant (general p x ++ s) =
      if ((decimals p).round x).den = 1 ∧ |(decimals p).round x| < 10 ^ p then none
      else some ((decimals p).round x) := by
  obtain ⟨m, hm⟩ := exists_digits hp x
  have hread := floatingConstant_magnitude hp rfl hm hs
  by_cases hneg : x < 0
  · have habs : |(decimals p).round x| = -(decimals p).round x :=
      abs_of_nonpos (Grid.round_nonpos hneg.le)
    rw [general, if_pos hneg]
    show (floatingConstant (magnitude p |(decimals p).round x| ++ s)).map (fun x => -x) = _
    rw [hread, Rat.den_abs_eq_den]
    split_ifs
    · rfl
    · rw [Option.map_some, habs, neg_neg]
  · have habs : |(decimals p).round x| = (decimals p).round x :=
      abs_of_nonneg (Grid.round_nonneg (not_lt.mp hneg))
    obtain ⟨c, cs, htext, hc⟩ := magnitude_head p |(decimals p).round x|
    have hsign : signedConstant (magnitude p |(decimals p).round x| ++ s)
        = floatingConstant (magnitude p |(decimals p).round x| ++ s) := by
      rw [htext, List.cons_append, signedConstant]
      rintro t ⟨⟩
      exact absurd hc (by decide)
    rw [general, if_neg hneg, List.nil_append, hsign, hread, habs]

example : general 9 (2 / 10 ^ 5) = "2e-05".toList := by decide +kernel

example : signedConstant "700f".toList = none := by decide

end DecimalText
