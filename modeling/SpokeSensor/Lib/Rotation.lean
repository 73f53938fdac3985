import SpokeSensor.Lib.SternBrocot
import Mathlib.Data.Nat.Bitwise

/-!
# Rotation words and their squares

The rotation word of slope `θ` has the letter `⌊j θ⌋ - ⌊(j-1) θ⌋` at `j : ℤ`; for
`0 ≤ θ ≤ 1` it is a word over `0` and `1`.

- `RepeatsAt`: read backwards from `j`, the word repeats with `n` when its last `2 n`
  letters are a square.
- `letter_eq`: between neighbouring fractions the letters within reach of their
  denominators do not change.
- `packed`: for a fraction `p/q` the letters are computed in natural numbers and
  packed as the binary digits of one number.
- `repeatFlag`, `repeatCount`: a square in the packed word is one shift, one exclusive
  or and one remainder.

The packed forms call the `Nat` functions by name because the kernel computes those
directly.
-/

namespace Rotation

open SternBrocot

/-- The letter at `j` of the rotation word of slope `θ`. -/
def letter (θ : ℚ) (j : ℤ) : ℤ :=
  ⌊j * θ⌋ - ⌊((j - 1 : ℤ) : ℚ) * θ⌋

/-- The `2 n` letters ending at `j` are a square. -/
def RepeatsAt (θ : ℚ) (j : ℤ) (n : ℕ) : Prop :=
  ∀ i < n, letter θ (j - i) = letter θ (j - (i + n : ℕ))

/-- Letters within reach of the interval's denominators agree inside it. -/
theorem letter_eq {a b c d : ℕ} {θ η : ℚ} (h : Neighbours a b c d)
    (hθ : Between a b c d θ) (hη : Between a b c d η) {j : ℤ}
    (h1 : |j| < b + d) (h2 : |j - 1| < b + d) : letter θ j = letter η j := by
  rw [letter, letter, floor_eq h hθ hη h1, floor_eq h hθ hη h2]

/-! ## Letters of a fraction -/

/-- The letter number `b + i + 1` of `p/q`, in natural numbers. -/
def digit (p q b i : ℕ) : ℕ :=
  Nat.sub (Nat.div (Nat.mul (Nat.add b (Nat.succ i)) p) q)
    (Nat.div (Nat.mul (Nat.add b i) p) q)

theorem digit_eq (p q b i : ℕ) :
    digit p q b i = (b + (i + 1)) * p / q - (b + i) * p / q := rfl

theorem digit_le_one {p q : ℕ} (hq : 0 < q) (hpq : p ≤ q) (b i : ℕ) :
    digit p q b i ≤ 1 := by
  have hstep : (b + (i + 1)) * p ≤ (b + i) * p + q := by
    rw [← Nat.add_assoc, Nat.add_mul, Nat.one_mul]
    omega
  have hdiv : (b + (i + 1)) * p / q ≤ (b + i) * p / q + 1 := by
    rw [← Nat.add_div_right _ hq]
    exact Nat.div_le_div_right hstep
  rw [digit_eq]
  omega

/-- The digit is the letter, `m` whole turns further on. -/
theorem digit_eq_letter {p q : ℕ} (hq : 0 < q) (m : ℕ) {b i : ℕ} :
    (digit p q b i : ℤ) = letter ((p : ℚ) / q) (b + i + 1 - m * q) := by
  have hq' : (q : ℚ) ≠ 0 := by exact_mod_cast hq.ne'
  have hturn : ∀ t : ℕ, ⌊(((t : ℤ) - m * q : ℤ) : ℚ) * ((p : ℚ) / q)⌋
      = ((t * p / q : ℕ) : ℤ) - m * p := by
    intro t
    have hsplit : (((t : ℤ) - m * q : ℤ) : ℚ) * ((p : ℚ) / q)
        = ((t * p : ℕ) : ℚ) / (q : ℕ) - ((m * p : ℤ) : ℚ) := by
      push_cast
      field_simp
    rw [hsplit, Int.floor_sub_intCast, Rat.floor_natCast_div_natCast]
    push_cast
    rfl
  have hmono : (b + i) * p / q ≤ (b + (i + 1)) * p / q :=
    Nat.div_le_div_right (Nat.mul_le_mul_right p (by omega))
  have h1 := hturn (b + (i + 1))
  have h2 := hturn (b + i)
  rw [digit_eq, letter, Nat.cast_sub hmono]
  rw [show (b + i + 1 - m * q : ℤ) = ((b + (i + 1) : ℕ) : ℤ) - m * q by push_cast; ring, h1,
    show ((b + (i + 1) : ℕ) : ℤ) - m * q - 1 = ((b + i : ℕ) : ℤ) - m * q by push_cast; ring, h2]
  ring

/-! ## Packed words -/

/-- The digits `0 .. k - 1` as one number, the last one in the lowest place. -/
def packed (p q b k : ℕ) : ℕ :=
  loop 0 (fun i acc => Nat.add (Nat.mul 2 acc) (digit p q b i)) k

theorem packed_succ (p q b k : ℕ) :
    packed p q b (k + 1) = 2 * packed p q b k + digit p q b k := rfl

theorem packed_testBit {p q : ℕ} (hq : 0 < q) (hpq : p ≤ q) (b : ℕ) {k i : ℕ} (hi : i < k) :
    (packed p q b k).testBit i = decide (digit p q b (k - 1 - i) = 1) := by
  induction k generalizing i with
  | zero => exact absurd hi (Nat.not_lt_zero i)
  | succ k ih =>
    have hdigit := digit_le_one hq hpq b k
    rw [packed_succ]
    cases i with
    | zero =>
      -- the digit just appended is the lowest bit
      rw [Nat.testBit_zero]
      exact decide_eq_decide.mpr (by simp only [Nat.add_sub_cancel, Nat.sub_zero]; omega)
    | succ i =>
      have hhalf : (2 * packed p q b k + digit p q b k) / 2 = packed p q b k := by omega
      rw [Nat.testBit_succ, hhalf, ih (Nat.lt_of_succ_lt_succ hi)]
      congr 3
      omega

/-- One when the lowest `2 n` bits are a square, else zero. -/
def repeatFlag (w n : ℕ) : ℕ :=
  Nat.sub 1 (Nat.mod (Nat.xor w (Nat.shiftRight w n)) (Nat.pow 2 n))

theorem repeatFlag_eq (w n : ℕ) : repeatFlag w n = 1 - (w ^^^ (w >>> n)) % 2 ^ n := rfl

theorem repeatFlag_le_one (w n : ℕ) : repeatFlag w n ≤ 1 := Nat.sub_le _ _

theorem repeatFlag_eq_one_iff (w n : ℕ) :
    repeatFlag w n = 1 ↔ ∀ i < n, w.testBit i = w.testBit (i + n) := by
  have hzero : repeatFlag w n = 1 ↔ (w ^^^ (w >>> n)) % 2 ^ n = 0 := by
    rw [repeatFlag_eq]
    omega
  rw [hzero]
  constructor
  · intro h i hi
    have hbit := congrArg (fun v => v.testBit i) h
    simpa [Nat.testBit_mod_two_pow, hi, Nat.testBit_xor, Nat.testBit_shiftRight,
      Nat.add_comm n i] using hbit
  · intro h
    -- below `n` the bits cancel, from `n` on the remainder has none
    refine Nat.eq_of_testBit_eq fun i => ?_
    rw [Nat.testBit_mod_two_pow, Nat.zero_testBit]
    by_cases hi : i < n
    · simp [hi, Nat.testBit_xor, Nat.testBit_shiftRight, Nat.add_comm n i, h i hi]
    · simp [hi]

/-- How many of `lo, …, lo + k - 1` the low bits repeat with. -/
def repeatCount (w lo k : ℕ) : ℕ :=
  loop 0 (fun i acc => Nat.add acc (repeatFlag w (Nat.add lo i))) k

theorem repeatCount_succ (w lo k : ℕ) :
    repeatCount w lo (k + 1) = repeatCount w lo k + repeatFlag w (lo + k) := rfl

theorem repeatFlag_eq_zero_of_count {w lo : ℕ} : ∀ {k : ℕ}, repeatCount w lo k = 0 →
    ∀ i < k, repeatFlag w (lo + i) = 0
  | 0, _, i, hi => absurd hi (Nat.not_lt_zero i)
  | k + 1, hcount, i, hi => by
    rw [repeatCount_succ, Nat.add_eq_zero_iff] at hcount
    rcases Nat.lt_succ_iff_lt_or_eq.mp hi with hi | rfl
    · exact repeatFlag_eq_zero_of_count hcount.1 i hi
    · exact hcount.2

/-- A count of one means exactly one repetition. -/
theorem exists_unique_of_count {w lo : ℕ} : ∀ {k : ℕ}, repeatCount w lo k = 1 →
    ∃ n, (lo ≤ n ∧ n < lo + k) ∧ repeatFlag w n = 1 ∧
      ∀ m, lo ≤ m → m < lo + k → repeatFlag w m = 1 → m = n
  | 0, hcount => absurd hcount (by simp [repeatCount])
  | k + 1, hcount => by
    rw [repeatCount_succ] at hcount
    have hle := repeatFlag_le_one w (lo + k)
    rcases Nat.le_one_iff_eq_zero_or_eq_one.mp hle with hlast | hlast
    · -- not the last one, so the one before
      have hone : repeatCount w lo k = 1 := by omega
      obtain ⟨n, hn, hflag, huniq⟩ := exists_unique_of_count hone
      refine ⟨n, ⟨hn.1, by omega⟩, hflag, fun m hlo hhi hm => ?_⟩
      refine huniq m hlo (lt_of_le_of_ne (by omega) ?_) hm
      rintro rfl
      omega
    · -- the last one, so none before
      have hzero : repeatCount w lo k = 0 := by omega
      have hnone := repeatFlag_eq_zero_of_count hzero
      refine ⟨lo + k, ⟨by omega, by omega⟩, hlast, fun m hlo hhi hm => ?_⟩
      by_contra hne
      have := hnone (m - lo) (by omega)
      rw [Nat.add_sub_cancel' hlo] at this
      omega

end Rotation
