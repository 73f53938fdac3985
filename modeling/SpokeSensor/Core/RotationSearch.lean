import SpokeSensor.Core.Generated
import SpokeSensor.Lib.Rotation

/-!
# A rotation word always shows a lone repetition

For every slope in `(0, 1)` whose denominator exceeds 24 there is a position at which
the rotation word repeats with exactly one of the candidates `16 .. 48`
(`exists_loneRepeat`).

- `probes`: the positions that suffice. A probe `j` reads the letters `j - 95 .. j`,
  so its verdict holds on every Stern–Brocot interval whose mediant has a denominator
  above `max j (96 - j)`.
- The search of the tree (`SternBrocot.search`) is run by the kernel, on the packed
  words of `Rotation`, and `SternBrocot.search_sound` turns it into the statement.
-/

namespace SpokeSensor

open SternBrocot Rotation

/-- Exactly one candidate repeats at `j`. -/
def LoneRepeat (θ : ℚ) (j : ℤ) : Prop :=
  ∃ n, (countMin ≤ n ∧ n ≤ countMax) ∧ RepeatsAt θ j n ∧
    ∀ m, countMin ≤ m → m ≤ countMax → RepeatsAt θ j m → m = n

namespace RotationSearch

/-- The positions that are tried. -/
def probes : List ℕ := [48, 33, 24, 63, 0, 55, 21, 17, 19, 22]

/-- The letters `63, 62, …, -95` of `p/q`, bit `i` being the letter `63 - i`. -/
def code (p q : ℕ) : ℕ := packed p q (Nat.sub (Nat.mul 96 q) 96) 159

/-- The letters `j, j - 1, …, j - 95`, bit `i` being the letter `j - i`. -/
def window (w j : ℕ) : ℕ := Nat.mod (Nat.shiftRight w (Nat.sub 63 j)) (Nat.pow 2 96)

/-- Exactly one candidate repeats in the window at `j`. -/
def loneRepeat (w j : ℕ) : Bool :=
  force (window w j) fun v => Nat.beq (repeatCount v 16 33) 1

/-- Some probe that only reads letters fixed on the whole interval succeeds. -/
def leaf (w q : ℕ) : Bool :=
  probes.any fun j => Nat.ble j (Nat.pred q) && Nat.ble (Nat.sub 97 j) q && loneRepeat w j

/-- The denominator is at most 24 or some probe succeeds. -/
def point (w q : ℕ) : Bool :=
  Nat.ble q 24 || probes.any fun j => loneRepeat w j

set_option maxRecDepth 10000 in
theorem search_succeeds : search code leaf point 97 0 1 1 1 = true := by
  decide +kernel

/-! ## What the tests mean

What the tests on packed words say about the letters of the word: which candidates
repeat at a probe, and that only one of them does.
-/

theorem probe_le {j : ℕ} (hj : j ∈ probes) : j ≤ 63 := by
  have hall : ∀ j ∈ probes, j ≤ 63 := by decide
  exact hall j hj

/-- The digits behind a window are the letters `j, j - 1, …`. -/
theorem digit_code {p q j i : ℕ} (hq : 0 < q) (hi : i < 96) :
    (digit p q (96 * q - 96) (95 + j - i) : ℤ) = letter ((p : ℚ) / q) (j - i) := by
  have hpos : ((96 * q - 96 : ℕ) : ℤ) = 96 * q - 96 := by omega
  have hidx : ((95 + j - i : ℕ) : ℤ) = 95 + j - i := by omega
  rw [digit_eq_letter hq 96, hpos, hidx]
  congr 1
  push_cast
  ring

/-- The bits of a window are the letters read backwards from `j`. -/
theorem window_testBit {p q j i : ℕ} (hq : 0 < q) (hpq : p ≤ q) (hj : j ≤ 63) (hi : i < 96) :
    (window (code p q) j).testBit i = decide (letter ((p : ℚ) / q) (j - i) = 1) := by
  show (((code p q) >>> (63 - j)) % 2 ^ 96).testBit i = _
  rw [Nat.testBit_mod_two_pow, decide_eq_true hi, Bool.true_and, Nat.testBit_shiftRight, code,
    packed_testBit hq hpq _ (by omega), ← digit_code hq hi]
  have hsub : 159 - 1 - (63 - j + i) = 95 + j - i := by omega
  rw [hsub]
  exact decide_eq_decide.mpr Nat.cast_eq_one.symm

/-- A window repeats with `n` iff the word does. -/
theorem repeatFlag_window {p q j n : ℕ} (hq : 0 < q) (hpq : p ≤ q) (hj : j ≤ 63)
    (hn : n ≤ countMax) :
    repeatFlag (window (code p q) j) n = 1 ↔ RepeatsAt ((p : ℚ) / q) j n := by
  have hval := generated_values
  -- letters of a slope up to one are zero or one
  have hbit : ∀ k < 96, letter ((p : ℚ) / q) (j - (k : ℕ)) = 0 ∨
      letter ((p : ℚ) / q) (j - (k : ℕ)) = 1 := by
    intro k hk
    have hle := digit_le_one hq hpq (96 * q - 96) (95 + j - k)
    rw [← digit_code hq hk]
    omega
  rw [repeatFlag_eq_one_iff, RepeatsAt]
  refine forall₂_congr fun i hi => ?_
  rw [window_testBit hq hpq hj (by omega), window_testBit hq hpq hj (by omega),
    decide_eq_decide]
  rcases hbit i (by omega) with h1 | h1 <;> rcases hbit (i + n) (by omega) with h2 | h2 <;>
    rw [h1, h2] <;> decide

theorem loneRepeat_sound {p q j : ℕ} (hq : 0 < q) (hpq : p ≤ q) (hj : j ≤ 63)
    (h : loneRepeat (code p q) j = true) : LoneRepeat ((p : ℚ) / q) j := by
  have hval := generated_values
  rw [loneRepeat, force_eq] at h
  obtain ⟨n, ⟨hlo, hhi⟩, hflag, huniq⟩ := exists_unique_of_count (Nat.eq_of_beq_eq_true h)
  refine ⟨n, ⟨by omega, by omega⟩, ?_, fun m hge hle hm => ?_⟩
  · exact (repeatFlag_window hq hpq hj (by omega)).mp hflag
  · exact huniq m (by omega) (by omega) ((repeatFlag_window hq hpq hj hle).mpr hm)

/-- The verdict at a mediant holds on the whole interval. -/
theorem loneRepeat_of_mediant {a b c d j : ℕ} (h : Neighbours a b c d) {θ : ℚ}
    (hθ : Between a b c d θ) (h1 : j < b + d) (h2 : 96 < b + d + j)
    (hlone : LoneRepeat (((a + c : ℕ) : ℚ) / (b + d : ℕ)) j) : LoneRepeat θ j := by
  have hval := generated_values
  have hsame : ∀ n ≤ countMax,
      (RepeatsAt θ j n ↔ RepeatsAt (((a + c : ℕ) : ℚ) / (b + d : ℕ)) j n) := by
    intro n hn
    have hletter : ∀ k < 96, letter θ (j - (k : ℕ))
        = letter (((a + c : ℕ) : ℚ) / (b + d : ℕ)) (j - (k : ℕ)) := by
      intro k hk
      refine letter_eq h hθ h.mediant_between ?_ ?_ <;> rw [abs_lt] <;> constructor <;> omega
    refine forall₂_congr fun i hi => ?_
    rw [hletter i (by omega), hletter (i + n) (by omega)]
  obtain ⟨n, hn, hrep, huniq⟩ := hlone
  exact ⟨n, hn, (hsame n hn.2).mpr hrep,
    fun m hge hle hm => huniq m hge hle ((hsame m hle).mp hm)⟩

end RotationSearch

open RotationSearch in
/-- Slopes with a denominator above 24 have a lone repetition. -/
theorem exists_loneRepeat {θ : ℚ} (h0 : 0 < θ) (h1 : θ < 1) (hden : 24 < θ.den) :
    ∃ j : ℕ, j ≤ 63 ∧ LoneRepeat θ j := by
  have hmain : θ.den ≤ 24 ∨ ∃ j : ℕ, j ≤ 63 ∧ LoneRepeat θ j := by
    -- each test is read on an interval, or at a mediant with a small denominator
    refine search_unit (P := fun θ => θ.den ≤ 24 ∨ ∃ j : ℕ, j ≤ 63 ∧ LoneRepeat θ j)
      ?_ ?_ search_succeeds h0 h1
    · intro a b c d h hleaf θ hθ
      obtain ⟨j, hj, htest⟩ := List.any_eq_true.mp hleaf
      simp only [Bool.and_eq_true, Nat.ble_eq, Nat.pred_eq_sub_one, Nat.sub_eq] at htest
      have hpos := Nat.add_pos_left h.left_pos d
      have hlone := loneRepeat_sound hpos h.mediant_le (probe_le hj) htest.2
      exact .inr ⟨j, probe_le hj, loneRepeat_of_mediant h hθ (by omega) (by omega) hlone⟩
    · intro p q hq hpq htest
      rw [point, Bool.or_eq_true] at htest
      rcases htest with hsmall | hprobe
      · refine .inl (le_trans (Nat.le_of_dvd hq ?_) (Nat.le_of_ble_eq_true hsmall))
        have hdvd := Rat.den_dvd p q
        rw [Rat.divInt_eq_div, Int.cast_natCast, Int.cast_natCast] at hdvd
        exact Int.natCast_dvd_natCast.mp hdvd
      · obtain ⟨j, hj, htest⟩ := List.any_eq_true.mp hprobe
        exact .inr ⟨j, probe_le hj, loneRepeat_sound hq hpq (probe_le hj) htest⟩
  exact hmain.resolve_left (not_le.mpr hden)

end SpokeSensor
