import Mathlib.Data.Nat.Digits.Defs
import Mathlib.Data.UInt
import Mathlib.Tactic.Ring

/-!
# Little-endian byte strings

- `value`: the number that a byte string denotes, lowest byte first.
- `bytes`: the lowest bytes of a number; reading back what was written gives the
  number modulo the width (`value_bytes`).
- `value_or_shift`: a decoder that shifts one byte after the other into place and
  takes the disjunction computes `value`.
-/

namespace LittleEndian

/-- The number that a byte string denotes. -/
def value (bs : List UInt8) : ℕ := Nat.ofDigits 256 (bs.map UInt8.toNat)

/-- The lowest `n` bytes of a number. -/
def bytes : ℕ → ℕ → List UInt8
  | 0, _ => []
  | n + 1, x => UInt8.ofNat x :: bytes n (x / 256)

@[simp] theorem value_nil : value [] = 0 := rfl

@[simp] theorem value_cons (b : UInt8) (bs : List UInt8) :
    value (b :: bs) = b.toNat + 256 * value bs := by
  simp [value, Nat.ofDigits_cons]

theorem value_append (as bs : List UInt8) :
    value (as ++ bs) = value as + 256 ^ as.length * value bs := by
  rw [value, List.map_append, Nat.ofDigits_append, List.length_map]
  rfl

theorem value_lt (bs : List UInt8) : value bs < 256 ^ bs.length := by
  have hdigits : ∀ d ∈ bs.map UInt8.toNat, d < 256 := by
    intro d hd
    obtain ⟨b, -, rfl⟩ := List.mem_map.mp hd
    exact b.toNat_lt
  simpa [value] using Nat.ofDigits_lt_base_pow_length (by omega) hdigits

/-- Reading back what was written. -/
theorem value_bytes (n x : ℕ) : value (bytes n x) = x % 256 ^ n := by
  induction n generalizing x with
  | zero => rw [bytes, value_nil, pow_zero, Nat.mod_one]
  | succ n ih =>
    rw [bytes, value_cons, ih, pow_succ', Nat.mod_mul, UInt8.toNat_ofNat']

/-- The next byte shifted into place above those already read. -/
theorem value_or_shift (bs : List UInt8) (b : UInt8) :
    value bs ||| b.toNat <<< (8 * bs.length) = value (bs ++ [b]) := by
  have hlt : value bs < 2 ^ (8 * bs.length) := by
    rw [pow_mul]
    exact value_lt bs
  rw [Nat.or_comm, ← Nat.shiftLeft_add_eq_or_of_lt hlt, Nat.shiftLeft_eq, value_append, pow_mul,
    value_cons, value_nil]
  ring

end LittleEndian
