import Mathlib.Data.Rat.Floor
import Mathlib.Algebra.Order.Field.Rat
import Mathlib.Tactic.Linarith
import Mathlib.Tactic.Ring
import Mathlib.Tactic.FieldSimp
import Mathlib.Tactic.Positivity

/-!
# Searching the Stern–Brocot tree

A statement about a rational `θ` that depends only on the floors `⌊j θ⌋` for `|j| < N`
is constant on each open interval between two neighbouring fractions `a/b < c/d`
(`c b - a d = 1`) with `N ≤ b + d`: no fraction with a denominator below `b + d` lies
strictly between them.

- `Neighbours`, `Neighbours.denominator_le`, `floor_eq`: these intervals, and what is
  constant on them.
- `search`: walks the tree of such intervals, trying a test on the whole interval
  first and splitting at the mediant `(a+c)/(b+d)` when it fails.
- `search_sound`: turns a successful run, which the kernel can evaluate, into the
  statement for every `θ` inside.
- `force`, `loop`: the two evaluation helpers. They reduce through the recursors
  alone, which keeps such a run cheap to check.
-/

namespace SternBrocot

/-! ## Evaluation -/

/-- `f e`, with `e` reduced to a literal before `f` is applied. -/
def force {α : Type} (e : ℕ) (f : ℕ → α) : α :=
  Nat.casesOn e (f 0) fun n => f (Nat.succ n)

@[simp] theorem force_eq {α : Type} (e : ℕ) (f : ℕ → α) : force e f = f e := by
  cases e <;> rfl

/-- `s (k - 1) (… (s 0 z))`. -/
def loop {α : Type} (z : α) (s : ℕ → α → α) (k : ℕ) : α :=
  Nat.rec z s k

@[simp] theorem loop_zero {α : Type} (z : α) (s : ℕ → α → α) : loop z s 0 = z := rfl

@[simp] theorem loop_succ {α : Type} (z : α) (s : ℕ → α → α) (k : ℕ) :
    loop z s (k + 1) = s k (loop z s k) := rfl

/-! ## Neighbouring fractions -/

/-- `a/b` and `c/d` are neighbours in the unit interval: `a/b < c/d ≤ 1` with
determinant one. -/
structure Neighbours (a b c d : ℕ) : Prop where
  left_pos : 0 < b
  right_pos : 0 < d
  right_le : c ≤ d
  det : c * b = a * d + 1

/-- `a/b < θ < c/d`. -/
def Between (a b c d : ℕ) (θ : ℚ) : Prop :=
  (a : ℚ) < θ * b ∧ θ * d < c

variable {a b c d : ℕ} {θ η : ℚ}

theorem Neighbours.left_lt (h : Neighbours a b c d) : a < b := by
  have hdet := h.det
  refine lt_of_mul_lt_mul_right ?_ (Nat.zero_le d)
  calc a * d < c * b := by omega
    _ ≤ d * b := Nat.mul_le_mul_right b h.right_le
    _ = b * d := Nat.mul_comm d b

theorem Neighbours.mediant_le (h : Neighbours a b c d) : a + c ≤ b + d :=
  Nat.add_le_add h.left_lt.le h.right_le

theorem Neighbours.left_mediant (h : Neighbours a b c d) :
    Neighbours a b (a + c) (b + d) where
  left_pos := h.left_pos
  right_pos := Nat.add_pos_left h.left_pos d
  right_le := h.mediant_le
  det := by
    have := h.det
    linarith [this, Nat.add_mul a c b, Nat.mul_add a b d]

theorem Neighbours.right_mediant (h : Neighbours a b c d) :
    Neighbours (a + c) (b + d) c d where
  left_pos := Nat.add_pos_left h.left_pos d
  right_pos := h.right_pos
  right_le := h.right_le
  det := by
    have := h.det
    linarith [this, Nat.mul_add c b d, Nat.add_mul a c d]

/-- The mediant lies between its neighbours. -/
theorem Neighbours.mediant_between (h : Neighbours a b c d) :
    Between a b c d ((a + c : ℕ) / (b + d : ℕ)) := by
  have hb : (0 : ℚ) < b := by exact_mod_cast h.left_pos
  have hd : (0 : ℚ) < d := by exact_mod_cast h.right_pos
  have hdet : (c : ℚ) * b = a * d + 1 := by exact_mod_cast h.det
  constructor <;> push_cast
  · rw [div_mul_eq_mul_div, lt_div_iff₀ (by linarith)]
    linarith
  · rw [div_mul_eq_mul_div, div_lt_iff₀ (by linarith)]
    linarith

/-- A fraction `k/j` strictly between neighbours has `b + d ≤ j`. -/
theorem Neighbours.denominator_le (h : Neighbours a b c d) {j k : ℤ}
    (hleft : a * j < k * b) (hright : k * d < c * j) : (b + d : ℤ) ≤ j := by
  have hb : (0 : ℤ) < b := by exact_mod_cast h.left_pos
  have hd : (0 : ℤ) < d := by exact_mod_cast h.right_pos
  have hdet : (c : ℤ) * b = a * d + 1 := by exact_mod_cast h.det
  calc (b + d : ℤ) ≤ b * (c * j - k * d) + d * (k * b - a * j) := by nlinarith
    _ = (c * b - a * d) * j := by ring
    _ = j := by rw [hdet]; ring

/-- Between neighbours, no integer lies from `j θ` to `j η` for `0 < j < b + d`. -/
theorem not_separated (h : Neighbours a b c d) (hθ : Between a b c d θ)
    (hη : Between a b c d η) {j : ℤ} (hj : 0 < j) (hlt : j < b + d) (k : ℤ) :
    ¬ (j * θ ≤ k ∧ k ≤ j * η) := by
  rintro ⟨hlow, hhigh⟩
  have hb : (0 : ℚ) < b := by exact_mod_cast h.left_pos
  have hd : (0 : ℚ) < d := by exact_mod_cast h.right_pos
  have hj' : (0 : ℚ) < j := by exact_mod_cast hj
  have hleft : (a * j : ℚ) < k * b := by
    calc (a * j : ℚ) < θ * b * j := by exact mul_lt_mul_of_pos_right hθ.1 hj'
      _ = j * θ * b := by ring
      _ ≤ k * b := mul_le_mul_of_nonneg_right hlow hb.le
  have hright : (k * d : ℚ) < c * j := by
    calc (k * d : ℚ) ≤ j * η * d := mul_le_mul_of_nonneg_right hhigh hd.le
      _ = η * d * j := by ring
      _ < c * j := mul_lt_mul_of_pos_right hη.2 hj'
  have := h.denominator_le (by exact_mod_cast hleft) (by exact_mod_cast hright)
  omega

theorem floor_eq_of_pos (h : Neighbours a b c d) (hθ : Between a b c d θ)
    (hη : Between a b c d η) {j : ℤ} (hj : 0 < j) (hlt : j < b + d) :
    ⌊j * θ⌋ = ⌊j * η⌋ := by
  -- otherwise one of the two floors separates `j θ` from `j η`
  refine Int.floor_eq_iff.mpr ⟨?_, ?_⟩
  · by_contra hcon
    exact not_separated h hθ hη hj hlt ⌊j * η⌋
      ⟨(not_le.mp hcon).le, Int.floor_le _⟩
  · by_contra hcon
    refine not_separated h hη hθ hj hlt (⌊j * η⌋ + 1) ⟨?_, ?_⟩
    · push_cast
      exact (Int.lt_floor_add_one _).le
    · push_cast
      exact not_lt.mp hcon

theorem ceil_eq_of_pos (h : Neighbours a b c d) (hθ : Between a b c d θ)
    (hη : Between a b c d η) {j : ℤ} (hj : 0 < j) (hlt : j < b + d) :
    ⌈j * θ⌉ = ⌈j * η⌉ := by
  refine Int.ceil_eq_iff.mpr ⟨?_, ?_⟩
  · by_contra hcon
    refine not_separated h hθ hη hj hlt (⌈j * η⌉ - 1) ⟨?_, ?_⟩
    · push_cast
      exact not_lt.mp hcon
    · push_cast
      linarith [Int.ceil_lt_add_one (j * η : ℚ)]
  · by_contra hcon
    exact not_separated h hη hθ hj hlt ⌈j * η⌉
      ⟨Int.le_ceil _, (not_le.mp hcon).le⟩

/-- The floors of small multiples agree throughout the interval. -/
theorem floor_eq (h : Neighbours a b c d) (hθ : Between a b c d θ)
    (hη : Between a b c d η) {j : ℤ} (hlt : |j| < b + d) : ⌊j * θ⌋ = ⌊j * η⌋ := by
  rcases lt_trichotomy j 0 with hj | rfl | hj
  · -- a floor of a negative multiple is a ceiling of a positive one
    have hneg := ceil_eq_of_pos h hθ hη (neg_pos.mpr hj) (by rwa [abs_of_neg hj] at hlt)
    push_cast at hneg
    rwa [neg_mul, neg_mul, Int.ceil_neg, Int.ceil_neg, neg_inj] at hneg
  · simp
  · exact floor_eq_of_pos h hθ hη hj (by rwa [abs_of_pos hj] at hlt)

/-! ## The search -/

/-- Walk the intervals below `a/b`, `c/d` to depth `k`. `code p q` is computed
once for the mediant `p/q`; `leaf` accepts the whole interval, `point` the
mediant alone, in which case both halves are searched. -/
def search (code : ℕ → ℕ → ℕ) (leaf point : ℕ → ℕ → Bool) (k : ℕ) :
    ℕ → ℕ → ℕ → ℕ → Bool :=
  loop (fun _ _ _ _ => false) (fun _ below a b c d =>
    force (a + c) fun p => force (b + d) fun q => force (code p q) fun w =>
      bif leaf w q then true
      else bif point w q then (bif below a b p q then below p q c d else false)
      else false) k

theorem search_succ (code : ℕ → ℕ → ℕ) (leaf point : ℕ → ℕ → Bool) (k a b c d : ℕ) :
    search code leaf point (k + 1) a b c d =
      (leaf (code (a + c) (b + d)) (b + d) ||
        (point (code (a + c) (b + d)) (b + d) &&
          (search code leaf point k a b (a + c) (b + d) &&
            search code leaf point k (a + c) (b + d) c d))) := by
  simp only [search, loop_succ, force_eq]
  cases leaf (code (a + c) (b + d)) (b + d) <;>
    cases point (code (a + c) (b + d)) (b + d) <;> simp [Bool.cond_eq_ite]

/-- A successful search proves `P` for every fraction of the interval. -/
theorem search_sound {code : ℕ → ℕ → ℕ} {leaf point : ℕ → ℕ → Bool} {P : ℚ → Prop}
    (hleaf : ∀ {a b c d : ℕ}, Neighbours a b c d →
      leaf (code (a + c) (b + d)) (b + d) = true → ∀ θ, Between a b c d θ → P θ)
    (hpoint : ∀ {p q : ℕ}, 0 < q → p ≤ q → point (code p q) q = true → P (p / q)) :
    ∀ {k a b c d : ℕ}, Neighbours a b c d → search code leaf point k a b c d = true →
      ∀ θ, Between a b c d θ → P θ := by
  intro k
  induction k with
  | zero =>
    intro a b c d _ hrun
    exact absurd hrun (by simp [search])
  | succ k ih =>
    intro a b c d h hrun θ hθ
    rw [search_succ, Bool.or_eq_true, Bool.and_eq_true, Bool.and_eq_true] at hrun
    rcases hrun with hrun | ⟨hmid, hbelow, habove⟩
    · exact hleaf h hrun θ hθ
    · -- `θ` is the mediant or lies in one of the halves
      have hq : (0 : ℚ) < (b + d : ℕ) := by exact_mod_cast Nat.add_pos_left h.left_pos d
      rcases lt_trichotomy (θ * (b + d : ℕ)) (a + c : ℕ) with hlt | heq | hgt
      · exact ih h.left_mediant hbelow θ ⟨hθ.1, hlt⟩
      · have := hpoint (Nat.add_pos_left h.left_pos d) h.mediant_le hmid
        rwa [← heq, mul_div_cancel_right₀ _ hq.ne'] at this
      · exact ih h.right_mediant habove θ ⟨hgt, hθ.2⟩

/-- The root interval of the search is `(0, 1)`. -/
theorem search_unit {code : ℕ → ℕ → ℕ} {leaf point : ℕ → ℕ → Bool} {P : ℚ → Prop}
    (hleaf : ∀ {a b c d : ℕ}, Neighbours a b c d →
      leaf (code (a + c) (b + d)) (b + d) = true → ∀ θ, Between a b c d θ → P θ)
    (hpoint : ∀ {p q : ℕ}, 0 < q → p ≤ q → point (code p q) q = true → P (p / q))
    {k : ℕ} (hrun : search code leaf point k 0 1 1 1 = true) {θ : ℚ}
    (h0 : 0 < θ) (h1 : θ < 1) : P θ :=
  search_sound hleaf hpoint ⟨one_pos, one_pos, le_rfl, rfl⟩ hrun θ
    (by simpa [Between] using ⟨h0, h1⟩)

end SternBrocot
