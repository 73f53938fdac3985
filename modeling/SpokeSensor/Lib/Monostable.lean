import Mathlib.Data.Set.Function
import Mathlib.Tactic.Common

/-!
# A retriggerable monostable

A counter that every trigger sets to `H` and that falls by one at every other instant,
down to zero; the output is high while the counter is positive.

- `output_getElem?`: started at zero, the output is high at `i` exactly when there was
  a trigger among the last `H` instants (`High`).
- `Run`, `Gap`: the maximal low runs, and the stretches from one trigger to the next.
- `bijOn_gaps`: the output is low in the trigger-free gaps that are longer than `H`,
  from `H` instants after the trigger on. After the first trigger the low runs
  correspond one to one to these gaps.
-/

namespace Monostable

/-- The output along a list of triggers, from the counter `c`. -/
def output (H : ℕ) : ℕ → List Bool → List Bool
  | _, [] => []
  | c, t :: ts =>
    let c := if t then H else c - 1
    decide (c ≠ 0) :: output H c ts

/-- A trigger at one of the last `H` instants. -/
def High (trigger : ℕ → Prop) (H i : ℕ) : Prop :=
  ∃ j ≤ i, trigger j ∧ i - j < H

variable {H c n : ℕ}

@[simp] theorem output_length (ts : List Bool) : (output H c ts).length = ts.length := by
  induction ts generalizing c with
  | nil => rfl
  | cons t ts ih => simp [output, ih]

theorem high_zero {trigger : ℕ → Prop} : High trigger H 0 ↔ trigger 0 ∧ 0 < H := by
  constructor
  · rintro ⟨j, hj, htrig, hlt⟩
    obtain rfl := Nat.le_zero.mp hj
    exact ⟨htrig, hlt⟩
  · exact fun h => ⟨0, le_rfl, h⟩

/-- The window one instant later: the first trigger, or the window over the others. -/
theorem high_succ {trigger : ℕ → Prop} {i : ℕ} :
    High trigger H (i + 1) ↔ (trigger 0 ∧ i + 1 < H) ∨ High (fun j => trigger (j + 1)) H i := by
  constructor
  · rintro ⟨j, hj, htrig, hlt⟩
    cases j with
    | zero => exact .inl ⟨htrig, hlt⟩
    | succ j => exact .inr ⟨j, by omega, htrig, by omega⟩
  · rintro (⟨htrig, hlt⟩ | ⟨j, hj, htrig, hlt⟩)
    · exact ⟨0, Nat.zero_le _, htrig, hlt⟩
    · exact ⟨j + 1, by omega, htrig, by omega⟩

/-- The counter still runs from the start, or was set within the last `H` instants. -/
theorem output_getElem?_of_le {ts : List Bool} (hc : c ≤ H) {i : ℕ} (hi : i < ts.length) :
    (output H c ts)[i]? = some true ↔
      i + 1 < c ∨ High (fun j => ts[j]? = some true) H i := by
  induction ts generalizing c i with
  | nil => exact absurd hi (Nat.not_lt_zero i)
  | cons t ts ih =>
    rw [output]
    cases i with
    | zero =>
      rw [List.getElem?_cons_zero, high_zero, List.getElem?_cons_zero]
      cases t <;> simp <;> omega
    | succ i =>
      have hnext : (if t = true then H else c - 1) ≤ H := by split <;> omega
      rw [List.getElem?_cons_succ, ih hnext (Nat.lt_of_succ_lt_succ hi), high_succ]
      simp only [List.getElem?_cons_succ, List.getElem?_cons_zero]
      cases t with
      | true =>
        -- a trigger now leaves more than the counter had
        simp
        omega
      | false =>
        have hfall : i + 1 < c - 1 ↔ i + 1 + 1 < c := by omega
        simp [hfall]

/-- Started at zero, the output is the window over the triggers. -/
theorem output_getElem? {ts : List Bool} {i : ℕ} (hi : i < ts.length) :
    (output H 0 ts)[i]? = some true ↔ High (fun j => ts[j]? = some true) H i := by
  rw [output_getElem?_of_le (Nat.zero_le H) hi]
  exact or_iff_right (Nat.not_lt_zero _)

/-! ## Runs and gaps

The runs of the output correspond to the gaps between triggers that are longer than
the hold.
-/

/-- A maximal run of `P` in `0, …, n - 1`: from `a` up to, not including, `b`. -/
structure Run (n : ℕ) (P : ℕ → Prop) (a b : ℕ) : Prop where
  lt : a < b
  le : b ≤ n
  holds : ∀ i, a ≤ i → i < b → P i
  starts : a = 0 ∨ ¬ P (a - 1)
  ends : b = n ∨ ¬ P b

/-- From a trigger at `j` to the next one at `k`, or to the end. -/
structure Gap (n : ℕ) (trigger : ℕ → Prop) (j k : ℕ) : Prop where
  triggered : trigger j
  lt : j < k
  le : k ≤ n
  free : ∀ i, j < i → i < k → ¬ trigger i
  ends : k = n ∨ trigger k

variable {trigger : ℕ → Prop}

/-- A run depends on the predicate within bounds only. -/
theorem Run.congr {P Q : ℕ → Prop} {a b : ℕ} (hPQ : ∀ i < n, P i ↔ Q i) (h : Run n P a b) :
    Run n Q a b where
  lt := h.lt
  le := h.le
  holds i hlo hhi := (hPQ i (hhi.trans_le h.le)).mp (h.holds i hlo hhi)
  starts := h.starts.imp_right fun hP hQ => by
    have hlt := h.lt
    have hle := h.le
    exact hP ((hPQ _ (by omega)).mpr hQ)
  ends := by
    by_cases hb : b = n
    · exact .inl hb
    · exact .inr fun hQ => h.ends.resolve_left hb ((hPQ b (lt_of_le_of_ne h.le hb)).mpr hQ)

/-- A gap longer than `H` leaves a low run, `H` instants after its trigger. -/
theorem Gap.run {j k : ℕ} (hH : 0 < H) (h : Gap n trigger j k) (hlong : H < k - j) :
    Run n (fun i => ¬ High trigger H i) (j + H) k where
  lt := by omega
  le := h.le
  holds i hlo hhi := by
    rintro ⟨t, ht, htrig, hlt⟩
    by_cases hafter : j < t
    · exact h.free t hafter (by omega) htrig
    · omega
  starts := .inr (not_not.mpr ⟨j, by omega, h.triggered, by omega⟩)
  ends := h.ends.imp_right fun htrig => not_not.mpr ⟨k, le_rfl, htrig, by omega⟩

/-- Every low run after a trigger is left by a gap. -/
theorem Run.gap {a b : ℕ} (hH : 0 < H) (h : Run n (fun i => ¬ High trigger H i) a b)
    (hafter : ∃ t ≤ a, trigger t) :
    ∃ j, Gap n trigger j b ∧ H < b - j ∧ j + H = a := by
  obtain ⟨t, hta, ht⟩ := hafter
  have hlow := h.holds a le_rfl h.lt
  have hfar : ∀ j ≤ a, trigger j → H ≤ a - j := fun j hj htrig =>
    not_lt.mp fun hlt => hlow ⟨j, hj, htrig, hlt⟩
  have hta' := hfar t hta ht
  -- the instant before the run is high because of the trigger that opens the gap
  obtain ⟨j, hj, htrig, hlt⟩ := not_not.mp (h.starts.resolve_left (by omega))
  have hja := hfar j (by omega) htrig
  refine ⟨j, ⟨htrig, by have := h.lt; omega, h.le, fun i hlo hhi hi => ?_, ?_⟩, ?_, by omega⟩
  · by_cases hia : i < a
    · have := hfar i hia.le hi
      omega
    · exact h.holds i (not_lt.mp hia) hhi ⟨i, le_rfl, hi, by omega⟩
  · refine h.ends.imp_right fun hhigh => ?_
    obtain ⟨i, hi, htrig', hlt'⟩ := not_not.mp hhigh
    -- a trigger within reach of the end comes after the whole run
    have hlt := h.lt
    by_cases hib : i = b
    · exact hib ▸ htrig'
    by_cases hia : i < a
    · have := hfar i hia.le htrig'
      omega
    · exact absurd ⟨i, le_rfl, htrig', by omega⟩ (h.holds i (not_lt.mp hia) (by omega))
  · have := h.lt
    omega

/-- The low runs after the first trigger are the gaps longer than `H`, without their
first `H` instants. -/
theorem bijOn_gaps (hH : 0 < H) :
    Set.BijOn (fun g : ℕ × ℕ => (g.1 + H, g.2))
      {g | Gap n trigger g.1 g.2 ∧ H < g.2 - g.1}
      {r | Run n (fun i => ¬ High trigger H i) r.1 r.2 ∧ ∃ t ≤ r.1, trigger t} := by
  refine ⟨?_, ?_, ?_⟩
  · rintro ⟨j, k⟩ ⟨hgap, hlong⟩
    exact ⟨hgap.run hH hlong, j, Nat.le_add_right j H, hgap.triggered⟩
  · rintro ⟨j, k⟩ - ⟨j', k'⟩ - heq
    obtain ⟨h1, h2⟩ := Prod.mk.inj heq
    exact Prod.ext (Nat.add_right_cancel h1) h2
  · rintro ⟨a, b⟩ ⟨hrun, hafter⟩
    obtain ⟨j, hgap, hlong, heq⟩ := hrun.gap hH hafter
    exact ⟨(j, b), ⟨hgap, hlong⟩, Prod.ext heq rfl⟩

end Monostable
