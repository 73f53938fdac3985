import SpokeSensor.Core.PatternSpec
import SpokeSensor.Lib.RunnerUp
import Mathlib.Algebra.BigOperators.Group.Finset.Basic
import Mathlib.Algebra.BigOperators.Ring.Finset
import Mathlib.Algebra.Order.BigOperators.Group.Finset
import Mathlib.Tactic.Linarith
import Mathlib.Tactic.Positivity
import Mathlib.Tactic.FieldSimp
import Mathlib.Tactic.NormNum

/-!
# The repetition error in exact arithmetic

What `infer_count` computes (`ir_spoke_pattern.c:12–40`), read over `ℚ`.

- `windowError f n`: the error of the candidate `n` on a history `f` (latest interval
  first). It is zero exactly when the last `2 n` intervals are a square (`Repeats`),
  and on integer intervals within the accepted range never below `10^-6` otherwise.
- `ranked_rankCandidates`: the scan ranks these errors.
- `accepts_of_unique`: one candidate repeats, and the scan locks on it.
- `not_accepts_of_two`: two candidates repeat, and the scan rejects, as their errors
  are both zero and nothing sets them apart (30–33).
- `best_lt_of_accepts`: whatever the scan locks on beats every other candidate by 8
  percent.
-/

namespace SpokeSensor

open Finset

/-- The candidate `n` repeats: the last `2 n` entries of `f` are a square. -/
def Repeats {α : Type} (f : ℕ → α) (n : ℕ) : Prop :=
  ∀ i < n, f i = f (i + n)

instance {α : Type} [DecidableEq α] (f : ℕ → α) (n : ℕ) : Decidable (Repeats f n) :=
  inferInstanceAs (Decidable (∀ i < n, f i = f (i + n)))

/-- The error of the candidate `n` on the history `f`. -/
def windowError (f : ℕ → ℚ) (n : ℕ) : ℚ :=
  (∑ i ∈ range n, |f i - f (i + n)|) / max (∑ i ∈ range n, 1 / 2 * (f i + f (i + n))) 1
    * (1 + 1 / 1000 * n)

namespace Pattern

/-- The inner loop sums both accumulators. -/
theorem windowSums_eq (p : Pattern ℚ) (n : ℕ) :
    p.windowSums n
      = (∑ i ∈ range n, |p.back i - p.back (i + n)|,
         ∑ i ∈ range n, 1 / 2 * (p.back i + p.back (i + n))) := by
  have hloop : ∀ k, (List.range k).foldl (fun (acc : ℚ × ℚ) i =>
      let a := p.back i
      let b := p.back (i + n)
      (acc.1 + fabsf (a - b), acc.2 + ofRat 0.5 * (a + b))) (ofRat 0, ofRat 0)
        = (∑ i ∈ range k, |p.back i - p.back (i + n)|,
           ∑ i ∈ range k, 1 / 2 * (p.back i + p.back (i + n))) := by
    intro k
    induction k with
    | zero => simp
    | succ k ih =>
      rw [List.range_succ, List.foldl_append, ih, sum_range_succ, sum_range_succ]
      norm_num
  exact hloop n

theorem repetitionError_eq (p : Pattern ℚ) (n : ℕ) :
    p.repetitionError n = windowError p.back n := by
  simp only [repetitionError, windowSums_eq, windowError, fmaxf_rat, ofRat_rat]
  norm_num

end Pattern

/-! ## Bounds on the error

The error of a candidate is a sum of distances over a mean. It is zero on a
repetition, and on whole microseconds it is either that or bounded below.
-/

section Bounds

variable {f : ℕ → ℚ} {n : ℕ}

/-- The error reads the first `2 n` entries. -/
theorem windowError_congr {g : ℕ → ℚ} (h : ∀ i < 2 * n, f i = g i) :
    windowError f n = windowError g n := by
  have hterm : ∀ i ∈ range n, f i = g i ∧ f (i + n) = g (i + n) := by
    intro i hi
    have hi := mem_range.mp hi
    exact ⟨h i (by omega), h (i + n) (by omega)⟩
  have herror : ∑ i ∈ range n, |f i - f (i + n)| = ∑ i ∈ range n, |g i - g (i + n)| :=
    sum_congr rfl fun i hi => by rw [(hterm i hi).1, (hterm i hi).2]
  have hmean : ∑ i ∈ range n, 1 / 2 * (f i + f (i + n))
      = ∑ i ∈ range n, 1 / 2 * (g i + g (i + n)) :=
    sum_congr rfl fun i hi => by rw [(hterm i hi).1, (hterm i hi).2]
  rw [windowError, windowError, herror, hmean]

/-- The mean of a window of accepted intervals is at least one. -/
theorem one_le_mean (hn : 0 < n) (hf : ∀ i < 2 * n, 70 ≤ f i) :
    1 ≤ ∑ i ∈ range n, 1 / 2 * (f i + f (i + n)) := by
  have hterm : ∀ i ∈ range n, (1 : ℚ) ≤ 1 / 2 * (f i + f (i + n)) := by
    intro i hi
    have hi := mem_range.mp hi
    linarith [hf i (by omega), hf (i + n) (by omega)]
  calc (1 : ℚ) ≤ n := by exact_mod_cast hn
    _ = ∑ _i ∈ range n, 1 := by simp
    _ ≤ _ := sum_le_sum hterm

theorem windowError_nonneg (f : ℕ → ℚ) (n : ℕ) : 0 ≤ windowError f n := by
  unfold windowError
  positivity

/-- The error vanishes exactly on a repetition: it is a sum of distances over a
positive mean. -/
theorem windowError_eq_zero_iff : windowError f n = 0 ↔ Repeats f n := by
  have hmax : (0 : ℚ) < max (∑ i ∈ range n, 1 / 2 * (f i + f (i + n))) 1 :=
    lt_max_of_lt_right one_pos
  have hscale : (0 : ℚ) < 1 + 1 / 1000 * n := by positivity
  rw [windowError, mul_eq_zero, div_eq_zero_iff, or_iff_left hscale.ne', or_iff_left hmax.ne',
    sum_eq_zero_iff_of_nonneg fun i _ => abs_nonneg _]
  simp [Repeats, sub_eq_zero]

/-- Whole-microsecond intervals that do not repeat leave an error of `10^-6`: two of
them differ by a microsecond at least, and the mean of a window is bounded by its
number of intervals and the link-loss limit. -/
theorem windowError_ge (hn : 0 < n) (hmax : n ≤ countMax)
    (hf : ∀ i < 2 * n, 70 ≤ f i ∧ f i ≤ 15000) {g : ℕ → ℕ} (hg : ∀ i < 2 * n, f i = g i)
    (hne : ¬ Repeats f n) : 1 / 1000000 ≤ windowError f n := by
  obtain ⟨j, hj, hfj⟩ : ∃ j < n, f j ≠ f (j + n) := by simpa [Repeats] using hne
  -- one term of the error is a non-zero whole number
  have hone : (1 : ℚ) ≤ |f j - f (j + n)| := by
    rw [hg j (by omega), hg (j + n) (by omega)] at hfj ⊢
    have hz : ((g j : ℤ) - g (j + n)) ≠ 0 := fun h => hfj (by
      exact_mod_cast sub_eq_zero.mp h)
    have habs : (1 : ℤ) ≤ |(g j : ℤ) - g (j + n)| := Int.one_le_abs hz
    exact_mod_cast habs
  have herr : (1 : ℚ) ≤ ∑ i ∈ range n, |f i - f (i + n)| :=
    hone.trans (single_le_sum (f := fun i => |f i - f (i + n)|)
      (fun i _ => abs_nonneg _) (mem_range.mpr hj))
  have hmean1 := one_le_mean hn fun i hi => (hf i hi).1
  have hmean : ∑ i ∈ range n, 1 / 2 * (f i + f (i + n)) ≤ 720000 := by
    have hterm : ∀ i ∈ range n, 1 / 2 * (f i + f (i + n)) ≤ 15000 := by
      intro i hi
      have hi := mem_range.mp hi
      linarith [(hf i (by omega)).2, (hf (i + n) (by omega)).2]
    have hn' : (n : ℚ) ≤ 48 := by exact_mod_cast hmax
    calc _ ≤ ∑ _i ∈ range n, (15000 : ℚ) := sum_le_sum hterm
      _ = n * 15000 := by simp
      _ ≤ 720000 := by linarith
  rw [windowError, max_eq_left hmean1]
  have hscale : (1 : ℚ) ≤ 1 + 1 / 1000 * n := by
    have : (0 : ℚ) ≤ n := by positivity
    linarith
  have hdiv : (1 : ℚ) / 1000000
      ≤ (∑ i ∈ range n, |f i - f (i + n)|) / ∑ i ∈ range n, 1 / 2 * (f i + f (i + n)) := by
    rw [le_div_iff₀ (by linarith)]
    linarith
  calc (1 : ℚ) / 1000000 = 1 / 1000000 * 1 := by ring
    _ ≤ _ := mul_le_mul hdiv hscale zero_le_one (le_trans (by norm_num) hdiv)

end Bounds

/-! ## The scan ranks the errors

The three variables of the scan (`ir_spoke_pattern.c:13–14, 24–28`) are a best entry
and a runner-up, as `RunnerUp` has them, of the list of all candidates.
-/

namespace Pattern

/-- The candidates that are not skipped, with their errors. -/
def entries (p : Pattern ℚ) : List (ℕ × ℚ) :=
  ((List.range' countMin (countMax + 1 - countMin)).filter
    (fun n => 2 * n ≤ p.historySize)).map fun n => (n, windowError p.back n)

theorem mem_entries {p : Pattern ℚ} {x : ℕ × ℚ} :
    x ∈ p.entries ↔ (countMin ≤ x.1 ∧ x.1 ≤ countMax) ∧ 2 * x.1 ≤ p.historySize ∧
      x.2 = windowError p.back x.1 := by
  obtain ⟨n, e⟩ := x
  simp only [entries, List.mem_map, List.mem_filter, List.mem_range'_1, decide_eq_true_eq,
    Prod.mk.injEq]
  constructor
  · rintro ⟨m, ⟨⟨h1, h2⟩, h3⟩, rfl, rfl⟩
    exact ⟨⟨h1, by omega⟩, h3, rfl⟩
  · rintro ⟨⟨h1, h2⟩, h3, rfl⟩
    exact ⟨n, ⟨⟨h1, by omega⟩, h3⟩, rfl, rfl⟩

/-- `best`, `best_count` and `second` after the loop: the least error, the first
candidate attaining it and the least error among the others. The loop is a scan with a
runner-up (`RunnerUp.Ranked`), whose three branches are those of the source
(`ir_spoke_pattern.c:24–28`). -/
theorem ranked_rankCandidates (p : Pattern ℚ) :
    RunnerUp.Ranked fltMax p.entries p.rankCandidates.best p.rankCandidates.bestCount
      p.rankCandidates.second := by
  have hscan : ∀ (l : List ℕ) (seen : List (ℕ × ℚ)) (r : Ranking ℚ), l.Pairwise (· < ·) →
      (∀ x ∈ seen, ∀ n ∈ l, x.1 < n) →
      RunnerUp.Ranked fltMax seen r.best r.bestCount r.second →
      RunnerUp.Ranked fltMax
        (seen ++ (l.filter (fun n => 2 * n ≤ p.historySize)).map
          fun n => (n, windowError p.back n))
        (l.foldl p.rankCandidate r).best (l.foldl p.rankCandidate r).bestCount
        (l.foldl p.rankCandidate r).second := by
    intro l
    induction l with
    | nil => exact fun seen r _ _ hr => by simpa using hr
    | cons n l ih =>
      intro seen r hsorted hlt hr
      obtain ⟨hn, hsorted⟩ := List.pairwise_cons.mp hsorted
      have hltl : ∀ x ∈ seen, ∀ m ∈ l, x.1 < m :=
        fun x hx m hm => hlt x hx m (List.mem_cons_of_mem _ hm)
      have hltn : ∀ x ∈ seen, x.1 < n := fun x hx => hlt x hx n List.mem_cons_self
      rw [List.foldl_cons]
      by_cases hskip : p.historySize < 2 * n
      · rw [List.filter_cons_of_neg (by simpa using hskip), rankCandidate, if_pos hskip]
        exact ih seen r hsorted hltl hr
      · rw [List.filter_cons_of_pos (by simpa using hskip), List.map_cons, ← List.singleton_append,
          ← List.append_assoc]
        -- the new entry joins those already seen, below the keys to come
        refine ih _ _ hsorted (RunnerUp.forall_mem_concat.mpr ⟨hltl, hn⟩) ?_
        simp only [rankCandidate, if_neg hskip, repetitionError_eq]
        split_ifs with hbest hsecond
        · exact hr.improve hltn hbest
        · exact hr.replace hltn hbest hsecond
        · exact hr.keep hltn hbest hsecond
  exact hscan (List.range' countMin (countMax + 1 - countMin)) [] ⟨fltMax, fltMax, 0⟩
    List.pairwise_lt_range' (fun _ hx => absurd hx List.not_mem_nil)
    (RunnerUp.Ranked.nil _ _)

/-! ## When the scan locks

The acceptance (`ir_spoke_pattern.c:30–33`) in terms of the errors: a lone repetition
is accepted, two of them are not.
-/

theorem accepts_iff (r : Ranking ℚ) :
    accepts r ↔ r.bestCount ≠ 0 ∧ r.best < 35 / 1000 ∧ 8 / 100 < separationConfidence r := by
  simp only [accepts, ofRat_rat]
  norm_num

theorem separationConfidence_eq (r : Ranking ℚ) :
    separationConfidence r
      = min (max ((r.second - r.best) / max r.second (1 / 1000000)) 0) 1 := by
  simp only [separationConfidence, isfinite_rat, if_true, fmaxf_rat, fminf_rat, ofRat_rat]
  norm_num

theorem separationConfidence_mem (r : Ranking ℚ) :
    0 ≤ separationConfidence r ∧ separationConfidence r ≤ 1 := by
  rw [separationConfidence_eq]
  exact ⟨le_min (le_max_right _ _) zero_le_one, min_le_right _ _⟩

/-- An accepted winner beats the runner-up by 8 percent. -/
theorem best_lt_second {r : Ranking ℚ} (h : accepts r) :
    r.best < 92 / 100 * r.second := by
  obtain ⟨-, -, hsep⟩ := (accepts_iff r).mp h
  rw [separationConfidence_eq] at hsep
  have hmax : (0 : ℚ) < max r.second (1 / 1000000) := lt_max_of_lt_right (by norm_num)
  have hgap : 8 / 100 < (r.second - r.best) / max r.second (1 / 1000000) := by
    -- the lower clamp is not active above 8 percent
    have h1 := (lt_min_iff.mp hsep).1
    rcases lt_max_iff.mp h1 with h2 | h2
    · exact h2
    · norm_num at h2
  rw [lt_div_iff₀ hmax] at hgap
  linarith [le_max_left r.second (1 / 1000000)]

/-- Whatever the scan locks on has a smaller error, by 8 percent, than every
other candidate it compared. -/
theorem best_lt_of_accepts {p : Pattern ℚ} (h : accepts p.rankCandidates) :
    windowError p.back p.rankCandidates.bestCount < 35 / 1000 ∧
      ∀ m, countMin ≤ m → m ≤ countMax → 2 * m ≤ p.historySize →
        m ≠ p.rankCandidates.bestCount →
        windowError p.back p.rankCandidates.bestCount < 92 / 100 * windowError p.back m := by
  have hrank := p.ranked_rankCandidates
  obtain ⟨-, hlimit, -⟩ := (accepts_iff _).mp h
  have hmem := hrank.best_mem (hlimit.trans (by rw [fltMax_rat]; norm_num))
  have hbest : p.rankCandidates.best = windowError p.back p.rankCandidates.bestCount :=
    (mem_entries.mp hmem).2.2
  refine ⟨hbest ▸ hlimit, fun m hge hle hsize hne => ?_⟩
  have hm : (m, windowError p.back m) ∈ p.entries := mem_entries.mpr ⟨⟨hge, hle⟩, hsize, rfl⟩
  have hsecond := hrank.second_le _ hm hne
  rw [← hbest]
  linarith [best_lt_second h]

section FullHistory

variable {p : Pattern ℚ} {g : ℕ → ℕ}

/-- Two candidates that repeat exactly leave no gap, and the scan rejects. -/
theorem not_accepts_of_two {n m : ℕ} (hsize : 2 * countMax ≤ p.historySize)
    (hn : countMin ≤ n ∧ n ≤ countMax) (hm : countMin ≤ m ∧ m ≤ countMax) (hne : n ≠ m)
    (hrn : Repeats p.back n) (hrm : Repeats p.back m) : ¬ accepts p.rankCandidates := by
  intro hacc
  have hzero : ∀ k, Repeats p.back k → windowError p.back k = 0 :=
    fun k hk => windowError_eq_zero_iff.mpr hk
  -- at least one of the two is not the winner, and no error is below zero
  obtain ⟨k, hk, hrk, hkey⟩ : ∃ k, (countMin ≤ k ∧ k ≤ countMax) ∧ Repeats p.back k ∧
      k ≠ p.rankCandidates.bestCount := by
    by_cases h : n = p.rankCandidates.bestCount
    · exact ⟨m, hm, hrm, fun h' => hne (h.trans h'.symm)⟩
    · exact ⟨n, hn, hrn, h⟩
  have hlt := (best_lt_of_accepts hacc).2 k hk.1 hk.2 (by omega) hkey
  rw [hzero k hrk, mul_zero] at hlt
  exact absurd (windowError_nonneg _ _) (not_le.mpr hlt)

/-- A single candidate that repeats exactly is locked on. -/
theorem accepts_of_unique {n : ℕ} (hsize : 2 * countMax ≤ p.historySize)
    (hf : ∀ i < 2 * countMax, 70 ≤ p.back i ∧ p.back i ≤ 15000)
    (hg : ∀ i < 2 * countMax, p.back i = g i)
    (hn : countMin ≤ n ∧ n ≤ countMax) (hrn : Repeats p.back n)
    (huniq : ∀ m, countMin ≤ m → m ≤ countMax → Repeats p.back m → m = n) :
    accepts p.rankCandidates ∧ p.rankCandidates.bestCount = n := by
  have hrank := p.ranked_rankCandidates
  have hzero : windowError p.back n = 0 := windowError_eq_zero_iff.mpr hrn
  have hpos : (0 : ℚ) < fltMax := by rw [fltMax_rat]; norm_num
  have hother : ∀ x ∈ p.entries, x.1 ≠ n → 1 / 1000000 ≤ x.2 := by
    intro x hx hne
    obtain ⟨⟨hge, hle⟩, -, heq⟩ := mem_entries.mp hx
    rw [heq]
    refine windowError_ge (lt_of_lt_of_le (by decide) hge) hle
      (fun i hi => hf i (by omega)) (fun i hi => hg i (by omega)) fun hrep => hne ?_
    exact huniq _ hge hle hrep
  have hmem : (n, (0 : ℚ)) ∈ p.entries :=
    mem_entries.mpr ⟨hn, by omega, hzero.symm⟩
  have hkey : p.rankCandidates.bestCount = n :=
    hrank.key_eq_of_strict hmem hpos fun x hx hne =>
      lt_of_lt_of_le (by norm_num) (hother x hx hne)
  -- the winner's error is exactly zero, the runner-up's at least `10^-6`
  have hbest : p.rankCandidates.best = 0 := by
    have := (mem_entries.mp (hrank.best_mem_of_lt hmem hpos)).2.2
    rwa [hkey, hzero] at this
  have hsecond : 1 / 1000000 ≤ p.rankCandidates.second := by
    rcases lt_or_ge p.rankCandidates.second fltMax with hlt | hge
    · obtain ⟨x, hx, hne, heq⟩ := hrank.second_mem hlt
      rw [← heq]
      exact hother x hx (hkey ▸ hne)
    · exact le_trans (by rw [fltMax_rat]; norm_num) hge
  refine ⟨(accepts_iff _).mpr ⟨?_, ?_, ?_⟩, hkey⟩
  · rw [hkey]
    exact (lt_of_lt_of_le (by decide) hn.1).ne'
  · rw [hbest]
    norm_num
  · have hs : (0 : ℚ) < p.rankCandidates.second := lt_of_lt_of_le (by norm_num) hsecond
    rw [separationConfidence_eq, hbest, sub_zero, max_eq_left hsecond, div_self hs.ne']
    norm_num

end FullHistory

end Pattern

end SpokeSensor
