import SpokeSensor.Core.Phase

/-!
# The count does not depend on the speed

Two wheels of the same pattern at different speeds, started at different times: the intervals of
the one are those of the other times a factor.

- `windowError_scale`: the repetition errors of `infer_count` (`ir_spoke_pattern.c:12–40`) are
  ratios of sums of intervals, and the floor of their denominator is never active on accepted
  intervals, so they agree.
- `rankCandidates_congr`, `Scaled`: hence the scans agree, and with them the confidence, the lock
  and the count. The table index only counts intervals, whatever the gate of `update_map` (42–59)
  does to the table, although that gate is not free of scale.
- `scaled_runs_agree`: the two runs publish the same after every edge.
-/

namespace SpokeSensor

open Finset

/-- Scaled histories have the same error. -/
theorem windowError_scale {f g : ℕ → ℚ} {s : ℚ} {n : ℕ} (hs : 0 < s) (hn : 0 < n)
    (hf : ∀ i < 2 * n, 70 ≤ f i) (hg : ∀ i < 2 * n, 70 ≤ g i)
    (hfg : ∀ i < 2 * n, g i = s * f i) : windowError g n = windowError f n := by
  have hterm : ∀ i ∈ range n, g i = s * f i ∧ g (i + n) = s * f (i + n) := by
    intro i hi
    have hi := mem_range.mp hi
    exact ⟨hfg i (by omega), hfg (i + n) (by omega)⟩
  have herror : ∑ i ∈ range n, |g i - g (i + n)| = s * ∑ i ∈ range n, |f i - f (i + n)| := by
    rw [mul_sum]
    refine sum_congr rfl fun i hi => ?_
    rw [(hterm i hi).1, (hterm i hi).2, ← mul_sub, abs_mul, abs_of_pos hs]
  have hmean : ∑ i ∈ range n, 1 / 2 * (g i + g (i + n))
      = s * ∑ i ∈ range n, 1 / 2 * (f i + f (i + n)) := by
    rw [mul_sum]
    refine sum_congr rfl fun i hi => ?_
    rw [(hterm i hi).1, (hterm i hi).2]
    ring
  -- neither mean is clamped
  rw [windowError, windowError, max_eq_left (one_le_mean hn hf), max_eq_left (one_le_mean hn hg),
    herror, hmean, mul_div_mul_left _ _ hs.ne']

namespace Pattern

variable {p q : Pattern ℚ} {xs ys : List ℕ} {s : ℚ}

/-- The scan reads the fill count and the errors of the candidates that it compares. -/
theorem rankCandidates_congr (hsize : q.historySize = p.historySize)
    (herror : ∀ n, countMin ≤ n → n ≤ countMax → 2 * n ≤ p.historySize →
      q.repetitionError n = p.repetitionError n) :
    q.rankCandidates = p.rankCandidates := by
  refine List.foldl_ext _ _ _ fun r n hn => ?_
  rw [List.mem_range'_1] at hn
  rw [rankCandidate, rankCandidate, hsize]
  by_cases hskip : p.historySize < 2 * n
  · rw [if_pos hskip, if_pos hskip]
  · rw [if_neg hskip, if_neg hskip, herror n hn.1 (by omega) (by omega)]

/-- The published fields that do not carry a time, and the table index. -/
structure SamePublished (p q : Pattern ℚ) : Prop where
  count : q.estimate.spokeCount = p.estimate.spokeCount
  locked : q.estimate.countLocked = p.estimate.countLocked
  confidence : q.estimate.confidence = p.estimate.confidence
  current : q.estimate.currentSpoke = p.estimate.currentSpoke
  index : q.spokeIndex = p.spokeIndex

theorem SamePublished.updateMap (h : SamePublished p q) (x y : ℚ) :
    SamePublished (p.updateMap x) (q.updateMap y) := by
  have hnext : (q.spokeIndex + 1) % q.estimate.spokeCount
      = (p.spokeIndex + 1) % p.estimate.spokeCount := by
    rw [h.index, h.count]
  exact {
    count := h.count
    locked := h.locked
    confidence := h.confidence
    current := hnext
    index := hnext }

/-- Two states that have accepted intervals related by the factor `s`. -/
structure Scaled (s : ℚ) (p q : Pattern ℚ) (xs ys : List ℕ) : Prop where
  left : Inv p xs
  right : Inv q ys
  intervals : List.Forall₂ (fun x y : ℕ => (y : ℚ) = s * x) xs ys
  published : SamePublished p q

namespace Scaled

/-- Two estimators that have seen nothing. -/
theorem init (s : ℚ) : Scaled s init init [] [] where
  left := Inv.init
  right := Inv.init
  intervals := .nil
  published := ⟨rfl, rfl, rfl, rfl, rfl⟩

/-- Both rings hold as many intervals. -/
theorem historySize_eq (h : Scaled s p q xs ys) : q.historySize = p.historySize := by
  rw [h.left.historySize_eq, h.right.historySize_eq, h.intervals.length_eq]

/-- Both have accepted as many events. -/
theorem events_eq (h : Scaled s p q xs ys) : q.acceptedEvents = p.acceptedEvents := by
  rw [h.left.events, h.right.events, h.intervals.length_eq]

/-- The rings hold scaled entries. -/
theorem back_eq (h : Scaled s p q xs ys) {k : ℕ} (hk : k < p.historySize) :
    q.back k = s * p.back k := by
  obtain ⟨x, hx, hp⟩ := h.left.back_eq hk
  obtain ⟨y, hy, hq⟩ := h.right.back_eq (h.historySize_eq ▸ hk)
  obtain ⟨hkx, rfl⟩ := List.getElem?_eq_some_iff.mp hx
  obtain ⟨hky, rfl⟩ := List.getElem?_eq_some_iff.mp hy
  rw [hp, hq]
  exact h.intervals.get hkx hky

/-- So the scans agree. -/
theorem rankCandidates_eq (h : Scaled s p q xs ys) (hs : 0 < s) :
    q.rankCandidates = p.rankCandidates := by
  refine rankCandidates_congr h.historySize_eq fun n hge _ hn => ?_
  rw [repetitionError_eq, repetitionError_eq]
  refine windowError_scale hs (Nat.lt_of_lt_of_le (Nat.succ_pos 15) hge) ?_ ?_ ?_
  · exact fun i hi => (h.left.back_mem (by omega)).1
  · exact fun i hi => (h.right.back_mem (by rw [h.historySize_eq]; omega)).1
  · exact fun i hi => h.back_eq (by omega)

theorem withEdge (h : Scaled s p q xs ys) {e f : UInt64} (he : e ≠ 0) (hf : f ≠ 0) :
    Scaled s (p.withEdge e) (q.withEdge f) xs ys where
  left := h.left.withEdge he
  right := h.right.withEdge hf
  intervals := h.intervals
  published := ⟨h.published.count, h.published.locked, h.published.confidence,
    h.published.current, h.published.index⟩

/-- Two intervals in the ratio go to the same place of both rings. -/
theorem pushInterval (h : Scaled s p q xs ys) (hp : p.lastEdgeUs ≠ 0) (hq : q.lastEdgeUs ≠ 0)
    {x y : ℕ} (hx : 70 ≤ x ∧ x ≤ 15000) (hy : 70 ≤ y ∧ y ≤ 15000) (hxy : (y : ℚ) = s * x) :
    Scaled s (p.pushInterval (ofRat x)) (q.pushInterval (ofRat y)) (x :: xs) (y :: ys) where
  left := h.left.pushInterval hp hx
  right := h.right.pushInterval hq hy
  intervals := .cons hxy h.intervals
  published := ⟨h.published.count, h.published.locked, h.published.confidence,
    h.published.current, h.published.index⟩

/-- Both take the same branch. -/
theorem learn {x y : ℕ} (h : Scaled s p q (x :: xs) (y :: ys)) (hs : 0 < s)
    (hx : 70 ≤ x ∧ x ≤ 15000) (hy : 70 ≤ y ∧ y ≤ 15000) :
    Scaled s (p.learn (ofRat x)) (q.learn (ofRat y)) (x :: xs) (y :: ys) where
  left := h.left.learn hx
  right := h.right.learn hy
  intervals := h.intervals
  published := by
    have hpub := h.published
    have hevents := h.events_eq
    have hrank := h.rankCandidates_eq hs
    cases hl : p.estimate.countLocked with
    | true =>
      rw [learn_locked hl, learn_locked (hpub.locked.trans hl)]
      exact hpub.updateMap _ _
    | false =>
      have hl' := hpub.locked.trans hl
      rcases Nat.lt_or_ge p.acceptedEvents.toNat confidenceEvents with hev | hev
      · rw [learn_waiting hl hev, learn_waiting hl' (by rw [hevents]; exact hev)]
        exact hpub
      · by_cases hacc : accepts p.rankCandidates
        · rw [learn_lock hl hev hacc, learn_lock hl' (by rw [hevents]; exact hev)
            (by rw [hrank]; exact hacc), hrank]
          refine SamePublished.updateMap ?_ _ _
          exact ⟨rfl, rfl, rfl, hpub.current, rfl⟩
        · rw [learn_undecided hl hev hacc, learn_undecided hl' (by rw [hevents]; exact hev)
            (by rw [hrank]; exact hacc), hrank]
          exact ⟨hpub.count, hpub.locked, rfl, hpub.current, hpub.index⟩

/-- One edge of each run, an interval after the one before. -/
theorem ingestEdge (h : Scaled s p q xs ys) (hs : 0 < s) {e f : UInt64} (he : e ≠ 0) (hf : f ≠ 0)
    (hp : p.lastEdgeUs ≠ 0) (hq : q.lastEdgeUs ≠ 0)
    (hx : 70 ≤ p.intervalTo e ∧ p.intervalTo e ≤ 15000)
    (hy : 70 ≤ q.intervalTo f ∧ q.intervalTo f ≤ 15000)
    (hxy : (q.intervalTo f : ℚ) = s * p.intervalTo e) :
    Scaled s (p.ingestEdge e).1 (q.ingestEdge f).1 (p.intervalTo e :: xs)
      (q.intervalTo f :: ys) := by
  have haccepted : ∀ {r : Pattern ℚ} {g : UInt64}, g ≠ 0 → r.lastEdgeUs ≠ 0 →
      (70 ≤ r.intervalTo g ∧ r.intervalTo g ≤ 15000) →
      (r.ingestEdge g).1 = ((r.withEdge g).pushInterval (ofRat (r.intervalTo g))).learn
        (ofRat (r.intervalTo g)) := by
    intro r g hg hr hin
    rcases ingestEdge_cases r g with ⟨h0, -⟩ | ⟨-, h0, -⟩ | ⟨-, -, hno, -⟩ | ⟨-, -, -, heq⟩
    · exact absurd h0 hg
    · exact absurd h0 hr
    · exact absurd ((inRange_iff _).mpr hin) hno
    · rw [heq]
  rw [haccepted he hp hx, haccepted hf hq hy]
  exact ((h.withEdge he hf).pushInterval he hf hx hy hxy).learn hs hx hy

end Scaled

/-! ## Runs

Two runs are fed edge by edge with gaps in the same ratio. The relation of their
states is kept by every call, so it holds at the end of any number of edges.
-/

/-- The state after the first `m` edges. -/
def edgesRun (e : ℕ → UInt64) (m : ℕ) : Pattern ℚ :=
  init.ingestAll ((List.range m).map e)

theorem edgesRun_succ (e : ℕ → UInt64) (m : ℕ) :
    edgesRun e (m + 1) = ((edgesRun e m).ingestEdge (e m)).1 := by
  rw [edgesRun, List.range_succ, List.map_append, ingestAll_append]
  rfl

theorem edgesRun_lastEdgeUs {e : ℕ → UInt64} {m : ℕ} (he : e m ≠ 0) :
    (edgesRun e (m + 1)).lastEdgeUs = e m := by
  rw [edgesRun_succ]
  exact ingestEdge_lastEdgeUs _ he

/-- The gaps between successive edges of two sequences are related by a factor, and
within the accepted range in both. -/
def ScaledGaps (s : ℚ) (e f : ℕ → UInt64) (n : ℕ) : Prop :=
  ∀ k, k + 1 < n →
    (70 ≤ (e (k + 1) - e k).toNat ∧ (e (k + 1) - e k).toNat ≤ 15000) ∧
    (70 ≤ (f (k + 1) - f k).toNat ∧ (f (k + 1) - f k).toNat ≤ 15000) ∧
    ((f (k + 1) - f k).toNat : ℚ) = s * (e (k + 1) - e k).toNat

/-- By induction on the number of edges. -/
theorem scaled_run {n : ℕ} {e f : ℕ → UInt64} (hs : 0 < s)
    (hne : ∀ k < n, e k ≠ 0 ∧ f k ≠ 0) (hgaps : ScaledGaps s e f n) {m : ℕ} (hm : m ≤ n) :
    ∃ xs ys, Scaled s (edgesRun e m) (edgesRun f m) xs ys := by
  induction m with
  | zero => exact ⟨[], [], Scaled.init s⟩
  | succ m ih =>
    obtain ⟨xs, ys, hscaled⟩ := ih (by omega)
    obtain ⟨he, hf⟩ := hne m (by omega)
    rw [edgesRun_succ, edgesRun_succ]
    cases m with
    | zero =>
      -- the first edge only sets the clock
      have hfirst : ∀ g : UInt64, g ≠ 0 →
          ((init : Pattern ℚ).ingestEdge g).1 = init.withEdge g := by
        intro g hg
        rw [Pattern.ingestEdge, if_neg hg]
        rfl
      show ∃ xs ys, Scaled s ((init : Pattern ℚ).ingestEdge (e 0)).1
        ((init : Pattern ℚ).ingestEdge (f 0)).1 xs ys
      rw [hfirst _ he, hfirst _ hf]
      exact ⟨[], [], (Scaled.init s).withEdge he hf⟩
    | succ k =>
      obtain ⟨hx, hy, hxy⟩ := hgaps k (by omega)
      obtain ⟨he', hf'⟩ := hne k (by omega)
      have hle := edgesRun_lastEdgeUs he'
      have hlf := edgesRun_lastEdgeUs hf'
      have hxe : (edgesRun e (k + 1)).intervalTo (e (k + 1)) = (e (k + 1) - e k).toNat := by
        rw [intervalTo, hle]
      have hyf : (edgesRun f (k + 1)).intervalTo (f (k + 1)) = (f (k + 1) - f k).toNat := by
        rw [intervalTo, hlf]
      exact ⟨_, _, hscaled.ingestEdge hs he hf (by rw [hle]; exact he') (by rw [hlf]; exact hf')
        (by rw [hxe]; exact hx) (by rw [hyf]; exact hy) (by rw [hxe, hyf]; exact hxy)⟩

/-- Two edge sequences whose gaps are related by a factor and accepted in both runs
give the same count, lock, confidence and current spoke after every edge. The errors
that are ranked agree (`windowError_scale`), so the two scans end alike, and what the
table does with an interval moves none of these four. -/
theorem scaled_runs_agree (s : ℚ) (hs : 0 < s) (n : ℕ) (e f : ℕ → UInt64)
    (hne : ∀ k < n, e k ≠ 0 ∧ f k ≠ 0) (hgaps : ScaledGaps s e f n) :
    ∀ m ≤ n,
      (edgesRun f m).estimate.spokeCount = (edgesRun e m).estimate.spokeCount ∧
      (edgesRun f m).estimate.countLocked = (edgesRun e m).estimate.countLocked ∧
      (edgesRun f m).estimate.confidence = (edgesRun e m).estimate.confidence ∧
      (edgesRun f m).estimate.currentSpoke = (edgesRun e m).estimate.currentSpoke := by
  intro m hm
  obtain ⟨xs, ys, hscaled⟩ := scaled_run hs hne hgaps hm
  have hpub := hscaled.published
  exact ⟨hpub.count, hpub.locked, hpub.confidence, hpub.current⟩

/-! ## Twenty-five spokes at two speeds

One wheel at two speeds over a whole identification: both runs lock on the same count
at the same edge.
-/

theorem edgeAt_gap {x : ℕ → ℕ} (hx : Accepted x) (t₀ : UInt64) (k : ℕ) :
    (edgeAt t₀ x (k + 1) - edgeAt t₀ x k).toNat = x k := by
  have hlt : x k < UInt64.size := (hx k).2.trans_lt (by decide)
  rw [edgeAt_succ, UInt64.add_comm, UInt64.add_sub_cancel, UInt64.toNat_ofNat_of_lt' hlt]

/-- Edges at the spacings of one wheel, and at spacings that are related to them by a factor. -/
theorem scaledGaps_edgeAt {x y : ℕ → ℕ} (hx : Accepted x) (hy : Accepted y)
    (hxy : ∀ i, (y i : ℚ) = s * x i) (t₀ t₁ : UInt64) (n : ℕ) :
    ScaledGaps s (edgeAt t₀ x) (edgeAt t₁ y) n := by
  intro k _
  rw [edgeAt_gap hx, edgeAt_gap hy]
  exact ⟨hx k, hy k, hxy k⟩

/-- A wheel with one wide gap, and the same at two thirds of the speed, started later. Both lock
on 25 spokes at the 193rd edge, and agree over two turns more. -/
theorem scaled_runs_agree_oneGap :
    ((edgesRun (edgeAt 1 (oneGap 25 2000)) 193).estimate.countLocked = true ∧
      (edgesRun (edgeAt 1 (oneGap 25 2000)) 193).estimate.spokeCount = 25) ∧
    ((edgesRun (edgeAt 7 fun i => 3 * oneGap 25 2000 i / 2) 193).estimate.countLocked = true ∧
      (edgesRun (edgeAt 7 fun i => 3 * oneGap 25 2000 i / 2) 193).estimate.spokeCount = 25) ∧
    ∀ m ≤ 243, (edgesRun (edgeAt 7 fun i => 3 * oneGap 25 2000 i / 2) m).estimate.currentSpoke
      = (edgesRun (edgeAt 1 (oneGap 25 2000)) m).estimate.currentSpoke := by
  have hx : Accepted (oneGap 25 2000) := oneGap_accepted 25 (by decide)
  have hcases : ∀ i, oneGap 25 2000 i = 2000 ∨ oneGap 25 2000 i = 1000 := by
    intro i
    unfold oneGap
    split
    · exact .inl rfl
    · exact .inr rfl
  have hy : Accepted fun i => 3 * oneGap 25 2000 i / 2 := by
    intro i
    rcases hcases i with h | h <;> simp only [h] <;> decide
  have hxy : ∀ i, ((3 * oneGap 25 2000 i / 2 : ℕ) : ℚ) = 3 / 2 * oneGap 25 2000 i := by
    intro i
    rcases hcases i with h | h <;> rw [h] <;> norm_num
  have hne : ∀ k < 243, edgeAt 1 (oneGap 25 2000) k ≠ 0 ∧
      edgeAt 7 (fun i => 3 * oneGap 25 2000 i / 2) k ≠ 0 := fun k hk =>
    ⟨edgeAt_ne_zero (n := 243) hx (by decide) (by decide) k hk.le,
      edgeAt_ne_zero (n := 243) hy (by decide) (by decide) k hk.le⟩
  have hagree := scaled_runs_agree (3 / 2) (by norm_num) 243 _ _ hne
    (scaledGaps_edgeAt hx hy hxy 1 7 243)
  have hlocks : LocksAt 1 (oneGap 25 2000) 192 191 25 :=
    oneGap_locksAt (by decide) (by decide) (by decide) (by decide) (by decide)
  have hrun : wheelRun 1 (oneGap 25 2000) (191 + 1)
      = edgesRun (edgeAt 1 (oneGap 25 2000)) 193 := by
    rw [wheelRun, edgesRun]
  have hlocked := hrun ▸ hlocks.locked
  have hcount := hrun ▸ hlocks.count
  obtain ⟨hcount', hlocked', -, -⟩ := hagree 193 (by omega)
  exact ⟨⟨hlocked, hcount⟩, ⟨hlocked'.trans hlocked, hcount'.trans hcount⟩,
    fun m hm => (hagree m hm).2.2.2⟩

end Pattern

end SpokeSensor
