import SpokeSensor.Core.Identification

/-!
# The phase of the learned table (`ir_spoke_pattern.c:33–76`)

At the lock `infer_count` copies the last `n` intervals into the table, the
latest one into the cell `n - 1`, and resets the index to `0` (lines 34–38); the
very interval that locked is then passed to `update_map` (line 74), which compares
it with the cell `0`. From there on the cell `t mod n` meets the interval `K + t`
of the wheel while it holds the interval `K + t + 1`: every interval is compared
with the cell of the next spoke (`LocksAt.compares_next`), on every wheel and at
every event, so that no locked table is in phase with its wheel (`never_in_phase`).

What that does to the table depends on the wheel: it survives exactly when every
interval equals its successor or is so far from it that the gate drops it
(`map_kept_iff`).

- `comparedCell`: the cell that `update_map` compares with an interval.
- `capturedFrom`: the interval that the copy loop has put into a cell.
- `InPhase`: the table and the revolution are those of the lock, and the interval
  meets the cell of its own spoke.
-/

namespace SpokeSensor.Pattern

open Function Finset

/-- The table that inference writes at the event `K`, before the update. -/
def capturedMap (t₀ : UInt64) (x : ℕ → ℕ) (K n j : ℕ) : ℚ :=
  ((beforeLearn t₀ x K).lock n).lut j

/-- What `ingest_edge` hands to `update_map`: inference has run, where it was due. -/
def afterInference {F : Type} [Add F] [Sub F] [Mul F] [Div F] [LT F] [DecidableLT F] [LE F]
    [DecidableLE F] [CFloat F] (p : Pattern F) : Pattern F :=
  if p.estimate.countLocked = false ∧ confidenceEvents ≤ p.acceptedEvents.toNat then p.inferCount
  else p

theorem learn_eq_afterInference {F : Type} [Add F] [Sub F] [Mul F] [Div F] [LT F] [DecidableLT F]
    [LE F] [DecidableLE F] [CFloat F] (p : Pattern F) (interval : F) :
    p.learn interval
      = if p.afterInference.estimate.countLocked then p.afterInference.updateMap interval
        else p.afterInference := rfl

/-- The cell that `update_map` compares with the interval `k`. -/
def comparedCell (t₀ : UInt64) (x : ℕ → ℕ) (k : ℕ) : ℕ :=
  (beforeLearn t₀ x k).afterInference.spokeIndex

/-- The number of the interval that the copy loop of the event `K` puts into the cell
`j`: `interval_lut[n - 1 - i] = back(p, i)`, and `back(p, i)` is the interval `K - i`. -/
def capturedFrom (K n j : ℕ) : ℕ := K - (n - 1 - j)

/-- The `t`-th event from the lock on finds the table in phase with the wheel. -/
structure InPhase (t₀ : UInt64) (x : ℕ → ℕ) (K n t : ℕ) : Prop where
  /-- The table is what was captured at the lock. -/
  map : ∀ j < n, (wheelRun t₀ x (K + 1 + t)).lut j = capturedMap t₀ x K n j
  /-- The published revolution is the sum of one period. -/
  revolution : (wheelRun t₀ x (K + 1 + t)).estimate.revolutionPeriodUs
    = ((∑ j ∈ range n, x j : ℕ) : ℚ)
  /-- The interval has been compared with a cell captured from the same spoke. -/
  spoke : capturedFrom K n (comparedCell t₀ x (K + t)) ≡ K + t [MOD n]

/-- The interval `a` leaves a cell holding `b` as it is: it equals `b` or is an
outlier of it. -/
def Keeps (a b : ℕ) : Prop :=
  a = b ∨ max 80 (28 / 100 * (b : ℚ)) < |(a : ℚ) - b|

theorem adaptCell_eq_iff {a b : ℕ} (hb : 0 < b) : adaptCell (b : ℚ) (a : ℚ) = b ↔ Keeps a b := by
  rw [adaptCell_eq (by exact_mod_cast hb), Smoothing.step_eq_iff (by norm_num), Nat.cast_inj]
  rfl

/-- Any `n` consecutive terms of an `n`-periodic sequence have the same sum. -/
theorem sum_period {x : ℕ → ℕ} {n : ℕ} (hper : Periodic x n) (a : ℕ) :
    ∑ j ∈ range n, x (a + j) = ∑ j ∈ range n, x j := by
  induction a with
  | zero => simp
  | succ a ih =>
    rw [← ih]
    have h1 := sum_range_succ (fun j => x (a + j)) n
    have h2 := sum_range_succ' (fun j => x (a + j)) n
    have h3 : ∑ j ∈ range n, x (a + 1 + j) = ∑ j ∈ range n, x (a + (j + 1)) :=
      sum_congr rfl fun j _ => by rw [show a + 1 + j = a + (j + 1) by ring]
    have h4 : x (a + n) = x (a + 0) := hper a
    omega

/-- The edge number `K + 1` of an accepted run of `N` edges locks on `n`. -/
structure LocksAt (t₀ : UInt64) (x : ℕ → ℕ) (N K n : ℕ) : Prop where
  accepted : Accepted x
  edge : ∀ k, k ≤ N → edgeAt t₀ x k ≠ 0
  lt : K < N
  unlocked : (wheelRun t₀ x K).estimate.countLocked = false
  locked : (wheelRun t₀ x (K + 1)).estimate.countLocked = true
  count : (wheelRun t₀ x (K + 1)).estimate.spokeCount = n

section Lock

variable {t₀ : UInt64} {x : ℕ → ℕ} {n K N : ℕ}

/-- The locking event: inference accepts `n`, and the same call updates the copied
table. -/
theorem LocksAt.learn_eq (h : LocksAt t₀ x N K n) :
    ((countMin ≤ n ∧ n ≤ countMax) ∧ 2 * n ≤ K + 1) ∧
      wheelRun t₀ x (K + 1)
        = (((beforeLearn t₀ x K).noteConfidence
            (separationConfidence (beforeLearn t₀ x K).rankCandidates)).lock n).updateMap
              (ofRat (x K)) := by
  have hsize := (inv_beforeLearn h.accepted h.edge h.lt).historySize_eq
  rw [latest_length] at hsize
  have hstep : wheelRun t₀ x (K + 1) = (beforeLearn t₀ x K).learn (ofRat (x K)) :=
    wheelRun_succ h.accepted h.edge h.lt
  have hlocked := h.locked
  have hcount := h.count
  rw [hstep] at hlocked hcount ⊢
  have hunlocked : (beforeLearn t₀ x K).estimate.countLocked = false := h.unlocked
  obtain ⟨-, hacc, heq⟩ := learn_of_locks hunlocked hlocked
  obtain ⟨hge, hle, h2⟩ := (rankCandidates_bestCount _).resolve_left hacc.1
  rw [heq] at hcount ⊢
  have hn : (beforeLearn t₀ x K).rankCandidates.bestCount = n := hcount
  rw [hn] at hge hle h2 ⊢
  exact ⟨⟨⟨hge, hle⟩, by omega⟩, rfl⟩

theorem LocksAt.count_le (h : LocksAt t₀ x N K n) : n ≤ countMax := h.learn_eq.1.1.2

theorem LocksAt.two_mul_le (h : LocksAt t₀ x N K n) : 2 * n ≤ K + 1 := h.learn_eq.1.2

theorem LocksAt.pos (h : LocksAt t₀ x N K n) : 0 < n :=
  lt_of_lt_of_le (Nat.succ_pos 15) h.learn_eq.1.1.1

/-- The table after the locking event: copied, and its first cell already updated. -/
theorem LocksAt.lut_eq (h : LocksAt t₀ x N K n) (j : ℕ) :
    (wheelRun t₀ x (K + 1)).lut j
      = if j = 0 then adaptCell (capturedMap t₀ x K n 0) (x K) else capturedMap t₀ x K n j := by
  rw [h.learn_eq.2]
  exact updateMap_lut _ _ (Nat.succ_pos _) j

/-- The copy loop at the lock, on any wheel. -/
theorem LocksAt.capturedMap_capturedFrom (h : LocksAt t₀ x N K n) {j : ℕ} (hj : j < n) :
    capturedMap t₀ x K n j = (x (capturedFrom K n j) : ℚ) := by
  have hval := generated_values
  have hle := h.count_le
  have h2 := h.two_mul_le
  rw [capturedMap, lock_lut _ hle hj, back_beforeLearn h.accepted h.edge h.lt (by omega) (by omega),
    capturedFrom]

/-- The interval in the cell `j` is one turn older than the one that comes `j` after the
locking one. -/
theorem LocksAt.capturedFrom_add (h : LocksAt t₀ x N K n) {j : ℕ} (hj : j < n) :
    capturedFrom K n j + n = K + 1 + j := by
  have h2 := h.two_mul_le
  rw [capturedFrom]
  omega

/-- On a wheel of period `n` the cell `j` is captured from the interval that comes
`j` after the locking one. -/
theorem LocksAt.capturedMap_eq (h : LocksAt t₀ x N K n) (hper : Periodic x n) {j : ℕ}
    (hj : j < n) : capturedMap t₀ x K n j = (x (K + 1 + j) : ℚ) := by
  rw [h.capturedMap_capturedFrom hj, ← hper (capturedFrom K n j), h.capturedFrom_add hj]

/-- The cell compared with the interval `K + t` was captured from the interval
`K + t + 1`. -/
theorem LocksAt.compared_cell (h : LocksAt t₀ x N K n) (hper : Periodic x n) (t : ℕ) :
    capturedMap t₀ x K n (t % n) = (x (K + t + 1) : ℚ) := by
  have hshift : Periodic (fun i => x (K + 1 + i)) n := by
    intro i
    show x (K + 1 + (i + n)) = x (K + 1 + i)
    rw [← Nat.add_assoc]
    exact hper (K + 1 + i)
  have hmod : x (K + 1 + t % n) = x (K + 1 + t) := hshift.map_mod_nat t
  rw [h.capturedMap_eq hper (Nat.mod_lt t h.pos), hmod, show K + 1 + t = K + t + 1 by ring]

/-- `t` events after the lock the index is at `t + 1`. -/
theorem LocksAt.index_eq (h : LocksAt t₀ x N K n) :
    ∀ {t : ℕ}, K + 1 + t ≤ N → (wheelRun t₀ x (K + 1 + t)).estimate.countLocked = true ∧
      (wheelRun t₀ x (K + 1 + t)).estimate.spokeCount = n ∧
      (wheelRun t₀ x (K + 1 + t)).spokeIndex = (t + 1) % n
  | 0, _ => by
    refine ⟨h.locked, h.count, ?_⟩
    rw [Nat.add_zero, h.learn_eq.2]
    rfl
  | t + 1, ht => by
    obtain ⟨hl, hc, hi⟩ := h.index_eq (t := t) (by omega)
    have hshape := (inv_wheelRun h.accepted h.edge (k := K + 1 + t) (by omega)).shape
    have h0 : t₀ ≠ 0 := by simpa using h.edge 0 (Nat.zero_le N)
    rw [wheelRun_eq h0] at hl hc hi hshape
    obtain ⟨hl', hc', hi', -⟩ := timedRun_succ_locked h.accepted h.edge (by omega) hshape hl
    rw [← Nat.add_assoc, wheelRun_eq h0]
    refine ⟨hl', hc'.trans hc, ?_⟩
    rw [hi', hc, hi, Nat.mod_add_mod]

/-- The inference has run when the locking interval is compared, with the cell `0`; from
then on the cells are compared in turn. -/
theorem LocksAt.comparedCell_eq (h : LocksAt t₀ x N K n) {t : ℕ} (ht : K + 1 + t ≤ N) :
    comparedCell t₀ x (K + t) = t % n := by
  rw [comparedCell]
  cases t with
  | zero =>
    have hstep : wheelRun t₀ x (K + 1) = (beforeLearn t₀ x K).learn (ofRat (x K)) :=
      wheelRun_succ h.accepted h.edge h.lt
    have hlocked := h.locked
    rw [hstep] at hlocked
    have hunlocked : (beforeLearn t₀ x K).estimate.countLocked = false := h.unlocked
    obtain ⟨hevents, haccepts, -⟩ := learn_of_locks hunlocked hlocked
    rw [Nat.add_zero, afterInference, if_pos ⟨hunlocked, hevents⟩, inferCount, if_pos haccepts,
      Nat.zero_mod]
    rfl
  | succ t =>
    obtain ⟨hl, -, hindex⟩ := h.index_eq (t := t) (by omega)
    have hlocked : (beforeLearn t₀ x (K + (t + 1))).estimate.countLocked = true := by
      rw [show K + (t + 1) = K + 1 + t by ring]
      exact hl
    rw [afterInference, if_neg fun hdue => Bool.false_ne_true (hdue.1.symm.trans hlocked),
      show K + (t + 1) = K + 1 + t by ring]
    exact hindex

/-- Every interval is compared with the cell of the next spoke. -/
theorem LocksAt.compares_next (h : LocksAt t₀ x N K n) {t : ℕ} (ht : K + 1 + t ≤ N) :
    capturedFrom K n (comparedCell t₀ x (K + t)) ≡ K + t + 1 [MOD n] := by
  have hcell := h.capturedFrom_add (Nat.mod_lt t h.pos)
  rw [h.comparedCell_eq ht]
  calc capturedFrom K n (t % n)
      ≡ capturedFrom K n (t % n) + n [MOD n] := (Nat.add_modEq_right).symm
    _ = K + 1 + t % n := hcell
    _ ≡ K + 1 + t [MOD n] := (Nat.mod_modEq t n).add_left _
    _ = K + t + 1 := by ring

/-- With sixteen spokes or more the next spoke is not the same one. -/
theorem LocksAt.not_same_spoke (h : LocksAt t₀ x N K n) {t : ℕ} (ht : K + 1 + t ≤ N) :
    ¬ capturedFrom K n (comparedCell t₀ x (K + t)) ≡ K + t [MOD n] := by
  intro hsame
  have hnext : K + t + 1 ≡ K + t [MOD n] := (h.compares_next ht).symm.trans hsame
  have hone : 1 ≡ 0 [MOD n] := Nat.ModEq.add_left_cancel' (K + t) hnext
  have hge : 16 ≤ n := h.learn_eq.1.1.1
  rw [Nat.ModEq, Nat.mod_eq_of_lt (by omega), Nat.zero_mod] at hone
  exact one_ne_zero hone

/-- One later event: only the cell under the index changes. -/
theorem LocksAt.lut_succ (h : LocksAt t₀ x N K n) {t : ℕ} (ht : K + 1 + t < N) (j : ℕ) :
    (wheelRun t₀ x (K + 1 + (t + 1))).lut j
      = if j = (t + 1) % n then
          adaptCell ((wheelRun t₀ x (K + 1 + t)).lut ((t + 1) % n)) (x (K + 1 + t))
        else (wheelRun t₀ x (K + 1 + t)).lut j := by
  obtain ⟨hl, -, hi⟩ := h.index_eq ht.le
  have hshape := (inv_wheelRun h.accepted h.edge ht.le).shape
  have h0 : t₀ ≠ 0 := by simpa using h.edge 0 (Nat.zero_le N)
  rw [wheelRun_eq h0] at hl hi hshape
  obtain ⟨-, -, -, hlut⟩ := timedRun_succ_locked h.accepted h.edge ht hshape hl
  rw [← Nat.add_assoc, wheelRun_eq h0, wheelRun_eq h0, hlut j, hi]

/-- Once every cell is as captured, the published revolution is one period. -/
theorem LocksAt.revolution_eq (h : LocksAt t₀ x N K n) (hper : Periodic x n) {t : ℕ}
    (ht : K + 1 + t ≤ N)
    (hlut : ∀ j < n, (wheelRun t₀ x (K + 1 + t)).lut j = capturedMap t₀ x K n j) :
    (wheelRun t₀ x (K + 1 + t)).estimate.revolutionPeriodUs = ((∑ j ∈ range n, x j : ℕ) : ℚ) := by
  rw [(inv_wheelRun h.accepted h.edge ht).revolution, (h.index_eq ht).2.1,
    ← sum_period hper (K + 1), Nat.cast_sum]
  refine sum_congr rfl fun j hj => ?_
  rw [hlut j (mem_range.mp hj), h.capturedMap_eq hper (mem_range.mp hj)]

/-- A cell that holds its captured value keeps it through the next comparison iff
the interval keeps its successor. -/
theorem LocksAt.adaptCell_iff (h : LocksAt t₀ x N K n) (hper : Periodic x n) (t : ℕ) :
    adaptCell (capturedMap t₀ x K n (t % n)) (x (K + t)) = capturedMap t₀ x K n (t % n)
      ↔ Keeps (x (K + t)) (x (K + t + 1)) := by
  rw [h.compared_cell hper t]
  exact adaptCell_eq_iff (lt_of_lt_of_le (Nat.succ_pos 69) (h.accepted _).1)

/-- A property of neighbouring intervals that holds during one turn from the lock
holds of the whole wheel. -/
theorem keeps_of_turn (hper : Periodic x n) (h0 : 0 < n)
    (hturn : ∀ t < n, Keeps (x (K + t)) (x (K + t + 1))) (i : ℕ) :
    Keeps (x i) (x (i + 1)) := by
  have hall : Periodic (fun i => Keeps (x i) (x (i + 1))) n := by
    intro i
    show Keeps (x (i + n)) (x (i + n + 1)) = _
    rw [hper i, Nat.add_right_comm, hper (i + 1)]
  -- the residue of `i` occurs in that turn
  have hres : (K + (i + K * (n - 1)) % n) % n = i % n := by
    have hmul : K + (i + K * (n - 1)) = i + n * K := by
      obtain ⟨m, rfl⟩ : ∃ m, n = m + 1 := ⟨n - 1, by omega⟩
      rw [Nat.add_sub_cancel]
      ring
    rw [Nat.add_mod_mod, hmul, Nat.add_mul_mod_self_left]
  have heq : Keeps (x (K + (i + K * (n - 1)) % n)) (x (K + (i + K * (n - 1)) % n + 1))
      = Keeps (x i) (x (i + 1)) := by
    rw [← hall.map_mod_nat, hres, hall.map_mod_nat]
  exact heq ▸ hturn ((i + K * (n - 1)) % n) (Nat.mod_lt _ h0)

/-- A table that nothing disturbs keeps every interval's successor. -/
theorem LocksAt.keeps_of_map_kept (h : LocksAt t₀ x N K n) (hN : K + n ≤ N)
    (hper : Periodic x n)
    (hkept : ∀ t, K + 1 + t ≤ N → ∀ j < n,
      (wheelRun t₀ x (K + 1 + t)).lut j = capturedMap t₀ x K n j) :
    ∀ i, Keeps (x i) (x (i + 1)) := by
  have hlt := h.lt
  -- the events `K, …, K + n - 1` compare every cell once
  refine keeps_of_turn hper h.pos fun t ht => (h.adaptCell_iff hper t).mp ?_
  cases t with
  | zero =>
    have hfirst := h.lut_eq 0
    rw [if_pos rfl] at hfirst
    rw [Nat.zero_mod, Nat.add_zero, ← hfirst]
    exact hkept 0 hlt 0 h.pos
  | succ t =>
    have hmod := Nat.mod_lt (t + 1) h.pos
    have hnext := h.lut_succ (t := t) (by omega) ((t + 1) % n)
    rw [if_pos rfl, hkept t (by omega) _ hmod, hkept (t + 1) (by omega) _ hmod] at hnext
    rw [← Nat.add_assoc, Nat.add_right_comm K t 1]
    exact hnext.symm

/-- A wheel whose intervals keep their successors leaves the table as captured. -/
theorem LocksAt.map_kept_of_keeps (h : LocksAt t₀ x N K n) (hper : Periodic x n)
    (hkeeps : ∀ i, Keeps (x i) (x (i + 1))) :
    ∀ t, K + 1 + t ≤ N → ∀ j < n,
      (wheelRun t₀ x (K + 1 + t)).lut j = capturedMap t₀ x K n j
  | 0, _, j, _ => by
    rw [Nat.add_zero, h.lut_eq]
    split
    · -- the locking event itself meets the first cell
      subst j
      have hcell := (h.adaptCell_iff hper 0).mpr (hkeeps _)
      rwa [Nat.zero_mod] at hcell
    · rfl
  | t + 1, ht, j, hj => by
    have ih := h.map_kept_of_keeps hper hkeeps t (by omega)
    rw [h.lut_succ (by omega) j]
    split
    · subst j
      have hcell := (h.adaptCell_iff hper (t + 1)).mpr (hkeeps _)
      rw [ih _ hj]
      rwa [← Nat.add_assoc, Nat.add_right_comm K t 1] at hcell
    · exact ih j hj

/-- From the lock on the table stays as captured, and the published revolution is
the sum of one period, exactly when every interval keeps a cell that holds its
successor. -/
theorem LocksAt.map_kept_iff (h : LocksAt t₀ x N K n) (hN : K + n ≤ N) (hper : Periodic x n) :
    (∀ t, K + 1 + t ≤ N →
      (∀ j < n, (wheelRun t₀ x (K + 1 + t)).lut j = capturedMap t₀ x K n j) ∧
      (wheelRun t₀ x (K + 1 + t)).estimate.revolutionPeriodUs
        = ((∑ j ∈ range n, x j : ℕ) : ℚ)) ↔
    ∀ i, x i = x (i + 1) ∨ max 80 (28 / 100 * (x (i + 1) : ℚ)) < |(x i : ℚ) - x (i + 1)| := by
  constructor
  · intro hkept
    exact h.keeps_of_map_kept hN hper fun t ht => (hkept t ht).1
  · intro hkeeps t ht
    have hlut := h.map_kept_of_keeps hper hkeeps t ht
    exact ⟨hlut, h.revolution_eq hper ht hlut⟩

/-- No wheel, periodic or not, is in phase with the table that has been learned from it: at
the lock and at every later event the interval is compared with the cell of the next spoke,
which is never its own. -/
theorem never_in_phase (hx : Accepted x) (hedge : ∀ k, k ≤ N → edgeAt t₀ x k ≠ 0) (hN : K < N)
    (hunlocked : (wheelRun t₀ x K).estimate.countLocked = false)
    (hlocked : (wheelRun t₀ x (K + 1)).estimate.countLocked = true)
    (hcount : (wheelRun t₀ x (K + 1)).estimate.spokeCount = n) :
    (¬ ∀ t, K + 1 + t ≤ N → InPhase t₀ x K n t) ∧
    ∀ t, K + 1 + t ≤ N →
      capturedFrom K n (comparedCell t₀ x (K + t)) ≡ K + t + 1 [MOD n] ∧
        ¬ capturedFrom K n (comparedCell t₀ x (K + t)) ≡ K + t [MOD n] := by
  have h : LocksAt t₀ x N K n := ⟨hx, hedge, hN, hunlocked, hlocked, hcount⟩
  refine ⟨fun hphase => ?_, fun t ht => ⟨h.compares_next ht, h.not_same_spoke ht⟩⟩
  -- the locking event itself is already out of phase
  exact h.not_same_spoke (t := 0) hN (hphase 0 hN).spoke

end Lock

/-! ## Twenty-five spokes with one wide gap

Two wheels that lock. With a gap far out of the gate the table stays as it was
captured although every comparison is with the wrong cell; with a gap within the gate
it does not.
-/

/-- A wide gap that no shorter candidate fits makes the 192nd interval lock. -/
theorem oneGap_locksAt {w N : ℕ} (hw : 70 ≤ w ∧ w ≤ 15000) (hne : w ≠ 1000)
    (hshort : ∀ m < 25, countMin ≤ m → ¬ Repeats (fun i => oneGap 25 w (191 - i)) m)
    (hlt : 191 < N) (hfit : 15000 * N < 2 ^ 63) : LocksAt 1 (oneGap 25 w) N 191 25 := by
  have hx := oneGap_accepted 25 hw
  have hedge : ∀ k, k ≤ N → edgeAt 1 (oneGap 25 w) k ≠ 0 := oneGap_edge hw hfit
  have hearly : ∀ k, k ≤ 192 → edgeAt 1 (oneGap 25 w) k ≠ 0 :=
    fun k hk => hedge k (hk.trans hlt)
  obtain ⟨hlocked, hcount⟩ := locked_of_period_ge hx hearly le_rfl (by decide)
    (oneGap_periodic 25 w) (fun _ => oneGap_least hne) fun m hge hm => hshort m hm hge
  rw [show 192 = 191 + 1 from rfl] at hlocked hcount
  exact ⟨hx, hedge, hlt, unlocked_early hx hedge hlt.le (by decide), hlocked, hcount⟩

/-- A gap of 5000 microseconds is an outlier of its neighbours: over the two turns after
the lock the table stays as it was captured, out of phase all the same. -/
theorem wide_gap_never_in_phase :
    (∀ t, 191 + 1 + t ≤ 242 → ∀ j < 25, (wheelRun 1 (oneGap 25 5000) (191 + 1 + t)).lut j
      = capturedMap 1 (oneGap 25 5000) 191 25 j) ∧
    (¬ ∀ t, 191 + 1 + t ≤ 242 → InPhase 1 (oneGap 25 5000) 191 25 t) ∧
    ∀ t, 191 + 1 + t ≤ 242 →
      capturedFrom 191 25 (comparedCell 1 (oneGap 25 5000) (191 + t)) ≡ 191 + t + 1 [MOD 25] ∧
        ¬ capturedFrom 191 25 (comparedCell 1 (oneGap 25 5000) (191 + t)) ≡ 191 + t [MOD 25] := by
  have h : LocksAt 1 (oneGap 25 5000) 242 191 25 :=
    oneGap_locksAt (by decide) (by decide) (by decide) (by decide) (by decide)
  have hper := oneGap_periodic 25 5000
  have hkeeps : ∀ i, oneGap 25 5000 i = oneGap 25 5000 (i + 1) ∨
      max 80 (28 / 100 * (oneGap 25 5000 (i + 1) : ℚ))
        < |(oneGap 25 5000 i : ℚ) - oneGap 25 5000 (i + 1)| := by
    intro i
    -- the wide gap is never next to itself
    have hcases : (oneGap 25 5000 i = 1000 ∧ oneGap 25 5000 (i + 1) = 1000) ∨
        (oneGap 25 5000 i = 5000 ∧ oneGap 25 5000 (i + 1) = 1000) ∨
        (oneGap 25 5000 i = 1000 ∧ oneGap 25 5000 (i + 1) = 5000) := by
      unfold oneGap
      split_ifs <;> omega
    rcases hcases with ⟨h1, h2⟩ | ⟨h1, h2⟩ | ⟨h1, h2⟩ <;> rw [h1, h2] <;> norm_num
  exact ⟨fun t ht => ((h.map_kept_iff (by decide) hper).mpr hkeeps t ht).1,
    never_in_phase h.accepted h.edge h.lt h.unlocked h.locked h.count⟩

/-- A gap of 1050 microseconds is within the gate: within one turn after the lock
the table no longer holds what was captured. -/
theorem narrow_gap_lost :
    Accepted (oneGap 25 1050) ∧ (∀ k, k ≤ 216 → edgeAt 1 (oneGap 25 1050) k ≠ 0) ∧
    Periodic (oneGap 25 1050) 25 ∧
    (wheelRun 1 (oneGap 25 1050) 191).estimate.countLocked = false ∧
    (wheelRun 1 (oneGap 25 1050) (191 + 1)).estimate.countLocked = true ∧
    (wheelRun 1 (oneGap 25 1050) (191 + 1)).estimate.spokeCount = 25 ∧
    (¬ ∀ t, 191 + 1 + t ≤ 216 → ∀ j < 25,
      (wheelRun 1 (oneGap 25 1050) (191 + 1 + t)).lut j
        = capturedMap 1 (oneGap 25 1050) 191 25 j) ∧
    ¬ ∀ t, 191 + 1 + t ≤ 216 → InPhase 1 (oneGap 25 1050) 191 25 t := by
  have h : LocksAt 1 (oneGap 25 1050) 216 191 25 :=
    oneGap_locksAt (by decide) (by decide) (by decide) (by decide) (by decide)
  have hper := oneGap_periodic 25 1050
  have hlost : ¬ ∀ t, 191 + 1 + t ≤ 216 → ∀ j < 25,
      (wheelRun 1 (oneGap 25 1050) (191 + 1 + t)).lut j
        = capturedMap 1 (oneGap 25 1050) 191 25 j := by
    intro hkept
    -- the 1000 microseconds before the gap meet its cell
    have hkeeps := h.keeps_of_map_kept le_rfl hper hkept 24
    have h1 : oneGap 25 1050 24 = 1000 := by decide
    have h2 : oneGap 25 1050 (24 + 1) = 1050 := by decide
    rw [Keeps, h1, h2] at hkeeps
    norm_num at hkeeps
  exact ⟨h.accepted, h.edge, hper, h.unlocked, h.locked, h.count, hlost,
    fun hphase => hlost fun t ht => (hphase t ht).map⟩

end SpokeSensor.Pattern
