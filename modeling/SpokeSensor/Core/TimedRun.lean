import SpokeSensor.Core.Invariant

/-!
# Runs given by their intervals

A wheel is described by its intervals `x 0, x 1, …` rather than by timestamps.

- `edgeAt t₀ x k`: the timestamp after the first `k` of them, counted on from `t₀` in
  64 bits.
- `timedRun p x k`: the state after `p` was fed the first `k`; `wheelRun` starts from
  `init`, and `beforeLearn` is the state that an interval has entered and nothing has
  been made of (`ir_spoke_pattern.c:68–71`).
- `timedRun_succ`: when every interval is within the accepted range and no timestamp
  hits the reserved value `0`, each of them is accepted.
- `Inv.back_latest`: the ring then holds the latest ones.
-/

namespace SpokeSensor.Pattern

open Finset

/-- The timestamp of the edge that ends the interval `x (k - 1)`. -/
def edgeAt (t₀ : UInt64) (x : ℕ → ℕ) (k : ℕ) : UInt64 :=
  t₀ + UInt64.ofNat (∑ i ∈ range k, x i)

/-- The state `p` after `k` further edges, spaced `x 0, x 1, …` from its last one. -/
def timedRun (p : Pattern ℚ) (x : ℕ → ℕ) (k : ℕ) : Pattern ℚ :=
  p.ingestAll ((List.range k).map fun i => edgeAt p.lastEdgeUs x (i + 1))

/-- The state after a wheel's first `k + 1` edges, from a fresh estimator: the
first edge is at `t₀`, the others follow at the spacings `x 0, …, x (k - 1)`. -/
def wheelRun (t₀ : UInt64) (x : ℕ → ℕ) (k : ℕ) : Pattern ℚ :=
  init.ingestAll ((List.range (k + 1)).map (edgeAt t₀ x))

/-- The first `k` intervals, latest first. -/
def latest (x : ℕ → ℕ) (k : ℕ) : List ℕ :=
  ((List.range k).map x).reverse

/-- The intervals are within the accepted range. -/
def Accepted (x : ℕ → ℕ) : Prop :=
  ∀ i, 70 ≤ x i ∧ x i ≤ 15000

@[simp] theorem edgeAt_zero (t₀ : UInt64) (x : ℕ → ℕ) : edgeAt t₀ x 0 = t₀ := by
  simp [edgeAt]

theorem edgeAt_succ (t₀ : UInt64) (x : ℕ → ℕ) (k : ℕ) :
    edgeAt t₀ x (k + 1) = edgeAt t₀ x k + UInt64.ofNat (x k) := by
  rw [edgeAt, edgeAt, sum_range_succ, UInt64.ofNat_add, UInt64.add_assoc]

theorem latest_length (x : ℕ → ℕ) (k : ℕ) : (latest x k).length = k := by
  simp [latest]

theorem latest_succ (x : ℕ → ℕ) (k : ℕ) : latest x (k + 1) = x k :: latest x k := by
  simp [latest, List.range_succ]

theorem latest_getElem? (x : ℕ → ℕ) {k i : ℕ} (hi : i < k) :
    (latest x k)[i]? = some (x (k - 1 - i)) := by
  induction k generalizing i with
  | zero => exact absurd hi (Nat.not_lt_zero i)
  | succ k ih =>
    rw [latest_succ]
    cases i with
    | zero => simp
    | succ i =>
      rw [List.getElem?_cons_succ, ih (by omega)]
      congr 2
      omega

theorem timedRun_zero (p : Pattern ℚ) (x : ℕ → ℕ) : p.timedRun x 0 = p := rfl

theorem timedRun_ingest (p : Pattern ℚ) (x : ℕ → ℕ) (k : ℕ) :
    p.timedRun x (k + 1)
      = ((p.timedRun x k).ingestEdge (edgeAt p.lastEdgeUs x (k + 1))).1 := by
  rw [timedRun, List.range_succ, List.map_append, ingestAll_append]
  rfl

/-- The first edge only sets the clock. -/
theorem wheelRun_eq {t₀ : UInt64} (h0 : t₀ ≠ 0) (x : ℕ → ℕ) (k : ℕ) :
    wheelRun t₀ x k = (init.withEdge t₀).timedRun x k := by
  have hfirst : ((init : Pattern ℚ).ingestEdge t₀).1 = init.withEdge t₀ := by
    rw [Pattern.ingestEdge, if_neg h0]
    rfl
  rw [wheelRun, List.range_succ_eq_map, List.map_cons, List.map_map, edgeAt_zero, ingestAll_cons,
    hfirst]
  rfl

/-- A wheel's next edge is one more call. -/
theorem wheelRun_ingest (t₀ : UInt64) (x : ℕ → ℕ) (k : ℕ) :
    wheelRun t₀ x (k + 1) = ((wheelRun t₀ x k).ingestEdge (edgeAt t₀ x (k + 1))).1 := by
  rw [wheelRun, List.range_succ, List.map_append, ingestAll_append]
  rfl

/-! ## Every interval of an accepted run arrives

With timestamps that are not zero and intervals within the limits no edge is dropped,
so the ring holds the latest of them.
-/

section Run

variable {p : Pattern ℚ} {x : ℕ → ℕ} {n : ℕ}

/-- The last edge of a run is where the intervals say. -/
theorem lastEdge_timedRun (hedge : ∀ k, k ≤ n → edgeAt p.lastEdgeUs x k ≠ 0) :
    ∀ {k : ℕ}, k ≤ n → (p.timedRun x k).lastEdgeUs = edgeAt p.lastEdgeUs x k
  | 0, _ => by rw [timedRun_zero, edgeAt_zero]
  | k + 1, hk => by
    rw [timedRun_ingest]
    exact ingestEdge_lastEdgeUs _ (hedge (k + 1) hk)

/-- The interval measured at each step is the next one. -/
theorem intervalTo_timedRun (hx : Accepted x)
    (hedge : ∀ k, k ≤ n → edgeAt p.lastEdgeUs x k ≠ 0) {k : ℕ} (hk : k < n) :
    (p.timedRun x k).intervalTo (edgeAt p.lastEdgeUs x (k + 1)) = x k := by
  have hlt : x k < UInt64.size := lt_of_le_of_lt (hx k).2 (by decide)
  rw [intervalTo, lastEdge_timedRun hedge hk.le, edgeAt_succ, UInt64.add_comm,
    UInt64.add_sub_cancel, UInt64.toNat_ofNat_of_lt' hlt]

/-- One step of an accepted run: the interval enters the ring and is learned. -/
theorem timedRun_succ (hx : Accepted x)
    (hedge : ∀ k, k ≤ n → edgeAt p.lastEdgeUs x k ≠ 0) {k : ℕ} (hk : k < n) :
    p.timedRun x (k + 1)
      = (((p.timedRun x k).withEdge (edgeAt p.lastEdgeUs x (k + 1))).pushInterval
          (ofRat (x k))).learn (ofRat (x k)) := by
  have hint := intervalTo_timedRun hx hedge hk
  rw [timedRun_ingest]
  rcases ingestEdge_cases (p.timedRun x k) (edgeAt p.lastEdgeUs x (k + 1)) with
    ⟨h0, -⟩ | ⟨-, h0, -⟩ | ⟨-, -, hr, -⟩ | ⟨-, -, -, heq⟩
  · exact absurd h0 (hedge _ hk)
  · rw [lastEdge_timedRun hedge hk.le] at h0
    exact absurd h0 (hedge _ hk.le)
  · rw [hint] at hr
    exact absurd ((inRange_iff _).mpr (hx k)) hr
  · rw [heq, hint]

theorem inv_timedRun {xs : List ℕ} (h : Inv p xs) (hx : Accepted x)
    (hedge : ∀ k, k ≤ n → edgeAt p.lastEdgeUs x k ≠ 0) :
    ∀ {k : ℕ}, k ≤ n → Inv (p.timedRun x k) (latest x k ++ xs)
  | 0, _ => h
  | k + 1, hk => by
    have hinv := inv_timedRun h hx hedge (Nat.le_of_succ_le hk)
    rw [timedRun_succ hx hedge hk, latest_succ, List.cons_append]
    exact ((hinv.withEdge (hedge _ hk)).pushInterval (hedge _ hk) (hx k)).learn (hx k)

/-- One step of a locked run: the cell under the index adapts, the index moves on. -/
theorem timedRun_succ_locked (hx : Accepted x)
    (hedge : ∀ k, k ≤ n → edgeAt p.lastEdgeUs x k ≠ 0) {k : ℕ} (hk : k < n)
    (hshape : (p.timedRun x k).Shape) (hl : (p.timedRun x k).estimate.countLocked = true) :
    (p.timedRun x (k + 1)).estimate.countLocked = true ∧
      (p.timedRun x (k + 1)).estimate.spokeCount = (p.timedRun x k).estimate.spokeCount ∧
      (p.timedRun x (k + 1)).spokeIndex
        = ((p.timedRun x k).spokeIndex + 1) % (p.timedRun x k).estimate.spokeCount ∧
      ∀ j, (p.timedRun x (k + 1)).lut j
        = if j = (p.timedRun x k).spokeIndex then
            adaptCell ((p.timedRun x k).lut (p.timedRun x k).spokeIndex) (x k)
          else (p.timedRun x k).lut j := by
  rw [timedRun_succ hx hedge hk, learn_locked (by exact hl)]
  exact ⟨hl, rfl, rfl, updateMap_lut _ _ (hshape.index_lt_max hl)⟩

end Run

/-! ## Runs of a wheel from a fresh estimator

The same from the first edge on, with the number of the edge as the only parameter.
-/

section Wheel

variable {t₀ : UInt64} {x : ℕ → ℕ} {n : ℕ}

theorem inv_wheelRun (hx : Accepted x) (hedge : ∀ k, k ≤ n → edgeAt t₀ x k ≠ 0) {k : ℕ}
    (hk : k ≤ n) : Inv (wheelRun t₀ x k) (latest x k) := by
  have h0 : t₀ ≠ 0 := by simpa using hedge 0 (Nat.zero_le n)
  have := inv_timedRun (Inv.init.withEdge h0) hx hedge hk
  rwa [List.append_nil, ← wheelRun_eq h0] at this

theorem wheelRun_succ (hx : Accepted x) (hedge : ∀ k, k ≤ n → edgeAt t₀ x k ≠ 0) {k : ℕ}
    (hk : k < n) :
    wheelRun t₀ x (k + 1)
      = (((wheelRun t₀ x k).withEdge (edgeAt t₀ x (k + 1))).pushInterval
          (ofRat (x k))).learn (ofRat (x k)) := by
  have h0 : t₀ ≠ 0 := by simpa using hedge 0 (Nat.zero_le n)
  rw [wheelRun_eq h0, wheelRun_eq h0]
  exact timedRun_succ hx hedge hk

/-- What inference reads just before it may lock: the interval has been written,
nothing has been learned from it. -/
def beforeLearn (t₀ : UInt64) (x : ℕ → ℕ) (k : ℕ) : Pattern ℚ :=
  ((wheelRun t₀ x k).withEdge (edgeAt t₀ x (k + 1))).pushInterval (ofRat (x k))

theorem inv_beforeLearn (hx : Accepted x) (hedge : ∀ k, k ≤ n → edgeAt t₀ x k ≠ 0) {k : ℕ}
    (hk : k < n) : Inv (beforeLearn t₀ x k) (latest x (k + 1)) := by
  rw [latest_succ]
  exact ((inv_wheelRun hx hedge hk.le).withEdge (hedge _ hk)).pushInterval (hedge _ hk) (hx k)

/-- The ring holds the latest intervals. -/
theorem Inv.back_latest {p : Pattern ℚ} {k i : ℕ} (h : Inv p (latest x k)) (hi : i < k)
    (hi' : i < historyCapacity) : p.back i = (x (k - 1 - i) : ℚ) := by
  have hsize := h.historySize_eq
  rw [latest_length] at hsize
  obtain ⟨y, hy, heq⟩ := h.back_eq (k := i) (by omega)
  rw [latest_getElem? x hi, Option.some.injEq] at hy
  rw [heq, ← hy]

/-- The ring before learning from `x k`: `back i` is `x (k - i)`. -/
theorem back_beforeLearn (hx : Accepted x) (hedge : ∀ k, k ≤ n → edgeAt t₀ x k ≠ 0) {k i : ℕ}
    (hk : k < n) (hi : i ≤ k) (hi' : i < historyCapacity) :
    (beforeLearn t₀ x k).back i = (x (k - i) : ℚ) :=
  (inv_beforeLearn hx hedge hk).back_latest (Nat.lt_succ_of_le hi) hi'

end Wheel

end SpokeSensor.Pattern
