import SpokeSensor.Core.Binary32
import SpokeSensor.Core.Pipeline

/-!
# Runs of pulses

What becomes of the pulses of a whole run, in the `float` of the target and with the
windows that are compiled in.

- `ingest_accepted_iff`: a pulse is accepted by its width alone, with the limits the
  detector was given (`ir_spoke_detector.c:12–19`).
- `lastEdge_ingestAll`: its spacing is the one to the last accepted pulse, unless a
  timestamp is `0`, which the estimator reads as "no edge yet"
  (`ir_spoke_pattern.c:62–63`).
- `enters_iff`, `enters_iff_spacing`: which spacings enter the history; the second
  evaluates this for a run from `ir_spoke_pipeline_init`.
- `counts_init`: what the two counters come to over a run of accepted pulses.
-/

set_option linter.unusedSectionVars false

namespace SpokeSensor

/-- The arguments of one call of `ir_spoke_pipeline_ingest`. -/
structure Pulse where
  edgeUs : UInt64
  durationUs : UInt32
  deriving DecidableEq, Repr

namespace Pipeline

section

variable {F : Type} [Add F] [Sub F] [Mul F] [Div F] [LT F] [DecidableLT F]
  [LE F] [DecidableLE F] [CFloat F]

/-- A sequence of pulses. -/
def ingestAll (p : Pipeline F) (pulses : List Pulse) : Pipeline F :=
  pulses.foldl (fun p u => (p.ingest u.edgeUs u.durationUs).1) p

@[simp] theorem ingestAll_nil (p : Pipeline F) : p.ingestAll [] = p := rfl

@[simp] theorem ingestAll_cons (p : Pipeline F) (u : Pulse) (us : List Pulse) :
    p.ingestAll (u :: us) = (p.ingest u.edgeUs u.durationUs).1.ingestAll us := rfl

theorem ingestAll_append (p : Pipeline F) (us vs : List Pulse) :
    p.ingestAll (us ++ vs) = (p.ingestAll us).ingestAll vs := List.foldl_append ..

/-! ## Widths

The window of the detector (`ir_spoke_detector.c:10–22`), on widths in microseconds.
-/

/-- The limits of a detector. -/
def limits (p : Pipeline F) : UInt32 × UInt32 := (p.detector.minimumUs, p.detector.maximumUs)

theorem limits_ingest (p : Pipeline F) (e : UInt64) (d : UInt32) :
    (p.ingest e d).1.limits = p.limits := by
  have hdetector : (p.ingest e d).1.detector = (p.detector.ingest d).1 := by
    rw [ingest]
    split <;> rfl
  rw [limits, hdetector, Detector.ingest]
  split_ifs <;> rfl

theorem limits_ingestAll (p : Pipeline F) (us : List Pulse) :
    (p.ingestAll us).limits = p.limits := by
  induction us generalizing p with
  | nil => rfl
  | cons u us ih => rw [ingestAll_cons, ih, limits_ingest]

/-- The width alone decides. -/
theorem ingest_accepted_iff (p : Pipeline F) (e : UInt64) (d : UInt32) :
    (p.ingest e d).2 = .accepted ↔ p.limits.1 ≤ d ∧ d ≤ p.limits.2 := by
  have hresult : (p.ingest e d).2 = (p.detector.ingest d).2 := by
    rw [ingest]
    split <;> rfl
  rw [hresult, Detector.ingest, limits, ← UInt32.not_lt, ← UInt32.not_lt]
  split_ifs with hshort hlong
  · exact iff_of_false (by decide) fun h => h.1 hshort
  · exact iff_of_false (by decide) fun h => h.2 hlong
  · exact iff_of_true rfl ⟨hshort, hlong⟩

/-! ## Spacings

The window of the estimator (`ir_spoke_pattern.c:66`), between consecutive accepted
pulses.
-/

/-- A rejected pulse leaves the last edge, an accepted one sets it. -/
theorem lastEdge_ingest (p : Pipeline F) {e : UInt64} (he : e ≠ 0) (d : UInt32) :
    (p.ingest e d).1.pattern.lastEdgeUs
      = if (p.ingest e d).2 = .accepted then e else p.pattern.lastEdgeUs := by
  rcases p.ingest_cases e d with ⟨hrejected, hpattern, -⟩ | ⟨haccepted, hpattern, -⟩
  · rw [if_neg hrejected, hpattern]
  · rw [if_pos haccepted, hpattern, Pattern.ingestEdge_lastEdgeUs _ he]

/-- Rejected pulses are skipped: the last edge is that of the last accepted pulse. -/
theorem lastEdge_ingestAll {p : Pipeline F} {us : List Pulse} (hus : ∀ u ∈ us, u.edgeUs ≠ 0)
    (hrejected : ∀ u ∈ us, ¬ (p.limits.1 ≤ u.durationUs ∧ u.durationUs ≤ p.limits.2)) :
    (p.ingestAll us).pattern.lastEdgeUs = p.pattern.lastEdgeUs := by
  induction us generalizing p with
  | nil => rfl
  | cons u us ih =>
    have hhead : ¬ (p.ingest u.edgeUs u.durationUs).2 = .accepted := by
      rw [ingest_accepted_iff]
      exact hrejected u (List.mem_cons_self ..)
    rw [ingestAll_cons, ih (fun v hv => hus v (List.mem_cons_of_mem _ hv)),
      p.lastEdge_ingest (hus u (List.mem_cons_self ..)), if_neg hhead]
    intro v hv
    rw [limits_ingest]
    exact hrejected v (List.mem_cons_of_mem _ hv)

/-- The spacing of a pulse enters the history iff the pulse is accepted, there is an
edge to measure from and the estimator finds the spacing in range. -/
theorem enters_iff (p : Pipeline F) {e : UInt64} (he : e ≠ 0) (d : UInt32) :
    p.enters e d = true ↔ (p.limits.1 ≤ d ∧ d ≤ p.limits.2) ∧ p.pattern.lastEdgeUs ≠ 0 ∧
      Pattern.InRange (ofRat (p.pattern.intervalTo e) : F) := by
  rw [← p.ingest_accepted_iff e d]
  rcases p.ingest_cases e d with ⟨hrejected, -, henters⟩ | ⟨haccepted, -, henters⟩ <;> rw [henters]
  · exact iff_of_false Bool.false_ne_true fun h => hrejected h.1
  rcases p.pattern.ingestEdge_cases e with
    ⟨h0, -⟩ | ⟨-, hnone, heq⟩ | ⟨-, -, hout, heq⟩ | ⟨-, hsome, hin, heq⟩
  · exact absurd h0 he
  · rw [heq]
    exact iff_of_false Bool.false_ne_true fun h => h.2.1 hnone
  · rw [heq]
    exact iff_of_false Bool.false_ne_true fun h => hout h.2.2
  · rw [heq]
    exact iff_of_true rfl ⟨haccepted, hsome, hin⟩

/-! ## Counters

The counters of accepted pulses and of accepted intervals, which tell from the outside
what an event has done.
-/

/-- The detector counts the accepted pulses. -/
theorem accepted_ingest (p : Pipeline F) (e : UInt64) (d : UInt32) :
    (p.ingest e d).1.detector.accepted
      = if (p.ingest e d).2 = .accepted then p.detector.accepted + 1 else p.detector.accepted := by
  rw [ingest, Detector.ingest]
  split_ifs <;> first | rfl | contradiction

/-- The estimator counts the intervals that enter the history. -/
theorem acceptedEvents_ingest (p : Pipeline F) (e : UInt64) (d : UInt32) :
    (p.ingest e d).1.pattern.acceptedEvents
      = if p.enters e d then p.pattern.acceptedEvents + 1 else p.pattern.acceptedEvents := by
  rcases p.ingest_cases e d with ⟨-, hpattern, henters⟩ | ⟨-, hpattern, henters⟩ <;>
    rw [hpattern, henters]
  · rfl
  rcases p.pattern.ingestEdge_cases e with
    ⟨-, heq⟩ | ⟨-, -, heq⟩ | ⟨-, -, -, heq⟩ | ⟨-, -, -, heq⟩ <;>
    rw [heq]
  · rfl
  · rfl
  · rfl
  · exact (Pattern.learn_frame ..).2

end

/-! ## The compiled windows

With the generated limits both windows are fixed, whatever the configuration says.
-/

/-- The pulse `u` is reported as accepted after the pulses `before`. -/
def Accepted (p : Pipeline Binary32) (before : List Pulse) (u : Pulse) : Prop :=
  ((p.ingestAll before).ingest u.edgeUs u.durationUs).2 = .accepted

/-- The width window of `ir_spoke_pipeline_init`, whatever came before. -/
theorem accepted_iff (before : List Pulse) (u : Pulse) :
    (init : Pipeline Binary32).Accepted before u ↔
      70 ≤ u.durationUs.toNat ∧ u.durationUs.toNat ≤ 600 := by
  rw [Accepted, ingest_accepted_iff, limits_ingestAll, UInt32.le_iff_toNat_le,
    UInt32.le_iff_toNat_le]
  rfl

/-- The range check of the estimator on a converted spacing. -/
theorem inRange_iff (n : ℕ) :
    Pattern.InRange (ofRat (n : ℚ) : Binary32) ↔ 70 ≤ n ∧ n ≤ 15000 := by
  rw [Pattern.InRange, Binary32.ofRat_lt_natCast (by norm_num),
    Binary32.natCast_lt_ofRat (by norm_num), not_or, not_lt, not_lt]

/-- The spacing window of `ir_spoke_pattern_ingest_edge`, between two consecutive
accepted pulses of any run. The limits are whole numbers that a `float` holds, so the
comparison of the converted spacing is exact. -/
theorem enters_iff_spacing (before mid : List Pulse) {a b : Pulse}
    (hnonzero : ∀ u ∈ before ++ a :: (mid ++ [b]), u.edgeUs ≠ 0)
    (ha : (init : Pipeline Binary32).Accepted before a)
    (hb : (init : Pipeline Binary32).Accepted (before ++ a :: mid) b)
    (hmid : ∀ u ∈ mid, ¬ (70 ≤ u.durationUs.toNat ∧ u.durationUs.toNat ≤ 600)) :
    ((init : Pipeline Binary32).ingestAll (before ++ a :: mid)).enters b.edgeUs b.durationUs
        = true ↔
      70 ≤ (b.edgeUs - a.edgeUs).toNat ∧ (b.edgeUs - a.edgeUs).toNat ≤ 15000 := by
  have hedge : ∀ u ∈ a :: (mid ++ [b]), u.edgeUs ≠ 0 := fun u hu =>
    hnonzero u (List.mem_append_right _ hu)
  have hlast : ((init : Pipeline Binary32).ingestAll (before ++ a :: mid)).pattern.lastEdgeUs
      = a.edgeUs := by
    rw [ingestAll_append, ingestAll_cons, lastEdge_ingestAll, lastEdge_ingest]
    · exact if_pos ha
    · exact hedge a (List.mem_cons_self ..)
    · exact fun u hu => hedge u (by simp [hu])
    · intro u hu
      rw [limits_ingest, limits_ingestAll, UInt32.le_iff_toNat_le, UInt32.le_iff_toNat_le]
      exact hmid u hu
  rw [enters_iff _ (hedge b (by simp)), Pattern.intervalTo, hlast, inRange_iff]
  constructor
  · exact fun h => h.2.2
  · intro h
    refine ⟨?_, hedge a (List.mem_cons_self ..), h⟩
    rwa [Accepted, ingest_accepted_iff] at hb

/-- The spacings of successive pulses, the first one from the edge `last`. -/
def gaps (last : UInt64) : List Pulse → List ℕ
  | [] => []
  | u :: us => (u.edgeUs - last).toNat :: gaps u.edgeUs us

theorem length_gaps (last : UInt64) (us : List Pulse) : (gaps last us).length = us.length := by
  induction us generalizing last with
  | nil => rfl
  | cons u us ih => rw [gaps, List.length_cons, List.length_cons, ih]

/-- A spacing that the estimator keeps. -/
def keeps (gap : ℕ) : Bool := 70 ≤ gap && gap ≤ 15000

/-- After an edge, a run of accepted pulses counts all of them in the detector and the
spacings in range in the estimator. -/
theorem counts_ingestAll (us : List Pulse) {p : Pipeline Binary32}
    (hlast : p.pattern.lastEdgeUs ≠ 0) (hus : ∀ u ∈ us, u.edgeUs ≠ 0)
    (hwidth : ∀ u ∈ us, p.limits.1 ≤ u.durationUs ∧ u.durationUs ≤ p.limits.2) :
    (p.ingestAll us).detector.accepted = p.detector.accepted + UInt32.ofNat us.length ∧
      (p.ingestAll us).pattern.acceptedEvents = p.pattern.acceptedEvents
        + UInt32.ofNat ((gaps p.pattern.lastEdgeUs us).countP keeps) := by
  induction us generalizing p with
  | nil => exact ⟨(UInt32.add_zero _).symm, (UInt32.add_zero _).symm⟩
  | cons u us ih =>
    have hu := hus u (List.mem_cons_self ..)
    have haccepted : (p.ingest u.edgeUs u.durationUs).2 = .accepted :=
      (p.ingest_accepted_iff ..).mpr (hwidth u (List.mem_cons_self ..))
    have hnext : (p.ingest u.edgeUs u.durationUs).1.pattern.lastEdgeUs = u.edgeUs :=
      (p.lastEdge_ingest hu _).trans (if_pos haccepted)
    have henters : p.enters u.edgeUs u.durationUs
        = keeps (u.edgeUs - p.pattern.lastEdgeUs).toNat := by
      rw [Bool.eq_iff_iff, p.enters_iff hu, Pattern.intervalTo, inRange_iff, keeps,
        Bool.and_eq_true, decide_eq_true_iff, decide_eq_true_iff]
      exact ⟨fun h => h.2.2, fun h => ⟨hwidth u (List.mem_cons_self ..), hlast, h⟩⟩
    obtain ⟨hpulses, hevents⟩ := ih (p := (p.ingest u.edgeUs u.durationUs).1) (hnext.trans_ne hu)
      (fun v hv => hus v (List.mem_cons_of_mem _ hv))
      (fun v hv => (p.limits_ingest ..).symm ▸ hwidth v (List.mem_cons_of_mem _ hv))
    rw [accepted_ingest, if_pos haccepted] at hpulses
    rw [acceptedEvents_ingest, hnext, henters] at hevents
    rw [ingestAll_cons, hpulses, hevents, gaps, List.countP_cons, List.length_cons]
    constructor
    · rw [UInt32.ofNat_add, UInt32.add_assoc, UInt32.add_comm (UInt32.ofNat _)]
      rfl
    · cases keeps (u.edgeUs - p.pattern.lastEdgeUs).toNat with
      | false => rfl
      | true =>
        rw [if_pos rfl, if_pos rfl, UInt32.ofNat_add, UInt32.add_assoc,
          UInt32.add_comm (UInt32.ofNat _)]
        rfl

/-- A run of accepted pulses from `ir_spoke_pipeline_init`: the first pulse has no
spacing. -/
theorem counts_init {u : Pulse} {us : List Pulse} (hus : ∀ v ∈ u :: us, v.edgeUs ≠ 0)
    (hwidth : ∀ v ∈ u :: us, 70 ≤ v.durationUs.toNat ∧ v.durationUs.toNat ≤ 600) :
    ((init : Pipeline Binary32).ingestAll (u :: us)).detector.accepted
        = UInt32.ofNat (us.length + 1) ∧
      ((init : Pipeline Binary32).ingestAll (u :: us)).pattern.acceptedEvents
        = UInt32.ofNat ((gaps u.edgeUs us).countP keeps) := by
  have hu := hus u (List.mem_cons_self ..)
  have hall : ∀ v ∈ u :: us, (init : Pipeline Binary32).limits.1 ≤ v.durationUs ∧
      v.durationUs ≤ (init : Pipeline Binary32).limits.2 := by
    intro v hv
    rw [UInt32.le_iff_toNat_le, UInt32.le_iff_toNat_le]
    exact hwidth v hv
  have haccepted : ((init : Pipeline Binary32).ingest u.edgeUs u.durationUs).2 = .accepted :=
    (ingest_accepted_iff ..).mpr (hall u (List.mem_cons_self ..))
  have hnext : ((init : Pipeline Binary32).ingest u.edgeUs u.durationUs).1.pattern.lastEdgeUs
      = u.edgeUs := (lastEdge_ingest _ hu _).trans (if_pos haccepted)
  have hfirst : (init : Pipeline Binary32).enters u.edgeUs u.durationUs = false := by
    rw [Bool.eq_false_iff, ne_eq, enters_iff _ hu]
    exact fun h => h.2.1 rfl
  obtain ⟨hpulses, hevents⟩ := counts_ingestAll us
    (p := ((init : Pipeline Binary32).ingest u.edgeUs u.durationUs).1) (hnext.trans_ne hu)
    (fun v hv => hus v (List.mem_cons_of_mem _ hv))
    (fun v hv => ((init : Pipeline Binary32).limits_ingest ..).symm ▸
      hall v (List.mem_cons_of_mem _ hv))
  rw [accepted_ingest, if_pos haccepted] at hpulses
  rw [acceptedEvents_ingest, hnext, hfirst, if_neg Bool.false_ne_true] at hevents
  rw [ingestAll_cons, hpulses, hevents, UInt32.ofNat_add, UInt32.add_comm (UInt32.ofNat _)]
  exact ⟨rfl, UInt32.zero_add _⟩

end Pipeline

end SpokeSensor
