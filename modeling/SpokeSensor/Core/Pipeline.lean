import SpokeSensor.Core.PatternSpec

/-!
# Detector and pipeline (`ir_spoke_detector.c`, `ir_spoke_pipeline.c`)

A pulse is classified by its width; the estimator sees the start of every pulse that
is neither too short nor too long.

- `Detector.ingest` (`ir_spoke_detector.c:10–22`): the two limits are those that the
  detector was given, and each of the three answers has a counter.
- `Pipeline.init`, `Pipeline.ingest` (`ir_spoke_pipeline.c:3–18`): the detector is
  given the generated macros (5–6), not the limits of the runtime configuration.
- `ingest_cases`, `ingest_locked`: what one pulse can do to the estimator.
-/

namespace SpokeSensor

/-- `ir_spoke_pulse_result_t` -/
inductive PulseResult where
  | rejectShort
  | rejectLong
  | accepted
  deriving DecidableEq, Repr

/-- `ir_spoke_detector_t` -/
structure Detector where
  minimumUs : UInt32
  maximumUs : UInt32
  accepted : UInt32
  rejectedShort : UInt32
  rejectedLong : UInt32
  deriving DecidableEq, Repr

namespace Detector

/-- `ir_spoke_detector_init` -/
def init (minimumUs maximumUs : UInt32) : Detector where
  minimumUs := minimumUs
  maximumUs := maximumUs
  accepted := 0
  rejectedShort := 0
  rejectedLong := 0

/-- `ir_spoke_detector_ingest` (`ir_spoke_detector.c:10–22`): the counters afterwards,
and the answer. -/
def ingest (d : Detector) (durationUs : UInt32) : Detector × PulseResult :=
  if durationUs < d.minimumUs then
    ({ d with rejectedShort := d.rejectedShort + 1 }, .rejectShort)
  else if d.maximumUs < durationUs then
    ({ d with rejectedLong := d.rejectedLong + 1 }, .rejectLong)
  else ({ d with accepted := d.accepted + 1 }, .accepted)

end Detector

/-- `ir_spoke_pipeline_t` -/
structure Pipeline (F : Type) where
  detector : Detector
  pattern : Pattern F

namespace Pipeline

section

set_option linter.unusedSectionVars false

variable {F : Type} [Add F] [Sub F] [Mul F] [Div F] [LT F] [DecidableLT F]
  [LE F] [DecidableLE F] [CFloat F]

/-- `ir_spoke_pipeline_init` -/
def init : Pipeline F where
  detector := .init blockMinUs.toUInt32 blockMaxUs.toUInt32
  pattern := .init

/-- `ir_spoke_pipeline_ingest` (`ir_spoke_pipeline.c:10–18`): an accepted pulse is
passed on, and what the estimator answers is dropped. -/
def ingest (p : Pipeline F) (edgeUs : UInt64) (durationUs : UInt32) : Pipeline F × PulseResult :=
  let r := p.detector.ingest durationUs
  if r.2 = .accepted then
    ({ detector := r.1, pattern := (p.pattern.ingestEdge edgeUs).1 }, r.2)
  else ({ p with detector := r.1 }, r.2)

/-- The pulse adds an interval to the history. -/
def enters (p : Pipeline F) (edgeUs : UInt64) (durationUs : UInt32) : Bool :=
  (p.detector.ingest durationUs).2 == .accepted && (p.pattern.ingestEdge edgeUs).2

/-- A pulse is rejected and the estimator does not see it, or it is accepted and the
estimator sees its start. -/
theorem ingest_cases (p : Pipeline F) (e : UInt64) (d : UInt32) :
    ((p.ingest e d).2 ≠ .accepted ∧ (p.ingest e d).1.pattern = p.pattern ∧
      p.enters e d = false) ∨
    ((p.ingest e d).2 = .accepted ∧ (p.ingest e d).1.pattern = (p.pattern.ingestEdge e).1 ∧
      p.enters e d = (p.pattern.ingestEdge e).2) := by
  unfold ingest enters
  by_cases h : (p.detector.ingest d).2 = .accepted
  · refine .inr ?_
    simp only [h, if_true, beq_self_eq_true, Bool.true_and, and_self]
  · refine .inl ?_
    simp only [h, if_false, ne_eq, not_false_eq_true, true_and]
    rw [beq_eq_false_iff_ne.mpr h, Bool.false_and]

/-- Once the estimator is locked a pulse leaves the estimate as it is, or adds an
interval and updates the table. -/
theorem ingest_locked {p : Pipeline F} (hl : p.pattern.estimate.countLocked = true) (e : UInt64)
    (d : UInt32) :
    (p.enters e d = false ∧ (p.ingest e d).1.pattern.estimate = p.pattern.estimate) ∨
    (p.enters e d = true ∧ (p.ingest e d).2 = .accepted ∧
      (p.ingest e d).1.pattern
        = ((p.pattern.withEdge e).pushInterval (ofRat (p.pattern.intervalTo e))).updateMap
            (ofRat (p.pattern.intervalTo e))) := by
  rcases p.ingest_cases e d with ⟨-, hpattern, henters⟩ | ⟨hacc, hpattern, henters⟩
  · exact .inl ⟨henters, by rw [hpattern]⟩
  -- the estimator may still drop the spacing of an accepted pulse
  rcases Pattern.ingestEdge_locked hl e with heq | heq | ⟨-, -, -, heq⟩ <;>
    rw [heq] at hpattern henters
  · exact .inl ⟨henters, by rw [hpattern]⟩
  · refine .inl ⟨henters, ?_⟩
    rw [hpattern]
    rfl
  · exact .inr ⟨henters, hacc, hpattern⟩

end

end Pipeline

end SpokeSensor
