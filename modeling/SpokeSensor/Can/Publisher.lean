import SpokeSensor.Core.Invariant
import SpokeSensor.Lib.LittleEndian

/-!
# CAN telemetry (`ir_spoke_can.c`)

The publisher encodes an estimate in one frame and hands it to the transport. The call
of the transport is part of the outcome, its result is an input.

- `publishEstimate` (`ir_spoke_can.c:23–54`): three early returns, the frame, and the
  counter of the frames that were taken (52). A conversion from `float` is defined
  only within the range of its target (`toUInt16`); the function answers `none` where
  the source would make any other.
- `wheelMillihz`, `saturatedDuration`, `confidencePermille` (31–37): the three fields
  that have to be clamped.
- `decodeTelemetry`: a collector that reads the payload.
- `frame_encodes`: it reads the estimate of every reachable state, saturated where a
  field is too narrow.
- `run_reports`, `publishAll_sequence`, `telemetry_faithful`: every call of every
  sequence is defined, sends what it should, and counts its successful sends modulo
  `2^16`.
-/

namespace SpokeSensor

/-- `ir_spoke_can_frame_t` -/
structure CanFrame where
  identifier : UInt32
  length : UInt8
  data : Vector UInt8 8
  deriving DecidableEq

/-- `ir_spoke_can_publisher_t`, with whether `transport.send` is set. -/
structure CanPublisher where
  transportSend : Bool
  baseIdentifier : UInt16
  sequence : UInt16
  enabled : Bool
  deriving DecidableEq, Repr

/-- What one call returns, leaves behind and hands to `transport.send`. -/
structure PublishOutcome where
  result : ℤ
  publisher : Option CanPublisher
  sent : Option CanFrame

namespace CanPublisher

/-- `ir_spoke_can_publisher_init` (11–21) -/
def init (transportSend : Bool) (baseIdentifier : UInt16) (enabled : Bool) : CanPublisher where
  transportSend := transportSend
  baseIdentifier := baseIdentifier
  sequence := 0
  enabled := enabled

/-- `(uint16_t)x`: the fraction is dropped, and what is left must fit. -/
def toUInt16 (x : ℚ) : Option UInt16 :=
  if -1 < x ∧ x < 65536 then some (UInt16.ofNat ⌊x⌋₊) else none

/-- `put_u16_le` (6–9) at the byte `i` -/
def putU16Le (target : Vector UInt8 8) (i : ℕ) (value : UInt16) : Vector UInt8 8 :=
  (target.setIfInBounds i value.toUInt8).setIfInBounds (i + 1) (value >>> 8).toUInt8

/-- `wheel_millihz` (31–33): the frequency in thousandths of a hertz, clamped to what
sixteen bits hold. -/
def wheelMillihz (estimate : Estimate ℚ) : Option UInt16 :=
  toUInt16 (fminf (fmaxf (estimate.wheelHz * ofRat 1000) (ofRat 0)) (ofRat 65535))

/-- `duration` (34–35) -/
def saturatedDuration (blockageDurationUs : UInt32) : UInt16 :=
  (if blockageDurationUs > 65535 then 65535 else blockageDurationUs).toUInt16

/-- `confidence_permille` (36–37) -/
def confidencePermille (estimate : Estimate ℚ) : Option UInt16 :=
  toUInt16 (fminf (fmaxf (estimate.confidence * ofRat 1000) (ofRat 0)) (ofRat 1000))

/-- The frame of an estimate (39–50): two counts and three fields, lowest byte first. -/
def frame (p : CanPublisher) (estimate : Estimate ℚ) (blockageDurationUs : UInt32) :
    Option CanFrame := do
  let millihz ← wheelMillihz estimate
  let permille ← confidencePermille estimate
  let data : Vector UInt8 8 :=
    #v[UInt8.ofNat estimate.spokeCount, UInt8.ofNat estimate.currentSpoke, 0, 0, 0, 0, 0, 0]
  return {
    identifier := p.baseIdentifier.toUInt32
    length := 8
    data := putU16Le (putU16Le (putU16Le data 2 millihz) 4 (saturatedDuration blockageDurationUs))
      6 permille }

/-- `ir_spoke_can_publish_estimate` (23–54); a null pointer is `none`. The answer of
the transport is returned, and only `0` moves the sequence on. -/
def publishEstimate (p : Option CanPublisher) (estimate : Option (Estimate ℚ))
    (blockageDurationUs : UInt32) (send : CanFrame → ℤ) : Option PublishOutcome :=
  match p, estimate with
  | some q, some estimate =>
    if q.enabled = false then some { result := 0, publisher := p, sent := none }
    else if q.transportSend = false then some { result := -2, publisher := p, sent := none }
    else do
      let frame ← q.frame estimate blockageDurationUs
      let result := send frame
      return {
        result := result
        publisher := some (if result = 0 then { q with sequence := q.sequence + 1 } else q)
        sent := some frame }
  | _, _ => some { result := -1, publisher := p, sent := none }

end CanPublisher

/-! ## Decoding

What a listener makes of eight bytes: the fields of `ir_spoke_can.c:39–50`, in the
same order and byte order.
-/

/-- The fields of the payload, as the interface documents them. -/
structure Telemetry where
  spokeCount : ℕ
  currentSpoke : ℕ
  wheelMillihz : ℕ
  durationUs : ℕ
  confidencePermille : ℕ
  deriving DecidableEq, Repr

/-- Two single bytes and three little-endian fields. -/
def decodeTelemetry (data : Vector UInt8 8) : Telemetry where
  spokeCount := data[0].toNat
  currentSpoke := data[1].toNat
  wheelMillihz := LittleEndian.value [data[2], data[3]]
  durationUs := LittleEndian.value [data[4], data[5]]
  confidencePermille := LittleEndian.value [data[6], data[7]]

namespace CanPublisher

/-- The two bytes that are written denote the value. -/
theorem value_uint16 (v : UInt16) :
    LittleEndian.value [v.toUInt8, (v >>> 8).toUInt8] = v.toNat := by
  have hlt := v.toNat_lt
  have hhigh : (v >>> 8).toUInt8.toNat = v.toNat / 256 % 256 := by
    rw [UInt16.toNat_toUInt8, UInt16.toNat_shiftRight, Nat.shiftRight_eq_div_pow]
    rfl
  rw [LittleEndian.value_cons, LittleEndian.value_cons, LittleEndian.value_nil, hhigh,
    UInt16.toNat_toUInt8]
  omega

/-- The payload that `frame` assembles, decoded. -/
theorem decode_putU16Le (count spoke : UInt8) (millihz duration permille : UInt16) :
    decodeTelemetry (putU16Le (putU16Le (putU16Le #v[count, spoke, 0, 0, 0, 0, 0, 0] 2 millihz) 4
        duration) 6 permille)
      = { spokeCount := count.toNat, currentSpoke := spoke.toNat, wheelMillihz := millihz.toNat,
          durationUs := duration.toNat, confidencePermille := permille.toNat } := by
  rw [← value_uint16 millihz, ← value_uint16 duration, ← value_uint16 permille]
  simp [decodeTelemetry, putU16Le]

theorem toUInt16_eq {x : ℚ} (h0 : 0 ≤ x) (h : x ≤ 65535) :
    ∃ v : UInt16, toUInt16 x = some v ∧ v.toNat = ⌊x⌋₊ := by
  refine ⟨UInt16.ofNat ⌊x⌋₊, if_pos ⟨by linarith, by linarith⟩, ?_⟩
  have hle : ⌊x⌋₊ ≤ 65535 := Nat.floor_le_of_le (by exact_mod_cast h)
  exact UInt16.toNat_ofNat_of_lt' (lt_of_le_of_lt hle (by decide))

theorem floor_clamp (x : ℚ) (hi : ℕ) : ⌊min (max x 0) (hi : ℚ)⌋₊ = min ⌊x⌋₊ hi := by
  rcases le_total x 0 with hneg | hpos
  · rw [max_eq_right hneg, min_eq_left (Nat.cast_nonneg hi), Nat.floor_zero,
      Nat.floor_of_nonpos hneg, Nat.zero_min]
  · rw [max_eq_left hpos]
    rcases le_total x hi with hle | hge
    · rw [min_eq_left hle, min_eq_left (Nat.floor_le_of_le hle)]
    · rw [min_eq_right hge, Nat.floor_natCast, min_eq_right (Nat.le_floor hge)]

/-- A clamped value fits, whatever the argument. -/
theorem toUInt16_clamp (x : ℚ) (hi : ℕ) (hhi : hi ≤ 65535) :
    ∃ v : UInt16, toUInt16 (min (max x 0) hi) = some v ∧ v.toNat = min ⌊x⌋₊ hi := by
  have hcast : (hi : ℚ) ≤ 65535 := by exact_mod_cast hhi
  obtain ⟨v, hv, hnat⟩ := toUInt16_eq (x := min (max x 0) hi)
    (le_min (le_max_right _ _) (Nat.cast_nonneg _)) ((min_le_right _ _).trans hcast)
  exact ⟨v, hv, hnat.trans (floor_clamp x hi)⟩

theorem wheelMillihz_eq (e : Estimate ℚ) :
    ∃ v, wheelMillihz e = some v ∧ v.toNat = min ⌊e.wheelHz * 1000⌋₊ 65535 := by
  simpa [wheelMillihz] using toUInt16_clamp (e.wheelHz * 1000) 65535 le_rfl

theorem confidencePermille_eq (e : Estimate ℚ) :
    ∃ v, confidencePermille e = some v ∧ v.toNat = min ⌊e.confidence * 1000⌋₊ 1000 := by
  simpa [confidencePermille] using toUInt16_clamp (e.confidence * 1000) 1000 (by decide)

theorem saturatedDuration_toNat (d : UInt32) : (saturatedDuration d).toNat = min d.toNat 65535 := by
  rw [saturatedDuration]
  by_cases h : d > 65535
  · have hge : 65535 < d.toNat := UInt32.lt_iff_toNat_lt.mp h
    rw [if_pos h, min_eq_right hge.le]
    rfl
  · have hle : d.toNat ≤ 65535 := UInt32.le_iff_toNat_le.mp (UInt32.not_lt.mp h)
    rw [if_neg h, min_eq_left hle, UInt32.toNat_toUInt16]
    exact Nat.mod_eq_of_lt (lt_of_le_of_lt hle (by decide))

/-! ## What is transmitted

One call of `ir_spoke_can_publish_estimate`: its early returns, and what the frame
says of the estimate. A value that is too large for its field is sent as the largest
one.
-/

/-- The telemetry of an estimate: exact where the field is wide enough, saturated
where it is not, and rounded down to thousandths. -/
structure Encodes (e : Estimate ℚ) (durationUs : UInt32) (t : Telemetry) : Prop where
  spokeCount : t.spokeCount = e.spokeCount
  currentSpoke : t.currentSpoke = e.currentSpoke
  current_lt : e.countLocked = true → t.currentSpoke < t.spokeCount
  wheelMillihz : (t.wheelMillihz : ℤ) = min ⌊1000 * e.wheelHz⌋ 65535
  durationUs : t.durationUs = min durationUs.toNat 65535
  confidencePermille : (t.confidencePermille : ℤ) = ⌊1000 * e.confidence⌋
  confidence_le : t.confidencePermille ≤ 1000

/-- No reachable state publishes a negative frequency. -/
theorem wheelHz_nonneg {s : Pattern ℚ} {xs : List ℕ} (h : s.Inv xs) : 0 ≤ s.estimate.wheelHz := by
  rw [h.wheelHz]
  split
  · exact div_nonneg (by norm_num) (le_of_lt ‹_›)
  · exact le_rfl

theorem current_lt_max {s : Pattern ℚ} {xs : List ℕ} (h : s.Inv xs) :
    s.estimate.currentSpoke < countMax := by
  rw [h.shape.current_eq]
  by_cases hl : s.estimate.countLocked = true
  · exact h.shape.index_lt_max hl
  · rw [(h.shape.unlocked (by simpa using hl)).2.1]
    decide

/-- The frame of every reachable estimate. -/
theorem frame_encodes {s : Pattern ℚ} {xs : List ℕ} (h : s.Inv xs) (p : CanPublisher)
    (d : UInt32) :
    ∃ f, p.frame s.estimate d = some f ∧ f.identifier = p.baseIdentifier.toUInt32 ∧
      f.length = 8 ∧ Encodes s.estimate d (decodeTelemetry f.data) := by
  obtain ⟨millihz, hmillihz, hwheel⟩ := wheelMillihz_eq s.estimate
  obtain ⟨permille, hpermille, hconf⟩ := confidencePermille_eq s.estimate
  refine ⟨_, by rw [frame, hmillihz, hpermille]; rfl, rfl, rfl, ?_⟩
  have hcount : (UInt8.ofNat s.estimate.spokeCount).toNat = s.estimate.spokeCount :=
    UInt8.toNat_ofNat_of_lt' (lt_of_le_of_lt h.shape.count_le (by decide))
  have hspoke : (UInt8.ofNat s.estimate.currentSpoke).toNat = s.estimate.currentSpoke :=
    UInt8.toNat_ofNat_of_lt' (lt_trans (current_lt_max h) (by decide))
  obtain ⟨hconf0, hconf1⟩ := h.confidence
  have hpermille_le : ⌊s.estimate.confidence * 1000⌋₊ ≤ 1000 :=
    Nat.floor_le_of_le (by push_cast; linarith)
  rw [decode_putU16Le]
  exact {
    spokeCount := hcount
    currentSpoke := hspoke
    current_lt := fun hl => by
      show (UInt8.ofNat s.estimate.currentSpoke).toNat < (UInt8.ofNat s.estimate.spokeCount).toNat
      rw [hcount, hspoke, h.shape.current_eq]
      exact h.shape.index_lt hl
    wheelMillihz := by
      show (millihz.toNat : ℤ) = _
      rw [hwheel, mul_comm, Nat.cast_min, Int.natCast_floor_eq_floor
        (mul_nonneg (by norm_num) (wheelHz_nonneg h))]
      rfl
    durationUs := saturatedDuration_toNat d
    confidencePermille := by
      show (permille.toNat : ℤ) = _
      rw [hconf, min_eq_left hpermille_le, mul_comm, Int.natCast_floor_eq_floor
        (mul_nonneg (by norm_num) hconf0)]
    confidence_le := by
      show permille.toNat ≤ 1000
      rw [hconf]
      exact min_le_right _ _ }

end CanPublisher

/-! ## Sequences of publishes

The publisher's counter is a part of the frame, and is increased only when the
transport has taken it (`ir_spoke_can.c:51–53`).
-/

/-- One call; the estimate is the one of the state that the edges lead to. -/
structure PublishCall where
  /-- The publisher argument is a null pointer. -/
  null : Bool
  /-- `none` for a null estimate. -/
  edges : Option (List UInt64)
  durationUs : UInt32
  send : CanFrame → ℤ

namespace PublishCall

/-- The estimate that is passed. -/
def estimate (c : PublishCall) : Option (Estimate ℚ) :=
  c.edges.map fun es => (Pattern.init.ingestAll es : Pattern ℚ).estimate

/-- The call while the publisher is `p`. -/
def run (c : PublishCall) (p : CanPublisher) : Option PublishOutcome :=
  CanPublisher.publishEstimate (if c.null then none else some p) c.estimate c.durationUs c.send

end PublishCall

namespace PublishOutcome

/-- The transport took the frame. -/
def succeeded (o : PublishOutcome) : Bool :=
  o.sent.isSome && o.result == 0

/-- The publisher afterwards; a call without one leaves it as it was. -/
def after (o : PublishOutcome) (p : CanPublisher) : CanPublisher :=
  o.publisher.getD p

end PublishOutcome

namespace CanPublisher

/-- A sequence of calls, none of which makes an undefined conversion. -/
def publishAll (p : CanPublisher) : List PublishCall → Option (List PublishOutcome × CanPublisher)
  | [] => some ([], p)
  | c :: cs => do
    let o ← c.run p
    let rest ← publishAll (o.after p) cs
    return (o :: rest.1, rest.2)

/-- What a call on `p` returns, sends and leaves behind. -/
structure Reports (p : CanPublisher) (c : PublishCall) (o : PublishOutcome) : Prop where
  rejected : c.null = true ∨ c.edges = none → o.result = -1 ∧ o.sent = none
  disabled : c.null = false → c.edges ≠ none → p.enabled = false → o.result = 0 ∧ o.sent = none
  unset : c.null = false → c.edges ≠ none → p.enabled = true → p.transportSend = false →
    o.result = -2 ∧ o.sent = none
  transmits : ∀ es, c.null = false → c.edges = some es → p.enabled = true →
    p.transportSend = true →
    ∃ f, o.sent = some f ∧ o.result = c.send f ∧ f.identifier = p.baseIdentifier.toUInt32 ∧
      f.length = 8 ∧
      Encodes (Pattern.init.ingestAll es : Pattern ℚ).estimate c.durationUs
        (decodeTelemetry f.data)
  sequence : o.after p = if o.succeeded then { p with sequence := p.sequence + 1 } else p

/-- An early return sends nothing and changes nothing. -/
theorem run_rejected (p : CanPublisher) {c : PublishCall} (h : c.null = true ∨ c.edges = none) :
    ∃ q, c.run p = some { result := -1, publisher := q, sent := none } ∧ q.getD p = p := by
  rcases h with hnull | hedges
  · exact ⟨none, by rw [PublishCall.run, hnull]; rfl, rfl⟩
  · refine ⟨if c.null then none else some p, ?_, ?_⟩
    · rw [PublishCall.run, PublishCall.estimate, hedges]
      cases c.null <;> rfl
    · cases c.null <;> rfl

/-- Every call is defined, and reports what it should: the clamped values fit, so no
conversion is undefined. -/
theorem run_reports (p : CanPublisher) (c : PublishCall) :
    ∃ o, c.run p = some o ∧ Reports p c o := by
  by_cases hrej : c.null = true ∨ c.edges = none
  · obtain ⟨q, hrun, hq⟩ := run_rejected p hrej
    refine ⟨_, hrun, fun _ => ⟨rfl, rfl⟩, fun hn he => ?_, fun hn he => ?_, fun es hn he => ?_, hq⟩
    · exact absurd hrej (by simp [hn, he])
    · exact absurd hrej (by simp [hn, he])
    · exact absurd hrej (by simp [hn, he])
  obtain ⟨hnull, hedges⟩ := not_or.mp hrej
  have hnull : c.null = false := by simpa using hnull
  obtain ⟨es, hes⟩ := Option.ne_none_iff_exists'.mp hedges
  have hrun : c.run p = publishEstimate (some p)
      (some (Pattern.init.ingestAll es : Pattern ℚ).estimate) c.durationUs c.send := by
    rw [PublishCall.run, PublishCall.estimate, hnull, hes]
    rfl
  rw [hrun, publishEstimate]
  by_cases hoff : p.enabled = false
  · rw [if_pos hoff]
    refine ⟨_, rfl, fun h => absurd h hrej, fun _ _ _ => ⟨rfl, rfl⟩, fun _ _ hon => ?_,
      fun _ _ _ hon => ?_, rfl⟩
    · exact absurd (hoff.symm.trans hon) Bool.false_ne_true
    · exact absurd (hoff.symm.trans hon) Bool.false_ne_true
  rw [if_neg hoff]
  by_cases hunset : p.transportSend = false
  · rw [if_pos hunset]
    refine ⟨_, rfl, fun h => absurd h hrej, fun _ _ hoff' => absurd hoff' hoff,
      fun _ _ _ _ => ⟨rfl, rfl⟩, fun _ _ _ _ hset => ?_, rfl⟩
    exact absurd (hunset.symm.trans hset) Bool.false_ne_true
  rw [if_neg hunset]
  obtain ⟨f, hf, hid, hlen, henc⟩ := frame_encodes (Pattern.inv_run es) p c.durationUs
  rw [hf]
  refine ⟨_, rfl, fun h => absurd h hrej, fun _ _ hoff' => absurd hoff' hoff,
    fun _ _ _ hunset' => absurd hunset' hunset, fun es' _ hes' _ _ => ?_, ?_⟩
  · cases hes.symm.trans hes'
    exact ⟨f, rfl, rfl, hid, hlen, henc⟩
  · show (if c.send f = 0 then _ else _) = if (c.send f == 0) = true then _ else _
    simp

/-- A sequence of calls is defined and counts its successful sends modulo `2 ^ 16`. -/
theorem publishAll_sequence (p : CanPublisher) (cs : List PublishCall) :
    ∃ os q, publishAll p cs = some (os, q) ∧
      q.sequence.toNat = (p.sequence.toNat + os.countP PublishOutcome.succeeded) % 2 ^ 16 ∧
      q.enabled = p.enabled ∧ q.baseIdentifier = p.baseIdentifier ∧
      q.transportSend = p.transportSend := by
  induction cs generalizing p with
  | nil =>
    refine ⟨[], p, rfl, ?_, rfl, rfl, rfl⟩
    exact (Nat.mod_eq_of_lt p.sequence.toNat_lt).symm
  | cons c cs ih =>
    obtain ⟨o, ho, hreports⟩ := run_reports p c
    obtain ⟨os, q, hrest, hseq, hrest'⟩ := ih (o.after p)
    refine ⟨o :: os, q, ?_, ?_, ?_⟩
    · rw [publishAll, ho, Option.bind_eq_bind, Option.bind_some, hrest]
      rfl
    · rw [hseq, hreports.sequence, List.countP_cons]
      by_cases hs : o.succeeded = true
      · rw [if_pos hs, if_pos hs, UInt16.toNat_add]
        show ((p.sequence.toNat + 1) % 2 ^ 16 + _) % 2 ^ 16 = _
        omega
      · rw [if_neg hs, if_neg hs, Nat.add_zero]
    · rw [hreports.sequence] at hrest'
      by_cases hs : o.succeeded = true
      · rwa [if_pos hs] at hrest'
      · rwa [if_neg hs] at hrest'

/-- CAN telemetry is a faithful, saturating encoding of every reachable estimate: the
frame of every call decodes to it, an early return sends nothing, and over any
sequence of calls the publisher counts the frames that the transport took, modulo
`2 ^ 16`. -/
theorem telemetry_faithful :
    (∀ (p : CanPublisher) (c : PublishCall), ∃ o, c.run p = some o ∧ Reports p c o) ∧
    ∀ (transportSend enabled : Bool) (base : UInt16) (cs : List PublishCall),
      ∃ os q, publishAll (init transportSend base enabled) cs = some (os, q) ∧
        q.sequence.toNat = os.countP PublishOutcome.succeeded % 2 ^ 16 ∧
        q.enabled = enabled ∧ q.baseIdentifier = base := by
  refine ⟨run_reports, fun transportSend enabled base cs => ?_⟩
  obtain ⟨os, q, hrun, hseq, hen, hbase, -⟩ :=
    publishAll_sequence (init transportSend base enabled) cs
  refine ⟨os, q, hrun, ?_, hen, hbase⟩
  have hzero : (init transportSend base enabled).sequence.toNat = 0 := rfl
  rw [hseq, hzero, Nat.zero_add]

end CanPublisher

end SpokeSensor
