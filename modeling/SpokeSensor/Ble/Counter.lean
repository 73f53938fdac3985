import SpokeSensor.Ble.Access
import SpokeSensor.Lib.LittleEndian

/-!
# The counter over a run

What a collector decodes from a measurement, over every run of GAP events, accesses
and revolutions whose control-point writes are served.

- `decodeWheelMeasurement`: the collector's side. It inverts `encodeWheelMeasurement`
  (`csc_measurement.hpp:21–29`), and the handler reads the bytes of a request
  (`csc_nimble_service.cpp:57–59`) in the order in which the measurement writes them
  (`cumulativeValue_toNat`).
- `lastSet`, `revolutionsSince`, `latestEventTime`: what a run comes to, read off its
  actions.
- `Served`, `AllServed`: a control-point write passes the two checks and none of its
  calls of NimBLE fails.
- `step_state`, `run_state`: what one action does to the counter, and a run.
- `measurement_decodes`: the measurement decodes to the value of the last Set
  Cumulative Value and the revolutions since, up to the largest value, with the event
  time of the latest revolution.

A write of the value that the counter already has changes nothing
(`write_same_value_unchanged`).
-/

namespace SpokeSensor

/-- The counter and the event time in a wheel-only measurement. -/
def decodeWheelMeasurement : List UInt8 → Option (ℕ × ℕ)
  | [flags, r₀, r₁, r₂, r₃, e₀, e₁] =>
    if flags = 0x01 then
      some (LittleEndian.value [r₀, r₁, r₂, r₃], LittleEndian.value [e₀, e₁])
    else none
  | _ => none

theorem encodeWheelMeasurement_eq (revolutions : UInt32) (eventTime : UInt16) :
    encodeWheelMeasurement revolutions eventTime
      = 0x01 :: (LittleEndian.bytes 4 revolutions.toNat
          ++ LittleEndian.bytes 2 eventTime.toNat) := by
  have hr : ∀ k : UInt32, (revolutions >>> k).toUInt8
      = UInt8.ofNat (revolutions.toNat / 2 ^ (k.toNat % 32)) := by
    intro k
    rw [← UInt8.toNat_inj, UInt32.toNat_toUInt8, UInt32.toNat_shiftRight, Nat.shiftRight_eq_div_pow,
      UInt8.toNat_ofNat']
  have he : ∀ k : UInt16, (eventTime >>> k).toUInt8
      = UInt8.ofNat (eventTime.toNat / 2 ^ (k.toNat % 16)) := by
    intro k
    rw [← UInt8.toNat_inj, UInt16.toNat_toUInt8, UInt16.toNat_shiftRight, Nat.shiftRight_eq_div_pow,
      UInt8.toNat_ofNat']
  rw [encodeWheelMeasurement, hr, hr, hr, he]
  simp [LittleEndian.bytes, Nat.div_div_eq_div_mul, UInt8.ofNat_uInt32ToNat,
    UInt8.ofNat_uInt16ToNat]

/-- Decoding gives back what was encoded. -/
theorem decode_encodeWheelMeasurement (revolutions : UInt32) (eventTime : UInt16) :
    decodeWheelMeasurement (encodeWheelMeasurement revolutions eventTime)
      = some (revolutions.toNat, eventTime.toNat) := by
  have hr := LittleEndian.value_bytes 4 revolutions.toNat
  have he := LittleEndian.value_bytes 2 eventTime.toNat
  rw [Nat.mod_eq_of_lt (show _ < 256 ^ 4 from revolutions.toNat_lt)] at hr
  rw [Nat.mod_eq_of_lt (show _ < 256 ^ 2 from eventTime.toNat_lt)] at he
  rw [encodeWheelMeasurement_eq]
  show some (LittleEndian.value (LittleEndian.bytes 4 revolutions.toNat),
    LittleEndian.value (LittleEndian.bytes 2 eventTime.toNat)) = _
  rw [hr, he]

namespace NimbleService

/-- The handler assembles the value of the four bytes. -/
theorem cumulativeValue_toNat (b₁ b₂ b₃ b₄ : UInt8) :
    (cumulativeValue b₁ b₂ b₃ b₄).toNat = LittleEndian.value [b₁, b₂, b₃, b₄] := by
  have hplace : ∀ (b : UInt8) (k : ℕ), k ≤ 24 → b.toNat <<< k % 2 ^ 32 = b.toNat <<< k := by
    intro b k hk
    refine Nat.mod_eq_of_lt ?_
    rw [Nat.shiftLeft_eq]
    calc b.toNat * 2 ^ k < 2 ^ 8 * 2 ^ k := Nat.mul_lt_mul_of_pos_right b.toNat_lt (by positivity)
      _ = 2 ^ (8 + k) := (pow_add 2 8 k).symm
      _ ≤ 2 ^ 32 := Nat.pow_le_pow_right (by omega) (by omega)
  have hlow : LittleEndian.value [b₁] = b₁.toNat := by simp
  simp only [cumulativeValue, UInt32.toNat_or, UInt32.toNat_shiftLeft, UInt8.toNat_toUInt32]
  show b₁.toNat ||| b₂.toNat <<< 8 % 2 ^ 32 ||| b₃.toNat <<< 16 % 2 ^ 32
    ||| b₄.toNat <<< 24 % 2 ^ 32 = _
  rw [hplace b₂ 8 (by omega), hplace b₃ 16 (by omega), hplace b₄ 24 (by omega), ← hlow]
  -- each byte goes above those that have been read
  exact (congrArg (fun x => x ||| b₃.toNat <<< 16 ||| b₄.toNat <<< 24)
      (LittleEndian.value_or_shift [b₁] b₂)).trans
    ((congrArg (fun x => x ||| b₄.toNat <<< 24)
      (LittleEndian.value_or_shift [b₁, b₂] b₃)).trans
      (LittleEndian.value_or_shift [b₁, b₂, b₃] b₄))

/-! ## What a run comes to

The counter is told by the actions alone: the value that was set last, and the
revolutions since. The event time is that of the latest revolution.
-/

/-- The value of a complete Set Cumulative Value, five bytes that start with `0x01`. -/
def setRequest : List UInt8 → Option ℕ
  | [opcode, b₁, b₂, b₃, b₄] =>
    if opcode = 0x01 then some (LittleEndian.value [b₁, b₂, b₃, b₄]) else none
  | _ => none

/-- The value that an action sets the counter to. -/
def setValue (h : Handles) : Action → Option ℕ
  | .access _ attr op packet _ =>
    if op = .writeChr ∧ attr = h.controlPoint then setRequest packet else none
  | _ => none

/-- The time of a revolution. -/
def revolutionTime : Action → Option UInt64
  | .wheel us => some us
  | _ => none

/-- The value of the last Set Cumulative Value, zero if there was none. -/
def lastSet (h : Handles) (as : List Action) : ℕ :=
  (as.reverse.findSome? (setValue h)).getD 0

/-- The revolutions since then. -/
def revolutionsSince (h : Handles) (as : List Action) : ℕ :=
  (as.reverse.takeWhile fun a => (setValue h a).isNone).countP fun a => (revolutionTime a).isSome

/-- The event time of the latest revolution, zero if there was none. -/
def latestEventTime (as : List Action) : UInt16 :=
  ((as.reverse.findSome? revolutionTime).map eventTime1024).getD 0

/-- The request can be read out of the packet, and the allocations and the indication
succeed. -/
structure Succeeds (packet : List UInt8) (o : Outcomes) : Prop where
  opcode : packet ≠ [] → o.opcodeCopied = true
  request : packet.length = 5 → o.requestCopied = true
  allocated : o.allocated = true
  indicated : o.rc = 0

/-- A control-point write passes the CCCD and the procedure check and succeeds. -/
def Served (h : Handles) (s : NimbleService) : Action → Prop
  | .access conn attr op packet o => op = .writeChr → attr = h.controlPoint →
    s.controlIndicationsEnabled conn = true ∧ s.controlProcedureInProgress_ = false ∧
      Succeeds packet o
  | _ => True

/-- Every control-point write of a run is served. -/
def AllServed (h : Handles) (as : List Action) : Prop :=
  ∀ before a after, as = before ++ a :: after → Served h (run h before) a

variable {h : Handles} {s : NimbleService} {conn attr : UInt16} {packet : List UInt8}
  {o : Outcomes} {as : List Action} {a : Action}

/-! ## One action

A revolution counts one, a write that is carried out sets the counter, and every other
action leaves it alone.
-/

theorem setRequest_eq_some_iff {v : ℕ} :
    setRequest packet = some v ↔
      ∃ b₁ b₂ b₃ b₄, packet = [0x01, b₁, b₂, b₃, b₄] ∧
        LittleEndian.value [b₁, b₂, b₃, b₄] = v := by
  unfold setRequest
  split
  · rename_i opcode b₁ b₂ b₃ b₄
    constructor
    · intro hv
      obtain ⟨rfl, hv⟩ := Option.ite_none_right_eq_some.mp hv
      exact ⟨b₁, b₂, b₃, b₄, rfl, Option.some.inj hv⟩
    · rintro ⟨c₁, c₂, c₃, c₄, hpacket, rfl⟩
      simp only [List.cons.injEq, and_true] at hpacket
      obtain ⟨rfl, rfl, rfl, rfl, rfl⟩ := hpacket
      exact if_pos rfl
  · rename_i hshape
    constructor
    · rintro ⟨⟩
    · rintro ⟨b₁, b₂, b₃, b₄, rfl, -⟩
      exact absurd rfl (hshape _ b₁ b₂ b₃ b₄)

/-- What a request does to the counter. -/
theorem execute_state (s : NimbleService) {copied : Bool}
    (hcopied : packet.length = 5 → copied = true) :
    (s.execute packet copied).1.state_
      = (setRequest packet).elim s.state_ fun v => s.state_.setCumulative (UInt32.ofNat v) := by
  cases hset : setRequest packet with
  | some v =>
    obtain ⟨b₁, b₂, b₃, b₄, rfl, rfl⟩ := setRequest_eq_some_iff.mp hset
    rw [hcopied rfl, Option.elim_some, ← cumulativeValue_toNat, UInt32.ofNat_toNat]
    rfl
  | none =>
    refine (execute_state_iff s packet copied).mpr ?_
    rintro ⟨-, b₁, b₂, b₃, b₄, hpacket, -⟩
    have hsome := setRequest_eq_some_iff.mpr ⟨b₁, b₂, b₃, b₄, hpacket, rfl⟩
    cases hset.symm.trans hsome

/-- What a served control-point write does to the counter. -/
theorem access_state (henabled : s.controlIndicationsEnabled conn = true)
    (hidle : s.controlProcedureInProgress_ = false) (ho : Succeeds packet o) :
    (s.access h conn h.controlPoint .writeChr packet o).service.state_
      = (setRequest packet).elim s.state_ fun v => s.state_.setCumulative (UInt32.ofNat v) := by
  rcases access_cases h s conn h.controlPoint .writeChr packet o with
    ⟨hno, -⟩ | ⟨-, hbusy, -⟩ | ⟨-, -, heq⟩
  · exact absurd ⟨rfl, rfl, henabled⟩ hno
  · exact absurd (hidle.symm.trans hbusy) Bool.false_ne_true
  · rw [heq]
    rcases procedure_cases h (s.opened conn) packet o with
      ⟨hearly, heq⟩ | ⟨-, hnone, -⟩ | ⟨-, -, hrc, -⟩ | ⟨-, -, -, response, heq⟩
    · -- only the empty packet cannot be read
      have hempty : packet = [] := by
        rcases hearly with hempty | hcopied
        · exact hempty
        · by_contra hne
          exact absurd (hcopied.symm.trans (ho.opcode hne)) Bool.false_ne_true
      subst hempty
      rw [heq]
      rfl
    · exact absurd (hnone.symm.trans ho.allocated) Bool.false_ne_true
    · exact absurd ho.indicated hrc
    · rw [heq]
      exact (deliver_state h _ o.during).trans (execute_state (s.opened conn) ho.request)

/-- A served action sets the counter, counts a revolution, or does neither; which of
the three can be read off the action. -/
theorem step_state (hs : Served h s a) :
    (∃ v, setValue h a = some v ∧ revolutionTime a = none ∧
      (s.step h a).state_ = s.state_.setCumulative (UInt32.ofNat v)) ∨
    (∃ t, setValue h a = none ∧ revolutionTime a = some t ∧
      (s.step h a).state_ = s.state_.onRevolution t) ∨
    (setValue h a = none ∧ revolutionTime a = none ∧ (s.step h a).state_ = s.state_) := by
  cases a with
  | gap e => exact .inr (.inr ⟨rfl, rfl, gapEvent_state h s e⟩)
  | wheel us => exact .inr (.inl ⟨us, rfl, rfl, rfl⟩)
  | access conn attr op packet o =>
    by_cases hwrite : op = .writeChr ∧ attr = h.controlPoint
    · obtain ⟨rfl, rfl⟩ := hwrite
      obtain ⟨henabled, hidle, ho⟩ := hs rfl rfl
      have hstate := access_state (h := h) henabled hidle ho
      have hvalue : setValue h (.access conn h.controlPoint .writeChr packet o)
          = setRequest packet := if_pos ⟨rfl, rfl⟩
      cases hset : setRequest packet with
      | some v =>
        rw [hset] at hstate hvalue
        exact .inl ⟨v, hvalue, rfl, hstate⟩
      | none =>
        rw [hset] at hstate hvalue
        exact .inr (.inr ⟨hvalue, rfl, hstate⟩)
    · -- reads, and writes to another attribute, change nothing
      refine .inr (.inr ⟨if_neg hwrite, rfl, ?_⟩)
      rcases access_cases h s conn attr op packet o with
        ⟨-, heq, -⟩ | ⟨⟨hop, hattr, -⟩, -⟩ | ⟨⟨hop, hattr, -⟩, -⟩
      · exact congrArg state_ heq
      · exact absurd ⟨hop, hattr⟩ hwrite
      · exact absurd ⟨hop, hattr⟩ hwrite

/-! ## A run

By induction on the actions, and from there what a client reads of a measurement.
-/

theorem lastSet_concat (h : Handles) (as : List Action) (a : Action) :
    lastSet h (as ++ [a]) = (setValue h a).getD (lastSet h as) := by
  rw [lastSet, List.reverse_concat, List.findSome?_cons]
  cases setValue h a <;> rfl

theorem revolutionsSince_concat (h : Handles) (as : List Action) (a : Action) :
    revolutionsSince h (as ++ [a]) =
      if (setValue h a).isSome then 0
      else revolutionsSince h as + if (revolutionTime a).isSome then 1 else 0 := by
  rw [revolutionsSince, List.reverse_concat, List.takeWhile_cons]
  cases setValue h a with
  | some v => rfl
  | none => exact List.countP_cons

theorem latestEventTime_concat (as : List Action) (a : Action) :
    latestEventTime (as ++ [a])
      = ((revolutionTime a).map eventTime1024).getD (latestEventTime as) := by
  rw [latestEventTime, List.reverse_concat, List.findSome?_cons]
  cases revolutionTime a <;> rfl

theorem setValue_lt {v : ℕ} (hv : setValue h a = some v) : v < 2 ^ 32 := by
  cases a with
  | gap e => cases hv
  | wheel us => cases hv
  | access conn attr op packet o =>
    obtain ⟨-, hv⟩ := Option.ite_none_right_eq_some.mp hv
    obtain ⟨b₁, b₂, b₃, b₄, -, rfl⟩ := setRequest_eq_some_iff.mp hv
    have hlt : LittleEndian.value [b₁, b₂, b₃, b₄] < 256 ^ 4 := LittleEndian.value_lt _
    omega

theorem AllServed.init (hs : AllServed h (as ++ [a])) : AllServed h as := by
  intro before b after heq
  exact hs before b (after ++ [a]) (by rw [heq, List.append_assoc, List.cons_append])

theorem allServed_nil (h : Handles) : AllServed h [] := by
  intro before a after heq
  cases before <;> cases heq

theorem AllServed.concat (hs : AllServed h as) (ha : Served h (run h as) a) :
    AllServed h (as ++ [a]) := by
  intro before b after heq
  rcases List.eq_nil_or_concat after with rfl | ⟨after, c, rfl⟩
  · obtain ⟨rfl, hab⟩ := List.append_inj' heq rfl
    cases hab
    exact ha
  · rw [List.concat_eq_append, ← List.cons_append, ← List.append_assoc] at heq
    exact hs before b after (List.append_inj' heq rfl).1

theorem AllServed.last (hs : AllServed h (as ++ [a])) : Served h (run h as) a :=
  hs as a [] rfl

/-- The counter and the event time after a run, by induction on the run from its end. -/
theorem run_state (hs : AllServed h as) :
    (run h as).state_.revolutions_.toNat
        = min (lastSet h as + revolutionsSince h as) (2 ^ 32 - 1) ∧
      (run h as).state_.lastEventTime_ = latestEventTime as := by
  induction as using List.reverseRecOn with
  | nil => exact ⟨rfl, rfl⟩
  | append_singleton as a ih =>
    obtain ⟨hcount, htime⟩ := ih hs.init
    rw [run_append_singleton, lastSet_concat, revolutionsSince_concat, latestEventTime_concat]
    rcases step_state hs.last with ⟨v, hset, hrev, heq⟩ | ⟨t, hset, hrev, heq⟩ | ⟨hset, hrev, heq⟩
    · -- the count starts again from the value that was written
      have hlt := setValue_lt hset
      rw [heq, hset, hrev]
      constructor
      · show (UInt32.ofNat v).toNat = min (v + 0) (2 ^ 32 - 1)
        rw [UInt32.toNat_ofNat_of_lt' hlt]
        omega
      · exact htime
    · rw [heq, hset, hrev]
      constructor
      · rw [WheelState.onRevolution_toNat, hcount]
        show _ = min (lastSet h as + (revolutionsSince h as + 1)) (2 ^ 32 - 1)
        omega
      · rfl
    · rw [heq, hset, hrev]
      exact ⟨hcount, htime⟩

/-- At any point of a run whose control-point writes are served, the measurement
decodes to the value of the last Set Cumulative Value plus the revolutions since, up
to the largest value, and the event time of the latest revolution. A write sets the
counter if it is five bytes that start with `0x01`; it changes it exactly if, besides,
the value is a new one. -/
theorem measurement_decodes (h : Handles) (as : List Action) (hs : AllServed h as) :
    decodeWheelMeasurement (run h as).state_.measurement
        = some (min (lastSet h as + revolutionsSince h as) (2 ^ 32 - 1),
            (latestEventTime as).toNat) ∧
      ∀ before conn packet o after,
        as = before ++ .access conn h.controlPoint .writeChr packet o :: after →
        (∀ b₁ b₂ b₃ b₄, packet = [0x01, b₁, b₂, b₃, b₄] →
          ((run h before).step h
              (.access conn h.controlPoint .writeChr packet o)).state_.revolutions_.toNat
            = LittleEndian.value [b₁, b₂, b₃, b₄]) ∧
        (((run h before).step h
              (.access conn h.controlPoint .writeChr packet o)).state_.revolutions_
            ≠ (run h before).state_.revolutions_ ↔
          ∃ b₁ b₂ b₃ b₄, packet = [0x01, b₁, b₂, b₃, b₄] ∧
            LittleEndian.value [b₁, b₂, b₃, b₄]
              ≠ (run h before).state_.revolutions_.toNat) := by
  obtain ⟨hcount, htime⟩ := run_state hs
  constructor
  · rw [WheelState.measurement, decode_encodeWheelMeasurement, hcount, htime]
  · intro before conn packet o after heq
    obtain ⟨henabled, hidle, ho⟩ := hs before _ after heq rfl rfl
    have hstate := access_state (h := h) henabled hidle ho
    have hset : ∀ b₁ b₂ b₃ b₄, packet = [0x01, b₁, b₂, b₃, b₄] →
        ((run h before).step h
            (.access conn h.controlPoint .writeChr packet o)).state_.revolutions_.toNat
          = LittleEndian.value [b₁, b₂, b₃, b₄] := by
      intro b₁ b₂ b₃ b₄ hpacket
      rw [setRequest_eq_some_iff.mpr ⟨b₁, b₂, b₃, b₄, hpacket, rfl⟩] at hstate
      rw [step, hstate, ← cumulativeValue_toNat]
      show (UInt32.ofNat _).toNat = _
      rw [UInt32.ofNat_toNat]
    refine ⟨hset, ?_⟩
    constructor
    · intro hchange
      cases hrequest : setRequest packet with
      | some v =>
        obtain ⟨b₁, b₂, b₃, b₄, hpacket, -⟩ := setRequest_eq_some_iff.mp hrequest
        refine ⟨b₁, b₂, b₃, b₄, hpacket, fun hsame => hchange (UInt32.toNat_inj.mp ?_)⟩
        rw [hset b₁ b₂ b₃ b₄ hpacket, hsame]
      | none =>
        -- any other request leaves the counter alone
        rw [hrequest] at hstate
        exact absurd (congrArg WheelState.revolutions_ hstate) hchange
    · rintro ⟨b₁, b₂, b₃, b₄, hpacket, hnew⟩ hsame
      refine hnew ?_
      rw [← hset b₁ b₂ b₃ b₄ hpacket, hsame]

/-- A served write of a client that has subscribed. -/
theorem allServed_subscribed (packet : List UInt8) :
    AllServed ⟨10, 12⟩ (subscribed ++ [.access 1 12 .writeChr packet allWell]) :=
  ((((allServed_nil _).concat (a := .gap (.connect 0 1)) trivial).concat
    (a := .gap (.subscribe 12 false true)) trivial).concat
      fun _ _ => ⟨by decide, by decide, fun _ => rfl, fun _ => rfl, rfl, rfl⟩)

/-- Writing zero over zero is a complete request and changes nothing. -/
theorem write_same_value_unchanged :
    AllServed ⟨10, 12⟩ (subscribed ++ [.access 1 12 .writeChr [0x01, 0, 0, 0, 0] allWell]) ∧
      ¬ (((run ⟨10, 12⟩ subscribed).step ⟨10, 12⟩
            (.access 1 12 .writeChr [0x01, 0, 0, 0, 0] allWell)).state_.revolutions_
          ≠ (run ⟨10, 12⟩ subscribed).state_.revolutions_ ↔
        ∃ b₁ b₂ b₃ b₄, [0x01, 0, 0, 0, 0] = [(0x01 : UInt8), b₁, b₂, b₃, b₄]) := by
  refine ⟨allServed_subscribed _, fun hiff => ?_⟩
  exact hiff.mpr ⟨0, 0, 0, 0, rfl⟩ (by decide)

/-- A value of 258 and no revolution since. -/
theorem measurement_decodes_258 :
    decodeWheelMeasurement (run ⟨10, 12⟩
        (subscribed ++ [.access 1 12 .writeChr [0x01, 2, 1, 0, 0] allWell])).state_.measurement
      = some (258, 0) :=
  (measurement_decodes ⟨10, 12⟩ _ (allServed_subscribed [0x01, 2, 1, 0, 0])).1

end NimbleService

end SpokeSensor
