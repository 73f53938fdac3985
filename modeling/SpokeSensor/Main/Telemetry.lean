import SpokeSensor.Can.Mcp2515
import SpokeSensor.Lib.Triple
import SpokeSensor.Main.Adapter

/-!
# From a blockage to the bus (`ir_spoke_rmt_adapter.c:118–198`)

The body of the dequeuing loop of `receive_loop` with its telemetry: after the
pipeline has seen an accepted pulse the estimate is published (168–183), and the frame
goes out through `send_frame`, a program of SPI transfers that may fail and between
which the controller may complete a transmission.

- `handleEvent`, `handleAll`: this program for one dequeued event, and for a sequence
  of them.
- `Heard`: what a listener reads are some of the reports, in order. `Reported` is the
  same for a task that has passed all of them on.
- `Told`: the task after some events; one more event keeps it, whatever happens
  between its transfers (`handleEvent_upholds`).
- `telemetry_on_bus`: telemetry changes nothing of what `Adapter.handleAll` comes to.
  What a listener reads on the bus at any moment are the estimates after some of the
  accepted pulses, in order, each at most once, and after all events those whose frame
  was taken.

The loop instantiates `CanController` of the MCP2515 adapter, so its frames are those
that `frames_on_bus` speaks of.
-/

namespace SpokeSensor

open Interaction (Prog)
open Mcp2515

namespace CanPublisher

/-- `ir_spoke_can_publish_estimate`, where `transport.send` is `send_frame`: the result, the
publisher afterwards and the frame that was passed on. A null pointer is `none`, and so is the
outcome of an undefined conversion. -/
def publish (p : Option CanPublisher) (estimate : Estimate ℚ) (blockageDurationUs : UInt32) :
    Spi (Option PublishOutcome) :=
  match p with
  | none => return some { result := -1, publisher := p, sent := none }
  | some q =>
    if q.enabled = false then return some { result := 0, publisher := p, sent := none }
    else if q.transportSend = false then
      return some { result := -2, publisher := p, sent := none }
    else
      match q.frame estimate blockageDurationUs with
      | none => return none
      | some frame => do
        let result ← sendFrame (some frame)
        return some {
          result := result
          publisher := some (if result = 0 then { q with sequence := q.sequence + 1 } else q)
          sent := some frame }

end CanPublisher

/-- What the receive task works with, the calls of `transport.send` with their results, and the
revolutions forwarded so far. -/
structure ReceiveTask where
  adapter : Adapter ℚ
  canPublisher : Option CanPublisher
  sends : List (CanFrame × ℤ)
  revolutions : List UInt64

namespace ReceiveTask

/-- The task after `ir_spoke_pipeline_init` and `ir_spoke_rmt_set_can_publisher`. -/
def start (ble : BleCsc) (canPublisher : Option CanPublisher) : ReceiveTask where
  adapter := .start ble
  canPublisher := canPublisher
  sends := []
  revolutions := []

/-- The telemetry of an accepted pulse, if there is a publisher. -/
def telemetry (t : ReceiveTask) (r : Pipeline ℚ × PulseResult) (durationUs : UInt32) :
    Spi (Option ReceiveTask) :=
  if r.2 = .accepted ∧ t.canPublisher.isSome = true then do
    let outcome ← CanPublisher.publish t.canPublisher r.1.pattern.estimate durationUs
    return outcome.map fun o =>
      { t with
        canPublisher := o.publisher
        sends := t.sends ++ o.sent.toList.map fun frame => (frame, o.result) }
  else return some t

/-- One dequeued event: the pipeline, the telemetry, the revolution. -/
def handleEvent (t : ReceiveTask) (event : BlockageEvent) : Spi (Option ReceiveTask) := do
  let r := t.adapter.pipeline.ingest event.timestampUs event.durationUs
  let published ← t.telemetry r event.durationUs
  return published.map fun t =>
    -- the estimate has not changed since, and the service is told last
    let forwarded := t.adapter.handleEvent event
    { t with
      adapter := forwarded.1
      revolutions := t.revolutions ++ forwarded.2 }

/-- A sequence of dequeued events. -/
def handleAll (t : ReceiveTask) : List BlockageEvent → Spi (Option ReceiveTask)
  | [] => return some t
  | event :: events => do
    match ← t.handleEvent event with
    | none => return none
    | some t => t.handleAll events

end ReceiveTask

/-- The estimates after the accepted pulses, each with the duration of its pulse. -/
def Adapter.reports (a : Adapter ℚ) : List BlockageEvent → List (Estimate ℚ × UInt32)
  | [] => []
  | event :: events =>
    (if (a.pipeline.ingest event.timestampUs event.durationUs).2 = .accepted then
      [((a.handleEvent event).1.estimate, event.durationUs)] else [])
      ++ (a.handleEvent event).1.reports events

/-- What a listener reads: the payload of a data frame of 8 bytes with the base identifier. -/
def CanMessage.telemetry (base : UInt16) (m : CanMessage) : Option Telemetry :=
  if h : m.identifier = base.toNat ∧ m.extended = false ∧ m.remote = false ∧ m.data.length = 8 then
    some (decodeTelemetry ⟨m.data.toArray, by simpa using h.2.2.2⟩)
  else none

/-! ## The estimates

What the publisher is given, event by event: the estimate after the pipeline has taken
the event, and the duration of the blockage
(`ir_spoke_rmt_adapter.c:124–128, 168–170`). It depends on the events only, not on
what becomes of the frames.
-/

namespace Adapter

/-- The reports of a sequence, in two parts. -/
theorem reports_append (a : Adapter ℚ) (evs fvs : List BlockageEvent) :
    a.reports (evs ++ fvs) = a.reports evs ++ (a.handleAll evs).1.reports fvs := by
  induction evs generalizing a with
  | nil => rfl
  | cons ev evs ih => rw [List.cons_append, reports, reports, ih, ← List.append_assoc, handleAll]

/-- Every estimate is one of a reachable pattern. -/
theorem inv_handleEvent {a : Adapter ℚ} (h : ∃ xs, a.pipeline.pattern.Inv xs) (ev : BlockageEvent) :
    ∃ xs, (a.handleEvent ev).1.pipeline.pattern.Inv xs := by
  obtain ⟨xs, hinv⟩ := h
  rw [handleEvent_pipeline]
  rcases a.pipeline.ingest_cases ev.timestampUs ev.durationUs with ⟨-, heq, -⟩ | ⟨-, heq, -⟩
  · exact ⟨xs, heq ▸ hinv⟩
  · exact ⟨_, heq ▸ hinv.ingestEdge ev.timestampUs⟩

/-- The estimator keeps its invariant, so every estimate fits its field or saturates. -/
theorem inv_handleAll {a : Adapter ℚ} (h : ∃ xs, a.pipeline.pattern.Inv xs)
    (evs : List BlockageEvent) : ∃ xs, (a.handleAll evs).1.pipeline.pattern.Inv xs := by
  induction evs generalizing a with
  | nil => exact h
  | cons ev evs ih => exact ih (inv_handleEvent h ev)

end Adapter

/-! ## One frame

The publisher calls the adapter once for each report. However that call ends, what has
been sent or is pending has grown by its frame or not at all.
-/

namespace CanController

variable {C : CanController} {before : List CanMessage} {w : C.World}

/-- However far a call has come, its frame has been sent, or nothing of it is to be seen. -/
theorem Stage.kept {f : CanFrame} {p : Spi ℤ} (h : Stage (some f) before p w) :
    w.sentOrPending = before ∨ w.sentOrPending = before ++ [message f] := by
  cases h with
  | start h => exact .inl h
  | load _ _ _ h => exact .inl h
  | request _ _ _ h => exact .inl h
  | failed _ h => exact .inl h
  | sent hf h =>
    cases hf
    exact .inr h

/-- The frame has been sent if `send_frame` has returned `0`. -/
theorem Stage.returned {f : CanFrame} {r : ℤ} (h : Stage (some f) before (.done r) w) :
    w.sentOrPending = before ++ if r = 0 then [message f] else [] := by
  generalize hp : (Prog.done r : Spi ℤ) = p at h
  cases h with
  | start h =>
    rcases sendFrame_cases (some f) with hrej | ⟨g, -, -, hsend⟩
    · rw [hrej] at hp
      cases hp
      rw [if_neg (by decide), List.append_nil, h]
    · rw [hsend] at hp
      cases hp
  | load =>
    rw [loadBuffer_eq] at hp
    cases hp
  | request => cases hp
  | failed hr h =>
    cases hp
    rw [if_neg hr, List.append_nil, h]
  | sent hf h =>
    cases hp
    cases hf
    rw [if_pos rfl, h]

/-- A call in the course of which the controller acts at will. -/
theorem sendFrame_upholds (f : CanFrame) (h : w.sentOrPending = before) :
    (sendFrame (some f)).Upholds C.spi
      (fun v => v.sentOrPending = before ∨ v.sentOrPending = before ++ [message f])
      (fun r v => v.sentOrPending = before ++ if r = 0 then [message f] else []) w := by
  have hstage : (sendFrame (some f)).Upholds C.spi (fun v => ∃ p, Stage (some f) before p v)
      (fun r v => Stage (some f) before (.done r) v) w :=
    Prog.Upholds.of_stable (fun q next w ok h => h.answer ok) (fun p w v e hact h => h.act hact)
      (.start h)
  exact hstage.imp (fun v ⟨p, hp⟩ => hp.kept) fun r v _ hdone => hdone.returned

/-- A call asks for at most three transfers, so it ends. -/
theorem sendFrame_within (frame : Option CanFrame) : (sendFrame frame).Within 3 := by
  rcases sendFrame_cases frame with hrej | ⟨f, -, -, hsend⟩
  · rw [hrej]
    trivial
  rw [hsend]
  intro rx
  cases rx with
  | none => trivial
  | some rx =>
    show (if rx[2]?.getD 0 &&& 0x08 ≠ 0 then .done (-3) else loadBuffer f : Spi ℤ).Within 2
    by_cases hbusy : rx[2]?.getD 0 &&& 0x08 ≠ 0
    · rw [if_pos hbusy]
      trivial
    rw [if_neg hbusy, loadBuffer_eq]
    intro rx
    cases rx with
    | none => trivial
    | some rx => exact fun _ => trivial

end CanController

/-! ## What a listener reads

The messages on the bus are those of the frames that the adapter took, each the
telemetry of one report. A report that was not taken is missing; the sequence number
tells the listener so, since it counts only frames that were taken.
-/

/-- A message that is read as a report. -/
def Carries (base : UInt16) (report : Estimate ℚ × UInt32) (m : CanMessage) : Prop :=
  ∃ t, m.telemetry base = some t ∧ CanPublisher.Encodes report.1 report.2 t

/-- A frame with the payload of a report. -/
structure FrameOf (base : UInt16) (report : Estimate ℚ × UInt32) (f : CanFrame) : Prop where
  identifier : f.identifier = base.toUInt32
  length : f.length = 8
  payload : CanPublisher.Encodes report.1 report.2 (decodeTelemetry f.data)

/-- A frame of a report is read back as that report. -/
theorem FrameOf.carries {base : UInt16} {report : Estimate ℚ × UInt32} {f : CanFrame}
    (h : FrameOf base report f) : Carries base report (message f) := by
  have hdata : (message f).data = f.data.toList := by
    show f.data.toList.take f.length.toNat = _
    rw [h.length]
    exact List.take_of_length_le (by simp)
  have hid : (message f).identifier = base.toNat := by
    show f.identifier.toNat = _
    rw [h.identifier, UInt16.toNat_toUInt32]
  have hread : (message f).identifier = base.toNat ∧ (message f).extended = false ∧
      (message f).remote = false ∧ (message f).data.length = 8 :=
    ⟨hid, rfl, rfl, by rw [hdata]; simp⟩
  refine ⟨decodeTelemetry f.data, ?_, h.payload⟩
  rw [CanMessage.telemetry, dif_pos hread]
  congr 2
  refine Vector.toArray_inj.mp ?_
  show (message f).data.toArray = f.data.toArray
  rw [hdata]
  exact f.data.toArray.toArray_toList

/-- What is left of related lists when members of one are dropped. -/
theorem forall₂_filter {α β : Type} {r : α → β → Prop} (keep : α → Bool) {xs : List α} {ys : List β}
    (h : List.Forall₂ r xs ys) : ∃ zs, zs.Sublist ys ∧ List.Forall₂ r (xs.filter keep) zs := by
  induction h with
  | nil => exact ⟨[], .slnil, .nil⟩
  | @cons x y xs ys hxy _ ih =>
    obtain ⟨zs, hsub, hrel⟩ := ih
    cases hkeep : keep x with
    | true =>
      rw [List.filter_cons_of_pos hkeep]
      exact ⟨y :: zs, hsub.cons_cons y, hrel.cons hxy⟩
    | false =>
      rw [List.filter_cons_of_neg (by rw [hkeep]; exact Bool.false_ne_true)]
      exact ⟨zs, hsub.cons y, hrel⟩

namespace ReceiveTask

variable {C : CanController} {ble : BleCsc} {q : CanPublisher} {evs : List BlockageEvent}

/-- The frames that were taken. -/
def taken (sends : List (CanFrame × ℤ)) : List CanFrame :=
  (sends.filter fun s => s.2 == 0).map Prod.fst

/-- What is to be published of some events. -/
def attempted (q : CanPublisher) (ble : BleCsc) (evs : List BlockageEvent) :
    List (Estimate ℚ × UInt32) :=
  if q.enabled = true ∧ q.transportSend = true then (Adapter.start ble : Adapter ℚ).reports evs
  else []

/-- The publisher after some calls of `transport.send`. -/
def counted (q : CanPublisher) (sends : List (CanFrame × ℤ)) : CanPublisher :=
  { q with sequence := q.sequence + UInt16.ofNat (taken sends).length }

/-- The messages are some of the reports, in order. -/
def Heard (base : UInt16) (reports : List (Estimate ℚ × UInt32)) (ms : List CanMessage) : Prop :=
  ∃ rs, rs.Sublist reports ∧ List.Forall₂ (Carries base) rs ms

/-- Every report has been passed on, and those that were taken are the messages. -/
structure Reported (q : CanPublisher) (reports : List (Estimate ℚ × UInt32)) (t : ReceiveTask)
    (ms : List CanMessage) : Prop where
  publisher : t.canPublisher = some (counted q t.sends)
  sends : List.Forall₂ (fun s r => FrameOf q.baseIdentifier r s.1) t.sends reports
  bus : ms = (taken t.sends).map message

variable {reports : List (Estimate ℚ × UInt32)} {t : ReceiveTask} {ms : List CanMessage}

theorem Reported.heard (h : Reported q reports t ms) : Heard q.baseIdentifier reports ms := by
  obtain ⟨rs, hsub, hrel⟩ := forall₂_filter (fun s => s.2 == 0) h.sends
  refine ⟨rs, hsub, ?_⟩
  rw [h.bus, taken, List.map_map]
  exact List.forall₂_map_right_iff.mpr (hrel.flip.imp fun _ _ hframe => hframe.carries)

/-- More reports than those that are heard. -/
theorem Heard.mono {reports' : List (Estimate ℚ × UInt32)} {base : UInt16}
    (h : Heard base reports ms) (hsub : reports.Sublist reports') : Heard base reports' ms := by
  obtain ⟨rs, hrs, hrel⟩ := h
  exact ⟨rs, hrs.trans hsub, hrel⟩

/-- One more report is heard. -/
theorem Heard.concat {base : UInt16} {r : Estimate ℚ × UInt32} {f : CanFrame}
    (h : Heard base reports ms) (hf : FrameOf base r f) :
    Heard base (reports ++ [r]) (ms ++ [message f]) := by
  obtain ⟨rs, hrs, hrel⟩ := h
  exact ⟨rs ++ [r], hrs.append (List.Sublist.refl [r]),
    List.rel_append hrel (.cons hf.carries .nil)⟩

/-- One more report has been passed on. -/
theorem Reported.concat {r : Estimate ℚ × UInt32} {f : CanFrame} {result : ℤ}
    (h : Reported q reports t ms) (hf : FrameOf q.baseIdentifier r f) :
    Reported q (reports ++ [r])
      { t with
        canPublisher := some (if result = 0 then
          { counted q t.sends with sequence := (counted q t.sends).sequence + 1 }
          else counted q t.sends)
        sends := t.sends ++ [(f, result)] }
      (ms ++ if result = 0 then [message f] else []) := by
  have htaken : taken (t.sends ++ [(f, result)])
      = taken t.sends ++ if result = 0 then [f] else [] := by
    rw [taken, List.filter_append, List.map_append, ← taken]
    by_cases hr : result = 0
    · simp [hr]
    · simp [hr]
  constructor
  · by_cases hr : result = 0
    · rw [if_pos hr] at htaken ⊢
      show some _ = some (counted q (t.sends ++ [(f, result)]))
      rw [counted, counted, htaken, List.length_append, UInt16.ofNat_add, ← UInt16.add_assoc]
      rfl
    · rw [if_neg hr, List.append_nil] at htaken
      rw [if_neg hr]
      show some _ = some (counted q (t.sends ++ [(f, result)]))
      rw [counted, counted, htaken]
  · exact List.rel_append h.sends (.cons hf .nil)
  · show _ = (taken (t.sends ++ [(f, result)])).map message
    rw [htaken, List.map_append, h.bus]
    by_cases hr : result = 0
    · rw [if_pos hr, if_pos hr]
      rfl
    · rw [if_neg hr, if_neg hr]
      rfl

/-- A program that is done: nothing but completions changes the world. -/
theorem done_upholds {A : Type} {a : A} {w : C.World} (I : List CanMessage → Prop)
    (P : A → List CanMessage → Prop) (hinv : I w.sentOrPending) (hpost : P a w.sentOrPending) :
    (Prog.done a : Spi A).Upholds C.spi (fun v => I v.sentOrPending)
      (fun a v => P a v.sentOrPending) w := by
  refine Prog.Upholds.of_done (fun w v e hact h => ?_) hinv hpost
  have hkept := (CanController.sentOrPending_act (w := w) (v := v) hact).2
  rw [hkept]
  exact h

/-- The outcome of passing a frame on. -/
def passedOn (p : CanPublisher) (f : CanFrame) (result : ℤ) : PublishOutcome where
  result := result
  publisher := some (if result = 0 then { p with sequence := p.sequence + 1 } else p)
  sent := some f

/-- A publisher that passes frames on. -/
theorem publish_upholds {p : CanPublisher} {e : Estimate ℚ} {d : UInt32} {f : CanFrame}
    {w : C.World}
    (hon : p.enabled = true) (hset : p.transportSend = true) (hf : p.frame e d = some f)
    (h : w.sentOrPending = ms) :
    (CanPublisher.publish (some p) e d).Upholds C.spi
      (fun v => v.sentOrPending = ms ∨ v.sentOrPending = ms ++ [message f])
      (fun o v => ∃ result, o = some (passedOn p f result) ∧
        v.sentOrPending = ms ++ if result = 0 then [message f] else []) w := by
  have hprog : CanPublisher.publish (some p) e d
      = sendFrame (some f) >>= fun result => Prog.done (some (passedOn p f result)) := by
    rw [CanPublisher.publish, if_neg (by rw [hon]; exact Bool.noConfusion),
      if_neg (by rw [hset]; exact Bool.noConfusion), hf]
    rfl
  rw [hprog]
  refine .bind ((CanController.sendFrame_upholds f h).imp (fun v hv => hv)
    fun result v hinv hv => ?_)
  exact done_upholds (fun ns => ns = ms ∨ ns = ms ++ [message f])
    (fun o ns => ∃ result, o = some (passedOn p f result) ∧
      ns = ms ++ if result = 0 then [message f] else []) hinv ⟨result, rfl, hv⟩

/-- A publisher that passes nothing on. -/
theorem publish_quiet {p : CanPublisher} (h : ¬ (p.enabled = true ∧ p.transportSend = true))
    (e : Estimate ℚ) (d : UInt32) :
    ∃ result, CanPublisher.publish (some p) e d
      = .done (some { result := result, publisher := some p, sent := none }) := by
  rw [CanPublisher.publish]
  by_cases hon : p.enabled = false
  · rw [if_pos hon]
    exact ⟨0, rfl⟩
  · have hunset : p.transportSend = false :=
      Bool.eq_false_iff.mpr fun hset => h ⟨Bool.eq_true_of_not_eq_false hon, hset⟩
    rw [if_neg hon, if_pos hunset]
    exact ⟨-2, rfl⟩

/-- What a pulse adds to the reports. -/
def reportOf (q : CanPublisher) (r : Pipeline ℚ × PulseResult) (d : UInt32) :
    List (Estimate ℚ × UInt32) :=
  if (q.enabled = true ∧ q.transportSend = true) ∧ r.2 = .accepted then
    [(r.1.pattern.estimate, d)]
  else []

/-- The telemetry of one pulse. -/
theorem telemetry_upholds {w : C.World} {r : Pipeline ℚ × PulseResult} {d : UInt32} {xs : List ℕ}
    (hinv : r.1.pattern.Inv xs) (h : Reported q reports t w.sentOrPending) :
    (t.telemetry r d).Upholds C.spi
      (fun v => Heard q.baseIdentifier (reports ++ reportOf q r d) v.sentOrPending)
      (fun o v => ∃ t', o = some t' ∧ t'.adapter = t.adapter ∧ t'.revolutions = t.revolutions ∧
        Reported q (reports ++ reportOf q r d) t' v.sentOrPending) w := by
  have hdone : ∀ (reports' : List (Estimate ℚ × UInt32)) (t' : ReceiveTask) (v : C.World),
      t'.adapter = t.adapter → t'.revolutions = t.revolutions →
      Reported q reports' t' v.sentOrPending →
      (Prog.done (some t') : Spi (Option ReceiveTask)).Upholds C.spi
        (fun v => Heard q.baseIdentifier reports' v.sentOrPending)
        (fun o v => ∃ t', o = some t' ∧ t'.adapter = t.adapter ∧
          t'.revolutions = t.revolutions ∧ Reported q reports' t' v.sentOrPending) v := by
    intro reports' t' v hadapter hrevolutions hreported
    exact done_upholds (Heard q.baseIdentifier reports')
      (fun o ms => ∃ t'', o = some t'' ∧ t''.adapter = t.adapter ∧
        t''.revolutions = t.revolutions ∧ Reported q reports' t'' ms)
      hreported.heard ⟨t', rfl, hadapter, hrevolutions, hreported⟩
  unfold telemetry
  by_cases hacc : r.2 = .accepted
  swap
  · rw [if_neg fun hc => hacc hc.1, reportOf, if_neg fun hc => hacc hc.2, List.append_nil]
    exact hdone reports t w rfl rfl h
  have hsome : t.canPublisher.isSome = true := by
    rw [h.publisher]
    rfl
  rw [if_pos ⟨hacc, hsome⟩, h.publisher]
  by_cases hactive : q.enabled = true ∧ q.transportSend = true
  · obtain ⟨f, hf, hid, hlen, henc⟩ := CanPublisher.frame_encodes hinv (counted q t.sends) d
    have hframe : FrameOf q.baseIdentifier (r.1.pattern.estimate, d) f := ⟨hid, hlen, henc⟩
    rw [reportOf, if_pos ⟨hactive, hacc⟩]
    refine .bind ((publish_upholds (p := counted q t.sends) hactive.1 hactive.2 hf rfl).imp
      (fun v hv => ?_) fun o v _ hv => ?_)
    · rcases hv with hv | hv
      · rw [hv]
        exact h.heard.mono (List.sublist_append_left _ _)
      · rw [hv]
        exact h.heard.concat hframe
    · obtain ⟨result, rfl, hv⟩ := hv
      have hreported : Reported q (reports ++ [(r.1.pattern.estimate, d)]) _
          (w.sentOrPending ++ if result = 0 then [message f] else []) := h.concat hframe
      rw [← hv] at hreported
      exact hdone _ _ v rfl rfl hreported
  · obtain ⟨result, hquiet⟩ := publish_quiet (p := counted q t.sends) hactive r.1.pattern.estimate d
    have hsame : { t with
        canPublisher := some (counted q t.sends)
        sends := t.sends ++ ([] : List CanFrame).map fun frame => (frame, result) } = t := by
      rw [List.map_nil, List.append_nil, ← h.publisher]
    rw [hquiet, reportOf, if_neg fun hc => hactive hc.1, List.append_nil, Prog.done_bind]
    refine hdone reports { t with
        canPublisher := some (counted q t.sends)
        sends := t.sends ++ ([] : List CanFrame).map fun frame => (frame, result) } w rfl rfl ?_
    rw [hsame]
    exact h

/-- The task after some events: the pipeline, the service and the calls are those of
`Adapter.handleAll`, and every report has been passed on. -/
structure Told (ble : BleCsc) (q : CanPublisher) (evs : List BlockageEvent)
    (t : ReceiveTask) (ms : List CanMessage) : Prop where
  adapter : t.adapter = ((Adapter.start ble : Adapter ℚ).handleAll evs).1
  revolutions : t.revolutions = ((Adapter.start ble : Adapter ℚ).handleAll evs).2
  reported : Reported q (attempted q ble evs) t ms

/-- One event more is at most one report more. -/
theorem attempted_concat (q : CanPublisher) (ble : BleCsc) (evs : List BlockageEvent)
    (ev : BlockageEvent) :
    attempted q ble (evs ++ [ev]) = attempted q ble evs
      ++ reportOf q (((Adapter.start ble : Adapter ℚ).handleAll evs).1.pipeline.ingest
          ev.timestampUs ev.durationUs) ev.durationUs := by
  rw [attempted, attempted, reportOf, Adapter.reports_append]
  by_cases hactive : q.enabled = true ∧ q.transportSend = true
  · rw [if_pos hactive, if_pos hactive, Adapter.reports, Adapter.reports, List.append_nil]
    congr 1
    rw [Adapter.estimate, Adapter.handleEvent_pipeline]
    by_cases hacc : (((Adapter.start ble : Adapter ℚ).handleAll evs).1.pipeline.ingest
        ev.timestampUs ev.durationUs).2 = .accepted
    · rw [if_pos hacc, if_pos ⟨hactive, hacc⟩]
    · rw [if_neg hacc, if_neg fun hc => hacc hc.2]
  · rw [if_neg hactive, if_neg hactive, if_neg fun hc => hactive hc.1, List.append_nil]

/-- Later events only add reports. -/
theorem attempted_sublist (q : CanPublisher) (ble : BleCsc) (evs fvs : List BlockageEvent) :
    (attempted q ble evs).Sublist (attempted q ble (evs ++ fvs)) := by
  unfold attempted
  by_cases hactive : q.enabled = true ∧ q.transportSend = true
  · rw [if_pos hactive, if_pos hactive, Adapter.reports_append]
    exact List.sublist_append_left _ _
  · rw [if_neg hactive, if_neg hactive]

/-- One event. -/
theorem handleEvent_upholds {w : C.World} (h : Told ble q evs t w.sentOrPending)
    (ev : BlockageEvent) :
    (t.handleEvent ev).Upholds C.spi
      (fun v => Heard q.baseIdentifier (attempted q ble (evs ++ [ev])) v.sentOrPending)
      (fun o v => ∃ t', o = some t' ∧ Told ble q (evs ++ [ev]) t' v.sentOrPending) w := by
  obtain ⟨xs, hinv⟩ := Adapter.inv_handleAll (a := Adapter.start ble) ⟨[], Pattern.Inv.init⟩
    (evs ++ [ev])
  rw [Adapter.handleAll_append, Adapter.handleAll_singleton, Adapter.handleEvent_pipeline,
    ← h.adapter] at hinv
  rw [attempted_concat, ← h.adapter]
  refine .bind ((telemetry_upholds hinv h.reported).imp (fun v hv => hv) fun o v _ hv => ?_)
  obtain ⟨t', rfl, hadapter, hrevolutions, hreported⟩ := hv
  refine done_upholds (Heard q.baseIdentifier _)
    (fun o ms => ∃ t', o = some t' ∧ Told ble q (evs ++ [ev]) t' ms) hreported.heard
    ⟨_, rfl, ?_, ?_, ?_⟩
  · rw [Adapter.handleAll_append, Adapter.handleAll_singleton, ← h.adapter, ← hadapter]
  · rw [Adapter.handleAll_append, Adapter.handleAll_singleton, ← h.adapter, ← hadapter,
      ← h.revolutions, ← hrevolutions]
  · rw [attempted_concat, ← h.adapter]
    exact { hreported with }

/-- All events. -/
theorem handleAll_upholds {w : C.World} (h : Told ble q evs t w.sentOrPending)
    (fvs : List BlockageEvent) :
    (t.handleAll fvs).Upholds C.spi
      (fun v => Heard q.baseIdentifier (attempted q ble (evs ++ fvs)) v.sentOrPending)
      (fun o v => ∃ t', o = some t' ∧ Told ble q (evs ++ fvs) t' v.sentOrPending) w := by
  induction fvs generalizing t evs w with
  | nil =>
    rw [List.append_nil]
    exact done_upholds (Heard q.baseIdentifier (attempted q ble evs))
      (fun o ms => ∃ t', o = some t' ∧ Told ble q evs t' ms) h.reported.heard ⟨t, rfl, h⟩
  | cons ev fvs ih =>
    have hassoc : evs ++ ev :: fvs = (evs ++ [ev]) ++ fvs := by simp
    rw [hassoc]
    refine .bind ((handleEvent_upholds h ev).imp (fun v hv => hv.mono ?_) fun o v _ hv => ?_)
    · exact attempted_sublist q ble (evs ++ [ev]) fvs
    · obtain ⟨t', rfl, ht'⟩ := hv
      exact ih ht'

theorem told_start (C : CanController) (ble : BleCsc) (q : CanPublisher) :
    Told ble q [] (start ble (some q))
      ({ controller := C.start, bus := [] } : C.World).sentOrPending where
  adapter := rfl
  revolutions := rfl
  reported := by
    have hnone : attempted q ble [] = [] := ite_self []
    rw [hnone]
    refine ⟨?_, .nil, ?_⟩
    · show some q = some { q with sequence := q.sequence + 0 }
      rw [UInt16.add_zero]
    · exact CanController.pending_of_idle (not_not.mpr C.start_idle)

/-- A pulse takes at most three transfers. -/
theorem handleEvent_within (t : ReceiveTask) (ev : BlockageEvent) :
    (t.handleEvent ev).Within 3 := by
  have hpublish : ∀ e d, (CanPublisher.publish t.canPublisher e d).Within 3 := by
    intro e d
    unfold CanPublisher.publish
    cases t.canPublisher with
    | none => trivial
    | some q =>
      by_cases hactive : q.enabled = true ∧ q.transportSend = true
      · show (if _ then _ else _ : Spi (Option PublishOutcome)).Within 3
        rw [if_neg (by rw [hactive.1]; exact Bool.noConfusion),
          if_neg (by rw [hactive.2]; exact Bool.noConfusion)]
        cases q.frame e d with
        | none => trivial
        | some f => exact (CanController.sendFrame_within (some f)).bind (m := 0) fun _ => trivial
      · obtain ⟨result, hquiet⟩ := publish_quiet hactive e d
        rw [CanPublisher.publish] at hquiet
        show (if _ then _ else _ : Spi (Option PublishOutcome)).Within 3
        rw [hquiet]
        trivial
  have htelemetry : ∀ r d, (t.telemetry r d).Within 3 := by
    intro r d
    unfold telemetry
    by_cases hc : r.2 = .accepted ∧ t.canPublisher.isSome = true
    · rw [if_pos hc]
      exact (hpublish _ _).bind (m := 0) fun _ => trivial
    · rw [if_neg hc]
      trivial
  exact (htelemetry _ _).bind (m := 0) fun _ => trivial

/-- The task asks for at most three transfers an event, so it comes to the end of its
events. -/
theorem handleAll_within (t : ReceiveTask) (evs : List BlockageEvent) :
    (t.handleAll evs).Within (3 * evs.length) := by
  induction evs generalizing t with
  | nil => trivial
  | cons ev evs ih =>
    rw [List.length_cons, Nat.mul_succ, Nat.add_comm]
    refine (t.handleEvent_within ev).bind fun o => ?_
    cases o with
    | none => exact Prog.Within.mono (n := 0) trivial (Nat.zero_le _)
    | some t => exact ih t

/-- For every sequence of dequeued events, whichever transfers fail and whenever the controller
completes a transmission:

- at any moment the messages on the bus, with the one that is still to come, read as the
  estimates after some of the accepted pulses, in order and each at most once;
- at most three transfers are made for an event;
- once the events have been handled, the estimator, the service and the revolutions are those
  of `Adapter.handleAll`; every estimate after an accepted pulse has been passed on in one frame,
  in order; the messages are the frames that were taken; and `sequence` counts them.

A publisher that is disabled or has no transport passes nothing on. -/
theorem telemetry_on_bus (C : CanController) (ble : BleCsc) (q : CanPublisher)
    (evs : List BlockageEvent) {ls : List (Bool ⊕ Unit)} {p : Spi (Option ReceiveTask)}
    {w : C.World}
    (hrun : (Interaction.execution C.spi ((start ble (some q)).handleAll evs)
      { controller := C.start, bus := [] }).run ls = some (p, w)) :
    (∃ rs, rs.Sublist (attempted q ble evs) ∧
      List.Forall₂ (Carries q.baseIdentifier) rs (w.bus ++ C.pending w.controller)) ∧
    ls.countP Sum.isLeft ≤ 3 * evs.length ∧
    ∀ r, p = .done r → ∃ t, r = some t ∧
      (t.adapter, t.revolutions) = (Adapter.start ble : Adapter ℚ).handleAll evs ∧
      List.Forall₂ (fun s r => FrameOf q.baseIdentifier r s.1) t.sends (attempted q ble evs) ∧
      w.bus ++ C.pending w.controller = (taken t.sends).map message ∧
      t.canPublisher
        = some { q with sequence := q.sequence + UInt16.ofNat (taken t.sends).length } := by
  obtain ⟨hheard, hdone⟩ := (handleAll_upholds (told_start C ble q) evs).sound hrun
  refine ⟨hheard, (handleAll_within _ evs).sound hrun, fun r hr => ?_⟩
  obtain ⟨t, ht, htold⟩ := hdone r hr
  refine ⟨t, ht, ?_, htold.reported.sends, htold.reported.bus, htold.reported.publisher⟩
  rw [htold.adapter, htold.revolutions]
  rfl

/-- A pulse that is too short, and three that are accepted. -/
def fourPulses : List BlockageEvent := [⟨1000, 30⟩, ⟨2000, 400⟩, ⟨4000, 500⟩, ⟨6000, 600⟩]

/-- The first frame is still to be transmitted when the second is tried, which is refused; after
it has been completed, the third goes out. -/
def fourPulsesLabels : List (Bool ⊕ Unit) :=
  [.inl true, .inl true, .inl true, .inl true, .inr (), .inl true, .inl true, .inl true, .inr ()]

/-- The task that a program has returned. -/
def returned : Spi (Option ReceiveTask) → Option ReceiveTask
  | .done t => t
  | .ask _ _ => none

theorem eq_done_of_returned {p : Spi (Option ReceiveTask)} {t : ReceiveTask}
    (h : returned p = some t) : p = .done (some t) := by
  cases p with
  | done a => exact congrArg Prog.done h
  | ask q next => cases h

theorem fourPulses_on_bus :
    ∃ t w, (Interaction.execution CanController.registerFile.spi
        ((start .init (some (.init true 0x180 true))).handleAll fourPulses)
        { controller := CanController.registerFile.start, bus := [] }).run fourPulsesLabels
          = some (.done (some t), w) ∧
      w.bus.map (CanMessage.telemetry 0x180)
        = [some ⟨0, 0, 0, 400, 0⟩, some ⟨0, 0, 0, 600, 0⟩] ∧
      t.sends.map Prod.snd = [0, -3, 0] ∧
      t.canPublisher = some { CanPublisher.init true 0x180 true with sequence := 2 } ∧
      ∃ rs, rs.Sublist (attempted (.init true 0x180 true) .init fourPulses) ∧
        List.Forall₂ (Carries 0x180) rs
          (w.bus ++ CanController.registerFile.pending w.controller) := by
  have hread : ((Interaction.execution CanController.registerFile.spi
      ((start .init (some (.init true 0x180 true))).handleAll fourPulses)
      { controller := CanController.registerFile.start, bus := [] }).run fourPulsesLabels).bind
        (fun s => (returned s.1).map fun t =>
          (s.2.bus.map (CanMessage.telemetry 0x180), t.sends.map Prod.snd))
      = some ([some ⟨0, 0, 0, 400, 0⟩, some ⟨0, 0, 0, 600, 0⟩], [0, -3, 0]) := by
    decide +kernel
  obtain ⟨⟨p, w⟩, hrun, hend⟩ := Option.bind_eq_some_iff.mp hread
  obtain ⟨t, hreturned, hend⟩ := Option.map_eq_some_iff.mp hend
  obtain ⟨hbus, hresults⟩ := Prod.mk.inj hend
  have hp : p = .done (some t) := eq_done_of_returned hreturned
  subst hp
  obtain ⟨hheard, -, hdone⟩ := telemetry_on_bus CanController.registerFile .init
    (.init true 0x180 true) fourPulses hrun
  obtain ⟨t', ht, -, -, -, hpublisher⟩ := hdone _ rfl
  cases ht
  have htaken : (taken t.sends).length = 2 := by
    have hlength : (taken t.sends).length = (t.sends.map Prod.snd).countP (· == 0) := by
      rw [taken, List.length_map, ← List.countP_eq_length_filter, List.countP_map]
      rfl
    rw [hlength, hresults]
    rfl
  rw [htaken] at hpublisher
  exact ⟨t, w, hrun, hbus, hresults, hpublisher, hheard⟩

end ReceiveTask

end SpokeSensor
