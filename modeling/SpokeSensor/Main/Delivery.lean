import SpokeSensor.Main.ReceiveLoop

/-!
# Delivery of captured phases

The interrupt `rx_done` (`ir_spoke_rmt_adapter.c:42–74`) sends the low phases of a capture to a
queue of 32, and `receive_loop` (91–126) empties the queue before it arms the next reception. So
at any time only one of the two can act on the queue:

- `Stage`: the interrupt runs while the task waits for its notification, and an interrupt always
  finds the queue empty. It sends its whole capture before the task removes a single event, so a
  capture of more than 32 phases does not fit, although up to 256 phases fit the buffer given to
  `rmt_receive`.
- `Counted`: while the interrupt runs, the queue holds what fits of the phases sent so far; all
  earlier captures have reached the pipeline as far as they fitted.
- `nothing_lost_iff`: over every run, nothing is lost exactly when no capture has more than 32
  phases. `thirty_third_dropped` is the run that loses one.
-/

namespace SpokeSensor

namespace ReceiveState

set_option linter.unusedSectionVars false

variable {F : Type} [Add F] [Sub F] [Mul F] [Div F] [LT F] [DecidableLT F]
  [LE F] [DecidableLE F] [CFloat F]
  {res : UInt32} {ble : BleCsc} {s t : ReceiveState F} {a : ReceiveAction}
  {as : List ReceiveAction}

/-! ## One action

The interrupt and the task take turns at the granularity of their accesses to the
queue and the notification count. Everything below goes through this one case
analysis.
-/

/-- Everything one action can do. -/
theorem step_cases (h : s.step res a = some t) :
    (a = .receive true ∧ s.task = .arm ∧ t = { s with armed := true, task := .wait }) ∨
    (a = .receive false ∧ s.task = .arm ∧ t = { s with task := .aborted }) ∨
    (∃ now symbols, a = .capture now symbols ∧ s.armed = true ∧ s.isr = none ∧
      t = { s with
        armed := false
        isr := some (rxEvents res now symbols, symbols.length)
        captured := s.captured ++ rxEvents res now symbols }) ∨
    (∃ event events count, a = .send ∧ s.isr = some (event :: events, count) ∧
      t = { s.sendFromIsr event with isr := some (events, count) }) ∨
    (∃ count, a = .finish ∧ s.isr = some ([], count) ∧
      t = { s with
        isr := none
        rxLastSymbolCount := UInt32.ofNat count
        rxCaptureCount := s.rxCaptureCount + 1
        notified := s.notified + 1 }) ∨
    (a = .takeNotification ∧ s.task = .wait ∧ 0 < s.notified ∧
      t = { s with notified := 0, task := .drain }) ∨
    (a = .dequeue ∧ s.task = .drain ∧ s.queue = [] ∧ t = { s with task := .arm }) ∨
    (∃ event queue, a = .dequeue ∧ s.task = .drain ∧ s.queue = event :: queue ∧
      t = { s with
        adapter := (s.adapter.handleEvent event).1
        queue
        ingested := s.ingested ++ [event]
        forwarded := s.forwarded ++ (s.adapter.handleEvent event).2 }) := by
  cases a with
  | receive ok =>
    simp only [step] at h
    split at h
    · rename_i htask
      cases ok with
      | true => exact .inl ⟨rfl, htask, by simpa using h.symm⟩
      | false => exact .inr (.inl ⟨rfl, htask, by simpa using h.symm⟩)
    · cases h
  | capture now symbols =>
    simp only [step] at h
    split at h
    · rename_i hguard
      exact .inr (.inr (.inl ⟨now, symbols, rfl, hguard.1, hguard.2.1, by simpa using h.symm⟩))
    · cases h
  | send =>
    simp only [step] at h
    split at h
    · rename_i event events count hisr
      exact .inr (.inr (.inr (.inl ⟨event, events, count, rfl, hisr, by simpa using h.symm⟩)))
    · cases h
  | finish =>
    simp only [step] at h
    split at h
    · rename_i count hisr
      exact .inr (.inr (.inr (.inr (.inl ⟨count, rfl, hisr, by simpa using h.symm⟩))))
    · cases h
  | takeNotification =>
    simp only [step] at h
    split at h
    · rename_i hguard
      exact .inr (.inr (.inr (.inr (.inr (.inl ⟨rfl, hguard.1, hguard.2, by simpa using h.symm⟩)))))
    · cases h
  | dequeue =>
    simp only [step] at h
    split at h
    · rename_i htask
      split at h
      · rename_i hqueue
        exact .inr (.inr (.inr (.inr (.inr (.inr (.inl
          ⟨rfl, htask, hqueue, by simpa using h.symm⟩))))))
      · rename_i event queue hqueue
        exact .inr (.inr (.inr (.inr (.inr (.inr (.inr
          ⟨event, queue, rfl, htask, hqueue, by simpa using h.symm⟩))))))
    · cases h

/-! ## Who may act

Five phases follow each other in a circle: the task arms the reception, waits, the
interrupt runs, the task is notified, and it empties the queue.
-/

/-- Which of the task and the interrupt can act, and on what queue. The interrupt runs
only while the task waits (`ir_spoke_rmt_adapter.c:92–100`), and the task empties the
queue before it arms the next reception (119), so an interrupt that begins finds it
empty. -/
inductive Stage (s : ReceiveState F) : Prop
  | arm : s.task = .arm → s.armed = false → s.isr = none → s.notified = 0 → s.queue = [] →
      Stage s
  | armed : s.task = .wait → s.armed = true → s.isr = none → s.notified = 0 → s.queue = [] →
      Stage s
  | interrupt : s.task = .wait → s.armed = false → s.isr ≠ none → s.notified = 0 → Stage s
  | notified : s.task = .wait → s.armed = false → s.isr = none → 0 < s.notified → Stage s
  | drain : s.task = .drain → s.armed = false → s.isr = none → s.notified = 0 → Stage s
  | aborted : s.task = .aborted → s.armed = false → s.isr = none → s.notified = 0 →
      s.queue = [] → Stage s

/-- Before it arms a reception the task has emptied the queue, and no interrupt runs. -/
theorem Stage.of_arm (h : Stage s) (ht : s.task = .arm) :
    s.armed = false ∧ s.isr = none ∧ s.notified = 0 ∧ s.queue = [] := by
  cases h <;> simp_all

/-- An armed reception finds the task waiting and the queue empty. -/
theorem Stage.of_armed (h : Stage s) (ha : s.armed = true) :
    s.task = .wait ∧ s.isr = none ∧ s.notified = 0 ∧ s.queue = [] := by
  cases h <;> simp_all

/-- While the interrupt runs the task waits for it. -/
theorem Stage.of_isr (h : Stage s) (hi : s.isr ≠ none) :
    s.task = .wait ∧ s.armed = false ∧ s.notified = 0 := by
  cases h <;> simp_all

theorem Stage.of_notified (h : Stage s) (hn : 0 < s.notified) :
    s.task = .wait ∧ s.armed = false ∧ s.isr = none := by
  cases h <;> simp_all

theorem Stage.of_drain (h : Stage s) (ht : s.task = .drain) :
    s.armed = false ∧ s.isr = none ∧ s.notified = 0 := by
  cases h <;> simp_all

/-- Sending touches the queue and the drop count only. -/
theorem sendFromIsr_cases (s : ReceiveState F) (e : BlockageEvent) :
    (s.queue.length < eventQueueLength ∧ s.sendFromIsr e = { s with queue := s.queue ++ [e] }) ∨
    (¬ s.queue.length < eventQueueLength ∧
      s.sendFromIsr e = { s with rxQueueDrops := s.rxQueueDrops + 1 }) := by
  unfold sendFromIsr
  split
  · exact .inl ⟨‹_›, rfl⟩
  · exact .inr ⟨‹_›, rfl⟩

/-- Every action leads to the next phase or stays in one. -/
theorem Stage.step (h : Stage s) (hstep : s.step res a = some t) : Stage t := by
  -- the stage names which of the eight actions are enabled
  rcases step_cases hstep with
    ⟨-, htask, rfl⟩ | ⟨-, htask, rfl⟩ | ⟨now, symbols, -, harmed, -, rfl⟩ |
    ⟨event, events, count, -, hisr, rfl⟩ | ⟨count, -, hisr, rfl⟩ | ⟨-, htask, hnotified, rfl⟩ |
    ⟨-, htask, hqueue, rfl⟩ | ⟨event, queue, -, htask, hqueue, rfl⟩
  · obtain ⟨-, hisr, hnotified, hqueue⟩ := h.of_arm htask
    exact .armed rfl rfl hisr hnotified hqueue
  · obtain ⟨harmed, hisr, hnotified, hqueue⟩ := h.of_arm htask
    exact .aborted rfl harmed hisr hnotified hqueue
  · obtain ⟨htask, -, hnotified, -⟩ := h.of_armed harmed
    exact .interrupt htask rfl (Option.some_ne_none _) hnotified
  · obtain ⟨htask, harmed, hnotified⟩ := h.of_isr (hisr ▸ Option.some_ne_none _)
    rcases s.sendFromIsr_cases event with ⟨-, heq⟩ | ⟨-, heq⟩ <;> rw [heq] <;>
      exact .interrupt htask harmed (Option.some_ne_none _) hnotified
  · obtain ⟨htask, harmed, -⟩ := h.of_isr (hisr ▸ Option.some_ne_none _)
    exact .notified htask harmed rfl (Nat.succ_pos _)
  · obtain ⟨-, harmed, hisr⟩ := h.of_notified hnotified
    exact .drain rfl harmed hisr rfl
  · obtain ⟨harmed, hisr, hnotified⟩ := h.of_drain htask
    exact .arm rfl harmed hisr hnotified hqueue
  · obtain ⟨harmed, hisr, hnotified⟩ := h.of_drain htask
    exact .drain htask harmed hisr hnotified

/-! ## Captures

A capture offers its events to the queue one after the other, and the queue takes the
first 32 of them: nothing is taken from it meanwhile. So what is kept is counted per
capture.
-/

/-- The phases of each capture of a run. -/
def captures (res : UInt32) (as : List ReceiveAction) : List (List BlockageEvent) :=
  as.filterMap fun
    | .capture now symbols => some (rxEvents res now symbols)
    | _ => none

/-- What the queue takes of so many captures. -/
def kept (cs : List (List BlockageEvent)) : ℕ :=
  (cs.map fun c => min c.length eventQueueLength).sum

theorem kept_append (cs ds : List (List BlockageEvent)) : kept (cs ++ ds) = kept cs + kept ds := by
  rw [kept, List.map_append, List.sum_append]
  rfl

theorem kept_singleton (c : List BlockageEvent) : kept [c] = min c.length eventQueueLength := by
  simp [kept]

/-- No more is kept than has been captured. -/
theorem kept_le (cs : List (List BlockageEvent)) : kept cs ≤ cs.flatten.length := by
  induction cs with
  | nil => exact le_rfl
  | cons c cs ih =>
    rw [List.flatten_cons, List.length_append, ← List.singleton_append, kept_append,
      kept_singleton]
    omega

/-- Everything is kept exactly when every capture fits the queue. -/
theorem kept_eq_iff (cs : List (List BlockageEvent)) :
    kept cs = cs.flatten.length ↔ ∀ c ∈ cs, c.length ≤ eventQueueLength := by
  induction cs with
  | nil => simp [kept]
  | cons c cs ih =>
    -- each capture keeps at most its length, so equal sums are equal terms
    have hle := kept_le cs
    rw [List.flatten_cons, List.length_append, ← List.singleton_append, kept_append,
      kept_singleton, List.singleton_append, List.forall_mem_cons, ← ih]
    omega

theorem captures_append (res : UInt32) (as bs : List ReceiveAction) :
    captures res (as ++ bs) = captures res as ++ captures res bs :=
  List.filterMap_append

/-- The captures so far, and what has become of their events. Between two interrupts
all that fitted has been handled or is queued; during one, what fits of the events
that it has sent so far. -/
structure Counted (cs : List (List BlockageEvent)) (s : ReceiveState F) : Prop where
  stage : Stage s
  captured : s.captured = cs.flatten
  idle : s.isr = none → s.ingested.length + s.queue.length = kept cs
  busy : ∀ events count, s.isr = some (events, count) → ∃ ds d, cs = ds ++ [d] ∧
    s.ingested.length = kept ds ∧ events.length ≤ d.length ∧
    s.queue.length = min (d.length - events.length) eventQueueLength

theorem counted_init (ble : BleCsc) : Counted [] (init ble : ReceiveState F) where
  stage := .arm rfl rfl rfl rfl rfl
  captured := rfl
  idle _ := rfl
  busy _ _ h := nomatch h

/-- An action that captures nothing. -/
theorem Counted.of_no_capture {cs : List (List BlockageEvent)} (h : Counted cs s)
    (ha : captures res [a] = []) : Counted (cs ++ captures res [a]) s := by
  rw [ha, List.append_nil]
  exact h

/-- One action keeps the books. -/
theorem Counted.step {cs : List (List BlockageEvent)} (h : Counted cs s)
    (hstep : s.step res a = some t) : Counted (cs ++ captures res [a]) t := by
  have hstage := h.stage.step hstep
  rcases step_cases hstep with ⟨rfl, htask, rfl⟩ | ⟨rfl, htask, rfl⟩ |
    ⟨now, symbols, rfl, harmed, hisr, rfl⟩ | ⟨event, events, count, rfl, hisr, rfl⟩ |
    ⟨count, rfl, hisr, rfl⟩ | ⟨rfl, htask, hnotified, rfl⟩ | ⟨rfl, htask, hqueue, rfl⟩ |
    ⟨event, queue, rfl, htask, hqueue, rfl⟩
  · exact Counted.of_no_capture ⟨hstage, h.captured, h.idle, h.busy⟩ rfl
  · exact Counted.of_no_capture ⟨hstage, h.captured, h.idle, h.busy⟩ rfl
  · -- the queue is empty when a capture starts
    obtain ⟨-, -, -, hqueue⟩ := h.stage.of_armed harmed
    have hidle := h.idle hisr
    rw [hqueue, List.length_nil, Nat.add_zero] at hidle
    rw [show captures res [.capture now symbols] = [rxEvents res now symbols] from rfl]
    refine ⟨hstage, ?_, fun hnone => (nomatch hnone), fun events count hsome => ?_⟩
    · rw [List.flatten_append, List.flatten_singleton, ← h.captured]
    · cases hsome
      refine ⟨cs, rxEvents res now symbols, rfl, hidle, le_rfl, ?_⟩
      show s.queue.length = _
      rw [hqueue, List.length_nil, Nat.sub_self, Nat.zero_min]
  · -- sent or dropped, the event is off the interrupt's list
    obtain ⟨ds, d, hcs, hingested, hle, hqueue⟩ := h.busy _ _ hisr
    rw [List.length_cons] at hle hqueue
    refine Counted.of_no_capture ?_ rfl
    rcases s.sendFromIsr_cases event with ⟨hroom, heq⟩ | ⟨hfull, heq⟩ <;> rw [heq] at hstage ⊢
    · refine ⟨hstage, h.captured, fun hnone => (nomatch hnone), fun events' count' hsome => ?_⟩
      cases hsome
      refine ⟨ds, d, hcs, hingested, by omega, ?_⟩
      show (s.queue ++ [event]).length = _
      rw [List.length_append, List.length_singleton]
      omega
    · refine ⟨hstage, h.captured, fun hnone => (nomatch hnone), fun events' count' hsome => ?_⟩
      cases hsome
      refine ⟨ds, d, hcs, hingested, by omega, ?_⟩
      show s.queue.length = _
      omega
  · -- the last capture is complete
    obtain ⟨ds, d, hcs, hingested, -, hqueue⟩ := h.busy _ _ hisr
    refine Counted.of_no_capture ?_ rfl
    refine ⟨hstage, h.captured, fun _ => ?_, fun events' count' hsome => (nomatch hsome)⟩
    show s.ingested.length + s.queue.length = _
    rw [hcs, kept_append, kept_singleton, hingested, hqueue, List.length_nil, Nat.sub_zero]
  · exact Counted.of_no_capture ⟨hstage, h.captured, h.idle, h.busy⟩ rfl
  · exact Counted.of_no_capture ⟨hstage, h.captured, h.idle, h.busy⟩ rfl
  · -- the interrupt does not run while the task empties the queue
    obtain ⟨-, hisr, -⟩ := h.stage.of_drain htask
    have hidle := h.idle hisr
    rw [hqueue, List.length_cons] at hidle
    refine Counted.of_no_capture ?_ rfl
    refine ⟨hstage, h.captured, fun _ => ?_, fun events' count' hsome => ?_⟩
    · show (s.ingested ++ [event]).length + queue.length = _
      rw [List.length_append, List.length_singleton]
      omega
    · exact absurd (hisr.symm.trans hsome) (by simp)

/-- By induction on the actions. -/
theorem counted_run (h : (system res ble).run as = some s) : Counted (captures res as) s := by
  refine Transition.System.invariant (P := fun as (s : ReceiveState F) =>
    Counted (captures res as) s) ?_ (fun as s a t hs hstep => ?_) h
  · exact counted_init ble
  · rw [captures_append]
    exact hs.step hstep

/-! ## Nothing lost

If every capture fits, no event is ever dropped, and the events that have been
handled, are queued and are still to be sent are all that have been captured, in
order. If one does not, the drop is counted by the end of its interrupt.
-/

/-- Nothing has been dropped, and every captured phase has been ingested, is queued,
or is about to be sent, in this order; when the task is about to arm the next
reception, all of them have been ingested. -/
structure NothingLost (s : ReceiveState F) : Prop where
  drops : s.rxQueueDrops = 0
  order : s.ingested ++ s.queue ++ s.pending = s.captured
  drained : s.task = .arm → s.ingested = s.captured

/-- The invariant of runs whose captures fit the queue. -/
structure Fits (s : ReceiveState F) : Prop where
  stage : Stage s
  drops : s.rxQueueDrops = 0
  order : s.ingested ++ s.queue ++ s.pending = s.captured
  room : s.isr ≠ none → s.queue.length + s.pending.length ≤ eventQueueLength

theorem Fits.nothingLost (h : Fits s) : NothingLost s where
  drops := h.drops
  order := h.order
  drained ht := by
    obtain ⟨-, hisr, -, hqueue⟩ := h.stage.of_arm ht
    have horder := h.order
    rwa [pending, hisr, hqueue, List.append_nil, List.append_nil] at horder

theorem fits_init (ble : BleCsc) : Fits (init ble : ReceiveState F) where
  stage := .arm rfl rfl rfl rfl rfl
  drops := rfl
  order := rfl
  room h := absurd rfl h

/-- An action whose capture fits keeps the account. -/
theorem Fits.step (h : Fits s) (hfit : ∀ c ∈ captures res [a], c.length ≤ eventQueueLength)
    (hstep : s.step res a = some t) : Fits t := by
  have hstage := h.stage.step hstep
  rcases step_cases hstep with ⟨rfl, htask, rfl⟩ | ⟨rfl, htask, rfl⟩ |
    ⟨now, symbols, rfl, harmed, hisr, rfl⟩ | ⟨event, events, count, rfl, hisr, rfl⟩ |
    ⟨count, rfl, hisr, rfl⟩ | ⟨rfl, htask, hnotified, rfl⟩ | ⟨rfl, htask, hqueue, rfl⟩ |
    ⟨event, queue, rfl, htask, hqueue, rfl⟩
  · exact ⟨hstage, h.drops, h.order, h.room⟩
  · exact ⟨hstage, h.drops, h.order, h.room⟩
  · obtain ⟨-, -, -, hqueue⟩ := h.stage.of_armed harmed
    have horder := h.order
    rw [pending, hisr, List.append_nil] at horder
    refine ⟨hstage, h.drops, ?_, fun _ => ?_⟩
    · show s.ingested ++ s.queue ++ rxEvents res now symbols = s.captured ++ _
      rw [horder]
    · show s.queue.length + (rxEvents res now symbols).length ≤ _
      rw [hqueue, List.length_nil, Nat.zero_add]
      exact hfit _ (List.mem_singleton_self _)
  · have hpending : s.pending = event :: events := by rw [pending, hisr]
    have hroom := h.room (hisr ▸ Option.some_ne_none _)
    rw [hpending, List.length_cons] at hroom
    have horder := h.order
    rw [hpending] at horder
    -- what is still to be sent fits, so the queue is not full
    rcases s.sendFromIsr_cases event with ⟨-, heq⟩ | ⟨hfull, -⟩
    · rw [heq] at hstage ⊢
      refine ⟨hstage, h.drops, ?_, fun _ => ?_⟩
      · show s.ingested ++ (s.queue ++ [event]) ++ events = s.captured
        rw [← horder]
        simp
      · show (s.queue ++ [event]).length + events.length ≤ _
        rw [List.length_append, List.length_singleton]
        omega
    · omega
  · have hpending : s.pending = [] := by rw [pending, hisr]
    have horder := h.order
    rw [hpending] at horder
    exact ⟨hstage, h.drops, horder, fun hne => absurd rfl hne⟩
  · exact ⟨hstage, h.drops, h.order, h.room⟩
  · exact ⟨hstage, h.drops, h.order, h.room⟩
  · obtain ⟨-, hisr, -⟩ := h.stage.of_drain htask
    have horder := h.order
    rw [hqueue] at horder
    refine ⟨hstage, h.drops, ?_, fun hne => absurd hisr hne⟩
    show s.ingested ++ [event] ++ queue ++ s.pending = s.captured
    rw [← horder]
    simp

theorem fits_run (h : (system res ble).run as = some s)
    (hfit : ∀ c ∈ captures res as, c.length ≤ eventQueueLength) : Fits s := by
  refine Transition.System.invariant (P := fun as (s : ReceiveState F) =>
    (∀ c ∈ captures res as, c.length ≤ eventQueueLength) → Fits s) ?_
    (fun as s a t hs hstep hfit => ?_) h hfit
  · exact fun _ => fits_init ble
  · rw [captures_append] at hfit
    exact (hs fun c hc => hfit c (List.mem_append_left _ hc)).step
      (fun c hc => hfit c (List.mem_append_right _ hc)) hstep

/-- The task empties the queue in as many steps as it holds events, and one more. -/
theorem drain_completes (res : UInt32) (ht : s.task = .drain) :
    ∃ t : ReceiveState F, (List.replicate (s.queue.length + 1) ReceiveAction.dequeue).foldl
        (fun s a => s.bind (step res · a)) (some s) = some t ∧
      t.task = .arm ∧ t.queue = [] ∧ t.ingested = s.ingested ++ s.queue := by
  generalize hq : s.queue = queue
  induction queue generalizing s with
  | nil =>
    refine ⟨{ s with task := .arm }, ?_, rfl, hq, (List.append_nil _).symm⟩
    show s.step res .dequeue = _
    simp only [step, if_pos ht, hq]
  | cons event queue ih =>
    have hstep : s.step res .dequeue = some { s with
        adapter := (s.adapter.handleEvent event).1
        queue
        ingested := s.ingested ++ [event]
        forwarded := s.forwarded ++ (s.adapter.handleEvent event).2 } := by
      simp only [step, if_pos ht, hq]
    obtain ⟨t, hrun, htask, hempty, hingested⟩ := ih (s := { s with
        adapter := (s.adapter.handleEvent event).1
        queue
        ingested := s.ingested ++ [event]
        forwarded := s.forwarded ++ (s.adapter.handleEvent event).2 }) ht rfl
    refine ⟨t, ?_, htask, hempty, ?_⟩
    · rw [List.length_cons, List.replicate_succ, List.foldl_cons, Option.bind_some, hstep]
      exact hrun
    · rw [hingested]
      simp

/-- A run at whose end no interrupt is running has lost nothing, at any time, exactly
when every capture has at most 32 low phases. The task removes no event while the
interrupt sends, so the queue has to take a whole capture. -/
theorem nothing_lost_iff (res : UInt32) (ble : BleCsc) (as : List ReceiveAction)
    {s : ReceiveState F} (hrun : (system res ble).run as = some s) (hisr : s.isr = none) :
    (∀ pre post t, as = pre ++ post → (system res ble).run pre = some t →
      NothingLost (t : ReceiveState F)) ↔
    ∀ c ∈ captures res as, c.length ≤ 32 := by
  constructor
  · intro hlossless
    -- at the end nothing is pending, so what was kept is what was captured
    have hend := (hlossless as [] s (List.append_nil as).symm hrun).order
    have hcounted := counted_run hrun
    refine (kept_eq_iff _).mp ?_
    rw [← hcounted.idle hisr, ← hcounted.captured, ← hend, pending, hisr, List.append_nil,
      List.length_append]
  · intro hfit pre post t hsplit hpre
    refine (fits_run hpre fun c hc => hfit c ?_).nothingLost
    rw [hsplit, captures_append]
    exact List.mem_append_left _ hc

/-- One blockage of 100 microseconds, 900 microseconds apart, at 1 MHz. -/
def blockage : RmtSymbol :=
  { duration0 := 100, level0 := false, duration1 := 900, level1 := true }

/-- A symbol with two low phases, the second of which is empty and has no event, and one with the
low phase second. -/
def doubleLow : List RmtSymbol :=
  [{ duration0 := 100, level0 := false, duration1 := 0, level1 := false },
    { duration0 := 900, level0 := true, duration1 := 140, level1 := false }]

/-- Two rounds: three blockages and two low phases, and then two blockages. -/
def twoRounds : List ReceiveAction :=
  [.receive true, .capture 5000 (List.replicate 3 blockage ++ doubleLow)]
    ++ List.replicate 5 .send ++ [.finish, .takeNotification] ++ List.replicate 6 .dequeue
    ++ [.receive true, .capture 9000 (List.replicate 2 blockage), .send, .send, .finish,
      .takeNotification, .dequeue, .dequeue, .dequeue]

/-- The seven phases of the two captures are not lost. -/
theorem nothing_lost_two_rounds :
    (captures 1000000 twoRounds).map List.length = [5, 2] ∧
      ∀ pre post t, twoRounds = pre ++ post → (system 1000000 .init).run pre = some t →
        NothingLost (t : ReceiveState ℚ) := by
  have hlengths : (captures 1000000 twoRounds).map List.length = [5, 2] := by decide +kernel
  obtain ⟨s, hrun, hisr⟩ : ∃ s : ReceiveState ℚ,
      (system 1000000 .init).run twoRounds = some s ∧ s.isr = none := by
    have hend : ((system 1000000 .init).run twoRounds : Option (ReceiveState ℚ)).map isr
        = some none := by
      decide +kernel
    exact Option.map_eq_some_iff.mp hend
  refine ⟨hlengths, (nothing_lost_iff 1000000 .init twoRounds hrun hisr).mpr fun c hc => ?_⟩
  have hmem : c.length ∈ (captures 1000000 twoRounds).map List.length := List.mem_map_of_mem hc
  rw [hlengths] at hmem
  simp only [List.mem_cons, List.not_mem_nil, or_false] at hmem
  omega

/-- A capture of 33 blockages, well within the buffer of 128 symbols. -/
def thirtyThree : List ReceiveAction :=
  [.receive true, .capture 100000 (List.replicate 33 blockage)] ++ List.replicate 33 .send

/-- The interrupt drops the last of them. -/
theorem thirty_third_dropped :
    (List.replicate 33 blockage).length ≤ rxSymbolCount ∧
      ((system 1000000 .init).run thirtyThree : Option (ReceiveState ℚ)).map
        (fun s => (s.rxQueueDrops, s.queue.length, s.captured.length)) = some (1, 32, 33) := by
  refine ⟨by decide, ?_⟩
  decide +kernel

end ReceiveState

end SpokeSensor
