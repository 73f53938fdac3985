import SpokeSensor.Main.Delivery
import SpokeSensor.Lib.LossyQueue

/-!
# Every phase accounted for

The interrupt and the task (`ir_spoke_rmt_adapter.c:42–126`) as producer and consumer of a lossy
queue.

- `interleaving`: the interrupt may come at any time at which it is not running, with any number
  of symbols, whether or not a reception has been armed. Every run of `system` is one of these
  (`interleaving_of_system`).
- `Books`: along each of them the queue does what a `LossyQueue` of 32 places does, to which the
  captured phases are offered one by one.
- `adapter_run`: the log of ingested events is what the pipeline and the service have seen.
- `delivery_accounted`: what reaches the pipeline is captured phases in order, and
  `rx_queue_drops` counts the others.
-/

namespace SpokeSensor

namespace ReceiveState

set_option linter.unusedSectionVars false

variable {F : Type} [Add F] [Sub F] [Mul F] [Div F] [LT F] [DecidableLT F]
  [LE F] [DecidableLE F] [CFloat F]
  {res : UInt32} {ble : BleCsc} {s t : ReceiveState F} {a : ReceiveAction}
  {as : List ReceiveAction}

/-- One action, where the interrupt needs no armed reception. -/
def interleavedStep (res : UInt32) (s : ReceiveState F) : ReceiveAction → Option (ReceiveState F)
  | .capture now symbols =>
    if s.isr = none then
      let events := rxEvents res now symbols
      some { s with
        armed := false
        isr := some (events, symbols.length)
        captured := s.captured ++ events }
    else none
  | a => s.step res a

/-- The interrupt at any time, and the task. -/
def interleaving (res : UInt32) (ble : BleCsc) :
    Transition.System (ReceiveState F) ReceiveAction where
  init := init ble
  step := interleavedStep res

/-- Where the interrupt waits for an armed reception, it does nothing else. -/
theorem interleavedStep_of_step (h : s.step res a = some t) : s.interleavedStep res a = some t := by
  cases a with
  | capture now symbols =>
    obtain ⟨⟨-, hisr, -⟩, heq⟩ := Option.ite_none_right_eq_some.mp h
    rw [interleavedStep, if_pos hisr]
    exact heq
  | receive ok => exact h
  | send => exact h
  | finish => exact h
  | takeNotification => exact h
  | dequeue => exact h

/-- A capture starts, or the action is one of `step` and no capture. -/
theorem interleavedStep_cases (h : s.interleavedStep res a = some t) :
    (∃ now symbols, a = .capture now symbols ∧ s.isr = none ∧
      t = { s with
        armed := false
        isr := some (rxEvents res now symbols, symbols.length)
        captured := s.captured ++ rxEvents res now symbols }) ∨
    (captures res [a] = [] ∧ s.step res a = some t) := by
  cases a with
  | capture now symbols =>
    obtain ⟨hisr, heq⟩ := Option.ite_none_right_eq_some.mp h
    exact .inl ⟨now, symbols, rfl, hisr, by simpa using heq.symm⟩
  | receive ok => exact .inr ⟨rfl, h⟩
  | send => exact .inr ⟨rfl, h⟩
  | finish => exact .inr ⟨rfl, h⟩
  | takeNotification => exact .inr ⟨rfl, h⟩
  | dequeue => exact .inr ⟨rfl, h⟩

theorem interleaving_of_system (h : (system res ble).run as = some s) :
    (interleaving res ble).run as = some s := by
  induction as using List.reverseRecOn generalizing s with
  | nil => exact h
  | append_singleton as a ih =>
    obtain ⟨t, ht, hstep⟩ := Transition.System.run_concat_eq_some h
    rw [Transition.System.run_concat, ih ht]
    exact interleavedStep_of_step hstep

/-! ## The books

What is offered, taken and dropped (`LossyQueue`), with the phases of the captures as
what is offered. The task and the interrupt may act in any order here, so the queue
may be emptied while it is being filled.
-/

/-- The state seen as a lossy queue: what the interrupt has still to send has not been
offered yet, what the task has handled is taken, and the counter of the drops is that
of the queue in 32 bits. -/
structure Books (phases : List BlockageEvent) (s : ReceiveState F)
    (q : LossyQueue BlockageEvent) : Prop where
  balanced : q.Balanced
  phases : phases = q.offered ++ s.pending
  taken : q.taken = s.ingested
  queue : q.queue = s.queue
  drops : s.rxQueueDrops = UInt32.ofNat q.drops

/-- `xQueueSendFromISR` is an offer. -/
theorem Books.send {phases : List BlockageEvent} {q : LossyQueue BlockageEvent}
    {event : BlockageEvent} {events : List BlockageEvent} {count : ℕ} (h : Books phases s q)
    (hisr : s.isr = some (event :: events, count)) :
    Books phases { s.sendFromIsr event with isr := some (events, count) }
      (q.offer eventQueueLength event) := by
  have hphases : phases = q.offered ++ [event] ++ events := by
    have hsplit := h.phases
    rw [pending, hisr] at hsplit
    rw [hsplit, List.append_assoc, List.singleton_append]
  have hbalanced := h.balanced.offer eventQueueLength event
  rcases s.sendFromIsr_cases event with ⟨hroom, heq⟩ | ⟨hfull, heq⟩
  · rw [← h.queue] at hroom
    rw [LossyQueue.offer, if_pos hroom] at hbalanced ⊢
    rw [heq]
    exact {
      balanced := hbalanced
      phases := hphases
      taken := h.taken
      queue := congrArg (· ++ [event]) h.queue
      drops := h.drops }
  · rw [← h.queue] at hfull
    rw [LossyQueue.offer, if_neg hfull] at hbalanced ⊢
    rw [heq]
    exact {
      balanced := hbalanced
      phases := hphases
      taken := h.taken
      queue := h.queue
      drops := by
        show s.rxQueueDrops + 1 = UInt32.ofNat (q.drops + 1)
        rw [h.drops, UInt32.ofNat_add]
        rfl }

/-- `xQueueReceive` takes the first event. -/
theorem Books.dequeue {phases : List BlockageEvent} {q : LossyQueue BlockageEvent}
    {event : BlockageEvent} {queue : List BlockageEvent} {adapter : Adapter F}
    {forwarded : List UInt64} (h : Books phases s q) (hqueue : s.queue = event :: queue) :
    Books phases { s with adapter, queue, ingested := s.ingested ++ [event], forwarded }
      q.take := by
  have htake : q.take = { q with taken := q.taken ++ [event], queue } := by
    rw [LossyQueue.take, h.queue, hqueue]
  have hbalanced := h.balanced.take
  rw [htake] at hbalanced ⊢
  exact {
    balanced := hbalanced
    phases := h.phases
    taken := congrArg (· ++ [event]) h.taken
    queue := rfl
    drops := h.drops }

/-- Every action offers one phase, takes one, or leaves the queue alone. -/
theorem Books.step {q : LossyQueue BlockageEvent} (h : Books (captures res as).flatten s q)
    (hstep : s.interleavedStep res a = some t) :
    ∃ q', Books (captures res (as ++ [a])).flatten t q' := by
  rw [captures_append, List.flatten_append]
  rcases interleavedStep_cases hstep with ⟨now, symbols, rfl, hisr, rfl⟩ | ⟨hnone, hstep⟩
  · -- the phases of the capture are all still to be sent
    have hphases := h.phases
    rw [pending, hisr, List.append_nil] at hphases
    refine ⟨q, { h with phases := ?_ }⟩
    rw [hphases]
    show q.offered ++ [rxEvents res now symbols].flatten = q.offered ++ rxEvents res now symbols
    rw [List.flatten_singleton]
  · rw [hnone, List.flatten_nil, List.append_nil]
    rcases step_cases hstep with ⟨-, -, rfl⟩ | ⟨-, -, rfl⟩ | ⟨now, symbols, rfl, -⟩ |
      ⟨event, events, count, -, hisr, rfl⟩ | ⟨count, -, hisr, rfl⟩ | ⟨-, -, -, rfl⟩ |
      ⟨-, -, -, rfl⟩ | ⟨event, queue, -, -, hqueue, rfl⟩
    · exact ⟨q, { h with }⟩
    · exact ⟨q, { h with }⟩
    · cases hnone
    · exact ⟨_, h.send hisr⟩
    · have hphases := h.phases
      rw [pending, hisr] at hphases
      exact ⟨q, { h with phases := hphases }⟩
    · exact ⟨q, { h with }⟩
    · exact ⟨q, { h with }⟩
    · exact ⟨_, h.dequeue hqueue⟩

theorem books_run (h : (interleaving res ble).run as = some s) :
    ∃ q, Books (captures res as).flatten s q :=
  Transition.System.invariant
    (P := fun as (s : ReceiveState F) => ∃ q, Books (captures res as).flatten s q)
    ⟨.empty, LossyQueue.balanced_empty, rfl, rfl, rfl, rfl⟩
    (fun _ _ _ _ ⟨_, h⟩ hstep => h.step hstep) h

/-- Every action but `xQueueReceive` of an event leaves the pipeline, the service and the two logs
of the task alone. -/
theorem adapter_step (h : s.interleavedStep res a = some t) :
    (t.adapter = s.adapter ∧ t.ingested = s.ingested ∧ t.forwarded = s.forwarded) ∨
      ∃ event, t.adapter = (s.adapter.handleEvent event).1 ∧
        t.ingested = s.ingested ++ [event] ∧
        t.forwarded = s.forwarded ++ (s.adapter.handleEvent event).2 := by
  rcases interleavedStep_cases h with ⟨_, _, -, -, rfl⟩ | ⟨-, hstep⟩
  · exact .inl ⟨rfl, rfl, rfl⟩
  · rcases step_cases hstep with ⟨-, -, rfl⟩ | ⟨-, -, rfl⟩ | ⟨_, _, -, -, -, rfl⟩ |
      ⟨event, events, count, -, -, rfl⟩ | ⟨_, -, -, rfl⟩ | ⟨-, -, -, rfl⟩ | ⟨-, -, -, rfl⟩ |
      ⟨event, queue, -, -, -, rfl⟩
    · exact .inl ⟨rfl, rfl, rfl⟩
    · exact .inl ⟨rfl, rfl, rfl⟩
    · exact .inl ⟨rfl, rfl, rfl⟩
    · rcases s.sendFromIsr_cases event with ⟨-, heq⟩ | ⟨-, heq⟩ <;> rw [heq] <;>
        exact .inl ⟨rfl, rfl, rfl⟩
    · exact .inl ⟨rfl, rfl, rfl⟩
    · exact .inl ⟨rfl, rfl, rfl⟩
    · exact .inl ⟨rfl, rfl, rfl⟩
    · exact .inr ⟨event, rfl, rfl, rfl⟩

/-- The pipeline and the service are where the ingested events leave them, one after
the other. -/
theorem adapter_run (h : (interleaving res ble).run as = some s) :
    s.adapter = ((Adapter.start ble).handleAll s.ingested).1 ∧
      s.forwarded = ((Adapter.start ble : Adapter F).handleAll s.ingested).2 := by
  refine Transition.System.invariant
    (P := fun _ (s : ReceiveState F) => s.adapter = ((Adapter.start ble).handleAll s.ingested).1 ∧
      s.forwarded = ((Adapter.start ble : Adapter F).handleAll s.ingested).2)
    ⟨rfl, rfl⟩ (fun _ s a t hs hstep => ?_) h
  rcases adapter_step hstep with ⟨hadapter, hingested, hforwarded⟩ |
    ⟨event, hadapter, hingested, hforwarded⟩
  · rw [hadapter, hingested, hforwarded]
    exact hs
  · -- one more event of the same sequence
    rw [hadapter, hingested, hforwarded, Adapter.handleAll_append, Adapter.handleAll_singleton,
      ← hs.1, ← hs.2]
    exact ⟨rfl, rfl⟩

/-- At every point of every interleaving, the pipeline and the service are where the
events of the log leave them that are passed to `ir_spoke_pipeline_ingest` one after
the other. These events, followed by those still queued, are captured phases in order,
each at most once. The captured phases that the interrupt has got to (all of them,
unless it is running) and that are missing among them are as many as `rx_queue_drops`
counts, modulo `2³²`. -/
theorem delivery_accounted (res : UInt32) (ble : BleCsc) (as : List ReceiveAction)
    (s : ReceiveState F) (hrun : (interleaving res ble).run as = some s) :
    (s.adapter = ((Adapter.start ble).handleAll s.ingested).1 ∧
      s.forwarded = ((Adapter.start ble : Adapter F).handleAll s.ingested).2) ∧
    (s.ingested ++ s.queue).Sublist (captures res as).flatten ∧
      ∃ handled, (captures res as).flatten = handled ++ s.pending ∧
        (s.isr = none → handled = (captures res as).flatten) ∧
        (s.ingested ++ s.queue).Sublist handled ∧
        (s.ingested ++ s.queue).length ≤ handled.length ∧
        s.rxQueueDrops.toNat
          = (handled.length - (s.ingested ++ s.queue).length) % 2 ^ 32 := by
  obtain ⟨q, hbooks⟩ := books_run hrun
  have horder := hbooks.balanced.order
  have hcount := hbooks.balanced.count
  rw [hbooks.taken, hbooks.queue] at horder hcount
  refine ⟨adapter_run hrun, ?_, q.offered, hbooks.phases, ?_, horder, horder.length_le, ?_⟩
  · rw [hbooks.phases]
    exact horder.trans (List.sublist_append_left _ _)
  · intro hisr
    rw [hbooks.phases, pending, hisr, List.append_nil]
  · rw [hbooks.drops, UInt32.toNat_ofNat', hcount, Nat.add_sub_cancel_left]

/-- A capture of 33 blockages, of which the queue takes 32. While the task empties the queue a
second capture comes, although no reception is armed; there is room for one of its two
blockages. -/
def twoOverflows : List ReceiveAction :=
  thirtyThree ++ [.finish, .takeNotification, .dequeue,
    .capture 200000 (List.replicate 2 blockage), .send, .send, .dequeue]

theorem delivery_accounted_overflows : ∃ s : ReceiveState ℚ,
    (interleaving 1000000 .init).run twoOverflows = some s ∧
      s.rxQueueDrops = 2 ∧ (s.ingested ++ s.queue).length = 33 ∧
      (captures 1000000 twoOverflows).flatten.length = 35 ∧
      s.adapter = ((Adapter.start .init).handleAll s.ingested).1 ∧
      (s.ingested ++ s.queue).Sublist (captures 1000000 twoOverflows).flatten := by
  have hcounts : ((interleaving 1000000 .init).run twoOverflows : Option (ReceiveState ℚ)).map
      (fun s => (s.rxQueueDrops, (s.ingested ++ s.queue).length)) = some (2, 33) := by
    decide +kernel
  obtain ⟨s, hrun, hs⟩ := Option.map_eq_some_iff.mp hcounts
  obtain ⟨hdrops, hlength⟩ := Prod.mk.inj hs
  obtain ⟨⟨hadapter, -⟩, hsublist, -⟩ := delivery_accounted 1000000 .init twoOverflows s hrun
  exact ⟨s, hrun, hdrops, hlength, by decide +kernel, hadapter, hsublist⟩

end ReceiveState

end SpokeSensor
