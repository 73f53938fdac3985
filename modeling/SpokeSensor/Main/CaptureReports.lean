import SpokeSensor.Main.Delivery

/-!
# What the task reports of the captures (`ir_spoke_rmt_adapter.c:100–116`)

When `receive_loop` has been notified it reads the three counters of `rx_done`, one
after the other (102–104), reports them (105–108), and reports the drops that it has
not reported yet (109–116). The counters are written by the interrupt without a lock
(65, 70–71).

- `Reading`, `read`: how far the task has come in reading; `reporting` interleaves
  every single read with the interrupt.
- `reportsFrom`, `dropReportsFrom`: the reports that a sequence of captures ought to
  get.
- `Counters`: what the counters hold at any moment, in terms of the captures so far.
- `Exact`: all captures have been reported but for the last one, from its beginning
  until the counters have been read and reported. Every step keeps this
  (`Exact.step`).
- `captures_reported`: the reports are one for each capture, with its number, its
  symbols and the drops so far, and one of the drops for each capture that the queue
  could not hold, with what it lost.
-/

namespace SpokeSensor

/-- The counters of an `IR_SPOKE_DEBUG_RMT_CAPTURE` event. -/
structure CaptureReport where
  captureCount : UInt32
  symbols : UInt32
  queueDrops : UInt32
  deriving DecidableEq, Repr

/-- The values of an overflow event. -/
structure DropReport where
  totalDrops : UInt32
  newDrops : UInt32
  deriving DecidableEq, Repr

/-- How far the task has come in reading the counters. -/
inductive Reading where
  /-- nothing is to be read -/
  | none
  | captureCount
  | symbols (captureCount : UInt32)
  | drops (captureCount symbols : UInt32)
  /-- all three have been read -/
  | report (r : CaptureReport)
  deriving DecidableEq

/-- The task with its local variables, and what it has reported. -/
structure ReportingState (F : Type) where
  receive : ReceiveState F
  reading : Reading
  reportedQueueDrops : UInt32
  captureReports : List CaptureReport
  dropReports : List DropReport

/-- An action of the interrupt or the task, or the next read or report. -/
inductive ReportingAction where
  | receive (a : ReceiveAction)
  | read

namespace ReportingState

set_option linter.unusedSectionVars false

variable {F : Type} [Add F] [Sub F] [Mul F] [Div F] [LT F] [DecidableLT F]
  [LE F] [DecidableLE F] [CFloat F]

/-- The two reports. -/
def report (s : ReportingState F) (r : CaptureReport) : ReportingState F :=
  let s := { s with reading := .none, captureReports := s.captureReports ++ [r] }
  if r.queueDrops ≠ s.reportedQueueDrops then
    { s with
      dropReports := s.dropReports
        ++ [{ totalDrops := r.queueDrops, newDrops := r.queueDrops - s.reportedQueueDrops }]
      reportedQueueDrops := r.queueDrops }
  else s

/-- The next read of a counter, or the reports. -/
def read (s : ReportingState F) : Option (ReportingState F) :=
  match s.reading with
  | .none => none
  | .captureCount => some { s with reading := .symbols s.receive.rxCaptureCount }
  | .symbols captureCount =>
    some { s with reading := .drops captureCount s.receive.rxLastSymbolCount }
  | .drops captureCount symbols =>
    some { s with
      reading := .report {
        captureCount := captureCount
        symbols := symbols
        queueDrops := s.receive.rxQueueDrops } }
  | .report r => some (s.report r)

/-- One action, where it is enabled: the counters are read after the notification has been
taken and before the queue is emptied. -/
def step (res : UInt32) (s : ReportingState F) : ReportingAction → Option (ReportingState F)
  | .receive .takeNotification =>
    (s.receive.step res .takeNotification).map fun t =>
      { s with receive := t, reading := .captureCount }
  | .receive .dequeue =>
    if s.reading = .none then
      (s.receive.step res .dequeue).map fun t => { s with receive := t }
    else none
  | .receive a => (s.receive.step res a).map fun t => { s with receive := t }
  | .read => s.read

/-- The task has just been created. -/
def init (ble : BleCsc) : ReportingState F where
  receive := .init ble
  reading := .none
  reportedQueueDrops := 0
  captureReports := []
  dropReports := []

/-- The interrupt, and the task with its reads. -/
def reporting (res : UInt32) (ble : BleCsc) :
    Transition.System (ReportingState F) ReportingAction where
  init := init ble
  step := step res

/-! ## What is to be reported

Reports by recursion on the captures: each of them is reported with the number of
captures and drops so far, and a report of drops follows where there have been new
ones. The counters are of 32 bits in the source, so all of these are modulo `2 ^ 32`.
-/

/-- The captures of a run: their events and their number of symbols. -/
def captures (res : UInt32) (as : List ReportingAction) : List (List BlockageEvent × ℕ) :=
  as.filterMap fun
    | .receive (.capture now symbols) => some (rxEvents res now symbols, symbols.length)
    | _ => none

/-- The events of a capture that the queue has no room for. -/
def excess (c : List BlockageEvent × ℕ) : ℕ := c.1.length - eventQueueLength

/-- What some captures have lost. -/
def lost (cs : List (List BlockageEvent × ℕ)) : ℕ := (cs.map excess).sum

/-- The reports of the captures, after `n` captures that have lost `m` events. -/
def reportsFrom (n m : ℕ) : List (List BlockageEvent × ℕ) → List CaptureReport
  | [] => []
  | c :: cs =>
    { captureCount := UInt32.ofNat (n + 1)
      symbols := UInt32.ofNat c.2
      queueDrops := UInt32.ofNat (m + excess c) } :: reportsFrom (n + 1) (m + excess c) cs

/-- The reports of the drops, after `m` of them. -/
def dropReportsFrom (m : ℕ) : List (List BlockageEvent × ℕ) → List DropReport
  | [] => []
  | c :: cs =>
    (if 0 < excess c then
      [{ totalDrops := UInt32.ofNat (m + excess c), newDrops := UInt32.ofNat (excess c) }]
    else []) ++ dropReportsFrom (m + excess c) cs

/-- Losses add up. -/
theorem lost_append (cs ds : List (List BlockageEvent × ℕ)) :
    lost (cs ++ ds) = lost cs + lost ds := by
  rw [lost, List.map_append, List.sum_append]
  rfl

theorem lost_singleton (c : List BlockageEvent × ℕ) : lost [c] = excess c := Nat.add_zero _

/-- One capture more is one report more, with the counters as they are by then. -/
theorem reportsFrom_concat (n m : ℕ) (cs : List (List BlockageEvent × ℕ))
    (c : List BlockageEvent × ℕ) :
    reportsFrom n m (cs ++ [c]) = reportsFrom n m cs
      ++ [{ captureCount := UInt32.ofNat (n + cs.length + 1)
            symbols := UInt32.ofNat c.2
            queueDrops := UInt32.ofNat (m + lost cs + excess c) }] := by
  induction cs generalizing n m with
  | nil => rfl
  | cons d cs ih =>
    have hlost : lost (d :: cs) = excess d + lost cs := rfl
    have hcount : n + 1 + cs.length = n + (cs.length + 1) := by omega
    rw [List.cons_append, reportsFrom, ih, reportsFrom, hlost, List.length_cons, ← Nat.add_assoc m,
      hcount]
    rfl

/-- One capture more is one report of drops more if it has lost anything. -/
theorem dropReportsFrom_concat (m : ℕ) (cs : List (List BlockageEvent × ℕ))
    (c : List BlockageEvent × ℕ) :
    dropReportsFrom m (cs ++ [c]) = dropReportsFrom m cs
      ++ if 0 < excess c then
        [{ totalDrops := UInt32.ofNat (m + lost cs + excess c)
           newDrops := UInt32.ofNat (excess c) }]
      else [] := by
  induction cs generalizing m with
  | nil => exact List.append_nil _
  | cons d cs ih =>
    have hlost : lost (d :: cs) = excess d + lost cs := rfl
    rw [List.cons_append, dropReportsFrom, ih, dropReportsFrom, hlost, ← Nat.add_assoc m,
      List.append_assoc]

/-! ## The counters

The interrupt writes three counters (`ir_spoke_rmt_adapter.c:65–71`): the events that
the queue did not take, the symbols of the last capture, and the captures. `Counters`
says what they are after some captures, at every point between two actions of the
interrupt.
-/

variable {res : UInt32} {ble : BleCsc} {s t : ReportingState F} {a : ReportingAction}
  {as : List ReportingAction} {cs : List (List BlockageEvent × ℕ)}

/-- A symbol has two phases, so a capture has at most twice as many events as symbols. -/
theorem length_rxEvents_le (res : UInt32) (now : UInt64) (symbols : List RmtSymbol) :
    (rxEvents res now symbols).length ≤ 2 * symbols.length := by
  have hall : ∀ cursor, (phasesFrom res cursor symbols).length ≤ 2 * symbols.length := by
    induction symbols with
    | nil => exact fun _ => le_rfl
    | cons x symbols ih =>
      intro cursor
      have hrest := ih (cursor
        + (ticksToUs res x.duration0 + ticksToUs res x.duration1).toUInt64)
      rw [phasesFrom, List.length_append, List.length_cons]
      refine (Nat.add_le_add (List.length_filter_le _ _) hrest).trans ?_
      rw [List.length_cons, List.length_cons, List.length_nil]
      omega
  exact hall _

/-- Everything one action can do. -/
theorem step_cases (h : s.step res a = some t) :
    (∃ r, a = .receive .takeNotification ∧ s.receive.step res .takeNotification = some r ∧
      t = { s with receive := r, reading := .captureCount }) ∨
    (∃ b r, a = .receive b ∧ b ≠ .takeNotification ∧ (b = .dequeue → s.reading = .none) ∧
      s.receive.step res b = some r ∧ t = { s with receive := r }) ∨
    (a = .read ∧ s.read = some t) := by
  cases a with
  | read => exact .inr (.inr ⟨rfl, h⟩)
  | receive b =>
    have hplain : ∀ (_ : b ≠ .takeNotification) (_ : b = .dequeue → s.reading = .none),
        (s.receive.step res b).map (fun r => { s with receive := r }) = some t →
        ∃ c r, ReportingAction.receive b = .receive c ∧ c ≠ .takeNotification ∧
          (c = .dequeue → s.reading = .none) ∧ s.receive.step res c = some r ∧
          t = { s with receive := r } := by
      intro htake hdequeue hmap
      obtain ⟨r, hr, rfl⟩ := Option.map_eq_some_iff.mp hmap
      exact ⟨b, r, rfl, htake, hdequeue, hr, rfl⟩
    cases b with
    | takeNotification =>
      obtain ⟨r, hr, rfl⟩ := Option.map_eq_some_iff.mp h
      exact .inl ⟨r, rfl, hr, rfl⟩
    | dequeue =>
      obtain ⟨hnone, hmap⟩ := Option.ite_none_right_eq_some.mp h
      exact .inr (.inl (hplain (by rintro ⟨⟩) (fun _ => hnone) hmap))
    | receive ok => exact .inr (.inl (hplain (by rintro ⟨⟩) (by rintro ⟨⟩) h))
    | capture now symbols => exact .inr (.inl (hplain (by rintro ⟨⟩) (by rintro ⟨⟩) h))
    | send => exact .inr (.inl (hplain (by rintro ⟨⟩) (by rintro ⟨⟩) h))
    | finish => exact .inr (.inl (hplain (by rintro ⟨⟩) (by rintro ⟨⟩) h))

/-- The actions of the interrupt and the task. -/
def received : ReportingAction → Option ReceiveAction
  | .receive a => some a
  | .read => none

/-- Reading is not an action of the interrupt or the task. -/
theorem read_receive (h : s.read = some t) : t.receive = s.receive := by
  unfold read at h
  cases hreading : s.reading with
  | none =>
    rw [hreading] at h
    cases h
  | captureCount =>
    rw [hreading] at h
    cases h
    rfl
  | symbols n =>
    rw [hreading] at h
    cases h
    rfl
  | drops n k =>
    rw [hreading] at h
    cases h
    rfl
  | report r =>
    rw [hreading] at h
    cases h
    unfold report
    dsimp only
    split <;> rfl

/-- Reading changes nothing of what is received. -/
theorem receive_run (h : (reporting res ble).run as = some s) :
    (ReceiveState.system res ble).run (as.filterMap received) = some s.receive := by
  refine Transition.System.run_of_simulation receive received rfl ?_ ?_ h
  · intro s a t b hstep hb
    rcases step_cases hstep with ⟨r, rfl, hr, rfl⟩ | ⟨c, r, rfl, -, -, hr, rfl⟩ | ⟨rfl, hread⟩
    · cases hb
      exact hr
    · cases hb
      exact hr
    · cases hb
  · intro s a t hstep hb
    rcases step_cases hstep with ⟨r, rfl, hr, rfl⟩ | ⟨c, r, rfl, -, -, hr, rfl⟩ | ⟨rfl, hread⟩
    · cases hb
    · cases hb
    · exact read_receive hread

/-- The counters after the captures `cs`; while the interrupt runs, the last of them
is not counted yet (`ir_spoke_rmt_adapter.c:70–71`), and of its events only those are
that have been dropped so far (65). -/
structure Counters (cs : List (List BlockageEvent × ℕ)) (s : ReceiveState F) : Prop where
  counted : ReceiveState.Counted (cs.map Prod.fst) s
  small : ∀ c ∈ cs, c.1.length ≤ 2 * rxSymbolCount
  idle : s.isr = none → s.rxCaptureCount = UInt32.ofNat cs.length ∧
    s.rxQueueDrops = UInt32.ofNat (lost cs) ∧
    ∀ c, cs.getLast? = some c → s.rxLastSymbolCount = UInt32.ofNat c.2
  busy : ∀ events count, s.isr = some (events, count) → ∃ ds d, cs = ds ++ [d] ∧ count = d.2 ∧
    s.rxCaptureCount = UInt32.ofNat ds.length ∧
    s.rxQueueDrops = UInt32.ofNat (lost ds + (d.1.length - events.length - eventQueueLength))

/-- The capture that an action begins. -/
def captureOf (res : UInt32) : ReceiveAction → List (List BlockageEvent × ℕ)
  | .capture now symbols => [(rxEvents res now symbols, symbols.length)]
  | _ => []

/-- The captures of `Delivery`, without the numbers of symbols. -/
theorem map_captureOf (res : UInt32) (b : ReceiveAction) :
    (captureOf res b).map Prod.fst = ReceiveState.captures res [b] := by
  cases b <;> rfl

/-- An action that captures nothing leaves the captures as they are. -/
theorem Counters.of_no_capture {r : ReceiveState F} {b : ReceiveAction} (h : Counters cs r)
    (hb : captureOf res b = []) : Counters (cs ++ captureOf res b) r := by
  rw [hb, List.append_nil]
  exact h

/-- The counters do not depend on the rest of the state. -/
theorem Counters.of_same {r r' : ReceiveState F} {b : ReceiveAction} (h : Counters cs r)
    (hb : captureOf res b = []) (hcounted : ReceiveState.Counted (cs.map Prod.fst) r')
    (hisr : r'.isr = r.isr) (hcount : r'.rxCaptureCount = r.rxCaptureCount)
    (hdrops : r'.rxQueueDrops = r.rxQueueDrops)
    (hlast : r'.rxLastSymbolCount = r.rxLastSymbolCount) :
    Counters (cs ++ captureOf res b) r' := by
  refine Counters.of_no_capture ⟨hcounted, h.small, ?_, ?_⟩ hb
  · rw [hisr, hcount, hdrops, hlast]
    exact h.idle
  · rw [hisr, hcount, hdrops]
    exact h.busy

/-- While the interrupt sends, the queue holds what has been sent and fits. -/
theorem Counters.sending {r : ReceiveState F} (h : Counters cs r) {events : List BlockageEvent}
    {count : ℕ} (hisr : r.isr = some (events, count)) :
    ∃ ds d, cs = ds ++ [d] ∧ count = d.2 ∧ r.rxCaptureCount = UInt32.ofNat ds.length ∧
      r.rxQueueDrops = UInt32.ofNat (lost ds + (d.1.length - events.length - eventQueueLength)) ∧
      events.length ≤ d.1.length ∧
      r.queue.length = min (d.1.length - events.length) eventQueueLength := by
  obtain ⟨ds, d, hcs, hcount, hcaptures, hdrops⟩ := h.busy _ _ hisr
  obtain ⟨ds', d', hcs', -, hle, hqueue⟩ := h.counted.busy _ _ hisr
  rw [hcs, List.map_append] at hcs'
  obtain ⟨-, hd⟩ := List.append_inj' hcs' rfl
  rw [← List.singleton_inj.mp hd] at hle hqueue
  exact ⟨ds, d, hcs, hcount, hcaptures, hdrops, hle, hqueue⟩

/-- Every action of the interrupt or the task keeps the counters right. Only the end
of the interrupt counts a capture; sending counts drops. -/
theorem Counters.step {r r' : ReceiveState F} {b : ReceiveAction} (h : Counters cs r)
    (hstep : r.step res b = some r') : Counters (cs ++ captureOf res b) r' := by
  have hcounted := h.counted.step hstep
  rw [← map_captureOf] at hcounted
  have hsame : captureOf res b = [] → ReceiveState.Counted (cs.map Prod.fst) r' := by
    intro hb
    rw [hb, List.map_nil, List.append_nil] at hcounted
    exact hcounted
  rw [← List.map_append] at hcounted
  rcases ReceiveState.step_cases hstep with ⟨rfl, -, rfl⟩ | ⟨rfl, -, rfl⟩ |
    ⟨now, symbols, rfl, -, hisr, rfl⟩ | ⟨event, events, count, rfl, hisr, rfl⟩ |
    ⟨count, rfl, hisr, rfl⟩ | ⟨rfl, -, -, rfl⟩ | ⟨rfl, -, -, rfl⟩ | ⟨event, queue, rfl, -, -, rfl⟩
  · exact h.of_same rfl (hsame rfl) rfl rfl rfl rfl
  · exact h.of_same rfl (hsame rfl) rfl rfl rfl rfl
  · -- a capture begins: nothing of it is counted yet
    obtain ⟨⟨-, -, hsymbols⟩, -⟩ := Option.ite_none_right_eq_some.mp hstep
    obtain ⟨hcaptures, hdrops, -⟩ := h.idle hisr
    refine ⟨hcounted, ?_, fun hnone => absurd hnone (Option.some_ne_none _), ?_⟩
    · intro c hc
      rcases List.mem_append.mp hc with hc | hc
      · exact h.small c hc
      · rw [List.mem_singleton.mp hc]
        exact (length_rxEvents_le res now symbols).trans (Nat.mul_le_mul_left 2 hsymbols)
    · intro events count hsome
      cases hsome
      refine ⟨cs, _, rfl, rfl, hcaptures, ?_⟩
      rw [Nat.sub_self, Nat.zero_sub, Nat.add_zero]
      exact hdrops
  · -- an event is dropped exactly when the queue holds 32 of this capture
    obtain ⟨ds, d, hcs, hcount, hcaptures, hdrops, hle, hqueue⟩ := h.sending hisr
    rw [List.length_cons] at hdrops hle hqueue
    refine Counters.of_no_capture ⟨hsame rfl, h.small,
      fun hnone => absurd hnone (Option.some_ne_none _), fun events' count' hsome => ?_⟩ rfl
    cases hsome
    refine ⟨ds, d, hcs, hcount, ?_, ?_⟩
    · rcases r.sendFromIsr_cases event with ⟨-, heq⟩ | ⟨-, heq⟩
      · rw [heq]
        exact hcaptures
      · rw [heq]
        exact hcaptures
    · rcases r.sendFromIsr_cases event with ⟨hroom, heq⟩ | ⟨hfull, heq⟩
      · have hsum : lost ds + (d.1.length - events.length - eventQueueLength)
            = lost ds + (d.1.length - (events.length + 1) - eventQueueLength) := by omega
        rw [heq, hsum]
        exact hdrops
      · have hsum : lost ds + (d.1.length - events.length - eventQueueLength)
            = lost ds + (d.1.length - (events.length + 1) - eventQueueLength) + 1 := by omega
        rw [heq, hsum, UInt32.ofNat_add, ← hdrops]
        rfl
  · -- the capture is counted
    obtain ⟨ds, d, hcs, hcount, hcaptures, hdrops, -, -⟩ := h.sending hisr
    rw [List.length_nil, Nat.sub_zero] at hdrops
    refine Counters.of_no_capture ⟨hsame rfl, h.small, fun _ => ⟨?_, ?_, ?_⟩,
      fun events' count' hsome => absurd hsome.symm (Option.some_ne_none _)⟩ rfl
    · show r.rxCaptureCount + 1 = _
      rw [hcs, hcaptures, List.length_append, UInt32.ofNat_add]
      rfl
    · rw [hcs, lost_append, lost_singleton]
      exact hdrops
    · intro c hc
      rw [hcs, List.getLast?_concat] at hc
      cases hc
      rw [← hcount]
  · exact h.of_same rfl (hsame rfl) rfl rfl rfl rfl
  · exact h.of_same rfl (hsame rfl) rfl rfl rfl rfl
  · exact h.of_same rfl (hsame rfl) rfl rfl rfl rfl

/-! ## The reports

The task reads the three counters one after the other
(`ir_spoke_rmt_adapter.c:102–104`) after it has been notified, and only afterwards
empties the queue and arms the next reception. So no interrupt runs while it reads,
and what it has read so far are the counters as they still are (`Current`).
-/

/-- What has been read so far are the counters as they are. -/
def Current (reading : Reading) (r : ReceiveState F) : Prop :=
  match reading with
  | .none => True
  | .captureCount => True
  | .symbols n => n = r.rxCaptureCount
  | .drops n k => n = r.rxCaptureCount ∧ k = r.rxLastSymbolCount
  | .report c => c = { captureCount := r.rxCaptureCount
                       symbols := r.rxLastSymbolCount
                       queueDrops := r.rxQueueDrops }

/-- The reports of the captures `ds`. -/
structure ReportsOf (ds : List (List BlockageEvent × ℕ)) (s : ReportingState F) : Prop where
  captures : s.captureReports = reportsFrom 0 0 ds
  drops : s.dropReports = dropReportsFrom 0 ds
  reported : s.reportedQueueDrops = UInt32.ofNat (lost ds)

/-- All captures have been reported but for the last one, from its beginning until the
counters have been read and reported. As the task reads between a notification and the
next reception, no interrupt writes a counter while it does. -/
structure Exact (cs : List (List BlockageEvent × ℕ)) (s : ReportingState F) : Prop where
  counters : Counters cs s.receive
  reading : s.reading ≠ .none → s.receive.task = .drain
  current : Current s.reading s.receive
  settled : s.receive.isr = none → s.receive.notified = 0 → s.reading = .none → ReportsOf cs s
  late : s.receive.isr ≠ none ∨ 0 < s.receive.notified ∨ s.reading ≠ .none →
    ∃ ds d, cs = ds ++ [d] ∧ ReportsOf ds s

/-- Nothing is read but between the notification and the emptying of the queue. -/
theorem Exact.reading_none (h : Exact cs s) (htask : s.receive.task ≠ .drain) :
    s.reading = .none := by
  by_contra hreading
  exact htask (h.reading hreading)

/-- The reports of the last capture. -/
theorem ReportsOf.report {ds : List (List BlockageEvent × ℕ)} {d : List BlockageEvent × ℕ}
    {r : CaptureReport} (h : ReportsOf ds s) (hsmall : d.1.length ≤ 2 * rxSymbolCount)
    (hr : r = { captureCount := UInt32.ofNat (ds.length + 1), symbols := UInt32.ofNat d.2
                queueDrops := UInt32.ofNat (lost ds + excess d) }) :
    ReportsOf (ds ++ [d]) (s.report r) := by
  have hdiff : UInt32.ofNat (lost ds + excess d) - UInt32.ofNat (lost ds)
      = UInt32.ofNat (excess d) := by
    rw [UInt32.ofNat_add, UInt32.add_comm, UInt32.add_sub_cancel]
  have hlt : excess d < UInt32.size := by
    have hle : excess d ≤ d.1.length := Nat.sub_le _ _
    exact lt_of_le_of_lt (hle.trans hsmall) (by decide)
  have hchanged : UInt32.ofNat (lost ds + excess d) ≠ UInt32.ofNat (lost ds) ↔ 0 < excess d := by
    rw [Nat.pos_iff_ne_zero, not_iff_not]
    constructor
    · intro heq
      rw [heq, UInt32.sub_self] at hdiff
      have hzero := congrArg UInt32.toNat hdiff
      rw [UInt32.toNat_ofNat_of_lt' hlt] at hzero
      exact hzero.symm
    · intro hzero
      rw [hzero, Nat.add_zero]
  have hreports : s.captureReports ++ [r] = reportsFrom 0 0 (ds ++ [d]) := by
    rw [reportsFrom_concat, h.captures, hr, Nat.zero_add, Nat.zero_add]
  rw [ReportingState.report]
  dsimp only
  rw [h.reported, hr]
  by_cases hpos : 0 < excess d
  · rw [if_pos (hchanged.mpr hpos)]
    refine ⟨hr ▸ hreports, ?_, ?_⟩
    · show s.dropReports ++ _ = _
      rw [dropReportsFrom_concat, if_pos hpos, h.drops, hdiff, Nat.zero_add]
    · show UInt32.ofNat (lost ds + excess d) = _
      rw [lost_append, lost_singleton]
  · rw [if_neg (mt hchanged.mp hpos)]
    refine ⟨hr ▸ hreports, ?_, ?_⟩
    · show s.dropReports = _
      rw [dropReportsFrom_concat, if_neg hpos, List.append_nil, h.drops]
    · show UInt32.ofNat (lost ds) = _
      rw [lost_append, lost_singleton, Nat.eq_zero_of_not_pos hpos, Nat.add_zero]

/-- An action of the interrupt or the task, apart from those at which the reports
begin and end. -/
theorem Exact.step_receive {r : ReceiveState F} {b : ReceiveAction} (h : Exact cs s)
    (hb : b ≠ .takeNotification) (hdequeue : b = .dequeue → s.reading = .none)
    (hstep : s.receive.step res b = some r) :
    Exact (cs ++ captureOf res b) { s with receive := r } := by
  have hcounters := h.counters.step hstep
  have hstage := h.counters.counted.stage
  -- no action of the task or the interrupt comes between the reads
  have hnone : s.reading = .none := by
    rcases ReceiveState.step_cases hstep with ⟨-, htask, -⟩ | ⟨-, htask, -⟩ |
      ⟨_, _, -, harmed, -, -⟩ | ⟨_, _, _, -, hisr, -⟩ | ⟨_, -, hisr, -⟩ | ⟨hb', -⟩ |
      ⟨hb', -⟩ | ⟨_, _, hb', -⟩
    · exact h.reading_none (by rw [htask]; exact TaskPhase.noConfusion)
    · exact h.reading_none (by rw [htask]; exact TaskPhase.noConfusion)
    · exact h.reading_none (by rw [(hstage.of_armed harmed).1]; exact TaskPhase.noConfusion)
    · have htask := (hstage.of_isr (hisr ▸ Option.some_ne_none _)).1
      exact h.reading_none (by rw [htask]; exact TaskPhase.noConfusion)
    · have htask := (hstage.of_isr (hisr ▸ Option.some_ne_none _)).1
      exact h.reading_none (by rw [htask]; exact TaskPhase.noConfusion)
    · exact absurd hb' hb
    · exact hdequeue hb'
    · exact hdequeue hb'
  have hreading : ({ s with receive := r } : ReportingState F).reading ≠ .none → r.task = .drain :=
    fun hne => absurd hnone hne
  have hcurrent : Current s.reading r := by
    rw [hnone]
    trivial
  -- the reports are as they were, for all captures or for all but the last
  have hsettled : captureOf res b = [] → ReportsOf cs s → r.isr = none → r.notified = 0 →
      Exact (cs ++ captureOf res b) { s with receive := r } := by
    intro hno hreports hisr hnotified
    rw [hno, List.append_nil] at hcounters ⊢
    refine ⟨hcounters, hreading, hcurrent, fun _ _ _ => ⟨hreports.captures, hreports.drops,
      hreports.reported⟩, fun hlate => ?_⟩
    rcases hlate with hne | hpos | hne
    · exact absurd hisr hne
    · exact absurd hnotified (Nat.pos_iff_ne_zero.mp hpos)
    · exact absurd hnone hne
  have hlate : ∀ ds d, cs ++ captureOf res b = ds ++ [d] → ReportsOf ds s →
      r.isr ≠ none ∨ 0 < r.notified →
      Exact (cs ++ captureOf res b) { s with receive := r } := by
    intro ds d hcs hreports hbusy
    refine ⟨hcounters, hreading, hcurrent, fun hisr hnotified _ => ?_, fun _ =>
      ⟨ds, d, hcs, hreports.captures, hreports.drops, hreports.reported⟩⟩
    rcases hbusy with hne | hpos
    · exact absurd hisr hne
    · exact absurd hnotified (Nat.pos_iff_ne_zero.mp hpos)
  rcases ReceiveState.step_cases hstep with ⟨rfl, htask, rfl⟩ | ⟨rfl, htask, rfl⟩ |
    ⟨now, symbols, rfl, harmed, hisr, rfl⟩ | ⟨event, events, count, rfl, hisr, rfl⟩ |
    ⟨count, rfl, hisr, rfl⟩ | ⟨rfl, -, -, rfl⟩ | ⟨rfl, htask, -, rfl⟩ |
    ⟨event, queue, rfl, htask, -, rfl⟩
  · obtain ⟨-, hisr, hnotified, -⟩ := hstage.of_arm htask
    exact hsettled rfl (h.settled hisr hnotified hnone) hisr hnotified
  · obtain ⟨-, hisr, hnotified, -⟩ := hstage.of_arm htask
    exact hsettled rfl (h.settled hisr hnotified hnone) hisr hnotified
  · obtain ⟨-, -, hnotified, -⟩ := hstage.of_armed harmed
    exact hlate cs _ rfl (h.settled hisr hnotified hnone) (.inl (Option.some_ne_none _))
  · obtain ⟨ds, d, hcs, hreports⟩ := h.late (.inl (hisr ▸ Option.some_ne_none _))
    exact hlate ds d ((List.append_nil cs).trans hcs) hreports (.inl (Option.some_ne_none _))
  · obtain ⟨ds, d, hcs, hreports⟩ := h.late (.inl (hisr ▸ Option.some_ne_none _))
    exact hlate ds d ((List.append_nil cs).trans hcs) hreports (.inr (Nat.succ_pos _))
  · exact absurd rfl hb
  · obtain ⟨-, hisr, hnotified⟩ := hstage.of_drain htask
    exact hsettled rfl (h.settled hisr hnotified hnone) hisr hnotified
  · obtain ⟨-, hisr, hnotified⟩ := hstage.of_drain htask
    exact hsettled rfl (h.settled hisr hnotified hnone) hisr hnotified

/-- The next read, or the reports. -/
theorem Exact.step_read (h : Exact cs s) (hread : s.read = some t) : Exact cs t := by
  have hne : s.reading ≠ .none := by
    intro hnone
    rw [read, hnone] at hread
    cases hread
  have htask := h.reading hne
  obtain ⟨-, hisr, hnotified⟩ := h.counters.counted.stage.of_drain htask
  obtain ⟨ds, d, hcs, hreports⟩ := h.late (.inr (.inr hne))
  have hcurrent := h.current
  -- one more counter has been read
  have hnext : ∀ reading, reading ≠ .none → Current reading s.receive →
      Exact cs { s with reading := reading } := fun reading hreading hcurrent =>
    { counters := h.counters
      reading := fun _ => htask
      current := hcurrent
      settled := fun _ _ hnone => absurd hnone hreading
      late := fun _ => ⟨ds, d, hcs, hreports.captures, hreports.drops, hreports.reported⟩ }
  unfold read at hread
  cases hreading : s.reading with
  | none => exact absurd hreading hne
  | captureCount =>
    rw [hreading] at hread
    cases hread
    exact hnext _ Reading.noConfusion rfl
  | symbols n =>
    rw [hreading] at hread hcurrent
    cases hread
    exact hnext _ Reading.noConfusion ⟨hcurrent, rfl⟩
  | drops n k =>
    rw [hreading] at hread hcurrent
    obtain ⟨hn, hk⟩ := hcurrent
    cases hread
    refine hnext _ Reading.noConfusion ?_
    rw [hn, hk]
    rfl
  | report r =>
    rw [hreading] at hread hcurrent
    cases hread
    obtain ⟨hcount, hdrops, hlast⟩ := h.counters.idle hisr
    have hr : r = { captureCount := UInt32.ofNat (ds.length + 1), symbols := UInt32.ofNat d.2
                    queueDrops := UInt32.ofNat (lost ds + excess d) } := by
      rw [hcs] at hcount hdrops
      rw [List.length_append] at hcount
      rw [lost_append, lost_singleton] at hdrops
      have hsymbols := hlast d (by rw [hcs]; exact List.getLast?_concat)
      have heq : r = _ := hcurrent
      rw [heq, hcount, hdrops, hsymbols]
      rfl
    have hsmall := h.counters.small d (by rw [hcs]; simp)
    have hdone := hreports.report hsmall hr
    rw [← hcs] at hdone
    have hreceive : (s.report r).receive = s.receive := by
      unfold report
      dsimp only
      split <;> rfl
    have hnone : (s.report r).reading = .none := by
      unfold report
      dsimp only
      split <;> rfl
    refine ⟨?_, fun hne => absurd hnone hne, ?_, fun _ _ _ => hdone, fun hlate => ?_⟩
    · rw [hreceive]
      exact h.counters
    · rw [hnone]
      trivial
    · rw [hreceive] at hlate
      rcases hlate with hbusy | hpos | hlate
      · exact absurd hisr hbusy
      · exact absurd hnotified (Nat.pos_iff_ne_zero.mp hpos)
      · exact absurd hnone hlate

/-- The capture of an action of the interrupt. -/
theorem captures_receive (res : UInt32) (b : ReceiveAction) :
    captures res [.receive b] = captureOf res b := by
  cases b <;> rfl

/-- Every action keeps the reports exact: a step of the interrupt or the task, or a
read. -/
theorem Exact.step (h : Exact cs s) (hstep : s.step res a = some t) :
    Exact (cs ++ captures res [a]) t := by
  rcases step_cases hstep with ⟨r, rfl, hr, rfl⟩ | ⟨b, r, rfl, hb, hdequeue, hr, rfl⟩ | ⟨rfl, hread⟩
  · -- the notification is taken, and the counters are to be read
    have hcounters := h.counters.step hr
    rw [captures_receive]
    have hguard := hr
    simp only [ReceiveState.step] at hguard
    obtain ⟨⟨-, hpos⟩, heq⟩ := Option.ite_none_right_eq_some.mp hguard
    cases heq
    obtain ⟨ds, d, hcs, hreports⟩ := h.late (.inr (.inl hpos))
    exact {
      counters := hcounters
      reading := fun _ => rfl
      current := trivial
      settled := fun _ _ hnone => absurd hnone Reading.noConfusion
      late := fun _ => ⟨ds, d, (List.append_nil cs).trans hcs, hreports.captures, hreports.drops,
        hreports.reported⟩ }
  · rw [captures_receive]
    exact h.step_receive hb hdequeue hr
  · show Exact (cs ++ []) t
    rw [List.append_nil]
    exact h.step_read hread

theorem exact_init (ble : BleCsc) : Exact [] (init ble : ReportingState F) where
  counters :=
    { counted := ReceiveState.counted_init ble
      small := fun c hc => absurd hc List.not_mem_nil
      idle := fun _ => ⟨rfl, rfl, fun c hc => absurd hc.symm (Option.some_ne_none c)⟩
      busy := fun events count hsome => absurd hsome.symm (Option.some_ne_none _) }
  reading hne := absurd rfl hne
  current := trivial
  settled _ _ _ := ⟨rfl, rfl, rfl⟩
  late hlate := by
    rcases hlate with hne | hpos | hne
    · exact absurd rfl hne
    · exact absurd hpos (Nat.lt_irrefl 0)
    · exact absurd rfl hne

/-- Every run from the start keeps the reports exact, by induction on its actions. -/
theorem exact_run (h : (reporting res ble).run as = some s) : Exact (captures res as) s := by
  refine Transition.System.invariant (P := fun as (s : ReportingState F) =>
    Exact (captures res as) s) ?_ (fun as s a t hs hstep => ?_) h
  · exact exact_init ble
  · rw [captures, List.filterMap_append]
    exact hs.step hstep

/-- The reported drops add up to what has been lost. -/
theorem sum_dropReportsFrom {m : ℕ} (hsmall : ∀ c ∈ cs, c.1.length ≤ 2 * rxSymbolCount) :
    ((dropReportsFrom m cs).map fun r => r.newDrops.toNat).sum = lost cs := by
  induction cs generalizing m with
  | nil => rfl
  | cons c cs ih =>
    have hrest := ih (m := m + excess c) fun d hd => hsmall d (List.mem_cons_of_mem _ hd)
    have hlt : excess c < UInt32.size := by
      have hle : excess c ≤ c.1.length := Nat.sub_le _ _
      exact lt_of_le_of_lt (hle.trans (hsmall c List.mem_cons_self)) (by decide)
    have hlost : lost (c :: cs) = excess c + lost cs := rfl
    rw [dropReportsFrom, List.map_append, List.sum_append, hrest, hlost]
    congr 1
    by_cases hpos : 0 < excess c
    · rw [if_pos hpos, List.map_singleton, List.sum_singleton, UInt32.toNat_ofNat_of_lt' hlt]
    · rw [if_neg hpos, Nat.eq_zero_of_not_pos hpos]
      rfl

/-- However the reads interleave with the interrupt, the reports are those of all
captures but at most the last one, in order and with its own numbers; and the reported
drops add up to what the queue did not take. -/
theorem captures_reported (res : UInt32) (ble : BleCsc) {as : List ReportingAction}
    {s : ReportingState F} (hrun : (reporting res ble).run as = some s) :
    (ReceiveState.system res ble).run (as.filterMap received) = some s.receive ∧
    ∃ done late, captures res as = done ++ late ∧ late.length ≤ 1 ∧
      (s.receive.task = .arm → late = []) ∧
      s.captureReports = reportsFrom 0 0 done ∧
      s.dropReports = dropReportsFrom 0 done ∧
      (s.dropReports.map fun r => r.newDrops.toNat).sum
        = (done.map fun c => c.1.length - eventQueueLength).sum := by
  refine ⟨receive_run hrun, ?_⟩
  have hexact := exact_run hrun
  have hreports : ∃ done late, captures res as = done ++ late ∧ late.length ≤ 1 ∧
      (s.receive.task = .arm → late = []) ∧ ReportsOf done s := by
    by_cases hsettled : s.receive.isr = none ∧ s.receive.notified = 0 ∧ s.reading = .none
    · obtain ⟨hisr, hnotified, hnone⟩ := hsettled
      exact ⟨_, [], (List.append_nil _).symm, Nat.zero_le 1, fun _ => rfl,
        hexact.settled hisr hnotified hnone⟩
    · have hbusy : s.receive.isr ≠ none ∨ 0 < s.receive.notified ∨ s.reading ≠ .none := by
        rw [Nat.pos_iff_ne_zero]
        simpa only [not_and_or] using hsettled
      obtain ⟨ds, d, hcs, hreports⟩ := hexact.late hbusy
      refine ⟨ds, [d], hcs, le_rfl, fun htask => ?_, hreports⟩
      -- a task that is about to arm the next reception has reported the last one
      obtain ⟨-, hisr, hnotified, -⟩ := hexact.counters.counted.stage.of_arm htask
      have hnone := hexact.reading_none (by rw [htask]; exact TaskPhase.noConfusion)
      exact absurd ⟨hisr, hnotified, hnone⟩ hsettled
  obtain ⟨done, late, hcs, hlate, harm, hdone⟩ := hreports
  refine ⟨done, late, hcs, hlate, harm, hdone.captures, hdone.drops, ?_⟩
  rw [hdone.drops]
  refine sum_dropReportsFrom fun c hc => hexact.counters.small c ?_
  rw [hcs]
  exact List.mem_append_left _ hc

/-- A round with one blockage. -/
def firstRound : List ReceiveAction :=
  [.receive true, .capture 5000 [ReceiveState.blockage], .send, .finish, .takeNotification]

/-- A round with 33 of them, of which the queue drops one. -/
def secondRound : List ReceiveAction :=
  [.dequeue, .dequeue, .receive true, .capture 100000 (List.replicate 33 ReceiveState.blockage)]
    ++ List.replicate 33 .send ++ [.finish, .takeNotification]

/-- Both, with their reads. -/
def twoRounds : List ReportingAction :=
  firstRound.map .receive ++ List.replicate 4 .read
    ++ secondRound.map .receive ++ List.replicate 4 .read

theorem twoRounds_reported :
    ∃ s : ReportingState ℚ, (reporting 1000000 .init).run twoRounds = some s ∧
      s.dropReports = [⟨1, 1⟩] ∧
      ∃ done late, captures 1000000 twoRounds = done ++ late ∧ late.length ≤ 1 ∧
        s.captureReports = reportsFrom 0 0 done := by
  have hread : ((reporting 1000000 .init).run twoRounds : Option (ReportingState ℚ)).map
      (fun s => s.dropReports) = some [⟨1, 1⟩] := by
    decide +kernel
  obtain ⟨s, hrun, hdrops⟩ := Option.map_eq_some_iff.mp hread
  obtain ⟨-, done, late, hcs, hlate, -, hreports, -⟩ := captures_reported 1000000 .init hrun
  exact ⟨s, hrun, hdrops, done, late, hcs, hlate, hreports⟩

end ReportingState

end SpokeSensor
