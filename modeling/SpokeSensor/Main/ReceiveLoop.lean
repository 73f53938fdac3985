import SpokeSensor.Main.Adapter
import SpokeSensor.Lib.Transition

/-!
# The receive interrupt and the receive task (`ir_spoke_rmt_adapter.c:37–126`)

`rx_done` (42–74) splits a capture into its low phases and sends each of them, without
waiting, to a queue of 32 events; then it notifies the task. `receive_loop` (76–200)
arms one reception, waits for the notification, empties the queue and starts over.

- `ticksToUs` (37–40), `capturedUs` (48–52), `rxEvents` (53–69): which events a
  capture comes to, with their times.
- `ReceiveState`: the variables of the file, the queue, and two logs, of what was
  captured and what was ingested.
- `ReceiveAction`, `step`: a step of the system is one visible action of either: the
  return of `rmt_receive`, the start of `rx_done`, one `xQueueSendFromISR`, the end of
  `rx_done`, the return of `ulTaskNotifyTake`, or one `xQueueReceive` with the
  handling of what it returned.

The two run concurrently. Of the receive driver the steps assume that `rx_done` runs
once for an armed reception and that a capture fits the buffer it was given. Debug
output is left out.
-/

namespace SpokeSensor

/-- `rmt_symbol_word_t` -/
structure RmtSymbol where
  duration0 : BitVec 15
  level0 : Bool
  duration1 : BitVec 15
  level1 : Bool
  deriving DecidableEq, Repr

/-- `RX_SYMBOL_COUNT` -/
def rxSymbolCount : ℕ := 128

/-- The length of `event_queue`. -/
def eventQueueLength : ℕ := 32

/-- `ticks_to_us` (37–40): rounded to the nearest microsecond, half a microsecond
upwards. -/
def ticksToUs (captureResolutionHz : UInt32) (ticks : BitVec 15) : UInt32 :=
  (((UInt64.ofNat ticks.toNat) * 1000000 + (captureResolutionHz / 2).toUInt64)
    / captureResolutionHz.toUInt64).toUInt32

/-- The first loop of `rx_done` (48–52): the time that a capture covers. -/
def capturedUs (captureResolutionHz : UInt32) (symbols : List RmtSymbol) : UInt64 :=
  symbols.foldl (fun us s =>
    us + (ticksToUs captureResolutionHz s.duration0).toUInt64
      + (ticksToUs captureResolutionHz s.duration1).toUInt64) 0

/-- The second loop of `rx_done` (54–69) from `cursorUs` on: the phases that are sent.
A high phase has the duration zero, and a phase of duration zero is not sent. -/
def phasesFrom (captureResolutionHz : UInt32) (cursorUs : UInt64) :
    List RmtSymbol → List BlockageEvent
  | [] => []
  | s :: symbols =>
    let us0 := ticksToUs captureResolutionHz s.duration0
    let us1 := ticksToUs captureResolutionHz s.duration1
    let phases : List BlockageEvent :=
      [{ timestampUs := cursorUs, durationUs := if s.level0 then 0 else us0 },
        { timestampUs := cursorUs + us0.toUInt64, durationUs := if s.level1 then 0 else us1 }]
    phases.filter (fun phase => phase.durationUs ≠ 0)
      ++ phasesFrom captureResolutionHz (cursorUs + (us0 + us1).toUInt64) symbols

/-- The events that `rx_done` sends for a capture that ends at `now` (47–69). The
cursor does not start below zero. -/
def rxEvents (captureResolutionHz : UInt32) (now : UInt64) (symbols : List RmtSymbol) :
    List BlockageEvent :=
  let captured := capturedUs captureResolutionHz symbols
  phasesFrom captureResolutionHz (if captured < now then now - captured else 0) symbols

/-- Where the task is. -/
inductive TaskPhase where
  /-- before `rmt_receive` -/
  | arm
  /-- before `ulTaskNotifyTake` -/
  | wait
  /-- before `xQueueReceive` -/
  | drain
  /-- in `ESP_ERROR_CHECK`, after `rmt_receive` has failed -/
  | aborted
  deriving DecidableEq, Repr

/-- The variables of the file, the queue, and the two logs. -/
structure ReceiveState (F : Type) where
  adapter : Adapter F
  task : TaskPhase
  /-- a reception is armed -/
  armed : Bool
  /-- `rx_done` is running: the events it has still to send and the symbol count -/
  isr : Option (List BlockageEvent × ℕ)
  queue : List BlockageEvent
  /-- the notification value of the task -/
  notified : ℕ
  rxCaptureCount : UInt32
  rxQueueDrops : UInt32
  rxLastSymbolCount : UInt32
  /-- the events of all captures so far -/
  captured : List BlockageEvent
  /-- the events passed to the pipeline so far -/
  ingested : List BlockageEvent
  /-- the revolutions forwarded so far -/
  forwarded : List UInt64

/-- The visible actions. -/
inductive ReceiveAction where
  | receive (ok : Bool)
  | capture (now : UInt64) (symbols : List RmtSymbol)
  | send
  | finish
  | takeNotification
  | dequeue

namespace ReceiveState

variable {F : Type} [Add F] [Sub F] [Mul F] [Div F] [LT F] [DecidableLT F]
  [LE F] [DecidableLE F] [CFloat F]

/-- The events that `rx_done` has still to send. -/
def pending (s : ReceiveState F) : List BlockageEvent :=
  match s.isr with
  | none => []
  | some (events, _) => events

/-- `xQueueSendFromISR` of one event, and the count of those it refuses (63–66). -/
def sendFromIsr (s : ReceiveState F) (event : BlockageEvent) : ReceiveState F :=
  if s.queue.length < eventQueueLength then { s with queue := s.queue ++ [event] }
  else { s with rxQueueDrops := s.rxQueueDrops + 1 }

/-- One action, where it is enabled. -/
def step (captureResolutionHz : UInt32) (s : ReceiveState F) :
    ReceiveAction → Option (ReceiveState F)
  | .receive ok =>
    if s.task = .arm then
      if ok then some { s with armed := true, task := .wait } else some { s with task := .aborted }
    else none
  | .capture now symbols =>
    if s.armed = true ∧ s.isr = none ∧ symbols.length ≤ rxSymbolCount then
      let events := rxEvents captureResolutionHz now symbols
      some { s with
        armed := false
        isr := some (events, symbols.length)
        captured := s.captured ++ events }
    else none
  | .send =>
    match s.isr with
    | some (event :: events, count) => some { s.sendFromIsr event with isr := some (events, count) }
    | _ => none
  | .finish =>
    match s.isr with
    | some ([], count) =>
      some { s with
        isr := none
        rxLastSymbolCount := UInt32.ofNat count
        rxCaptureCount := s.rxCaptureCount + 1
        notified := s.notified + 1 }
    | _ => none
  | .takeNotification =>
    if s.task = .wait ∧ 0 < s.notified then some { s with notified := 0, task := .drain } else none
  | .dequeue =>
    if s.task = .drain then
      match s.queue with
      | [] => some { s with task := .arm }
      | event :: queue =>
        let r := s.adapter.handleEvent event
        some { s with
          adapter := r.1
          queue
          ingested := s.ingested ++ [event]
          forwarded := s.forwarded ++ r.2 }
    else none

/-- The task has just been created. -/
def init (ble : BleCsc) : ReceiveState F where
  adapter := .start ble
  task := .arm
  armed := false
  isr := none
  queue := []
  notified := 0
  rxCaptureCount := 0
  rxQueueDrops := 0
  rxLastSymbolCount := 0
  captured := []
  ingested := []
  forwarded := []

/-- The interrupt and the task. -/
def system (captureResolutionHz : UInt32) (ble : BleCsc) :
    Transition.System (ReceiveState F) ReceiveAction where
  init := init ble
  step := step captureResolutionHz

end ReceiveState

end SpokeSensor
