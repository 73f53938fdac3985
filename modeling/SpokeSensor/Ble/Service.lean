import SpokeSensor.Ble.Measurement

/-!
# The CSC service (`csc_nimble_service.cpp`)

The fields of `NimbleService`, its GAP event handler, the GATT access callback and the
entry point of the RMT task. What NimBLE answers inside a callback (the mbuf copies,
the allocation of the response, the result of the indication and the GAP events that
it delivers before `ble_gatts_indicate_custom` returns) is an argument, `Outcomes`;
debug output is left out.

- `gapEvent` (`csc_nimble_service.cpp:152–212`): connect, disconnect, NOTIFY_TX and
  subscribe. NOTIFY_TX closes the procedure whatever its status is (181–191).
- `execute`, `procedure`, `access` (32–82): the checks of a control-point write, the
  request, and the response; a failure after the request closes the procedure (71–80).
- `notify` (252–275) and `BleCsc.onWheelRevolution` (329–336): the side of the RMT
  task.

Every access of the fields is one critical section of the source. `access` runs in the
NimBLE host task, as does `gap_event`, so between its sections only the revolutions of
the RMT task could be counted; `HostTask` interleaves the two.
-/

namespace SpokeSensor

/-- `BLE_HS_CONN_HANDLE_NONE` -/
def connHandleNone : UInt16 := 0xFFFF

/-- The attribute handles that NimBLE assigns at registration. -/
structure Handles where
  measurement : UInt16
  controlPoint : UInt16

/-- The GAP events that the handler tells apart (154–210), with the fields it reads of
them. -/
inductive GapEvent where
  | connect (status : ℤ) (connHandle : UInt16)
  | disconnect (reason : ℤ)
  | notifyTx (indication : Bool) (attrHandle connHandle : UInt16) (status : ℤ)
  | subscribe (attrHandle : UInt16) (curNotify curIndicate : Bool)
  | other
  deriving DecidableEq, Repr

/-- `NimbleService` -/
structure NimbleService where
  state_ : WheelState
  connectionHandle_ : UInt16
  controlConnectionHandle_ : UInt16
  controlProcedureInProgress_ : Bool
  measurementSubscribed_ : Bool
  controlIndicationsEnabled_ : Bool
  deriving DecidableEq, Repr

/-- What `access` returns: zero, the two application errors of the CSC service and
the ATT errors of NimBLE. -/
inductive AccessResult where
  | success
  /-- `kProcedureAlreadyInProgress`, `0x80` -/
  | procedureAlreadyInProgress
  /-- `kCccdImproperlyConfigured`, `0x81` -/
  | cccdImproperlyConfigured
  /-- `BLE_ATT_ERR_INVALID_ATTR_VALUE_LEN` -/
  | invalidAttrValueLen
  /-- `BLE_ATT_ERR_INSUFFICIENT_RES` -/
  | insufficientRes
  /-- `BLE_ATT_ERR_UNLIKELY` -/
  | unlikely
  deriving DecidableEq, Repr

/-- `ctxt->op` -/
inductive AccessOp where
  | readChr
  | writeChr
  | other
  deriving DecidableEq, Repr

/-- What NimBLE answers to the calls that one `access` makes. -/
structure Outcomes where
  /-- `os_mbuf_append` returns 0 -/
  appended : Bool
  /-- the first `os_mbuf_copydata` returns 0 -/
  opcodeCopied : Bool
  /-- the second `os_mbuf_copydata` returns 0 -/
  requestCopied : Bool
  /-- `ble_hs_mbuf_from_flat` returns a buffer -/
  allocated : Bool
  /-- the GAP events delivered before `ble_gatts_indicate_custom` returns -/
  during : List GapEvent
  /-- what `ble_gatts_indicate_custom` returns -/
  rc : ℤ
  deriving DecidableEq, Repr

/-- What one `access` does: the fields afterwards, what it returns, and the bytes that
it appends or indicates. -/
structure AccessReply where
  service : NimbleService
  result : AccessResult
  /-- the bytes appended to a read, or handed to `ble_gatts_indicate_custom` -/
  bytes : List UInt8
  /-- the GAP events that were delivered meanwhile -/
  delivered : List GapEvent

namespace NimbleService

def init : NimbleService where
  state_ := .init
  connectionHandle_ := connHandleNone
  controlConnectionHandle_ := connHandleNone
  controlProcedureInProgress_ := false
  measurementSubscribed_ := false
  controlIndicationsEnabled_ := false

/-! ## GAP events

The events that `gap_event` looks at (`csc_nimble_service.cpp:152–212`), each with the
fields that it reads.
-/

/-- `gap_event` (152–212): the new fields, and whether it starts advertising again. -/
def gapEvent (h : Handles) (s : NimbleService) : GapEvent → NimbleService × Bool
  | .connect status connHandle =>
    if status = 0 then ({ s with connectionHandle_ := connHandle }, false) else (s, true)
  | .disconnect _ =>
    ({ s with
        connectionHandle_ := connHandleNone
        controlConnectionHandle_ := connHandleNone
        controlProcedureInProgress_ := false
        measurementSubscribed_ := false
        controlIndicationsEnabled_ := false }, true)
  | .notifyTx indication attrHandle connHandle _ =>
    if indication = true ∧ attrHandle = h.controlPoint then
      if s.controlConnectionHandle_ = connHandle then
        ({ s with
            controlProcedureInProgress_ := false
            controlConnectionHandle_ := connHandleNone }, false)
      else (s, false)
    else (s, false)
  | .subscribe attrHandle curNotify curIndicate =>
    if attrHandle = h.measurement then
      ({ s with measurementSubscribed_ := curNotify }, false)
    else if attrHandle = h.controlPoint then
      ({ s with controlIndicationsEnabled_ := curIndicate }, false)
    else (s, false)
  | .other => (s, false)

/-- The fields after a sequence of GAP events. -/
def deliver (h : Handles) (s : NimbleService) (es : List GapEvent) : NimbleService :=
  es.foldl (fun s e => (s.gapEvent h e).1) s

/-! ## The control point

A write to the control point (`csc_nimble_service.cpp:41–81`): the checks, the request
itself, and the response by an indication. The indication calls back into the service,
so what happens inside of it is a part of the outcome.
-/

/-- `on_wheel_revolution` (214–218) -/
def onWheelRevolution (s : NimbleService) (us : UInt64) : NimbleService :=
  { s with state_ := s.state_.onRevolution us }

/-- `set_cumulative` (220–224) -/
def setCumulative (s : NimbleService) (value : UInt32) : NimbleService :=
  { s with state_ := s.state_.setCumulative value }

/-- `begin_control_procedure` (226–235): takes the procedure for the connection unless
one is in progress. -/
def beginControlProcedure (s : NimbleService) (connectionHandle : UInt16) :
    NimbleService × Bool :=
  if s.controlProcedureInProgress_ = false then
    ({ s with
        controlProcedureInProgress_ := true
        controlConnectionHandle_ := connectionHandle }, true)
  else (s, false)

/-- `cancel_control_procedure` (237–242) -/
def cancelControlProcedure (s : NimbleService) : NimbleService :=
  { s with
    controlProcedureInProgress_ := false
    controlConnectionHandle_ := connHandleNone }

/-- `control_indications_enabled` (244–250): for the connection that is live, whether
it has enabled the indications. -/
def controlIndicationsEnabled (s : NimbleService) (connectionHandle : UInt16) : Bool :=
  s.connectionHandle_ == connectionHandle && s.controlIndicationsEnabled_

/-- The four bytes of a Set Cumulative Value request, lowest first (57–59). -/
def cumulativeValue (b₁ b₂ b₃ b₄ : UInt8) : UInt32 :=
  b₁.toUInt32 ||| (b₂.toUInt32 <<< 8) ||| (b₃.toUInt32 <<< 16) ||| (b₄.toUInt32 <<< 24)

/-- The part of `access` that carries a request out (53–68): the new fields and the
result code of the response. -/
def execute (s : NimbleService) (packet : List UInt8) (requestCopied : Bool) :
    NimbleService × UInt8 :=
  if packet.head? = some 0x01 then
    match packet with
    | [_, b₁, b₂, b₃, b₄] =>
      if requestCopied then (s.setCumulative (cumulativeValue b₁ b₂ b₃ b₄), 0x01)
      else (s, 0x04)
    | _ => (s, 0x04)
  else (s, 0x02)

/-- The part of `access` after the procedure has been opened (46–81). The events that
NimBLE delivers while the indication is handed over come before its result is looked
at. -/
def procedure (h : Handles) (s : NimbleService) (packet : List UInt8) (o : Outcomes) :
    AccessReply :=
  match packet with
  | [] => ⟨s.cancelControlProcedure, .invalidAttrValueLen, [], []⟩
  | opcode :: _ =>
    if o.opcodeCopied = false then ⟨s.cancelControlProcedure, .invalidAttrValueLen, [], []⟩
    else
      let executed := s.execute packet o.requestCopied
      let response := [0x10, opcode, executed.2]
      if o.allocated = false then
        ⟨executed.1.cancelControlProcedure, .insufficientRes, [], []⟩
      else
        let indicated := executed.1.deliver h o.during
        if o.rc ≠ 0 then ⟨indicated.cancelControlProcedure, .unlikely, response, o.during⟩
        else ⟨indicated, .success, response, o.during⟩

/-- `access` (32–82): a read of the feature, or a write of the control point. -/
def access (h : Handles) (s : NimbleService) (conn attr : UInt16) (op : AccessOp)
    (packet : List UInt8) (o : Outcomes) : AccessReply :=
  if op = .readChr then
    if o.appended then ⟨s, .success, [0x01, 0x00], []⟩ else ⟨s, .insufficientRes, [], []⟩
  else if op ≠ .writeChr ∨ attr ≠ h.controlPoint then ⟨s, .unlikely, [], []⟩
  else if s.controlIndicationsEnabled conn = false then
    ⟨s, .cccdImproperlyConfigured, [], []⟩
  else if (s.beginControlProcedure conn).2 = false then
    ⟨s, .procedureAlreadyInProgress, [], []⟩
  else (s.beginControlProcedure conn).1.procedure h packet o

/-- `notify` (252–275): the connection and the bytes that are notified, if any. -/
def notify (s : NimbleService) : Option (UInt16 × List UInt8) :=
  if s.connectionHandle_ = connHandleNone ∨ s.measurementSubscribed_ = false then none
  else some (s.connectionHandle_, s.state_.measurement)

end NimbleService

/-- The service with the time of its last notification. -/
structure BleCsc where
  service : NimbleService
  lastNotificationUs : UInt64

namespace BleCsc

def init : BleCsc := { service := .init, lastNotificationUs := 0 }

/-- `ir_spoke_ble_csc_on_wheel_revolution` (329–336): the new state and what it
notifies. The difference of the times is that of `uint64_t`. -/
def onWheelRevolution (b : BleCsc) (timestampUs : UInt64) :
    BleCsc × Option (UInt16 × List UInt8) :=
  let service := b.service.onWheelRevolution timestampUs
  if 1000000 ≤ timestampUs - b.lastNotificationUs then
    ({ service, lastNotificationUs := timestampUs }, service.notify)
  else ({ b with service }, none)

theorem onWheelRevolution_state (b : BleCsc) (t : UInt64) :
    (b.onWheelRevolution t).1.service.state_ = b.service.state_.onRevolution t := by
  unfold onWheelRevolution
  split <;> rfl

end BleCsc

end SpokeSensor
