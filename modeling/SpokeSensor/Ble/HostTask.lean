import SpokeSensor.Ble.Access
import SpokeSensor.Lib.Atomicity

/-!
# The host task and the RMT task (`csc_nimble_service.cpp`)

`gap_event` and `access` run in the NimBLE host task and
`ir_spoke_ble_csc_on_wheel_revolution` (329–336) in the RMT task. What the two share
is read and written in critical sections; here each section is a step of its own, and
the sections of the tasks may come in any order. `last_notification_us` is the RMT
task's alone.

- `accessProg` (32–82): `access` as a program that passes up to five kinds of
  sections.
- `RmtSection`, `act`: the RMT task counts the revolution in one section (214–218)
  and, if a notification is due, takes the connection and the measurement in another
  (253–257).
- `serves_accessProg`: without interruption the program is the whole access of
  `Service`.
- `mover_gapEvent`, `atomic_body`: every section of an access but the one that sets
  the counter makes no difference to the RMT task.
- `access_atomic`: an access whose indication brings no connection, disconnection or
  subscription of the measurement appears to be carried out at once. This is how
  `NimbleService.access` reads it.
-/

namespace SpokeSensor

open Interaction (Prog Turn)

namespace NimbleService

/-- The critical sections of the host task: four of `access`, and those of
`gap_event`. -/
inductive CriticalSection where
  | controlIndicationsEnabled (connectionHandle : UInt16)
  | beginControlProcedure (connectionHandle : UInt16)
  | cancelControlProcedure
  | setCumulative (value : UInt32)
  | gapEvent (event : GapEvent)

/-- The fields after a section, and what it returns. -/
def enter (h : Handles) (s : NimbleService) : CriticalSection → NimbleService × Bool
  | .controlIndicationsEnabled conn => (s, s.controlIndicationsEnabled conn)
  | .beginControlProcedure conn => s.beginControlProcedure conn
  | .cancelControlProcedure => (s.cancelControlProcedure, true)
  | .setCumulative value => (s.setCumulative value, true)
  | .gapEvent event => ((s.gapEvent h event).1, true)

/-- What runs in the host task. -/
abbrev HostProg (A : Type) := Prog CriticalSection Bool A

/-- A section whose value is not used. -/
def pass (q : CriticalSection) : HostProg Unit := do
  let _ ← Prog.request q
  return ()

/-- The callbacks that NimBLE makes before `ble_gatts_indicate_custom` returns (75),
one after the other. -/
def callbacks : List GapEvent → HostProg Unit
  | [] => return ()
  | e :: es => do
    pass (.gapEvent e)
    callbacks es

/-- The part of `access` that carries a request out (53–68); only a complete Set
Cumulative Value passes a section. -/
def executeProg (packet : List UInt8) (requestCopied : Bool) : HostProg UInt8 :=
  if packet.head? = some 0x01 then
    match packet with
    | [_, b₁, b₂, b₃, b₄] =>
      if requestCopied then do
        pass (.setCumulative (cumulativeValue b₁ b₂ b₃ b₄))
        return 0x01
      else return 0x04
    | _ => return 0x04
  else return 0x02

/-- The end of `access` (69–81): the response is allocated and sent. -/
def respondProg (opcode result : UInt8) (o : Outcomes) : HostProg (AccessResult × List UInt8) :=
  if o.allocated = false then do
    pass .cancelControlProcedure
    return (.insufficientRes, [])
  else do
    callbacks o.during
    if o.rc ≠ 0 then do
      pass .cancelControlProcedure
      return (.unlikely, [0x10, opcode, result])
    else return (.success, [0x10, opcode, result])

/-- The part of `access` after the procedure has been opened. -/
def procedureProg (packet : List UInt8) (o : Outcomes) : HostProg (AccessResult × List UInt8) :=
  match packet with
  | [] => do
    pass .cancelControlProcedure
    return (.invalidAttrValueLen, [])
  | opcode :: _ =>
    if o.opcodeCopied = false then do
      pass .cancelControlProcedure
      return (.invalidAttrValueLen, [])
    else do
      let result ← executeProg packet o.requestCopied
      respondProg opcode result o

/-- `access` (32–82) as a program of critical sections. -/
def accessProg (h : Handles) (conn attr : UInt16) (op : AccessOp) (packet : List UInt8)
    (o : Outcomes) : HostProg (AccessResult × List UInt8) :=
  if op = .readChr then
    if o.appended then return (.success, [0x01, 0x00]) else return (.insufficientRes, [])
  else if op ≠ .writeChr ∨ attr ≠ h.controlPoint then return (.unlikely, [])
  else do
    let enabled ← Prog.request (.controlIndicationsEnabled conn)
    if enabled = false then return (.cccdImproperlyConfigured, [])
    else do
      let available ← Prog.request (.beginControlProcedure conn)
      if available = false then return (.procedureAlreadyInProgress, [])
      else procedureProg packet o

end NimbleService

open NimbleService

/-- The callbacks of the host task. -/
inductive HostCall where
  | gap (event : GapEvent)
  | access (conn attr : UInt16) (op : AccessOp) (packet : List UInt8) (outcomes : Outcomes)

/-- What `access` returns, with the bytes it appends or indicates; nothing for a GAP event. -/
abbrev HostReply := Option (AccessResult × List UInt8)

namespace HostCall

/-- The program of a callback. -/
def body (h : Handles) : HostCall → HostProg HostReply
  | .gap event => do
    pass (.gapEvent event)
    return none
  | .access conn attr op packet o => do
    let reply ← accessProg h conn attr op packet o
    return some reply

/-- The callback as one action. -/
def action : HostCall → Action
  | .gap event => .gap event
  | .access conn attr op packet o => .access conn attr op packet o

/-- What the callback returns if nothing comes in between. -/
def reply (h : Handles) (s : NimbleService) : HostCall → HostReply
  | .gap _ => none
  | .access conn attr op packet o =>
    some ((s.access h conn attr op packet o).result, (s.access h conn attr op packet o).bytes)

end HostCall

/-- What is written down as it happens. -/
inductive Mark where
  | set (value : UInt32)
  | revolution (us : UInt64)
  | notify (us : UInt64) (notified : Option (UInt16 × List UInt8))

/-- What the two tasks work on. -/
structure Shared where
  ble : BleCsc
  /-- the time of the revolution for which the RMT task is about to call `notify` -/
  due : Option UInt64
  /-- everything that has happened to the counter, and what has been notified -/
  log : List Mark

/-- The sections of the RMT task. -/
inductive RmtSection where
  /-- `on_wheel_revolution`, and the test whether to notify -/
  | revolution (us : UInt64)
  /-- the section of `notify` -/
  | notify

namespace Shared

/-- Before either task has started. -/
def init : Shared := { ble := .init, due := none, log := [] }

/-- What a section of the host task leaves in the log. -/
def marks : CriticalSection → List Mark
  | .setCumulative value => [.set value]
  | _ => []

/-- One section of the host task. -/
def answer (h : Handles) (w : Shared) (q : CriticalSection) : Shared × Bool :=
  ({ w with
      ble := { w.ble with service := (w.ble.service.enter h q).1 }
      log := w.log ++ marks q }, (w.ble.service.enter h q).2)

/-- One section of the RMT task. It counts a revolution only when no notification is
outstanding, as the task does one after the other. -/
def act (w : Shared) : RmtSection → Option Shared
  | .revolution us =>
    match w.due with
    | some _ => none
    | none =>
      if 1000000 ≤ us - w.ble.lastNotificationUs then
        some {
          ble := { service := w.ble.service.onWheelRevolution us, lastNotificationUs := us }
          due := some us
          log := w.log ++ [.revolution us] }
      else
        some {
          ble := { w.ble with service := w.ble.service.onWheelRevolution us }
          due := none
          log := w.log ++ [.revolution us] }
  | .notify =>
    w.due.map fun us =>
      { w with due := none, log := w.log ++ [.notify us w.ble.service.notify] }

/-- The sections of both tasks. -/
def world (h : Handles) : Interaction.World Shared CriticalSection Bool Unit RmtSection where
  answer w q _ := w.answer h q
  act w e := w.act e

/-- The host task, one callback after the other, next to the RMT task. -/
def system (h : Handles) : Transition.System
    (Interaction.Session Shared CriticalSection Bool HostReply HostCall)
    (Interaction.Label HostCall Unit RmtSection) :=
  Interaction.system (world h) (HostCall.body h) init

/-- The same with every callback in one step. -/
def serial (h : Handles) :
    Transition.System (Shared × List (HostCall × HostReply)) (Turn HostCall RmtSection) :=
  Interaction.serial (world h) (HostCall.body h) init

variable {h : Handles}

/-! ## The host task alone

Run without interruption, each program does to the service what the function of
`Service` does, with the same reply. One lemma for each of them, in the order in which
they call each other.
-/

/-- A callback without interruption: what it does to the fields, apart from the log. -/
structure Serves (w v : Shared) (s : NimbleService) : Prop where
  service : v.ble.service = s
  last : v.ble.lastNotificationUs = w.ble.lastNotificationUs
  due : v.due = w.due

theorem Serves.refl (w : Shared) : Serves w w w.ble.service := ⟨rfl, rfl, rfl⟩

theorem Serves.trans {w v u : Shared} {s t : NimbleService} (h₁ : Serves w v s)
    (h₂ : Serves v u t) : Serves w u t :=
  ⟨h₂.service, h₂.last.trans h₁.last, h₂.due.trans h₁.due⟩

theorem serves_pass (w : Shared) (q : CriticalSection) :
    Serves w ((pass q).exec (world h) w).1 (w.ble.service.enter h q).1 :=
  ⟨rfl, rfl, rfl⟩

theorem serves_callbacks (w : Shared) (es : List GapEvent) :
    Serves w ((callbacks es).exec (world h) w).1 (w.ble.service.deliver h es) := by
  induction es generalizing w with
  | nil => exact .refl w
  | cons e es ih =>
    have hrest := ih ((pass (.gapEvent e)).exec (world h) w).1
    rw [(serves_pass w (.gapEvent e)).service] at hrest
    rw [callbacks, Prog.exec_bind]
    exact (serves_pass w (.gapEvent e)).trans hrest

theorem serves_executeProg (w : Shared) (packet : List UInt8) (copied : Bool) :
    ((executeProg packet copied).exec (world h) w).2 = (w.ble.service.execute packet copied).2 ∧
      Serves w ((executeProg packet copied).exec (world h) w).1
        (w.ble.service.execute packet copied).1 := by
  unfold executeProg execute
  by_cases hop : packet.head? = some 0x01
  · rw [if_pos hop, if_pos hop]
    match packet with
    | [_, _, _, _, _] =>
      cases copied with
      | true => exact ⟨rfl, serves_pass w _⟩
      | false => exact ⟨rfl, .refl w⟩
    | [] | [_] | [_, _] | [_, _, _] | [_, _, _, _] | _ :: _ :: _ :: _ :: _ :: _ :: _ =>
      exact ⟨rfl, .refl w⟩
  · rw [if_neg hop, if_neg hop]
    exact ⟨rfl, .refl w⟩

theorem serves_cancel (w : Shared) (reply : AccessResult × List UInt8) :
    Serves w ((do pass .cancelControlProcedure; return reply : HostProg _).exec (world h) w).1
      w.ble.service.cancelControlProcedure :=
  serves_pass w .cancelControlProcedure

/-- What is left of an access once a request has been carried out: the response fails
in one of two places, or the callbacks are all that is left. -/
theorem serves_respondProg (w : Shared) (opcode result : UInt8) (o : Outcomes) :
    let reply : AccessReply :=
      if o.allocated = false then ⟨w.ble.service.cancelControlProcedure, .insufficientRes, [], []⟩
      else if o.rc ≠ 0 then
        ⟨(w.ble.service.deliver h o.during).cancelControlProcedure, .unlikely,
          [0x10, opcode, result], o.during⟩
      else ⟨w.ble.service.deliver h o.during, .success, [0x10, opcode, result], o.during⟩
    ((respondProg opcode result o).exec (world h) w).2 = (reply.result, reply.bytes) ∧
      Serves w ((respondProg opcode result o).exec (world h) w).1 reply.service := by
  intro reply
  by_cases halloc : o.allocated = false
  · simp only [reply, respondProg, if_pos halloc]
    exact ⟨rfl, serves_cancel w _⟩
  · have hcalls := serves_callbacks (h := h) w o.during
    simp only [reply, respondProg, if_neg halloc, Prog.exec_bind]
    by_cases hrc : o.rc ≠ 0
    · simp only [if_pos hrc]
      refine ⟨rfl, hcalls.trans ?_⟩
      rw [← hcalls.service]
      exact serves_cancel _ _
    · simp only [if_neg hrc]
      exact ⟨rfl, hcalls⟩

theorem serves_procedureProg (w : Shared) (packet : List UInt8) (o : Outcomes) :
    ((procedureProg packet o).exec (world h) w).2
        = ((w.ble.service.procedure h packet o).result,
            (w.ble.service.procedure h packet o).bytes) ∧
      Serves w ((procedureProg packet o).exec (world h) w).1
        (w.ble.service.procedure h packet o).service := by
  unfold procedureProg procedure
  cases packet with
  | nil => exact ⟨rfl, serves_cancel w _⟩
  | cons opcode rest =>
    dsimp only
    by_cases hcopied : o.opcodeCopied = false
    · rw [if_pos hcopied, if_pos hcopied]
      exact ⟨rfl, serves_cancel w _⟩
    · rw [if_neg hcopied, if_neg hcopied, Prog.exec_bind]
      obtain ⟨hresult, hserves⟩ := serves_executeProg (h := h) w (opcode :: rest) o.requestCopied
      have hrespond := serves_respondProg (h := h)
        ((executeProg (opcode :: rest) o.requestCopied).exec (world h) w).1 opcode
        (w.ble.service.execute (opcode :: rest) o.requestCopied).2 o
      rw [hserves.service] at hrespond
      rw [hresult]
      exact ⟨hrespond.1, hserves.trans hrespond.2⟩

/-- `access` without interruption is the whole access. -/
theorem serves_accessProg (w : Shared) (conn attr : UInt16) (op : AccessOp) (packet : List UInt8)
    (o : Outcomes) :
    ((accessProg h conn attr op packet o).exec (world h) w).2
        = ((w.ble.service.access h conn attr op packet o).result,
            (w.ble.service.access h conn attr op packet o).bytes) ∧
      Serves w ((accessProg h conn attr op packet o).exec (world h) w).1
        (w.ble.service.access h conn attr op packet o).service := by
  unfold accessProg access
  by_cases hread : op = .readChr
  · rw [if_pos hread, if_pos hread]
    cases o.appended <;> exact ⟨rfl, .refl w⟩
  rw [if_neg hread, if_neg hread]
  by_cases hattr : op ≠ .writeChr ∨ attr ≠ h.controlPoint
  · rw [if_pos hattr, if_pos hattr]
    exact ⟨rfl, .refl w⟩
  rw [if_neg hattr, if_neg hattr]
  -- the first section returns what the check returns, and changes nothing
  have hlog : (w.answer h (.controlIndicationsEnabled conn)).1 = w := by
    simp [answer, enter, marks]
  show ((if w.ble.service.controlIndicationsEnabled conn = false then _ else _ : HostProg _).exec
      (world h) (w.answer h (.controlIndicationsEnabled conn)).1).2 = _ ∧
    Serves w ((if w.ble.service.controlIndicationsEnabled conn = false then _ else _ :
      HostProg _).exec (world h) (w.answer h (.controlIndicationsEnabled conn)).1).1 _
  rw [hlog]
  by_cases henabled : w.ble.service.controlIndicationsEnabled conn = false
  · rw [if_pos henabled, if_pos henabled]
    exact ⟨rfl, .refl w⟩
  rw [if_neg henabled, if_neg henabled]
  have hbegin : Serves w (w.answer h (.beginControlProcedure conn)).1
      (w.ble.service.beginControlProcedure conn).1 := ⟨rfl, rfl, rfl⟩
  show ((if (w.ble.service.beginControlProcedure conn).2 = false then _ else _ :
      HostProg _).exec (world h) (w.answer h (.beginControlProcedure conn)).1).2 = _ ∧
    Serves w ((if (w.ble.service.beginControlProcedure conn).2 = false then _ else _ :
      HostProg _).exec (world h) (w.answer h (.beginControlProcedure conn)).1).1 _
  by_cases hbusy : (w.ble.service.beginControlProcedure conn).2 = false
  · rw [if_pos hbusy, if_pos hbusy]
    have hsame : (w.ble.service.beginControlProcedure conn).1 = w.ble.service := by
      rw [beginControlProcedure] at hbusy ⊢
      split at hbusy
      · cases hbusy
      · rename_i hprogress
        rw [if_neg hprogress]
    rw [hsame] at hbegin
    exact ⟨rfl, hbegin⟩
  · rw [if_neg hbusy, if_neg hbusy]
    have hprocedure := serves_procedureProg (h := h) (w.answer h (.beginControlProcedure conn)).1
      packet o
    rw [hbegin.service] at hprocedure
    exact ⟨hprocedure.1, hbegin.trans hprocedure.2⟩

/-- A callback without interruption is its action. -/
theorem exec_body (w : Shared) (c : HostCall) :
    ((c.body h).exec (world h) w).2 = c.reply h w.ble.service ∧
      Serves w ((c.body h).exec (world h) w).1 (w.ble.service.step h c.action) := by
  cases c with
  | gap event => exact ⟨rfl, serves_pass w (.gapEvent event)⟩
  | access conn attr op packet o =>
    obtain ⟨hreply, hserves⟩ := serves_accessProg (h := h) w conn attr op packet o
    rw [HostCall.body, Prog.exec_bind, hreply]
    exact ⟨rfl, hserves⟩

/-! ## Movers

A critical section of the host task commutes with those of the RMT task if neither
reads what the other writes: the procedure's fields on one side, the counter and the
times on the other. Only a change of the connection or of the subscription is seen by
`notify`.
-/

/-- The event is no connection, no disconnection and no subscription of the measurement. -/
def Transparent (h : Handles) : GapEvent → Prop
  | .connect status _ => status ≠ 0
  | .disconnect _ => False
  | .notifyTx _ _ _ _ => True
  | .subscribe attrHandle _ _ => attrHandle ≠ h.measurement
  | .other => True

instance (h : Handles) (e : GapEvent) : Decidable (Transparent h e) := by
  cases e <;> unfold Transparent <;> infer_instance

/-- A section that neither reads what a revolution writes nor writes what it or `notify`
reads. -/
theorem mover_of_frame {q : CriticalSection} (hmarks : marks q = [])
    (hwheel : ∀ (s : NimbleService) us, (s.onWheelRevolution us).enter h q
      = ((s.enter h q).1.onWheelRevolution us, (s.enter h q).2))
    (hnotify : ∀ s : NimbleService, (s.enter h q).1.notify = s.notify) : (world h).Mover q := by
  rintro ⟨⟨s, last⟩, due, log⟩ e
  cases e with
  | revolution us =>
    cases due with
    | some t => exact ⟨rfl, fun v hv => nomatch hv⟩
    | none =>
      simp only [world, answer, act, hmarks, List.append_nil]
      split
      · exact ⟨by simp [hwheel], by rintro v ⟨⟩; simp [hwheel]⟩
      · exact ⟨by simp [hwheel], by rintro v ⟨⟩; simp [hwheel]⟩
  | notify =>
    cases due with
    | none => exact ⟨rfl, fun v hv => nomatch hv⟩
    | some t =>
      refine ⟨?_, by rintro v ⟨⟩; rfl⟩
      simp [world, answer, act, hmarks, hnotify]

theorem mover_controlIndicationsEnabled (conn : UInt16) :
    (world h).Mover (.controlIndicationsEnabled conn) :=
  mover_of_frame rfl (fun _ _ => rfl) fun _ => rfl

theorem mover_beginControlProcedure (conn : UInt16) :
    (world h).Mover (.beginControlProcedure conn) := by
  refine mover_of_frame rfl (fun s us => ?_) fun s => ?_
  · by_cases hidle : s.controlProcedureInProgress_ = false
    · simp [enter, beginControlProcedure, onWheelRevolution, hidle]
    · simp [enter, beginControlProcedure, onWheelRevolution, hidle]
  · simp only [enter, beginControlProcedure]
    split <;> rfl

theorem mover_cancelControlProcedure : (world h).Mover .cancelControlProcedure :=
  mover_of_frame rfl (fun _ _ => rfl) fun _ => rfl

/-- No GAP event is noticed by a revolution. -/
theorem gapEvent_onWheelRevolution (s : NimbleService) (us : UInt64) (e : GapEvent) :
    ((s.onWheelRevolution us).gapEvent h e).1 = (s.gapEvent h e).1.onWheelRevolution us := by
  cases e with
  | connect status connHandle =>
    by_cases hstatus : status = 0 <;> simp [gapEvent, onWheelRevolution, hstatus]
  | disconnect reason => rfl
  | notifyTx indication attrHandle connHandle status =>
    by_cases hattr : indication = true ∧ attrHandle = h.controlPoint
    · by_cases hconn : s.controlConnectionHandle_ = connHandle <;>
        simp [gapEvent, onWheelRevolution, hattr, hconn]
    · simp only [gapEvent, onWheelRevolution, if_neg hattr]
  | subscribe attrHandle curNotify curIndicate =>
    by_cases hmeasurement : attrHandle = h.measurement
    · simp only [gapEvent, onWheelRevolution, if_pos hmeasurement]
    · by_cases hcontrol : attrHandle = h.controlPoint
      · simp only [gapEvent, onWheelRevolution, if_neg hmeasurement, if_pos hcontrol]
      · simp only [gapEvent, onWheelRevolution, if_neg hmeasurement, if_neg hcontrol]
  | other => rfl

theorem mover_gapEvent {e : GapEvent} (he : Transparent h e) : (world h).Mover (.gapEvent e) := by
  refine mover_of_frame rfl (fun s us => ?_) fun s => ?_
  · rw [enter, gapEvent_onWheelRevolution]
    rfl
  · cases e with
    | connect status connHandle => simp only [enter, gapEvent, if_neg he]
    | disconnect reason => exact he.elim
    | notifyTx indication attrHandle connHandle status =>
      simp only [enter, gapEvent]
      repeat' split
      all_goals rfl
    | subscribe attrHandle curNotify curIndicate =>
      simp only [enter, gapEvent, if_neg he]
      split <;> rfl
    | other => rfl

/-! ## The programs

A program is atomic if all of its sections but one are movers: everything can be moved
next to that one, which is then the moment at which the callback happens
(`Atomicity`).
-/

theorem asks_pass {q : CriticalSection} (hq : (world h).Mover q) :
    (pass q).Asks (world h).Mover :=
  ⟨hq, fun _ => trivial⟩

theorem asks_cancel (reply : AccessResult × List UInt8) :
    (do pass .cancelControlProcedure; return reply : HostProg _).Asks (world h).Mover :=
  (asks_pass mover_cancelControlProcedure).bind fun _ => trivial

theorem asks_callbacks {es : List GapEvent} (hes : ∀ e ∈ es, Transparent h e) :
    (callbacks es).Asks (world h).Mover := by
  induction es with
  | nil => trivial
  | cons e es ih =>
    exact (asks_pass (mover_gapEvent (hes e List.mem_cons_self))).bind
      fun _ => ih fun e' he' => hes e' (List.mem_cons_of_mem e he')

/-- Setting the counter is the only section that is no mover. -/
theorem atomic_executeProg (packet : List UInt8) (copied : Bool) :
    (executeProg packet copied).Atomic (world h).Mover := by
  unfold executeProg
  repeat' split
  · exact .inl fun _ => trivial
  all_goals trivial

theorem asks_respondProg (opcode result : UInt8) {o : Outcomes}
    (hduring : ∀ e ∈ o.during, Transparent h e) :
    (respondProg opcode result o).Asks (world h).Mover := by
  unfold respondProg
  split
  · exact asks_cancel _
  · refine (asks_callbacks hduring).bind fun _ => ?_
    split
    · exact asks_cancel _
    · trivial

theorem atomic_procedureProg (packet : List UInt8) {o : Outcomes}
    (hduring : ∀ e ∈ o.during, Transparent h e) :
    (procedureProg packet o).Atomic (world h).Mover := by
  unfold procedureProg
  cases packet with
  | nil => exact (asks_cancel _).atomic
  | cons opcode rest =>
    dsimp only
    split
    · exact (asks_cancel _).atomic
    · exact (atomic_executeProg _ _).bind fun result => asks_respondProg opcode result hduring

theorem atomic_accessProg (conn attr : UInt16) (op : AccessOp) (packet : List UInt8) {o : Outcomes}
    (hduring : ∀ e ∈ o.during, Transparent h e) :
    (accessProg h conn attr op packet o).Atomic (world h).Mover := by
  unfold accessProg
  by_cases hread : op = .readChr
  · rw [if_pos hread]
    cases o.appended <;> trivial
  rw [if_neg hread]
  by_cases hattr : op ≠ .writeChr ∨ attr ≠ h.controlPoint
  · rw [if_pos hattr]
    trivial
  rw [if_neg hattr]
  -- the two checks are movers
  refine .inr ⟨mover_controlIndicationsEnabled conn, fun enabled => ?_⟩
  cases enabled with
  | false => trivial
  | true =>
    refine .inr ⟨mover_beginControlProcedure conn, fun available => ?_⟩
    cases available with
    | false => trivial
    | true => exact atomic_procedureProg packet hduring

end Shared

/-- Nothing that `notify` reads changes while the indication is being sent. -/
def HostCall.Quiet (h : Handles) : HostCall → Prop
  | .gap _ => True
  | .access _ _ _ _ o => ∀ e ∈ o.during, Shared.Transparent h e

instance (h : Handles) (c : HostCall) : Decidable (c.Quiet h) := by
  cases c <;> unfold HostCall.Quiet <;> infer_instance

namespace Shared

variable {h : Handles}

theorem atomic_body {c : HostCall} (hc : c.Quiet h) :
    (c.body h).Atomic (world h).Mover := by
  cases c with
  | gap event => exact .inl fun _ => trivial
  | access conn attr op packet o =>
    exact (atomic_accessProg conn attr op packet hc).bind fun _ => trivial

/-! ## Whole callbacks

The interleaving of sections comes to a sequence of turns, each a whole callback or a
whole section of the RMT task, with the same replies and the same final state.
-/

/-- A step of the serial run as an action of the service. -/
def turnAction : Turn HostCall RmtSection → Option Action
  | .call c => some c.action
  | .act (.revolution us) => some (.wheel us)
  | .act .notify => none

/-- The callbacks of a run of the service, with what they return. -/
def replies (h : Handles) :
    NimbleService → List (Turn HostCall RmtSection) → List (HostCall × HostReply)
  | _, [] => []
  | s, .call c :: ts => (c, c.reply h s) :: replies h (s.step h c.action) ts
  | s, .act (.revolution us) :: ts => replies h (s.onWheelRevolution us) ts
  | s, .act .notify :: ts => replies h s ts

theorem replies_append (s : NimbleService) (ts us : List (Turn HostCall RmtSection)) :
    replies h s (ts ++ us)
      = replies h s ts ++ replies h ((ts.filterMap turnAction).foldl (step h) s) us := by
  induction ts generalizing s with
  | nil => rfl
  | cons t ts ih =>
    match t with
    | .call c => simp only [List.cons_append, replies, ih]; rfl
    | .act (.revolution us) => simp only [List.cons_append, replies, ih]; rfl
    | .act .notify => simp only [List.cons_append, replies, ih]; rfl

/-- A serial run is a run of the service, and every callback returns what it would alone. -/
theorem serial_run {ts : List (Turn HostCall RmtSection)} {σ : Shared × List (HostCall × HostReply)}
    (hrun : (serial h).run ts = some σ) :
    σ.1.ble.service = NimbleService.run h (ts.filterMap turnAction) ∧
      σ.2 = replies h .init ts := by
  refine Transition.System.invariant
    (P := fun ts (σ : Shared × List (HostCall × HostReply)) =>
      σ.1.ble.service = NimbleService.run h (ts.filterMap turnAction) ∧ σ.2 = replies h .init ts)
    ⟨rfl, rfl⟩ (fun ts σ t τ hσ hstep => ?_) hrun
  obtain ⟨hservice, hresults⟩ := hσ
  rw [List.filterMap_append, replies_append, ← hresults]
  show _ = NimbleService.run h _ ∧ _ = σ.2 ++ replies h (NimbleService.run h _) [t]
  rw [← hservice]
  match t with
  | .call c =>
    cases hstep
    obtain ⟨hreply, hserves⟩ := exec_body (h := h) σ.1 c
    show _ = NimbleService.run h (_ ++ [c.action]) ∧ _
    rw [run_append_singleton, ← hservice]
    refine ⟨hserves.service, ?_⟩
    show σ.2 ++ [(c, _)] = σ.2 ++ [(c, _)]
    rw [hreply]
  | .act (.revolution us) =>
    obtain ⟨v, hv, rfl⟩ := Option.map_eq_some_iff.mp hstep
    show v.ble.service = NimbleService.run h (_ ++ [.wheel us]) ∧ σ.2 = σ.2 ++ []
    rw [run_append_singleton, ← hservice, List.append_nil]
    refine ⟨?_, rfl⟩
    obtain ⟨⟨⟨s, last⟩, due, log⟩, results⟩ := σ
    cases due with
    | some t => cases hv
    | none =>
      simp only [world, act] at hv
      split at hv <;> cases hv <;> rfl
  | .act .notify =>
    obtain ⟨v, hv, rfl⟩ := Option.map_eq_some_iff.mp hstep
    obtain ⟨t, -, rfl⟩ := Option.map_eq_some_iff.mp hv
    show σ.1.ble.service = NimbleService.run h (_ ++ []) ∧ σ.2 = σ.2 ++ []
    rw [List.append_nil, List.append_nil]
    exact ⟨hservice, rfl⟩

/-- Callbacks are atomic for the RMT task. Every interleaving of the sections of both tasks
that ends between two callbacks, none of which changes the connection or the subscription of
the measurement in the course of an access, comes to what a run of whole callbacks, revolutions
and notifications comes to: the callbacks and the sections of the RMT task are the same and
in the same order, and so are the notifications; every callback returns what `access` returns
in one step, and the service is the one that these steps lead to. -/
theorem access_atomic (h : Handles) {ls : List (Interaction.Label HostCall Unit RmtSection)}
    {s : Interaction.Session Shared CriticalSection Bool HostReply HostCall}
    (hrun : (system h).run ls = some s) (hidle : s.running = none)
    (hquiet : ∀ c, .call c ∈ ls → c.Quiet h) :
    ∃ ts, (serial h).run ts = some (s.world, s.results) ∧
      ts.filterMap Turn.called = ls.filterMap Interaction.Label.called ∧
      ts.filterMap Turn.acted = ls.filterMap Interaction.Label.acted ∧
      s.results = replies h .init ts ∧
      s.world.ble.service = NimbleService.run h (ts.filterMap turnAction) := by
  obtain ⟨ts, hserial, hcalled, hacted⟩ :=
    Interaction.exists_serial hrun hidle fun c hc => atomic_body (hquiet c hc)
  obtain ⟨hservice, hresults⟩ := serial_run hserial
  exact ⟨ts, hserial, hcalled, hacted, hresults, hservice⟩

/-- A revolution and its notification come between the sections of a write. -/
def interruptedWrite : List (Interaction.Label HostCall Unit RmtSection) :=
  [.call (.gap (.connect 0 1)), .answer (), .ret,
    .call (.gap (.subscribe 12 false true)), .answer (), .ret,
    .call (.gap (.subscribe 10 true false)), .answer (), .ret,
    .call (.access 1 12 .writeChr [0x01, 7, 0, 0, 0] allWell), .answer (), .answer (),
    .act (.revolution 2000000), .answer (), .act .notify, .ret]

/-- The revolution is counted before the write, and what is notified is the value that was
written. -/
theorem interruptedWrite_atomic :
    ∃ s ts, (system ⟨10, 12⟩).run interruptedWrite = some s ∧
      s.world.log = [.revolution 2000000, .set 7,
        .notify 2000000 (some (1, [0x01, 7, 0, 0, 0, 0, 8]))] ∧
      (serial ⟨10, 12⟩).run ts = some (s.world, s.results) ∧
      s.results = replies ⟨10, 12⟩ .init ts := by
  have hrun : (system ⟨10, 12⟩).run interruptedWrite = some _ := rfl
  obtain ⟨ts, hserial, -, -, hresults, -⟩ := access_atomic ⟨10, 12⟩ hrun rfl (by
    intro c hc
    simp only [interruptedWrite, List.mem_cons, List.not_mem_nil, or_false, reduceCtorEq,
      Interaction.Label.call.injEq, false_or] at hc
    rcases hc with rfl | rfl | rfl | rfl <;> decide)
  exact ⟨_, ts, hrun, rfl, hserial, hresults⟩

end Shared

end SpokeSensor
