import SpokeSensor.Ble.Procedure
import SpokeSensor.Lib.Transition

/-!
# One client after the other

The service next to the client it serves. Of NimBLE the steps of `Link.system` assume
that a connection is made only while none is live, since advertising is started again
only after a disconnect or a failed connect (`csc_nimble_service.cpp:168, 180`), and
that subscriptions, NOTIFY_TX and accesses carry the handle of the live connection.

- `Client`, `Client.observe`: the connection as NimBLE sees it, what it has subscribed
  to, and whether it has written.
- `Isolated`: an open procedure belongs to the connection, and without a connection
  nothing is open and nothing is subscribed.
- `Isolated.gapEvent`, `Isolated.access`: each callback keeps this; a disconnect
  clears every field that belongs to a client (174–178).
- `no_session_leak`: on every run no client finds anything of the one before it.
-/

namespace SpokeSensor

open NimbleService

/-- What has happened since the last disconnect. -/
structure Client where
  /-- the handle of the live connection -/
  live : Option UInt16
  /-- a write has passed the CCCD check -/
  written : Bool
  /-- notifications of the measurement have been subscribed -/
  notified : Bool
  deriving DecidableEq, Repr

namespace Client

/-- Nobody is connected. -/
def absent : Client := { live := none, written := false, notified := false }

/-- The client after a GAP event, where NimBLE can deliver the event. -/
def observe (h : Handles) (c : Client) : GapEvent → Option Client
  | .connect status connHandle =>
    if status ≠ 0 then some c
    else if c.live = none ∧ connHandle ≠ connHandleNone then
      some { c with live := some connHandle }
    else none
  | .disconnect _ => some absent
  | .notifyTx _ _ connHandle _ => if c.live = some connHandle then some c else none
  | .subscribe attrHandle curNotify _ =>
    if c.live = none then none
    else if attrHandle = h.measurement ∧ curNotify = true then some { c with notified := true }
    else some c
  | .other => some c

/-- A connected client subscribes: the earlier subscription stays, and that of the
measurement is added. -/
theorem observe_subscribe {h : Handles} {c c' : Client} {attrHandle : UInt16}
    {curNotify curIndicate : Bool}
    (he : c.observe h (.subscribe attrHandle curNotify curIndicate) = some c') :
    c.live ≠ none ∧ c'.live = c.live ∧ c'.written = c.written ∧
      (c.notified = true → c'.notified = true) ∧
      (attrHandle = h.measurement → curNotify = true → c'.notified = true) := by
  obtain ⟨hlive, he⟩ := Option.ite_none_left_eq_some.mp he
  split at he
  · cases he
    exact ⟨hlive, rfl, rfl, fun _ => rfl, fun _ _ => rfl⟩
  · rename_i hno
    cases he
    exact ⟨hlive, rfl, rfl, id, fun ha hn => absurd ⟨ha, hn⟩ hno⟩

end Client

/-- The service and its client. -/
structure Link where
  service : NimbleService
  client : Client

namespace Link

instance (h : Handles) (s : NimbleService) (conn attr : UInt16) (op : AccessOp) :
    Decidable (EnabledWrite h s conn attr op) :=
  inferInstanceAs (Decidable (_ ∧ _ ∧ _))

/-- One action, where it can come. A write counts before the events that are
delivered while it is carried out. -/
def step (h : Handles) (l : Link) : Action → Option Link
  | .gap e => (l.client.observe h e).map fun client => ⟨(l.service.gapEvent h e).1, client⟩
  | .access conn attr op packet o =>
    if l.client.live = some conn then
      let reply := l.service.access h conn attr op packet o
      let client :=
        if EnabledWrite h l.service conn attr op then { l.client with written := true }
        else l.client
      (reply.delivered.foldlM (Client.observe h) client).map fun client => ⟨reply.service, client⟩
    else none
  | .wheel us => some { l with service := l.service.onWheelRevolution us }

/-- The service from its construction on. -/
def system (h : Handles) : Transition.System Link Action where
  init := ⟨.init, .absent⟩
  step := step h

/-- What the service keeps belongs to its client: the handle is that of the live
connection, a procedure in progress is one that this client has written, and what is
subscribed has been subscribed by it. -/
structure Isolated (s : NimbleService) (c : Client) : Prop where
  handle : s.connectionHandle_ = c.live.getD connHandleNone
  valid : c.live ≠ some connHandleNone
  closed : s.Closed
  owner : s.controlProcedureInProgress_ = true →
    c.live = some s.controlConnectionHandle_ ∧ c.written = true
  measurement : s.measurementSubscribed_ = true → c.live ≠ none ∧ c.notified = true
  controlPoint : s.controlIndicationsEnabled_ = true → c.live ≠ none

variable {h : Handles} {s : NimbleService} {c c' : Client} {l : Link}

namespace Isolated

theorem init : Isolated .init .absent where
  handle := rfl
  valid := by rintro ⟨⟩
  closed _ := rfl
  owner := by rintro ⟨⟩
  measurement := by rintro ⟨⟩
  controlPoint := by rintro ⟨⟩

/-- A client that differs in an added subscription. -/
theorem of_client (hi : Isolated s c) (hlive : c'.live = c.live) (hwritten : c'.written = c.written)
    (hnotified : c.notified = true → c'.notified = true) : Isolated s c' where
  handle := by rw [hlive]; exact hi.handle
  valid := by rw [hlive]; exact hi.valid
  closed := hi.closed
  owner := by rw [hlive, hwritten]; exact hi.owner
  measurement hm := by
    rw [hlive]
    exact ⟨(hi.measurement hm).1, hnotified (hi.measurement hm).2⟩
  controlPoint := by rw [hlive]; exact hi.controlPoint

/-! ## One GAP event

A disconnection takes everything back that the client has set, so a connection begins
with nothing. Events of a connection that is not live are excluded by
`Client.observe`.
-/

/-- One GAP event, where NimBLE can deliver it. A disconnect sets every field back
that belongs to a client (`csc_nimble_service.cpp:174–178`); the counter is not among
them. -/
theorem gapEvent (hi : Isolated s c) {e : GapEvent} (he : c.observe h e = some c') :
    Isolated (s.gapEvent h e).1 c' := by
  have hclosed : (s.gapEvent h e).1.Closed := hi.closed.gapEvent e
  cases e with
  | connect status connHandle =>
    simp only [Client.observe] at he
    by_cases hstatus : status = 0
    · rw [if_neg (not_not.mpr hstatus)] at he
      obtain ⟨⟨hnone, hvalid⟩, heq⟩ := Option.ite_none_right_eq_some.mp he
      cases heq
      -- nobody was connected, so nothing was open and nothing subscribed
      simp only [NimbleService.gapEvent, if_pos hstatus] at hclosed ⊢
      exact {
        handle := rfl
        valid := fun hc => hvalid (Option.some.inj hc)
        closed := hclosed
        owner := fun hp => by
          have howner := (hi.owner hp).1
          rw [hnone] at howner
          cases howner
        measurement := fun hm => absurd hnone (hi.measurement hm).1
        controlPoint := fun hc => absurd hnone (hi.controlPoint hc) }
    · rw [if_pos hstatus] at he
      cases he
      simp only [NimbleService.gapEvent, if_neg hstatus]
      exact hi
  | disconnect reason =>
    cases he
    exact {
      handle := rfl
      valid := by rintro ⟨⟩
      closed := hclosed
      owner := by rintro ⟨⟩
      measurement := by rintro ⟨⟩
      controlPoint := by rintro ⟨⟩ }
  | notifyTx indication attrHandle connHandle status =>
    obtain ⟨-, heq⟩ := Option.ite_none_right_eq_some.mp he
    cases heq
    simp only [NimbleService.gapEvent] at hclosed ⊢
    split
    · split
      · -- the indication of the open procedure has been sent
        exact { hi with
          closed := fun _ => rfl
          owner := by rintro ⟨⟩ }
      · exact hi
    · exact hi
  | subscribe attrHandle curNotify curIndicate =>
    obtain ⟨hlive, hsame, hwritten, hnotified, hnew⟩ := Client.observe_subscribe he
    have hkept := hi.of_client hsame hwritten hnotified
    simp only [NimbleService.gapEvent]
    split
    · rename_i hattr
      exact { hkept with
        measurement := fun hm => ⟨by rw [hsame]; exact hlive, hnew hattr hm⟩ }
    · split
      · exact { hkept with controlPoint := fun _ => by rw [hsame]; exact hlive }
      · exact hkept
  | other =>
    cases he
    exact hi

/-- A sequence of GAP events. -/
theorem deliver (hi : Isolated s c) {es : List GapEvent}
    (hes : es.foldlM (Client.observe h) c = some c') : Isolated (s.deliver h es) c' := by
  induction es generalizing s c with
  | nil =>
    cases hes
    exact hi
  | cons e es ih =>
    obtain ⟨d, hd, hes⟩ := Option.bind_eq_some_iff.mp hes
    exact ih (hi.gapEvent hd) hes

/-! ## One access

An access comes from the client of the live connection. The callbacks inside an
indication may replace that client, and then the rest of the access concerns one that
is gone.
-/

theorem cancel (hi : Isolated s c) : Isolated s.cancelControlProcedure c :=
  { hi with
    closed := closed_cancel s
    owner := by rintro ⟨⟩ }

/-- A request touches nothing but the counter. -/
theorem execute (hi : Isolated s c) (packet : List UInt8) (copied : Bool) :
    Isolated (s.execute packet copied).1 c := by
  rcases execute_eq s packet copied with heq | ⟨value, heq⟩ <;> rw [heq]
  · exact hi
  · exact { hi with }

/-- The procedure that a write opens belongs to the live connection. -/
theorem opened (hi : Isolated s c) {conn : UInt16} (hlive : c.live = some conn) :
    Isolated (s.opened conn) { c with written := true } :=
  { hi with
    closed := closed_opened s conn
    owner := fun _ => ⟨hlive, rfl⟩ }

theorem written (hi : Isolated s c) : Isolated s { c with written := true } :=
  { hi with owner := fun hp => ⟨(hi.owner hp).1, rfl⟩ }

theorem access (hi : Isolated s c) {conn attr : UInt16} {op : AccessOp} {packet : List UInt8}
    {o : Outcomes} (hlive : c.live = some conn)
    (hdelivered : (s.access h conn attr op packet o).delivered.foldlM (Client.observe h)
      (if EnabledWrite h s conn attr op then { c with written := true } else c) = some c') :
    Isolated (s.access h conn attr op packet o).service c' := by
  rcases access_cases h s conn attr op packet o with
    ⟨hno, hsame, hnone, -⟩ | ⟨hwrite, -, heq⟩ | ⟨hwrite, -, heq⟩
  · rw [hnone, if_neg hno] at hdelivered
    cases hdelivered
    rw [hsame]
    exact hi
  · rw [heq, if_pos hwrite] at hdelivered
    cases hdelivered
    rw [heq]
    exact hi.written
  · have hopened := hi.opened hlive
    rw [heq, if_pos hwrite] at hdelivered
    rw [heq]
    rcases procedure_cases h (s.opened conn) packet o with
      ⟨-, heq⟩ | ⟨-, -, heq⟩ | ⟨-, -, -, _, heq⟩ | ⟨-, -, -, _, heq⟩ <;>
      rw [heq] at hdelivered ⊢
    · cases hdelivered
      exact hopened.cancel
    · cases hdelivered
      exact (hopened.execute packet _).cancel
    · -- the indication failed: the client may have gone meanwhile
      exact ((hopened.execute packet _).deliver hdelivered).cancel
    · exact (hopened.execute packet _).deliver hdelivered

end Isolated

/-- Only an open procedure lets an access be refused with 0x80. -/
theorem access_of_idle (hidle : s.controlProcedureInProgress_ = false) (conn attr : UInt16)
    (op : AccessOp) (packet : List UInt8) (o : Outcomes) :
    (s.access h conn attr op packet o).result ≠ .procedureAlreadyInProgress := by
  by_cases hwrite : EnabledWrite h s conn attr op
  · obtain ⟨rfl, rfl, henabled⟩ := hwrite
    exact Session.access_of_idle henabled hidle
  · -- a read, another attribute, or the CCCD check fails first
    intro hrefused
    simp only [NimbleService.access] at hrefused
    split at hrefused
    · split at hrefused <;> cases hrefused
    · rename_i hread
      split at hrefused
      · cases hrefused
      · rename_i hother
        obtain ⟨hop, hattr⟩ := not_or.mp hother
        split at hrefused
        · cases hrefused
        · rename_i henabled
          exact hwrite ⟨not_not.mp hop, not_not.mp hattr, by simpa using henabled⟩

/-! ## Runs

Every sequence of callbacks that NimBLE can deliver keeps the service and its client
together.
-/

theorem isolated_step {l l' : Link} {a : Action} (hi : Isolated l.service l.client)
    (hstep : l.step h a = some l') : Isolated l'.service l'.client := by
  cases a with
  | gap e =>
    obtain ⟨client, hclient, rfl⟩ := Option.map_eq_some_iff.mp hstep
    exact hi.gapEvent hclient
  | access conn attr op packet o =>
    obtain ⟨hlive, hstep⟩ := Option.ite_none_right_eq_some.mp hstep
    obtain ⟨client, hclient, rfl⟩ := Option.map_eq_some_iff.mp hstep
    exact hi.access hlive hclient
  | wheel us =>
    cases hstep
    exact { hi with }

/-- Every reachable state is isolated, by induction on the run. -/
theorem isolated_run {as : List Action} (hrun : (system h).run as = some l) :
    Isolated l.service l.client :=
  Transition.System.invariant (P := fun _ l => Isolated l.service l.client) Isolated.init
    (fun _ _ _ _ hi hstep => isolated_step hi hstep) hrun

/-- In every reachable state a procedure is in progress exactly if a connection holds
one, it belongs to the connection of the service, and without a connection nothing is
open and nothing subscribed. So a client that has not yet written is not refused with
0x80, and nothing is notified to a client that has not subscribed. -/
theorem no_session_leak (h : Handles) (as : List Action) (l : Link)
    (hrun : (system h).run as = some l) :
    ((l.service.controlProcedureInProgress_ = true ↔
        l.service.controlConnectionHandle_ ≠ connHandleNone) ∧
      (l.service.controlProcedureInProgress_ = true →
        l.service.controlConnectionHandle_ = l.service.connectionHandle_) ∧
      (l.service.connectionHandle_ = connHandleNone →
        l.service.controlProcedureInProgress_ = false ∧
        l.service.measurementSubscribed_ = false ∧
        l.service.controlIndicationsEnabled_ = false)) ∧
    (l.client.written = false → ∀ conn attr op packet o,
      (l.service.access h conn attr op packet o).result ≠ .procedureAlreadyInProgress) ∧
    (l.client.notified = false → l.service.notify = none) := by
  have hi := isolated_run hrun
  generalize l.service = s at hi ⊢
  generalize l.client = c at hi ⊢
  have hopen : s.controlProcedureInProgress_ = true →
      s.controlConnectionHandle_ = s.connectionHandle_ ∧
        s.controlConnectionHandle_ ≠ connHandleNone := by
    intro hp
    have hlive := (hi.owner hp).1
    refine ⟨?_, fun hnone => hi.valid (by rw [hlive, hnone])⟩
    rw [hi.handle, hlive, Option.getD_some]
  have habsent : s.connectionHandle_ = connHandleNone → c.live = none := by
    intro hnone
    cases hlive : c.live with
    | none => rfl
    | some conn =>
      have hconn : s.connectionHandle_ = conn := by rw [hi.handle, hlive, Option.getD_some]
      exact absurd (by rw [hlive, ← hconn, hnone]) hi.valid
  refine ⟨⟨?_, fun hp => (hopen hp).1, ?_⟩, ?_, ?_⟩
  · constructor
    · exact fun hp => (hopen hp).2
    · intro hhandle
      by_contra hp
      exact hhandle (hi.closed (by simpa using hp))
  · intro hnone
    have hlive := habsent hnone
    refine ⟨?_, ?_, ?_⟩
    · by_contra hp
      have howner := (hi.owner (by simpa using hp)).1
      rw [hlive] at howner
      cases howner
    · by_contra hm
      exact (hi.measurement (by simpa using hm)).1 hlive
    · by_contra hcp
      exact hi.controlPoint (by simpa using hcp) hlive
  · intro hwritten
    have hidle : s.controlProcedureInProgress_ = false := by
      by_contra hp
      exact absurd (hwritten.symm.trans (hi.owner (by simpa using hp)).2) Bool.false_ne_true
    exact access_of_idle hidle
  · intro hnotified
    have hunsubscribed : s.measurementSubscribed_ = false := by
      by_contra hm
      exact absurd (hnotified.symm.trans (hi.measurement (by simpa using hm)).2) Bool.false_ne_true
    exact if_pos (.inr hunsubscribed)

/-- A client that left with a procedure open and notifications subscribed, and the
next one. -/
def replaced : List Action :=
  [.gap (.connect 0 1), .gap (.subscribe 10 true false), .gap (.subscribe 12 false true),
    .access 1 12 .writeChr [0x01, 5, 0, 0, 0] allWell, .gap (.disconnect 19), .gap (.connect 0 2)]

/-- Nothing is notified to the next client. -/
theorem no_session_leak_replaced :
    (run ⟨10, 12⟩ replaced).notify = none ∧ (run ⟨10, 12⟩ replaced).connectionHandle_ = 2 := by
  refine ⟨?_, by decide⟩
  exact (no_session_leak ⟨10, 12⟩ replaced
    ⟨run ⟨10, 12⟩ replaced, { Client.absent with live := some 2 }⟩ rfl).2.2 rfl

end Link

end SpokeSensor
