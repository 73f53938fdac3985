import SpokeSensor.Ble.Access

/-!
# One procedure at a time

The procedure of an accepted write, as the client sees it, is open from the write on
until its indication ends, with a NOTIFY_TX of another status than zero, or the client
disconnects. The service keeps its own flag, and its handler of NOTIFY_TX
(`csc_nimble_service.cpp:181–191`) does not look at the status: it closes the
procedure as soon as the indication has been sent, before it has been confirmed.

- `Window`, `Window.observe`: the open procedure, and whether its indication has been
  sent.
- `Known`: the service knows of an open procedure until its indication has been sent,
  and not from then on. `Known.step` carries this over one action.
- `NoWriteAfterSent`: no enabled write arrives in between.
- `one_at_a_time_iff`: exactly on these runs a client has one procedure at a time.
  `second_request_accepted` is a run that is none of them.
-/

namespace SpokeSensor

open NimbleService

/-- An open procedure: the connection it belongs to, and whether its indication has
been reported as sent. -/
structure Window where
  conn : UInt16
  sent : Bool
  deriving DecidableEq, Repr

/-- What a GAP event does to the open procedure. Status zero says that the indication
has been sent, any other that it has ended. -/
def Window.observe (h : Handles) : Option Window → GapEvent → Option Window
  | none, _ => none
  | some _, .disconnect _ => none
  | some w, .notifyTx indication attrHandle connHandle status =>
    if (indication = true ∧ attrHandle = h.controlPoint) ∧ connHandle = w.conn then
      if status ≠ 0 then none else some { w with sent := true }
    else some w
  | some w, _ => some w

/-- The service with the procedure that the client sees open. -/
structure Session where
  service : NimbleService
  window : Option Window

namespace Session

/-- One action. A write that is answered with zero opens a procedure; the events
delivered before it returns already count. -/
def step (h : Handles) (c : Session) : Action → Session
  | .gap e => ⟨(c.service.gapEvent h e).1, Window.observe h c.window e⟩
  | .access conn attr op packet o =>
    let reply := c.service.access h conn attr op packet o
    let window :=
      if op = .writeChr ∧ reply.result = .success then some ⟨conn, false⟩ else c.window
    ⟨reply.service, reply.delivered.foldl (Window.observe h) window⟩
  | .wheel us => ⟨c.service.onWheelRevolution us, c.window⟩

/-- A run from the construction of the service. -/
def run (h : Handles) (as : List Action) : Session :=
  as.foldl (step h) ⟨.init, none⟩

/-- While a procedure is open, every control-point write by a client with
indications enabled is refused with 0x80 and leaves the counter alone. -/
def OneAtATime (h : Handles) (as : List Action) : Prop :=
  ∀ pre conn packet o post, as = pre ++ .access conn h.controlPoint .writeChr packet o :: post →
    (run h pre).window ≠ none → (run h pre).service.controlIndicationsEnabled conn = true →
    ((run h pre).service.access h conn h.controlPoint .writeChr packet o).result
        = .procedureAlreadyInProgress ∧
      ((run h pre).service.access h conn h.controlPoint .writeChr packet
        o).service.state_.revolutions_ = (run h pre).service.state_.revolutions_

/-- No such write arrives after the indication of the open procedure was reported
as sent. -/
def NoWriteAfterSent (h : Handles) (as : List Action) : Prop :=
  ∀ pre conn packet o post, as = pre ++ .access conn h.controlPoint .writeChr packet o :: post →
    (run h pre).service.controlIndicationsEnabled conn = true →
    ∀ w, (run h pre).window = some w → w.sent = false

variable {h : Handles} {c : Session}

theorem run_append_singleton (h : Handles) (as : List Action) (a : Action) :
    run h (as ++ [a]) = (run h as).step h a :=
  List.foldl_concat _ _ _ _

/-- The service knows of an open procedure until its indication has been sent, and not
from then on. This is where the service and its client differ. -/
structure Known (c : Session) : Prop where
  unsent : ∀ w, c.window = some w → w.sent = false →
    c.service.controlProcedureInProgress_ = true ∧ c.service.controlConnectionHandle_ = w.conn
  sent : ∀ w, c.window = some w → w.sent = true →
    c.service.controlProcedureInProgress_ = false

theorem Known.of_none (s : NimbleService) : Known ⟨s, none⟩ where
  unsent := by rintro w ⟨⟩
  sent := by rintro w ⟨⟩

theorem Known.of_sent {s : NimbleService} {w : Window} (hs : w.sent = true)
    (hprogress : s.controlProcedureInProgress_ = false) : Known ⟨s, some w⟩ where
  unsent := by
    rintro v ⟨⟩ hv
    exact absurd (hv.symm.trans hs) Bool.false_ne_true
  sent _ _ _ := hprogress

theorem Known.of_unsent {s : NimbleService} {w : Window} (hs : w.sent = false)
    (hprogress : s.controlProcedureInProgress_ = true)
    (hhandle : s.controlConnectionHandle_ = w.conn) : Known ⟨s, some w⟩ where
  unsent := by
    rintro v ⟨⟩ -
    exact ⟨hprogress, hhandle⟩
  sent := by
    rintro v ⟨⟩ hv
    exact absurd (hs.symm.trans hv) Bool.false_ne_true

/-- A GAP event keeps the two in step. -/
theorem Known.gap (hc : c.Known) (e : GapEvent) : (c.step h (.gap e)).Known := by
  obtain ⟨s, window⟩ := c
  cases window with
  | none =>
    have hwindow : Window.observe h none e = none := by cases e <;> rfl
    rw [step, hwindow]
    exact .of_none _
  | some w =>
    obtain ⟨hunsent, hsent⟩ := hc
    cases e with
    | connect status connHandle =>
      simp only [step, gapEvent, Window.observe]
      split <;> exact ⟨hunsent, hsent⟩
    | disconnect reason => exact .of_none _
    | subscribe attrHandle curNotify curIndicate =>
      simp only [step, gapEvent, Window.observe]
      repeat' split
      all_goals exact ⟨hunsent, hsent⟩
    | other => exact ⟨hunsent, hsent⟩
    | notifyTx indication attrHandle connHandle status =>
      by_cases hind : indication = true ∧ attrHandle = h.controlPoint
      · cases hs : w.sent with
        | true =>
          -- already closed on the side of the service, and nothing opens it again
          have hidle := gapEvent_idle h (hsent w rfl hs)
            (.notifyTx indication attrHandle connHandle status)
          simp only [step, Window.observe, and_iff_right hind]
          split
          · split
            · exact .of_none _
            · exact .of_sent rfl hidle
          · exact .of_sent hs hidle
        | false =>
          -- open on both sides, and closed by the service whatever the status is
          obtain ⟨hprogress, hhandle⟩ := hunsent w rfl hs
          simp only [step, gapEvent, Window.observe, if_pos hind, and_iff_right hind]
          by_cases hconn : connHandle = w.conn
          · rw [if_pos hconn, if_pos (hhandle.trans hconn.symm)]
            split
            · exact .of_none _
            · exact .of_sent rfl rfl
          · rw [if_neg hconn, if_neg fun hh => hconn (hh.symm.trans hhandle)]
            exact .of_unsent hs hprogress hhandle
      · have hno : ¬ ((indication = true ∧ attrHandle = h.controlPoint) ∧ connHandle = w.conn) :=
          fun hi => hind hi.1
        simp only [step, gapEvent, Window.observe, if_neg hind, if_neg hno]
        exact ⟨hunsent, hsent⟩

/-- So does a sequence of GAP events. -/
theorem Known.deliver {s : NimbleService} {w : Option Window} (hc : Known ⟨s, w⟩)
    (es : List GapEvent) :
    Known ⟨s.deliver h es, es.foldl (Window.observe h) w⟩ := by
  induction es generalizing s w with
  | nil => exact hc
  | cons e es ih => exact ih (hc.gap (h := h) e)

theorem foldl_observe_none (h : Handles) (es : List GapEvent) :
    es.foldl (Window.observe h) none = none := by
  induction es with
  | nil => rfl
  | cons e es ih => exact ih

/-- An enabled write that meets an open procedure meets an unsent one. -/
def InTime (h : Handles) (c : Session) : Action → Prop
  | .access conn attr op _ _ =>
    EnabledWrite h c.service conn attr op → ∀ w, c.window = some w → w.sent = false
  | _ => True

/-- An access keeps the two in step unless it is a write after the sending. -/
theorem Known.access (hc : c.Known) {conn attr : UInt16} {op : AccessOp}
    {packet : List UInt8} {o : Outcomes}
    (htime : InTime h c (.access conn attr op packet o)) :
    (c.step h (.access conn attr op packet o)).Known := by
  obtain ⟨s, window⟩ := c
  simp only [step]
  rcases access_cases h s conn attr op packet o with
    ⟨hno, hservice, hdelivered, hresult⟩ | ⟨hwrite, hprogress, heq⟩ | ⟨hwrite, hprogress, heq⟩
  · rw [hservice, hdelivered, if_neg fun hw => hresult hw.1 hw.2]
    exact hc
  · rw [heq, if_neg (by simp)]
    exact hc
  · -- no procedure was open before
    have hnone : window = none := by
      cases hw : window with
      | none => rfl
      | some w =>
        subst hw
        have hunsent := hc.unsent w rfl (htime hwrite w rfl)
        exact absurd (hprogress.symm.trans hunsent.1) Bool.false_ne_true
    subst hnone
    rw [heq]
    rcases procedure_cases h (s.opened conn) packet o with
      ⟨-, heq⟩ | ⟨-, -, heq⟩ | ⟨-, -, -, _, heq⟩ | ⟨-, -, -, _, heq⟩ <;> rw [heq]
    · rw [if_neg (by simp)]
      exact .of_none _
    · rw [if_neg (by simp)]
      exact .of_none _
    · rw [if_neg (by simp), foldl_observe_none]
      exact .of_none _
    · -- answered with zero: the events delivered meanwhile already count
      rw [if_pos ⟨hwrite.1, rfl⟩]
      refine Known.deliver ?_ o.during
      rcases execute_eq (s.opened conn) packet o.requestCopied with hsame | ⟨_, hset⟩
      · rw [hsame]
        exact .of_unsent rfl rfl rfl
      · rw [hset]
        exact .of_unsent rfl rfl rfl

/-- One action in time keeps the two in step. -/
theorem Known.step (hc : c.Known) {a : Action} (htime : InTime h c a) : (c.step h a).Known := by
  cases a with
  | gap e => exact hc.gap e
  | access conn attr op packet o => exact hc.access htime
  | wheel us => exact ⟨hc.unsent, hc.sent⟩

/-- A refused write: the procedure is open on the side of the service. -/
theorem access_of_progress {s : NimbleService} {conn : UInt16} {packet : List UInt8}
    {o : Outcomes} (henabled : s.controlIndicationsEnabled conn = true)
    (hprogress : s.controlProcedureInProgress_ = true) :
    s.access h conn h.controlPoint .writeChr packet o
      = ⟨s, .procedureAlreadyInProgress, [], []⟩ := by
  rcases access_cases h s conn h.controlPoint .writeChr packet o with
    ⟨hno, -⟩ | ⟨-, -, heq⟩ | ⟨-, hidle, -⟩
  · exact absurd ⟨rfl, rfl, henabled⟩ hno
  · exact heq
  · rw [hprogress] at hidle
    cases hidle

/-- A write that finds no procedure open in the service is not refused with 0x80. -/
theorem access_of_idle {s : NimbleService} {conn : UInt16} {packet : List UInt8}
    {o : Outcomes} (henabled : s.controlIndicationsEnabled conn = true)
    (hidle : s.controlProcedureInProgress_ = false) :
    (s.access h conn h.controlPoint .writeChr packet o).result
      ≠ .procedureAlreadyInProgress := by
  rcases access_cases h s conn h.controlPoint .writeChr packet o with
    ⟨hno, -⟩ | ⟨-, hprogress, -⟩ | ⟨-, -, heq⟩
  · exact absurd ⟨rfl, rfl, henabled⟩ hno
  · rw [hidle] at hprogress
    cases hprogress
  · rw [heq]
    rcases procedure_cases h (s.opened conn) packet o with
      ⟨-, heq⟩ | ⟨-, -, heq⟩ | ⟨-, -, -, _, heq⟩ | ⟨-, -, -, _, heq⟩ <;> simp [heq]

/-! ### Whole runs

A run without a write after the sending keeps the service and its client in step. The
first such write is carried out, and opens a second procedure.
-/

theorem NoWriteAfterSent.of_append {as bs : List Action} (hrun : NoWriteAfterSent h (as ++ bs)) :
    NoWriteAfterSent h as := by
  intro pre conn packet o post hsplit
  refine hrun pre conn packet o (post ++ bs) ?_
  rw [hsplit, List.append_assoc, List.cons_append]

theorem OneAtATime.of_append {as bs : List Action} (hrun : OneAtATime h (as ++ bs)) :
    OneAtATime h as := by
  intro pre conn packet o post hsplit
  refine hrun pre conn packet o (post ++ bs) ?_
  rw [hsplit, List.append_assoc, List.cons_append]

/-- Along a run without a write after the sending the two stay in step. -/
theorem NoWriteAfterSent.known {as : List Action} (hrun : NoWriteAfterSent h as) :
    (run h as).Known := by
  induction as using List.reverseRecOn with
  | nil => exact .of_none _
  | append_singleton as a ih =>
    rw [run_append_singleton]
    refine (ih hrun.of_append).step ?_
    cases a with
    | gap e => trivial
    | wheel us => trivial
    | access conn attr op packet o =>
      rintro ⟨rfl, rfl, henabled⟩
      exact hrun as conn packet o [] rfl henabled

/-- A run with one procedure at a time has no write after the sending: the first of
them would meet a service in step with its client, and the service would carry it out. -/
theorem OneAtATime.noWriteAfterSent {as : List Action} (hrun : OneAtATime h as) :
    NoWriteAfterSent h as := by
  induction as using List.reverseRecOn with
  | nil =>
    intro pre conn packet o post hsplit
    exact absurd hsplit (by simp)
  | append_singleton as a ih =>
    have hbefore := ih hrun.of_append
    intro pre conn packet o post hsplit henabled w hw
    rcases List.eq_nil_or_concat post with rfl | ⟨post, b, rfl⟩
    · -- the write is the last action
      obtain ⟨rfl, rfl⟩ : as = pre ∧ a = .access conn h.controlPoint .writeChr packet o := by
        have := List.append_inj' hsplit rfl
        exact ⟨this.1, List.cons.inj this.2 |>.1⟩
      by_contra hsent
      have hidle := hbefore.known.sent w hw (by simpa using hsent)
      have hrefused := (hrun as conn packet o [] hsplit (by rw [hw]; simp) henabled).1
      exact access_of_idle henabled hidle hrefused
    · refine hbefore pre conn packet o post ?_ henabled w hw
      have : as ++ [a]
          = (pre ++ .access conn h.controlPoint .writeChr packet o :: post) ++ [b] := by
        rw [hsplit]
        simp
      exact (List.append_inj' this rfl).1

/-- A run has one procedure at a time exactly when no enabled write arrives after the
indication of the open procedure was reported as sent. Along such a run the flag of
the service is the client's window (`NoWriteAfterSent.known`); and the first write
after a sending would find the flag cleared and be carried out, so a run with one
procedure at a time has none (`OneAtATime.noWriteAfterSent`). -/
theorem one_at_a_time_iff (h : Handles) (as : List Action) :
    OneAtATime h as ↔ NoWriteAfterSent h as := by
  constructor
  · exact fun hrun => hrun.noWriteAfterSent
  · intro hrun pre conn packet o post hsplit hopen henabled
    have hpre : NoWriteAfterSent h pre := by
      rw [hsplit] at hrun
      exact hrun.of_append
    obtain ⟨w, hw⟩ := Option.ne_none_iff_exists'.mp hopen
    have hsent := hrun pre conn packet o post hsplit henabled w hw
    rw [access_of_progress henabled (hpre.known.unsent w hw hsent).1]
    exact ⟨rfl, rfl⟩

/-- A client sends a first request; the indication is reported as sent. -/
def firstSent : List Action :=
  subscribed ++ [.access 1 12 .writeChr [0x01, 5, 0, 0, 0] allWell, .gap (.notifyTx true 12 1 0)]

/-- A second request before the confirmation is carried out. -/
theorem second_request_accepted :
    ¬ OneAtATime ⟨10, 12⟩
        (firstSent ++ [.access 1 12 .writeChr [0x01, 7, 0, 0, 0] allWell]) ∧
      ((run ⟨10, 12⟩ firstSent).service.access ⟨10, 12⟩ 1 12 .writeChr [0x01, 7, 0, 0, 0]
        allWell).result = .success ∧
      ((run ⟨10, 12⟩ firstSent).service.access ⟨10, 12⟩ 1 12 .writeChr [0x01, 7, 0, 0, 0]
        allWell).service.state_.revolutions_ = 7 := by
  refine ⟨?_, by decide, by decide⟩
  intro hrun
  have hrefused := (hrun firstSent 1 [0x01, 7, 0, 0, 0] allWell [] rfl (by decide) (by decide)).1
  exact absurd hrefused (by decide)

end Session

end SpokeSensor
