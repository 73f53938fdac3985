import SpokeSensor.Ble.Service

/-!
# One access of the control point (`csc_nimble_service.cpp:32–82`)

What one `access` can do, and over every run of GAP events, accesses and revolutions,
which failing writes leave the service as it was. A value is taken over (60) before
the response is allocated (70) and sent (75), and the failures from there on only
close the procedure again.

- `access_cases`, `procedure_cases`: an access either leaves the fields alone or
  carries a procedure out; a procedure ends in one of three failures or is left open.
- `gapEvent_state`, `execute_eq`: which parts of the service each step leaves alone.
- `Closed`, `closed_run`: while no procedure is in progress no connection holds one,
  on every run.
- `LateFailure`, `failed_access_unchanged_iff`: the failing accesses that change the
  service are those of a Set Cumulative Value with a new value whose response is not
  sent. `unallocated_sets_counter` is one of them.
-/

namespace SpokeSensor

/-- What can happen to the service. -/
inductive Action where
  | gap (event : GapEvent)
  | access (conn attr : UInt16) (op : AccessOp) (packet : List UInt8) (outcomes : Outcomes)
  | wheel (us : UInt64)

namespace NimbleService

variable {h : Handles} {s : NimbleService} {conn attr : UInt16} {op : AccessOp}
  {packet : List UInt8} {o : Outcomes}

/-! ## The cases of an access

What `access` can do to the service, once and for all
(`csc_nimble_service.cpp:32–82`): nothing, a change by the callbacks inside the
indication, or a write that was carried out. The results below only distinguish these
cases.
-/

/-- The fields once a procedure of `conn` is open. -/
def opened (s : NimbleService) (conn : UInt16) : NimbleService :=
  { s with controlProcedureInProgress_ := true, controlConnectionHandle_ := conn }

/-- A control-point write by a client with indications enabled. -/
def EnabledWrite (h : Handles) (s : NimbleService) (conn attr : UInt16) (op : AccessOp) : Prop :=
  op = .writeChr ∧ attr = h.controlPoint ∧ s.controlIndicationsEnabled conn = true

/-- An access either leaves the fields alone, because it is no enabled write or
because a procedure is open, or carries a procedure out. -/
theorem access_cases (h : Handles) (s : NimbleService) (conn attr : UInt16) (op : AccessOp)
    (packet : List UInt8) (o : Outcomes) :
    (¬ EnabledWrite h s conn attr op ∧ (s.access h conn attr op packet o).service = s ∧
      (s.access h conn attr op packet o).delivered = [] ∧
      (op = .writeChr → (s.access h conn attr op packet o).result ≠ .success)) ∨
    (EnabledWrite h s conn attr op ∧ s.controlProcedureInProgress_ = true ∧
      s.access h conn attr op packet o = ⟨s, .procedureAlreadyInProgress, [], []⟩) ∨
    (EnabledWrite h s conn attr op ∧ s.controlProcedureInProgress_ = false ∧
      s.access h conn attr op packet o = (s.opened conn).procedure h packet o) := by
  unfold EnabledWrite access
  by_cases hread : op = .readChr
  · subst hread
    -- a read, of the feature or of anything else
    refine .inl ⟨by rintro ⟨⟨⟩, -⟩, ?_, ?_, by rintro ⟨⟩⟩ <;>
      · rw [if_pos rfl]
        split <;> rfl
  rw [if_neg hread]
  by_cases hattr : op ≠ .writeChr ∨ attr ≠ h.controlPoint
  · rw [if_pos hattr]
    refine .inl ⟨?_, rfl, rfl, fun _ hs => nomatch hs⟩
    rintro ⟨hop', hattr', -⟩
    rcases hattr with hop | hattr
    · exact hop hop'
    · exact hattr hattr'
  rw [if_neg hattr]
  obtain ⟨hop, hattr⟩ := not_or.mp hattr
  by_cases henabled : s.controlIndicationsEnabled conn = false
  · rw [if_pos henabled]
    refine .inl ⟨?_, rfl, rfl, fun _ hs => nomatch hs⟩
    rintro ⟨-, -, hw⟩
    exact Bool.false_ne_true (henabled.symm.trans hw)
  rw [if_neg henabled]
  have hwrite : op = .writeChr ∧ attr = h.controlPoint ∧
      s.controlIndicationsEnabled conn = true :=
    ⟨not_not.mp hop, not_not.mp hattr, by simpa using henabled⟩
  cases hprogress : s.controlProcedureInProgress_ with
  | true =>
    have hbegin : s.beginControlProcedure conn = (s, false) := by
      rw [beginControlProcedure, if_neg (by simp [hprogress])]
    rw [hbegin, if_pos rfl]
    exact .inr (.inl ⟨hwrite, rfl, rfl⟩)
  | false =>
    have hbegin : s.beginControlProcedure conn = (s.opened conn, true) := by
      rw [beginControlProcedure, if_pos hprogress]
      rfl
    rw [hbegin, if_neg fun hb => nomatch hb]
    exact .inr (.inr ⟨hwrite, rfl, rfl⟩)

/-- A procedure ends in one of three failures, each of which closes it, or is left
open for the indication to be sent. -/
theorem procedure_cases (h : Handles) (s : NimbleService) (packet : List UInt8)
    (o : Outcomes) :
    ((packet = [] ∨ o.opcodeCopied = false) ∧
      s.procedure h packet o = ⟨s.cancelControlProcedure, .invalidAttrValueLen, [], []⟩) ∨
    ((packet ≠ [] ∧ o.opcodeCopied = true) ∧ o.allocated = false ∧
      s.procedure h packet o
        = ⟨(s.execute packet o.requestCopied).1.cancelControlProcedure, .insufficientRes, [], []⟩) ∨
    ((packet ≠ [] ∧ o.opcodeCopied = true) ∧ o.allocated = true ∧ o.rc ≠ 0 ∧
      ∃ response, s.procedure h packet o
        = ⟨((s.execute packet o.requestCopied).1.deliver h o.during).cancelControlProcedure,
            .unlikely, response, o.during⟩) ∨
    ((packet ≠ [] ∧ o.opcodeCopied = true) ∧ o.allocated = true ∧ o.rc = 0 ∧
      ∃ response, s.procedure h packet o
        = ⟨(s.execute packet o.requestCopied).1.deliver h o.during,
            .success, response, o.during⟩) := by
  cases packet with
  | nil => exact .inl ⟨.inl rfl, rfl⟩
  | cons opcode rest =>
    have hne : opcode :: rest ≠ [] := List.cons_ne_nil _ _
    simp only [procedure]
    cases hcopied : o.opcodeCopied with
    | false => exact .inl ⟨.inr rfl, if_pos rfl⟩
    | true =>
      rw [if_neg (by simp)]
      -- the request has been carried out before the response is allocated
      cases hallocated : o.allocated with
      | false => exact .inr (.inl ⟨⟨hne, rfl⟩, rfl, if_pos rfl⟩)
      | true =>
        rw [if_neg (by simp)]
        by_cases hrc : o.rc = 0
        · exact .inr (.inr (.inr ⟨⟨hne, rfl⟩, rfl, hrc, _, if_neg (not_not.mpr hrc)⟩))
        · exact .inr (.inr (.inl ⟨⟨hne, rfl⟩, rfl, hrc, _, if_pos hrc⟩))

/-! ## What each part leaves alone

Frame facts. A request touches the counter at most, the flag of the procedure is set
before it and cleared by a failure after it, and the connection is changed by GAP
events alone.
-/

/-- No GAP event opens a procedure. -/
theorem gapEvent_idle (h : Handles) {s : NimbleService}
    (hs : s.controlProcedureInProgress_ = false) (e : GapEvent) :
    (s.gapEvent h e).1.controlProcedureInProgress_ = false := by
  cases e <;> simp only [gapEvent] <;> repeat' split
  all_goals first | exact hs | rfl

/-- GAP events do not touch the counter. -/
theorem gapEvent_state (h : Handles) (s : NimbleService) (e : GapEvent) :
    (s.gapEvent h e).1.state_ = s.state_ := by
  cases e <;> simp only [gapEvent] <;> repeat' split
  all_goals rfl

theorem deliver_state (h : Handles) (s : NimbleService) (es : List GapEvent) :
    (s.deliver h es).state_ = s.state_ := by
  induction es generalizing s with
  | nil => rfl
  | cons e es ih => exact (ih (s.gapEvent h e).1).trans (gapEvent_state h s e)

/-- A request touches nothing but the counter. -/
theorem execute_eq (s : NimbleService) (packet : List UInt8) (copied : Bool) :
    (s.execute packet copied).1 = s ∨
      ∃ value, (s.execute packet copied).1 = s.setCumulative value := by
  unfold execute
  repeat' split
  all_goals first | exact .inl rfl | exact .inr ⟨_, rfl⟩

/-- A complete Set Cumulative Value with a value that differs from the counter. -/
def SetsCounter (s : NimbleService) (packet : List UInt8) (copied : Bool) : Prop :=
  copied = true ∧ ∃ b₁ b₂ b₃ b₄, packet = [0x01, b₁, b₂, b₃, b₄] ∧
    cumulativeValue b₁ b₂ b₃ b₄ ≠ s.state_.revolutions_

/-- No other request changes the counter. -/
theorem execute_state_iff (s : NimbleService) (packet : List UInt8) (copied : Bool) :
    (s.execute packet copied).1.state_ = s.state_ ↔ ¬ s.SetsCounter packet copied := by
  unfold execute
  by_cases hop : packet.head? = some 0x01
  · rw [if_pos hop]
    split
    · rename_i b₀ b₁ b₂ b₃ b₄
      have h0 : b₀ = 0x01 := by simpa using hop
      subst h0
      cases copied with
      | true =>
        rw [if_pos rfl]
        show s.state_.setCumulative (cumulativeValue b₁ b₂ b₃ b₄) = s.state_ ↔ _
        constructor
        · rintro heq ⟨-, c₁, c₂, c₃, c₄, hpacket, hne⟩
          simp only [List.cons.injEq, and_true, true_and] at hpacket
          obtain ⟨rfl, rfl, rfl, rfl⟩ := hpacket
          exact hne (congrArg WheelState.revolutions_ heq)
        · intro hnot
          by_contra hne
          refine hnot ⟨rfl, b₁, b₂, b₃, b₄, rfl, fun hvalue => hne ?_⟩
          rw [WheelState.setCumulative, hvalue]
      | false =>
        rw [if_neg fun hb => nomatch hb]
        constructor
        · rintro - ⟨⟨⟩, -⟩
        · exact fun _ => rfl
    · -- a request of another length is answered with Operation Failed
      rename_i hshape
      constructor
      · rintro - ⟨-, b₁, b₂, b₃, b₄, hpacket, -⟩
        exact hshape _ b₁ b₂ b₃ b₄ hpacket
      · exact fun _ => rfl
  · rw [if_neg hop]
    constructor
    · rintro - ⟨-, b₁, b₂, b₃, b₄, rfl, -⟩
      exact hop rfl
    · exact fun _ => rfl

/-! ## Runs

Callbacks and revolutions one after the other, from a service that has just been
created.
-/

/-- The service after one action; what an action returns is of no concern here. -/
def step (h : Handles) (s : NimbleService) : Action → NimbleService
  | .gap e => (s.gapEvent h e).1
  | .access conn attr op packet o => (s.access h conn attr op packet o).service
  | .wheel us => s.onWheelRevolution us

/-- The service after a run from its construction. -/
def run (h : Handles) (as : List Action) : NimbleService :=
  as.foldl (step h) init

theorem run_append_singleton (h : Handles) (as : List Action) (a : Action) :
    run h (as ++ [a]) = (run h as).step h a :=
  List.foldl_concat _ _ _ _

/-! ## A failing write

A write can fail before the counter is set, when nothing has happened, and after it,
when the response cannot be sent (`csc_nimble_service.cpp:70–80`). The late failures
are what the result excludes.
-/

/-- While no procedure is open, no connection holds one. -/
def Closed (s : NimbleService) : Prop :=
  s.controlProcedureInProgress_ = false → s.controlConnectionHandle_ = connHandleNone

theorem Closed.gapEvent (hs : s.Closed) (e : GapEvent) : (s.gapEvent h e).1.Closed := by
  cases e <;> simp only [NimbleService.gapEvent] <;> repeat' split
  all_goals first | exact hs | exact fun _ => rfl

theorem Closed.deliver (hs : s.Closed) (es : List GapEvent) : (s.deliver h es).Closed := by
  induction es generalizing s with
  | nil => exact hs
  | cons e es ih => exact ih (hs.gapEvent e)

theorem Closed.execute (hs : s.Closed) (packet : List UInt8) (copied : Bool) :
    (s.execute packet copied).1.Closed := by
  rcases execute_eq s packet copied with heq | ⟨value, heq⟩ <;> rw [heq] <;> exact hs

theorem closed_opened (s : NimbleService) (conn : UInt16) : (s.opened conn).Closed :=
  fun hp => nomatch hp

theorem closed_cancel (s : NimbleService) : s.cancelControlProcedure.Closed := fun _ => rfl

theorem Closed.access (hs : s.Closed) (conn attr : UInt16) (op : AccessOp)
    (packet : List UInt8) (o : Outcomes) :
    (s.access h conn attr op packet o).service.Closed := by
  rcases access_cases h s conn attr op packet o with
    ⟨-, heq, -⟩ | ⟨-, -, heq⟩ | ⟨-, -, heq⟩
  · rw [heq]
    exact hs
  · rw [heq]
    exact hs
  · rw [heq]
    rcases procedure_cases h (s.opened conn) packet o with
      ⟨-, heq⟩ | ⟨-, -, heq⟩ | ⟨-, -, -, _, heq⟩ | ⟨-, -, -, _, heq⟩ <;> rw [heq]
    · exact closed_cancel _
    · exact closed_cancel _
    · exact closed_cancel _
    · exact ((closed_opened s conn).execute packet _).deliver o.during

theorem closed_run (h : Handles) (as : List Action) : (run h as).Closed := by
  induction as using List.reverseRecOn with
  | nil => exact fun _ => rfl
  | append_singleton as a ih =>
    rw [run_append_singleton]
    cases a with
    | gap e => exact ih.gapEvent e
    | access conn attr op packet o => exact ih.access conn attr op packet o
    | wheel us => exact ih

/-- A late failure of a Set Cumulative Value: the checks passed, the request was
read, its value differs from the counter, and the response was not allocated or
not accepted for sending. -/
def LateFailure (h : Handles) (s : NimbleService) (conn attr : UInt16) (op : AccessOp)
    (packet : List UInt8) (o : Outcomes) : Prop :=
  EnabledWrite h s conn attr op ∧ s.controlProcedureInProgress_ = false ∧
    o.opcodeCopied = true ∧ s.SetsCounter packet o.requestCopied ∧
    (o.allocated = false ∨ o.rc ≠ 0)

/-- Once a request has been carried out, a failure is a late one iff the request has set
the counter. -/
theorem setsCounter_iff_lateFailure {h : Handles} {conn attr : UInt16} {op : AccessOp}
    (packet : List UInt8) {o : Outcomes} (hwrite : EnabledWrite h s conn attr op)
    (hprogress : s.controlProcedureInProgress_ = false) (hcopied : o.opcodeCopied = true)
    (hfailed : o.allocated = false ∨ o.rc ≠ 0) :
    s.SetsCounter packet o.requestCopied ↔ LateFailure h s conn attr op packet o := by
  constructor
  · exact fun hset => ⟨hwrite, hprogress, hcopied, hset, hfailed⟩
  · rintro ⟨-, -, -, hset, -⟩
    exact hset

/-- On every reachable service, an access that fails leaves the counter, the event
time and the procedure as they were exactly unless it is a late failure. For a failure
in front of the request nothing has been touched; after it, the procedure is closed
again, but the counter stays. -/
theorem failed_access_unchanged_iff (h : Handles) (as : List Action) (conn attr : UInt16)
    (op : AccessOp) (packet : List UInt8) (o : Outcomes) :
    (((run h as).access h conn attr op packet o).result ≠ .success →
      ((run h as).access h conn attr op packet o).service.state_ = (run h as).state_ ∧
      ((run h as).access h conn attr op packet o).service.controlProcedureInProgress_
        = (run h as).controlProcedureInProgress_ ∧
      ((run h as).access h conn attr op packet o).service.controlConnectionHandle_
        = (run h as).controlConnectionHandle_) ↔
    ¬ LateFailure h (run h as) conn attr op packet o := by
  have hclosed := closed_run h as
  generalize run h as = s at hclosed ⊢
  rcases access_cases h s conn attr op packet o with
    ⟨hno, heq, -⟩ | ⟨-, hprogress, heq⟩ | ⟨hwrite, hprogress, heq⟩
  · -- refused before anything is touched
    rw [heq]
    constructor
    · rintro - ⟨hwrite, -⟩
      exact hno hwrite
    · exact fun _ _ => ⟨rfl, rfl, rfl⟩
  · rw [heq]
    constructor
    · rintro - ⟨-, hidle, -⟩
      exact absurd (hidle.symm.trans hprogress) Bool.false_ne_true
    · exact fun _ _ => ⟨rfl, rfl, rfl⟩
  · -- a failure after the procedure was opened leaves it closed, as it was before
    have hcancel : ∀ q : NimbleService,
        (q.cancelControlProcedure.state_ = s.state_ ∧
          q.cancelControlProcedure.controlProcedureInProgress_
            = s.controlProcedureInProgress_ ∧
          q.cancelControlProcedure.controlConnectionHandle_ = s.controlConnectionHandle_) ↔
        q.state_ = s.state_ := by
      intro q
      constructor
      · exact fun hq => hq.1
      · exact fun hq => ⟨hq, hprogress.symm, (hclosed hprogress).symm⟩
    have hexecute : ((s.opened conn).execute packet o.requestCopied).1.state_ = s.state_ ↔
        ¬ s.SetsCounter packet o.requestCopied :=
      execute_state_iff (s.opened conn) packet o.requestCopied
    rw [heq]
    rcases procedure_cases h (s.opened conn) packet o with
      ⟨hearly, heq⟩ | ⟨⟨-, hcopied⟩, halloc, heq⟩ | ⟨⟨-, hcopied⟩, -, hrc, _, heq⟩ |
      ⟨-, halloc, hrc, _, heq⟩ <;> rw [heq]
    · -- nothing has been read, so nothing has been set
      constructor
      · rintro - ⟨-, -, hcopied, ⟨-, b₁, b₂, b₃, b₄, rfl, -⟩, -⟩
        rcases hearly with hempty | hnot
        · cases hempty
        · exact absurd (hnot.symm.trans hcopied) Bool.false_ne_true
      · exact fun _ _ => (hcancel _).mpr rfl
    · have hlate := setsCounter_iff_lateFailure packet hwrite hprogress hcopied (.inl halloc)
      have hne : AccessResult.insufficientRes ≠ .success := fun hr => nomatch hr
      exact (imp_iff_right hne).trans ((hcancel _).trans (hexecute.trans (not_congr hlate)))
    · have hlate := setsCounter_iff_lateFailure packet hwrite hprogress hcopied (.inr hrc)
      have hne : AccessResult.unlikely ≠ .success := fun hr => nomatch hr
      rw [← deliver_state h _ o.during] at hexecute
      exact (imp_iff_right hne).trans ((hcancel _).trans (hexecute.trans (not_congr hlate)))
    · constructor
      · rintro - ⟨-, -, -, -, hno | hno⟩
        · exact absurd (hno.symm.trans halloc) Bool.false_ne_true
        · exact hno hrc
      · exact fun _ hfail => absurd rfl hfail

/-- Every answer positive, nothing delivered meanwhile. -/
def allWell : Outcomes where
  appended := true
  opcodeCopied := true
  requestCopied := true
  allocated := true
  during := []
  rc := 0

/-- A client has connected and enabled the indications of the control point. -/
def subscribed : List Action :=
  [.gap (.connect 0 1), .gap (.subscribe 12 false true)]

/-- The response to a Set Cumulative Value of 7 is not allocated: the access fails
and the counter is 7. -/
theorem unallocated_sets_counter :
    ((run ⟨10, 12⟩ subscribed).access ⟨10, 12⟩ 1 12 .writeChr [0x01, 7, 0, 0, 0]
        { allWell with allocated := false }).result = .insufficientRes ∧
      ((run ⟨10, 12⟩ subscribed).access ⟨10, 12⟩ 1 12 .writeChr [0x01, 7, 0, 0, 0]
        { allWell with allocated := false }).service.state_.revolutions_ = 7 ∧
      (run ⟨10, 12⟩ subscribed).state_.revolutions_ = 0 := by
  decide

end NimbleService

end SpokeSensor
