import SpokeSensor.Core.Phase
import SpokeSensor.Core.PulseRun
import SpokeSensor.Ble.Service

/-!
# Forwarding wheel revolutions (`ir_spoke_rmt_adapter.c:118–198`)

The body of the dequeuing loop of `receive_loop`: a pulse passes the pipeline, and
when the table index has come round to `0` the revolution is forwarded to the CSC
service (185–197). CAN telemetry and debug output, which write nothing that is read
here, are left out, and so is the test of `estimate` for null: the pipeline is never
null once the task runs.

- `handleEvent`, `handleAll`: the body, and the log of the calls of the service.
- `handleAll_locked`: while locked, the number of calls so far is the number of whole
  turns of the index, whatever the pulses and the rounding of `float`.
- `handleEvent_locks`: the event that locks leaves the index at `1`, because the
  locking interval itself is passed on to `update_map` (`ir_spoke_pattern.c:72–74`).
- `forwarded_once_per_turn`: so the calls are neither lost nor doubled. After the lock
  there is one for every `spoke_count` intervals that enter the history, the first of
  these turns lacking its first interval.
-/

namespace SpokeSensor

/-- `blockage_event_t` -/
structure BlockageEvent where
  timestampUs : UInt64
  durationUs : UInt32
  deriving DecidableEq, Repr

/-- The pipeline and the service that the receive task drives. -/
structure Adapter (F : Type) where
  pipeline : Pipeline F
  ble : BleCsc

namespace Adapter

set_option linter.unusedSectionVars false

variable {F : Type} [Add F] [Sub F] [Mul F] [Div F] [LT F] [DecidableLT F]
  [LE F] [DecidableLE F] [CFloat F]

/-- The adapter after `ir_spoke_pipeline_init`, with any state of the service. -/
def start (ble : BleCsc) : Adapter F := { pipeline := .init, ble }

/-- The estimate that the loop reads. -/
def estimate (a : Adapter F) : Estimate F := a.pipeline.pattern.estimate

/-- One dequeued event: the new state and the timestamps with which
`ir_spoke_ble_csc_on_wheel_revolution` is called. -/
def handleEvent (a : Adapter F) (event : BlockageEvent) : Adapter F × List UInt64 :=
  let wasLocked := a.pipeline.pattern.estimate.countLocked
  let previousSpoke := a.pipeline.pattern.estimate.currentSpoke
  let r := a.pipeline.ingest event.timestampUs event.durationUs
  let estimate := r.1.pattern.estimate
  if r.2 = .accepted ∧ wasLocked = true ∧ previousSpoke ≠ 0 ∧ estimate.countLocked = true ∧
      estimate.currentSpoke = 0 then
    ({ pipeline := r.1, ble := (a.ble.onWheelRevolution event.timestampUs).1 },
      [event.timestampUs])
  else ({ a with pipeline := r.1 }, [])

/-- A sequence of dequeued events, with all calls in order. -/
def handleAll (a : Adapter F) : List BlockageEvent → Adapter F × List UInt64
  | [] => (a, [])
  | event :: events =>
    let r := a.handleEvent event
    let rest := r.1.handleAll events
    (rest.1, r.2 ++ rest.2)

/-- How many intervals a sequence of events adds to the history. -/
def entered (a : Adapter F) : List BlockageEvent → ℕ
  | [] => 0
  | event :: events =>
    (if a.pipeline.enters event.timestampUs event.durationUs then 1 else 0)
      + (a.handleEvent event).1.entered events

/-! ## One event

An event is ingested, and then a revolution is forwarded if the index has come back to
zero from elsewhere (`ir_spoke_rmt_adapter.c:119–128, 185–196`). Both conditions on
the lock are about the states before and after this event.
-/

/-- The estimator does not depend on whether a revolution is forwarded. -/
theorem handleEvent_pipeline (a : Adapter F) (ev : BlockageEvent) :
    (a.handleEvent ev).1.pipeline = (a.pipeline.ingest ev.timestampUs ev.durationUs).1 := by
  simp only [handleEvent]
  split <;> rfl

/-- When the call is made. -/
theorem handleEvent_snd (a : Adapter F) (ev : BlockageEvent) :
    (a.handleEvent ev).2
      = if (a.pipeline.ingest ev.timestampUs ev.durationUs).2 = .accepted ∧
          a.estimate.countLocked = true ∧ a.estimate.currentSpoke ≠ 0 ∧
          (a.handleEvent ev).1.estimate.countLocked = true ∧
          (a.handleEvent ev).1.estimate.currentSpoke = 0 then [ev.timestampUs]
        else [] := by
  rw [estimate, estimate, handleEvent_pipeline]
  simp only [handleEvent]
  split <;> rfl

/-- At most one call, and one revolution for it. -/
theorem handleEvent_calls (a : Adapter F) (ev : BlockageEvent) :
    ((a.handleEvent ev).2 = [] ∧ (a.handleEvent ev).1.ble = a.ble) ∨
    ((a.handleEvent ev).2 = [ev.timestampUs] ∧
      (a.handleEvent ev).1.ble = (a.ble.onWheelRevolution ev.timestampUs).1) := by
  simp only [handleEvent]
  split
  · exact .inr ⟨rfl, rfl⟩
  · exact .inl ⟨rfl, rfl⟩

/-- No call before the lock. -/
theorem handleEvent_unlocked {a : Adapter F} (h : a.estimate.countLocked = false)
    (ev : BlockageEvent) : (a.handleEvent ev).2 = [] := by
  have hno : ¬ a.pipeline.pattern.estimate.countLocked = true := Bool.not_eq_true _ ▸ h
  simp only [handleEvent]
  rw [if_neg fun hc => hno hc.2.1]

/-- A lock is final. -/
theorem locked_handleEvent {a : Adapter F} (hl : a.estimate.countLocked = true)
    (ev : BlockageEvent) : (a.handleEvent ev).1.estimate.countLocked = true := by
  rw [estimate, handleEvent_pipeline]
  rcases a.pipeline.ingest_cases ev.timestampUs ev.durationUs with ⟨-, heq, -⟩ | ⟨-, heq, -⟩ <;>
    rw [heq]
  · exact hl
  · exact (Pattern.estimate_ingestEdge_locked hl _).2.2

theorem shape_handleEvent {a : Adapter F} (h : a.pipeline.pattern.Shape) (ev : BlockageEvent) :
    (a.handleEvent ev).1.pipeline.pattern.Shape := by
  rw [handleEvent_pipeline]
  rcases a.pipeline.ingest_cases ev.timestampUs ev.durationUs with ⟨-, heq, -⟩ | ⟨-, heq, -⟩ <;>
    rw [heq]
  · exact h
  · exact h.ingestEdge _

/-- One event of a locked adapter: the index stays, without a call, or it moves on by
one, and the call is made when it comes round. -/
theorem handleEvent_locked {a : Adapter F} (h : a.pipeline.pattern.Shape)
    (hl : a.estimate.countLocked = true) (ev : BlockageEvent) :
    (a.handleEvent ev).1.estimate.countLocked = true ∧
      (a.handleEvent ev).1.estimate.spokeCount = a.estimate.spokeCount ∧
      ((a.pipeline.enters ev.timestampUs ev.durationUs = false ∧
          (a.handleEvent ev).1.estimate.currentSpoke = a.estimate.currentSpoke ∧
          (a.handleEvent ev).2 = []) ∨
        (a.pipeline.enters ev.timestampUs ev.durationUs = true ∧
          (a.handleEvent ev).1.estimate.currentSpoke
            = (a.estimate.currentSpoke + 1) % a.estimate.spokeCount ∧
          (a.handleEvent ev).2
            = if a.estimate.currentSpoke + 1 = a.estimate.spokeCount then [ev.timestampUs]
              else [])) := by
  have hcurrent : a.estimate.currentSpoke = a.pipeline.pattern.spokeIndex := h.current_eq
  have hindex : a.estimate.currentSpoke < a.estimate.spokeCount := hcurrent ▸ h.index_lt hl
  have hge : countMin ≤ a.estimate.spokeCount := h.count_ge hl
  have hsnd := a.handleEvent_snd ev
  have hestimate : (a.handleEvent ev).1.estimate
      = (a.pipeline.ingest ev.timestampUs ev.durationUs).1.pattern.estimate := by
    rw [estimate, handleEvent_pipeline]
  rcases Pipeline.ingest_locked hl ev.timestampUs ev.durationUs with
    ⟨henters, hsame⟩ | ⟨henters, hacc, hpattern⟩
  · -- the snapshots before and after are the same, and a call needs them to differ
    have hsame : (a.handleEvent ev).1.estimate = a.estimate := hestimate.trans hsame
    rw [hsame, if_neg fun hc => hc.2.2.1 hc.2.2.2.2] at hsnd
    rw [hsame]
    exact ⟨hl, rfl, .inl ⟨henters, rfl, hsnd⟩⟩
  · have hlocked : (a.handleEvent ev).1.estimate.countLocked = true := by
      rw [hestimate, hpattern]
      exact hl
    have hcount : (a.handleEvent ev).1.estimate.spokeCount = a.estimate.spokeCount := by
      rw [hestimate, hpattern]
      rfl
    have hnext : (a.handleEvent ev).1.estimate.currentSpoke
        = (a.estimate.currentSpoke + 1) % a.estimate.spokeCount := by
      rw [hestimate, hpattern, hcurrent]
      rfl
    refine ⟨hlocked, hcount, .inr ⟨henters, hnext, ?_⟩⟩
    rw [hsnd, hnext]
    have hval := generated_values
    by_cases hwrap : a.estimate.currentSpoke + 1 = a.estimate.spokeCount
    · -- with 16 spokes or more the last index is not the first
      rw [if_pos hwrap, if_pos]
      refine ⟨hacc, hl, by omega, hlocked, ?_⟩
      rw [hwrap, Nat.mod_self]
    · rw [if_neg hwrap, if_neg]
      rintro ⟨-, -, -, -, hzero⟩
      rw [Nat.mod_eq_of_lt (by omega)] at hzero
      omega

/-- The event that locks leaves the index at `1`: inference resets it, and the same interval
is passed on to the table. -/
theorem handleEvent_locks {a : Adapter F} (h : a.estimate.countLocked = false) {ev : BlockageEvent}
    (hlocks : (a.handleEvent ev).1.estimate.countLocked = true) :
    (a.handleEvent ev).1.estimate.currentSpoke = 1 ∧ (a.handleEvent ev).2 = [] := by
  refine ⟨?_, handleEvent_unlocked h ev⟩
  rw [estimate, handleEvent_pipeline] at hlocks ⊢
  have hstays : ∀ q : Pattern F, q.estimate.countLocked = true →
      q.estimate.countLocked ≠ a.estimate.countLocked := by
    intro q hq hsame
    exact Bool.false_ne_true (h.symm.trans (hsame.symm.trans hq))
  rcases a.pipeline.ingest_cases ev.timestampUs ev.durationUs with ⟨-, heq, -⟩ | ⟨-, heq, -⟩ <;>
    rw [heq] at hlocks ⊢
  · exact absurd rfl (hstays _ hlocks)
  -- only an interval that enters the history can lock
  rcases a.pipeline.pattern.ingestEdge_cases ev.timestampUs with
    ⟨-, hedge⟩ | ⟨-, -, hedge⟩ | ⟨-, -, -, hedge⟩ | ⟨-, -, -, hedge⟩ <;> rw [hedge] at hlocks ⊢
  · exact absurd rfl (hstays _ hlocks)
  · exact absurd rfl (hstays _ hlocks)
  · exact absurd rfl (hstays _ hlocks)
  · obtain ⟨-, haccepts, hlearn⟩ := Pattern.learn_of_locks (by exact h) hlocks
    obtain ⟨hge, -, -⟩ := (Pattern.rankCandidates_bestCount _).resolve_left haccepts.1
    have hmany : 1 < Pattern.Ranking.bestCount (Pattern.rankCandidates _) :=
      lt_of_lt_of_le (by decide) hge
    rw [hlearn]
    exact Nat.mod_eq_of_lt hmany

/-! ## Sequences of events

Calls are counted by the index: between two of them it goes once around, and it moves
by one for each interval that enters the history. So the number of calls is that of
the whole turns since the lock.
-/

theorem handleAll_append (a : Adapter F) (evs fvs : List BlockageEvent) :
    a.handleAll (evs ++ fvs)
      = (((a.handleAll evs).1.handleAll fvs).1,
          (a.handleAll evs).2 ++ ((a.handleAll evs).1.handleAll fvs).2) := by
  induction evs generalizing a with
  | nil => rfl
  | cons ev evs ih =>
    simp only [List.cons_append, handleAll, ih, List.append_assoc]

theorem handleAll_singleton (a : Adapter F) (ev : BlockageEvent) :
    a.handleAll [ev] = a.handleEvent ev := by
  simp only [handleAll, List.append_nil]

theorem shape_handleAll {a : Adapter F} (h : a.pipeline.pattern.Shape)
    (evs : List BlockageEvent) : (a.handleAll evs).1.pipeline.pattern.Shape := by
  induction evs generalizing a with
  | nil => exact h
  | cons ev evs ih => exact ih (shape_handleEvent h ev)

/-- While locked, the index counts the intervals modulo the spoke count and the calls
count the turns. -/
theorem handleAll_locked {a : Adapter F} (h : a.pipeline.pattern.Shape)
    (hl : a.estimate.countLocked = true) (evs : List BlockageEvent) :
    (a.handleAll evs).1.estimate.countLocked = true ∧
      (a.handleAll evs).1.estimate.spokeCount = a.estimate.spokeCount ∧
      (a.handleAll evs).1.estimate.currentSpoke
        = (a.estimate.currentSpoke + a.entered evs) % a.estimate.spokeCount ∧
      (a.handleAll evs).2.length
        = (a.estimate.currentSpoke + a.entered evs) / a.estimate.spokeCount := by
  have hindex : a.estimate.currentSpoke < a.estimate.spokeCount := by
    have hcurrent : a.estimate.currentSpoke = a.pipeline.pattern.spokeIndex := h.current_eq
    exact hcurrent ▸ h.index_lt hl
  induction evs generalizing a with
  | nil =>
    refine ⟨hl, rfl, ?_, ?_⟩
    · exact (Nat.mod_eq_of_lt hindex).symm
    · exact (Nat.div_eq_of_lt hindex).symm
  | cons ev evs ih =>
    obtain ⟨hl', hcount, hcases⟩ := handleEvent_locked h hl ev
    have hshape := shape_handleEvent h ev
    have hindex' : (a.handleEvent ev).1.estimate.currentSpoke
        < (a.handleEvent ev).1.estimate.spokeCount := by
      have hcurrent : (a.handleEvent ev).1.estimate.currentSpoke
        = (a.handleEvent ev).1.pipeline.pattern.spokeIndex := hshape.current_eq
      exact hcurrent ▸ hshape.index_lt hl'
    obtain ⟨h1, h2, h3, h4⟩ := ih hshape hl' hindex'
    rw [hcount] at h2 h3 h4
    refine ⟨h1, h2, ?_, ?_⟩
    · show ((a.handleEvent ev).1.handleAll evs).1.estimate.currentSpoke = _
      rw [h3, entered]
      rcases hcases with ⟨henters, hstay, -⟩ | ⟨henters, hnext, -⟩
      · rw [hstay, henters, if_neg Bool.false_ne_true, Nat.zero_add]
      · rw [hnext, henters, if_pos rfl, Nat.mod_add_mod, Nat.add_assoc]
    · show ((a.handleEvent ev).2 ++ ((a.handleEvent ev).1.handleAll evs).2).length = _
      rw [List.length_append, h4, entered]
      rcases hcases with ⟨henters, hstay, hcalls⟩ | ⟨henters, hnext, hcalls⟩
      · rw [hstay, hcalls, henters, if_neg Bool.false_ne_true, List.length_nil, Nat.zero_add,
          Nat.zero_add]
      · rw [hnext, hcalls, henters, if_pos rfl, ← Nat.add_assoc]
        -- the turn that this event completes is the one that the quotient gains
        by_cases hwrap : a.estimate.currentSpoke + 1 = a.estimate.spokeCount
        · rw [if_pos hwrap, hwrap, Nat.mod_self, Nat.zero_add,
            Nat.add_div_left _ (by omega), List.length_singleton, Nat.add_comm]
        · rw [if_neg hwrap, Nat.mod_eq_of_lt (by omega), List.length_nil, Nat.zero_add]

theorem locked_handleAll {a : Adapter F} (hl : a.estimate.countLocked = true)
    (evs : List BlockageEvent) : (a.handleAll evs).1.estimate.countLocked = true := by
  induction evs generalizing a with
  | nil => exact hl
  | cons ev evs ih => exact ih (locked_handleEvent hl ev)

/-- Before the lock nothing is forwarded. -/
theorem handleAll_unlocked {a : Adapter F} {evs : List BlockageEvent}
    (h : (a.handleAll evs).1.estimate.countLocked = false) : (a.handleAll evs).2 = [] := by
  induction evs generalizing a with
  | nil => rfl
  | cons ev evs ih =>
    have hunlocked : a.estimate.countLocked = false := by
      by_contra hl
      have hlocked := locked_handleAll (by simpa using hl) (ev :: evs)
      exact absurd (h.symm.trans hlocked) Bool.false_ne_true
    show (a.handleEvent ev).2 ++ ((a.handleEvent ev).1.handleAll evs).2 = []
    rw [handleEvent_unlocked hunlocked, ih h]
    rfl

/-- A call leaves the index at the start of a turn. -/
theorem handleEvent_called {a : Adapter F} {ev : BlockageEvent}
    (h : (a.handleEvent ev).2 ≠ []) :
    a.estimate.countLocked = true ∧ (a.handleEvent ev).1.estimate.currentSpoke = 0 := by
  rw [handleEvent_snd] at h
  split at h
  · rename_i hc
    exact ⟨hc.2.1, hc.2.2.2.2⟩
  · exact absurd rfl h

/-- Between a call and the next one, the index makes one turn. -/
theorem entered_between {a : Adapter F} (h : a.pipeline.pattern.Shape) {ev ev' : BlockageEvent}
    {mid : List BlockageEvent} (hcall : (a.handleEvent ev).2 ≠ [])
    (hmid : ((a.handleEvent ev).1.handleAll mid).2 = [])
    (hcall' : (((a.handleEvent ev).1.handleAll mid).1.handleEvent ev').2 ≠ []) :
    (a.handleEvent ev).1.entered (mid ++ [ev']) = a.estimate.spokeCount := by
  obtain ⟨hl, hzero⟩ := handleEvent_called hcall
  obtain ⟨hl', hcount, -⟩ := handleEvent_locked h hl ev
  obtain ⟨-, -, hindex, hcalls⟩ :=
    handleAll_locked (shape_handleEvent h ev) hl' (mid ++ [ev'])
  -- exactly one call, and the index is at the start again
  rw [handleAll_append, hmid, handleAll_singleton, List.nil_append] at hcalls
  rw [handleAll_append, handleAll_singleton, (handleEvent_called hcall').2] at hindex
  rw [hzero, Nat.zero_add, hcount] at hindex hcalls
  have hone : (((a.handleEvent ev).1.handleAll mid).1.handleEvent ev').2.length = 1 := by
    rcases ((a.handleEvent ev).1.handleAll mid).1.handleEvent_calls ev' with ⟨hno, -⟩ | ⟨heq, -⟩
    · exact absurd hno hcall'
    · rw [heq, List.length_singleton]
  have hdiv := Nat.div_add_mod ((a.handleEvent ev).1.entered (mid ++ [ev'])) a.estimate.spokeCount
  rw [← hindex, ← hcalls, hone] at hdiv
  omega

/-- Every call counts one revolution, up to the largest value. -/
theorem handleAll_revolutions (a : Adapter F) (evs : List BlockageEvent) :
    (a.handleAll evs).1.ble.service.state_.revolutions_.toNat
      = min (a.ble.service.state_.revolutions_.toNat + (a.handleAll evs).2.length)
          (2 ^ 32 - 1) := by
  have hstate : (a.handleAll evs).1.ble.service.state_
      = (a.handleAll evs).2.foldl WheelState.onRevolution a.ble.service.state_ := by
    induction evs generalizing a with
    | nil => rfl
    | cons ev evs ih =>
      show ((a.handleEvent ev).1.handleAll evs).1.ble.service.state_
        = ((a.handleEvent ev).2 ++ _).foldl _ _
      rw [ih, List.foldl_append]
      rcases a.handleEvent_calls ev with ⟨hcalls, hble⟩ | ⟨hcalls, hble⟩ <;> rw [hcalls, hble]
      · rfl
      · rw [BleCsc.onWheelRevolution_state]
        rfl
  rw [hstate, WheelState.foldl_onRevolution_toNat]

/-- After the event that locks, a call is made whenever another `spoke_count` intervals have
entered the history; the locking interval counts for the first turn. -/
theorem calls_since_lock {a : Adapter F} (h : a.pipeline.pattern.Shape)
    (hunlocked : a.estimate.countLocked = false) {ev : BlockageEvent}
    (hlocks : (a.handleEvent ev).1.estimate.countLocked = true) (after : List BlockageEvent) :
    ((a.handleEvent ev).1.handleAll after).2.length
      = (1 + (a.handleEvent ev).1.entered after) / (a.handleEvent ev).1.estimate.spokeCount := by
  obtain ⟨-, -, -, hcalls⟩ := handleAll_locked (shape_handleEvent h ev) hlocks after
  rw [hcalls, (handleEvent_locks hunlocked hlocks).1]

/-- Revolutions are forwarded once per turn of the learned table. After any events
from a fresh pipeline:

- nothing has been forwarded while the estimator is unlocked;
- the next event makes at most one call, and none when the estimator is unlocked or
  the index does not move;
- between two consecutive calls `spoke_count` intervals enter the history;
- if the next event locks, then after any further events there have been as many calls as
  whole turns of `spoke_count` intervals, the locking one included;
- once locked, the calls during any further events are the turns that these complete, and an
  event makes a call exactly if its interval enters the history and completes a turn;
- the counter has gone up by the number of calls, as far as it can. -/
theorem forwarded_once_per_turn (ble : BleCsc) (evs : List BlockageEvent) :
    let a : Adapter F := ((start ble).handleAll evs).1
    let calls := ((start ble : Adapter F).handleAll evs).2
    (a.estimate.countLocked = false → calls = []) ∧
    (∀ ev, (a.handleEvent ev).2.length ≤ 1 ∧
      (a.estimate.countLocked = false → (a.handleEvent ev).2 = []) ∧
      ((a.handleEvent ev).1.pipeline.pattern.spokeIndex = a.pipeline.pattern.spokeIndex →
        (a.handleEvent ev).2 = [])) ∧
    (∀ ev mid ev', (a.handleEvent ev).2 ≠ [] →
      ((a.handleEvent ev).1.handleAll mid).2 = [] →
      (((a.handleEvent ev).1.handleAll mid).1.handleEvent ev').2 ≠ [] →
      (a.handleEvent ev).1.entered (mid ++ [ev']) = a.estimate.spokeCount) ∧
    (∀ ev after, a.estimate.countLocked = false →
      (a.handleEvent ev).1.estimate.countLocked = true →
      ((a.handleEvent ev).1.handleAll after).2.length
        = (1 + (a.handleEvent ev).1.entered after)
          / (a.handleEvent ev).1.estimate.spokeCount) ∧
    (a.estimate.countLocked = true →
      16 ≤ a.estimate.spokeCount ∧ a.estimate.currentSpoke < a.estimate.spokeCount ∧
      (∀ after, (a.handleAll after).1.estimate.spokeCount = a.estimate.spokeCount ∧
        (a.handleAll after).2.length
          = (a.estimate.currentSpoke + a.entered after) / a.estimate.spokeCount) ∧
      ∀ ev, (a.handleEvent ev).2 = [ev.timestampUs] ↔
        a.pipeline.enters ev.timestampUs ev.durationUs = true ∧
          a.estimate.currentSpoke + 1 = a.estimate.spokeCount) ∧
    a.ble.service.state_.revolutions_.toNat
      = min (ble.service.state_.revolutions_.toNat + calls.length) (2 ^ 32 - 1) := by
  intro a calls
  have hshape : a.pipeline.pattern.Shape := shape_handleAll Pattern.shape_init evs
  refine ⟨handleAll_unlocked, fun ev => ⟨?_, fun h => handleEvent_unlocked h ev, fun hsame => ?_⟩,
    fun ev mid ev' => entered_between hshape,
    fun ev after hunlocked hlocks => calls_since_lock hshape hunlocked hlocks after,
    fun hl => ⟨hshape.count_ge hl, ?_, fun after => ?_, fun ev => ?_⟩,
    handleAll_revolutions (start ble) evs⟩
  · rcases a.handleEvent_calls ev with ⟨heq, -⟩ | ⟨heq, -⟩ <;> rw [heq]
    · exact Nat.zero_le 1
    · exact le_rfl
  · -- a call needs the index to have come back to zero from elsewhere
    have hbefore : a.estimate.currentSpoke = a.pipeline.pattern.spokeIndex := hshape.current_eq
    have hafter : (a.handleEvent ev).1.estimate.currentSpoke
        = (a.handleEvent ev).1.pipeline.pattern.spokeIndex :=
      (shape_handleEvent hshape ev).current_eq
    rw [handleEvent_snd, if_neg]
    rintro ⟨-, -, hne, -, hzero⟩
    rw [hafter, hsame, ← hbefore] at hzero
    exact hne hzero
  · have hcurrent : a.estimate.currentSpoke = a.pipeline.pattern.spokeIndex := hshape.current_eq
    exact hcurrent ▸ hshape.index_lt hl
  · obtain ⟨-, hcount, -, hcalls⟩ := handleAll_locked hshape hl after
    exact ⟨hcount, hcalls⟩
  · obtain ⟨-, -, ⟨henters, -, hcalls⟩ | ⟨henters, -, hcalls⟩⟩ := handleEvent_locked hshape hl ev
    · rw [hcalls, henters]
      simp
    · rw [hcalls, henters]
      by_cases hwrap : a.estimate.currentSpoke + 1 = a.estimate.spokeCount
      · simp [hwrap]
      · simp [hwrap]

/-! ## Two turns of a wheel of twenty-five spokes

A run with calls in it: the wheel locks with its 192nd interval, and in the fifty
intervals after that two revolutions are forwarded.
-/

section TwoTurns

open Pattern (edgeAt oneGap wheelRun)

/-- A blockage of 100 microseconds at every edge from the `k`-th on, on a wheel of 25 spokes
with one wide gap. -/
def gapEvents (k count : ℕ) : List BlockageEvent :=
  (List.range' k count).map fun i => ⟨edgeAt 1 (oneGap 25 2000) i, 100⟩

theorem gapEvents_succ (k count : ℕ) :
    gapEvents k (count + 1) = ⟨edgeAt 1 (oneGap 25 2000) k, 100⟩ :: gapEvents (k + 1) count := rfl

/-- What the adapter has come to after `k` intervals of that wheel. -/
structure Rolled (a : Adapter ℚ) (k : ℕ) : Prop where
  pattern : a.pipeline.pattern = wheelRun 1 (oneGap 25 2000) k
  limits : a.pipeline.limits = (70, 600)

theorem oneGap_edges : ∀ k, k ≤ 1000 → edgeAt 1 (oneGap 25 2000) k ≠ 0 :=
  Pattern.oneGap_edge (by decide) (by decide)

theorem Rolled.handleEvent {a : Adapter ℚ} {k : ℕ} (h : Rolled a k) :
    Rolled (a.handleEvent ⟨edgeAt 1 (oneGap 25 2000) (k + 1), 100⟩).1 (k + 1) := by
  have haccepted : (a.pipeline.ingest (edgeAt 1 (oneGap 25 2000) (k + 1)) 100).2 = .accepted := by
    rw [Pipeline.ingest_accepted_iff, h.limits]
    decide
  constructor
  · rw [handleEvent_pipeline, Pattern.wheelRun_ingest, ← h.pattern]
    rcases a.pipeline.ingest_cases (edgeAt 1 (oneGap 25 2000) (k + 1)) 100 with
      ⟨hrejected, -, -⟩ | ⟨-, hpattern, -⟩
    · exact absurd haccepted hrejected
    · exact hpattern
  · rw [handleEvent_pipeline, Pipeline.limits_ingest, h.limits]

/-- Every further edge adds an interval to the history. -/
theorem Rolled.enters {a : Adapter ℚ} {k : ℕ} (h : Rolled a k) (hk : k < 1000) :
    a.pipeline.enters (edgeAt 1 (oneGap 25 2000) (k + 1)) 100 = true := by
  have hx := Pattern.oneGap_accepted 25 (w := 2000) (by decide)
  have hone : wheelRun 1 (oneGap 25 2000) k
      = (Pattern.init.withEdge 1).timedRun (oneGap 25 2000) k := Pattern.wheelRun_eq (by decide) _ k
  rw [Pipeline.enters_iff _ (oneGap_edges _ hk), h.limits, h.pattern, hone]
  refine ⟨by decide, ?_, ?_⟩
  · rw [Pattern.lastEdge_timedRun oneGap_edges hk.le]
    exact oneGap_edges k hk.le
  · have hinterval : ((Pattern.init.withEdge 1).timedRun (oneGap 25 2000) k).intervalTo
        (edgeAt 1 (oneGap 25 2000) (k + 1)) = oneGap 25 2000 k :=
      Pattern.intervalTo_timedRun (p := Pattern.init.withEdge 1) hx oneGap_edges hk
    rw [hinterval]
    exact (Pattern.inRange_iff _).mpr (hx k)

theorem Rolled.handleAll {a : Adapter ℚ} {k count : ℕ} (h : Rolled a k)
    (hk : k + count ≤ 1000) :
    Rolled (a.handleAll (gapEvents (k + 1) count)).1 (k + count) ∧
      a.entered (gapEvents (k + 1) count) = count := by
  induction count generalizing a k with
  | zero => exact ⟨h, rfl⟩
  | succ count ih =>
    obtain ⟨hrolled, hentered⟩ := ih h.handleEvent (by omega)
    constructor
    · rw [show k + (count + 1) = k + 1 + count by ring]
      exact hrolled
    · rw [gapEvents_succ, entered, h.enters (by omega), if_pos rfl, hentered, Nat.add_comm]

/-- The first edge only sets the clock. -/
theorem rolled_start : Rolled ((start .init).handleEvent ⟨edgeAt 1 (oneGap 25 2000) 0, 100⟩).1 0 :=
  ⟨rfl, rfl⟩

theorem rolled_gapEvents {count : ℕ} (hcount : count ≤ 1000) :
    Rolled ((start .init).handleAll (gapEvents 0 (count + 1))).1 count := by
  have hrolled := (rolled_start.handleAll (show 0 + count ≤ 1000 by omega)).1
  rw [Nat.zero_add, Nat.zero_add] at hrolled
  exact hrolled

theorem oneGap_lock : Pattern.LocksAt 1 (oneGap 25 2000) 192 191 25 :=
  Pattern.oneGap_locksAt (by decide) (by decide) (by decide) (by decide) (by decide)

theorem Rolled.unlocked {a : Adapter ℚ} (h : Rolled a 191) : a.estimate.countLocked = false := by
  rw [estimate, h.pattern]
  exact oneGap_lock.unlocked

theorem Rolled.locked {a : Adapter ℚ} (h : Rolled a (191 + 1)) :
    a.estimate.countLocked = true ∧ a.estimate.spokeCount = 25 := by
  rw [estimate, h.pattern]
  exact ⟨oneGap_lock.locked, oneGap_lock.count⟩

/-- The 192nd interval locks, and fifty more make two calls: one turn after 24 intervals, the
next after 25, and the fiftieth begins a third. -/
theorem gapEvents_forwarded :
    let a : Adapter ℚ := ((start .init).handleAll (gapEvents 0 (191 + 1))).1
    let lock : BlockageEvent := ⟨edgeAt 1 (oneGap 25 2000) (191 + 1), 100⟩
    (a.estimate.countLocked = false ∧ (a.handleEvent lock).1.estimate.countLocked = true) ∧
    ((a.handleEvent lock).1.handleAll (gapEvents (191 + 1 + 1) 50)).2.length = 2 := by
  dsimp only
  have hbefore : Rolled ((start .init).handleAll (gapEvents 0 (191 + 1))).1 191 :=
    rolled_gapEvents (by decide)
  have hafter := hbefore.handleEvent
  obtain ⟨-, hentered⟩ := hafter.handleAll (show 191 + 1 + 50 ≤ 1000 by decide)
  obtain ⟨hlocked, hcount⟩ := hafter.locked
  obtain ⟨-, -, -, hcalls, -⟩ := forwarded_once_per_turn (F := ℚ) .init (gapEvents 0 (191 + 1))
  have htwo := hcalls _ (gapEvents (191 + 1 + 1) 50) hbefore.unlocked hlocked
  rw [hcount, hentered] at htwo
  exact ⟨⟨hbefore.unlocked, hlocked⟩, htwo⟩

end TwoTurns

end Adapter

end SpokeSensor
