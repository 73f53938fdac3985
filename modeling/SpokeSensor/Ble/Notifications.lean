import SpokeSensor.Ble.Counter
import SpokeSensor.Ble.EventTime
import SpokeSensor.Ble.HostTask
import SpokeSensor.Lib.Throttle

/-!
# Notified measurements

What a subscriber is sent over every interleaving of the host task and the RMT task.
The two are those of `HostTask`, with a log of what happens.

- `Throttled`, `notifications_throttled`: for which revolutions `notify` is called is
  a matter of their times alone (`csc_nimble_service.cpp:332–334`).
- `Recorded`, `notified_measurements`: what is sent carries the time of the revolution
  it is sent for, and the counter at that moment, although the host task may set the
  counter between the revolution and the notification.

Along a run each step appends to the log what it does, so both invariants are kept
section by section (`Throttled.act`, `Recorded.act`).
-/

namespace SpokeSensor

open NimbleService Throttle

namespace Mark

/-- The value that the counter is set to. -/
def value : Mark → Option ℕ
  | .set value => some value.toNat
  | _ => none

/-- The time of a revolution. -/
def revolutionTime : Mark → Option UInt64
  | .revolution us => some us
  | _ => none

/-- The time of the revolution for which `notify` has been called. -/
def notifyTime : Mark → Option UInt64
  | .notify us _ => some us
  | _ => none

/-- The times of the revolutions. -/
def revolutionTimes (log : List Mark) : List UInt64 := log.filterMap revolutionTime

/-- The times for which `notify` has been called. -/
def notifyTimes (log : List Mark) : List UInt64 := log.filterMap notifyTime

/-- The value that has been set last, zero if none has. -/
def lastSet (log : List Mark) : ℕ := (log.reverse.findSome? value).getD 0

/-- The revolutions since then. -/
def revolutionsSince (log : List Mark) : ℕ :=
  (log.reverse.takeWhile fun m => m.value.isNone).countP fun m => m.revolutionTime.isSome

/-- The counter that a log comes to. -/
def counter (log : List Mark) : ℕ := min (lastSet log + revolutionsSince log) (2 ^ 32 - 1)

theorem lastSet_concat (log : List Mark) (m : Mark) :
    lastSet (log ++ [m]) = m.value.getD (lastSet log) := by
  rw [lastSet, List.reverse_concat, List.findSome?_cons]
  cases m.value <;> rfl

theorem revolutionsSince_concat (log : List Mark) (m : Mark) :
    revolutionsSince (log ++ [m])
      = if m.value.isSome then 0
        else revolutionsSince log + if m.revolutionTime.isSome then 1 else 0 := by
  rw [revolutionsSince, List.reverse_concat, List.takeWhile_cons]
  cases m.value with
  | some v => rfl
  | none => exact List.countP_cons

theorem counter_set (log : List Mark) (v : UInt32) : counter (log ++ [.set v]) = v.toNat := by
  have hlt := v.toNat_lt
  rw [counter, lastSet_concat, revolutionsSince_concat]
  show min (v.toNat + 0) (2 ^ 32 - 1) = v.toNat
  omega

/-- A revolution counts one, up to the largest number of 32 bits. -/
theorem counter_revolution (log : List Mark) (us : UInt64) :
    counter (log ++ [.revolution us]) = min (counter log + 1) (2 ^ 32 - 1) := by
  rw [counter, counter, lastSet_concat, revolutionsSince_concat]
  show min (lastSet log + (revolutionsSince log + 1)) (2 ^ 32 - 1) = _
  omega

/-- A notification counts nothing. -/
theorem counter_notify (log : List Mark) (us : UInt64) (p : Option (UInt16 × List UInt8)) :
    counter (log ++ [.notify us p]) = counter log := by
  rw [counter, counter, lastSet_concat, revolutionsSince_concat]
  rfl

/-- Without a write the counter goes up by the revolutions, as far as it can. -/
theorem counter_append (log : List Mark) {mid : List Mark} (hmid : ∀ v, .set v ∉ mid) :
    counter (log ++ mid) = min (counter log + (revolutionTimes mid).length) (2 ^ 32 - 1) := by
  induction mid using List.reverseRecOn with
  | nil =>
    rw [List.append_nil]
    show _ = min (counter log + 0) (2 ^ 32 - 1)
    rw [counter]
    omega
  | append_singleton mid m ih =>
    have hrest := ih fun v hv => hmid v (List.mem_append_left _ hv)
    rw [← List.append_assoc, revolutionTimes, List.filterMap_append, List.length_append]
    cases m with
    | set v => exact absurd (by simp) (hmid v)
    | revolution us =>
      rw [counter_revolution, hrest]
      show _ = min (counter log + ((revolutionTimes mid).length + 1)) (2 ^ 32 - 1)
      omega
    | notify us p =>
      rw [counter_notify, hrest]
      rfl

end Mark

open Mark

/-- The test in `ir_spoke_ble_csc_on_wheel_revolution` (332). The difference wraps, so
a time that falls back is due at once. -/
abbrev NotificationDue (last us : UInt64) : Prop := 1000000 ≤ us - last

namespace Shared

variable {h : Handles}

/-! ## Which revolutions are notified

The time of the last notification is a variable of the RMT task alone
(`csc_nimble_service.cpp:329–336`), so the host task cannot interfere with it: the log
of the revolutions decides which of them are notified, as a throttle (`Throttle`)
does.
-/

/-- The RMT task calls `notify` for the revolutions that are due: those for which it
has been called, with the one that is outstanding, are what a throttle admits of the
times of the log. -/
structure Throttled (w : Shared) : Prop where
  notified : notifyTimes w.log ++ w.due.toList
    = admitted NotificationDue 0 (revolutionTimes w.log)
  last : w.ble.lastNotificationUs = latest NotificationDue 0 (revolutionTimes w.log)

/-- A section of the host task does not touch what the throttle looks at. -/
theorem Throttled.answer {w : Shared} (hw : Throttled w) (q : CriticalSection) :
    Throttled (w.answer h q).1 := by
  have hrev : revolutionTimes (w.log ++ marks q) = revolutionTimes w.log := by
    rw [revolutionTimes, List.filterMap_append]
    cases q <;> exact List.append_nil _
  have hnotify : notifyTimes (w.log ++ marks q) = notifyTimes w.log := by
    rw [notifyTimes, List.filterMap_append]
    cases q <;> exact List.append_nil _
  constructor
  · show notifyTimes (w.log ++ marks q) ++ _ = admitted _ 0 (revolutionTimes (w.log ++ marks q))
    rw [hrev, hnotify]
    exact hw.notified
  · show _ = latest _ 0 (revolutionTimes (w.log ++ marks q))
    rw [hrev]
    exact hw.last

/-- A revolution that is due makes the notification outstanding, and one that is not
leaves everything as it is. -/
theorem Throttled.act {w v : Shared} (hw : Throttled w) {e : RmtSection}
    (hact : w.act e = some v) : Throttled v := by
  obtain ⟨⟨s, last⟩, due, log⟩ := w
  obtain ⟨hnotified, hlast⟩ := hw
  dsimp only at hnotified hlast
  cases e with
  | revolution us =>
    cases due with
    | some t => cases hact
    | none =>
      have hrev : revolutionTimes (log ++ [.revolution us]) = revolutionTimes log ++ [us] := by
        rw [revolutionTimes, List.filterMap_append]
        rfl
      have hnone : notifyTimes (log ++ [.revolution us]) = notifyTimes log := by
        rw [notifyTimes, List.filterMap_append]
        exact List.append_nil _
      rw [Option.toList_none, List.append_nil] at hnotified
      simp only [Shared.act] at hact
      by_cases hdue : NotificationDue last us
      · rw [if_pos hdue] at hact
        cases hact
        constructor
        · show notifyTimes (log ++ [.revolution us]) ++ [us] = _
          rw [hrev, hnone, admitted_concat, ← hlast, if_pos hdue, hnotified]
        · show us = latest _ 0 (revolutionTimes (log ++ [.revolution us]))
          rw [hrev, latest_concat, ← hlast, if_pos hdue]
      · rw [if_neg hdue] at hact
        cases hact
        constructor
        · show notifyTimes (log ++ [.revolution us]) ++ [] = _
          rw [hrev, hnone, admitted_concat, ← hlast, if_neg hdue, hnotified]
        · show last = latest _ 0 (revolutionTimes (log ++ [.revolution us]))
          rw [hrev, latest_concat, ← hlast, if_neg hdue]
  | notify =>
    obtain ⟨t, ht, rfl⟩ := Option.map_eq_some_iff.mp hact
    cases ht
    have hrev : revolutionTimes (log ++ [.notify t s.notify]) = revolutionTimes log := by
      rw [revolutionTimes, List.filterMap_append]
      exact List.append_nil _
    have hone : notifyTimes (log ++ [.notify t s.notify]) = notifyTimes log ++ [t] := by
      rw [notifyTimes, List.filterMap_append]
      rfl
    constructor
    · show notifyTimes (log ++ [.notify t s.notify]) ++ [] = _
      rw [List.append_nil, hrev, hone]
      exact hnotified
    · show last = latest _ 0 (revolutionTimes (log ++ [.notify t s.notify]))
      rw [hrev]
      exact hlast

/-- Every run keeps this, whatever the order of the sections. -/
theorem throttled_run {ls : List (Interaction.Label HostCall Unit RmtSection)}
    {s : Interaction.Session Shared CriticalSection Bool HostReply HostCall}
    (hrun : (system h).run ls = some s) : Throttled s.world :=
  Interaction.world_invariant (P := Throttled) (fun _ q _ hw => hw.answer q)
    (fun _ _ _ hact hw => hw.act hact) ⟨rfl, rfl⟩ hrun

/-- With times that do not fall back the wrapped difference is the time that has passed. -/
theorem notificationDue_iff {last us : UInt64} (hle : last.toNat ≤ us.toNat) :
    NotificationDue last us ↔ After 1000000 last.toNat us.toNat := by
  have hsub : (us - last).toNat = us.toNat - last.toNat :=
    UInt64.toNat_sub_of_le us last (UInt64.le_iff_toNat_le.mpr hle)
  rw [NotificationDue, UInt64.le_iff_toNat_le, hsub]
  show 1000000 ≤ us.toNat - last.toNat ↔ last.toNat + 1000000 ≤ us.toNat
  omega

/-- With times that do not fall back the test on wrapped differences admits what the
test on the times would. -/
theorem map_toNat_admitted {ts : List UInt64} (hsorted : ts.Pairwise (· ≤ ·)) :
    (admitted NotificationDue 0 ts).map UInt64.toNat
      = admitted (After 1000000) 0 (ts.map UInt64.toNat) := by
  refine map_admitted UInt64.toNat fun a _ b _ hab => notificationDue_iff ?_
  have hall : ((0 : UInt64) :: ts).Pairwise (· ≤ ·) :=
    List.pairwise_cons.mpr ⟨fun b _ => UInt64.le_iff_toNat_le.mpr (Nat.zero_le _), hsorted⟩
  have hpair := hall.sublist hab
  exact UInt64.le_iff_toNat_le.mp ((List.pairwise_cons.mp hpair).1 b (by simp))

/-- The time of a revolution that the RMT task counts. -/
def revolutionOf : RmtSection → Option UInt64
  | .revolution us => some us
  | .notify => none

/-- The log has the revolutions of the run. -/
theorem revolutionTimes_run {ls : List (Interaction.Label HostCall Unit RmtSection)}
    {s : Interaction.Session Shared CriticalSection Bool HostReply HostCall}
    (hrun : (system h).run ls = some s) :
    revolutionTimes s.world.log
      = (ls.filterMap Interaction.Label.acted).filterMap revolutionOf := by
  have hinit : revolutionTimes (system h).init.world.log
      = (([] : List (Interaction.Label HostCall Unit RmtSection)).filterMap
          Interaction.Label.acted).filterMap revolutionOf := rfl
  refine Transition.System.invariant
    (P := fun ls s => revolutionTimes s.world.log
      = (ls.filterMap Interaction.Label.acted).filterMap revolutionOf)
    hinit (fun ls s l t hs hstep => ?_) hrun
  rw [List.filterMap_append, List.filterMap_append, ← hs]
  obtain ⟨w, running, rs⟩ := s
  cases l with
  | call c =>
    cases running with
    | none => cases hstep; exact (List.append_nil _).symm
    | some cp => cases hstep
  | answer x =>
    match running, hstep with
    | some (c, .ask q next), hstep =>
      cases hstep
      show revolutionTimes (w.log ++ marks q) = revolutionTimes w.log ++ []
      rw [revolutionTimes, List.filterMap_append]
      cases q <;> rfl
  | ret =>
    match running, hstep with
    | some (c, .done a), hstep => cases hstep; exact (List.append_nil _).symm
  | act e =>
    obtain ⟨v, hv, rfl⟩ := Option.map_eq_some_iff.mp hstep
    show revolutionTimes v.log = revolutionTimes w.log ++ _
    obtain ⟨⟨service, last⟩, due, log⟩ := w
    cases e with
    | revolution us =>
      cases due with
      | some t => cases hv
      | none =>
        have hlog : v.log = log ++ [.revolution us] := by
          simp only [world, act] at hv
          split at hv <;> cases hv <;> rfl
        rw [hlog, revolutionTimes, List.filterMap_append]
        rfl
    | notify =>
      obtain ⟨t, -, rfl⟩ := Option.map_eq_some_iff.mp hv
      show revolutionTimes (log ++ [.notify t service.notify]) = revolutionTimes log ++ []
      rw [revolutionTimes, List.filterMap_append]
      rfl

/-- Whatever the host task does meanwhile, `notify` is called for the revolutions that are
due, by their times alone. While these do not fall back, the calls are a second apart and
the first comes no earlier than a second after zero, no revolution comes a second or more
after the last call without bringing one, and up to any revolution there have been at most
as many calls as seconds. -/
theorem notifications_throttled (h : Handles)
    {ls : List (Interaction.Label HostCall Unit RmtSection)}
    {s : Interaction.Session Shared CriticalSection Bool HostReply HostCall}
    (hrun : (system h).run ls = some s) :
    let times := (ls.filterMap Interaction.Label.acted).filterMap revolutionOf
    let called := notifyTimes s.world.log ++ s.world.due.toList
    called = admitted NotificationDue 0 times ∧
    (times.Pairwise (· ≤ ·) →
      (0 :: called.map UInt64.toNat).Pairwise (fun a b => a + 1000000 ≤ b) ∧
      (∀ t ∈ times, ∃ a ∈ 0 :: called.map UInt64.toNat, a ≤ t.toNat ∧ t.toNat < a + 1000000) ∧
      ∀ t, times.getLast? = some t → called.length * 1000000 ≤ t.toNat) := by
  intro times called
  have htimes : revolutionTimes s.world.log = times := revolutionTimes_run hrun
  have hcalled : called = admitted NotificationDue 0 times := by
    rw [← htimes]
    exact (throttled_run hrun).notified
  refine ⟨hcalled, fun hsorted => ?_⟩
  have hmap : called.map UInt64.toNat = admitted (After 1000000) 0 (times.map UInt64.toNat) := by
    rw [hcalled]
    exact map_toNat_admitted hsorted
  have hnat : (times.map UInt64.toNat).Pairwise (· ≤ ·) :=
    hsorted.map _ fun _ _ hab => UInt64.le_iff_toNat_le.mp hab
  refine ⟨?_, fun t ht => ?_, fun t ht => ?_⟩
  · rw [hmap]
    exact pairwise_admitted
  · rw [hmap]
    exact exists_admitted (by decide)
      (List.pairwise_cons.mpr ⟨fun b _ => Nat.zero_le b, hnat⟩) (List.mem_map_of_mem ht)
  · -- the last time bounds all of them
    have hbound : ∀ b ∈ times.map UInt64.toNat, b ≤ t.toNat := by
      intro b hb
      obtain ⟨u, hu, rfl⟩ := List.mem_map.mp hb
      obtain ⟨init, heq⟩ := List.getLast?_eq_some_iff.mp ht
      rw [heq] at hu hsorted
      rcases List.mem_append.mp hu with hinit | hlast
      · exact UInt64.le_iff_toNat_le.mp
          ((List.pairwise_append.mp hsorted).2.2 u hinit t (List.mem_singleton_self t))
      · rw [List.mem_singleton.mp hlast]
    have hlength : 0 + (admitted (After 1000000) 0 (times.map UInt64.toNat)).length * 1000000
        ≤ t.toNat := length_admitted_le (Nat.zero_le t.toNat) hbound
    rw [← hmap, List.length_map, Nat.zero_add] at hlength
    exact hlength

/-! ## What is sent

Between a revolution and its notification the host task may set the counter. What is
sent is the counter as it is at that moment (`notify`, 252–258), which the log of both
tasks tells.
-/

/-- The counter and the event time are those of the log, and so is what has been sent.
A notification that is outstanding is for the latest revolution, since the task counts
none in between. -/
structure Recorded (w : Shared) : Prop where
  counter : w.ble.service.state_.revolutions_.toNat = Mark.counter w.log
  time : ∀ t, (revolutionTimes w.log).getLast? = some t →
    w.ble.service.state_.lastEventTime_ = eventTime1024 t
  due : ∀ t, w.due = some t → (revolutionTimes w.log).getLast? = some t
  sent : ∀ before t p after, w.log = before ++ .notify t p :: after →
    (revolutionTimes before).getLast? = some t ∧
    ∀ conn bytes, p = some (conn, bytes) → conn ≠ connHandleNone ∧
      decodeWheelMeasurement bytes = some (Mark.counter before, (eventTime1024 t).toNat)

/-- At the start nothing has been counted. -/
theorem recorded_init : Recorded init where
  counter := rfl
  time t ht := by cases ht
  due t ht := by cases ht
  sent before t p after hlog := by cases before <;> cases hlog

/-- A longer log has sent the same, apart from its last mark. -/
theorem sent_concat {P : List Mark → UInt64 → Option (UInt16 × List UInt8) → Prop}
    {log : List Mark} {m : Mark}
    (hlog : ∀ before t p after, log = before ++ .notify t p :: after → P before t p)
    (hm : ∀ t p, m = .notify t p → P log t p) :
    ∀ before t p after, log ++ [m] = before ++ .notify t p :: after → P before t p := by
  intro before t p after heq
  rcases List.eq_nil_or_concat after with rfl | ⟨after, m', rfl⟩
  · obtain ⟨rfl, hone⟩ := List.append_inj' heq rfl
    exact hm t p (List.singleton_inj.mp hone)
  · rw [List.concat_eq_append, ← List.cons_append, ← List.append_assoc] at heq
    exact hlog before t p after (List.append_inj' heq rfl).1

/-- A section of the host task that sets the counter is in the log. -/
theorem Recorded.answer {w : Shared} (hw : Recorded w) (q : CriticalSection) :
    Recorded (w.answer h q).1 := by
  have hrest : ∀ s : NimbleService, s.state_ = w.ble.service.state_ →
      Recorded { w with ble := { w.ble with service := s }, log := w.log ++ [] } := by
    intro s hs
    rw [List.append_nil]
    exact { hw with
      counter := by show s.state_.revolutions_.toNat = _; rw [hs]; exact hw.counter
      time := by show ∀ t, _ → s.state_.lastEventTime_ = _; rw [hs]; exact hw.time }
  cases q with
  | controlIndicationsEnabled conn => exact hrest _ rfl
  | beginControlProcedure conn =>
    refine hrest _ ?_
    simp only [enter, beginControlProcedure]
    split <;> rfl
  | cancelControlProcedure => exact hrest _ rfl
  | gapEvent event => exact hrest _ (gapEvent_state h _ event)
  | setCumulative value =>
    -- the counter is set, the event time stays
    have hrev : revolutionTimes (w.log ++ [.set value]) = revolutionTimes w.log := by
      rw [revolutionTimes, List.filterMap_append]
      exact List.append_nil _
    exact {
      counter := (counter_set w.log value).symm
      time := by
        show ∀ t, (revolutionTimes (w.log ++ [.set value])).getLast? = some t → _
        rw [hrev]
        exact hw.time
      due := by
        show ∀ t, w.due = some t → (revolutionTimes (w.log ++ [.set value])).getLast? = some t
        rw [hrev]
        exact hw.due
      sent := sent_concat hw.sent fun t p hp => by cases hp }

/-- A revolution and a notification are in the log, and so is what has been sent. -/
theorem Recorded.act {w v : Shared} (hw : Recorded w) {e : RmtSection}
    (hact : w.act e = some v) : Recorded v := by
  obtain ⟨⟨s, last⟩, due, log⟩ := w
  cases e with
  | revolution us =>
    cases due with
    | some t => cases hact
    | none =>
      have hrev : (revolutionTimes (log ++ [.revolution us])).getLast? = some us := by
        rw [revolutionTimes, List.filterMap_append]
        exact List.getLast?_concat
      have hnew : ∀ ble : BleCsc, ∀ due : Option UInt64,
          ble.service = s.onWheelRevolution us → (∀ t, due = some t → t = us) →
          Recorded { ble := ble, due := due, log := log ++ [.revolution us] } := by
        intro ble due hservice hdue
        exact {
          counter := by
            show ble.service.state_.revolutions_.toNat = Mark.counter (log ++ [.revolution us])
            have hcounter : s.state_.revolutions_.toNat = Mark.counter log := hw.counter
            rw [counter_revolution, ← hcounter, hservice]
            exact WheelState.onRevolution_toNat s.state_ us
          time := by
            intro t ht
            cases hrev.symm.trans ht
            rw [hservice]
            rfl
          due := by
            intro t ht
            rw [hdue t ht]
            exact hrev
          sent := sent_concat hw.sent fun t p hp => by cases hp }
      simp only [Shared.act] at hact
      split at hact <;> cases hact
      · exact hnew _ _ rfl fun t ht => (Option.some.inj ht).symm
      · exact hnew _ _ rfl fun t ht => by cases ht
  | notify =>
    obtain ⟨us, hus, rfl⟩ := Option.map_eq_some_iff.mp hact
    have hlast : (revolutionTimes log).getLast? = some us := hw.due us hus
    have hrev : revolutionTimes (log ++ [.notify us s.notify]) = revolutionTimes log := by
      rw [revolutionTimes, List.filterMap_append]
      exact List.append_nil _
    have hcounter : s.state_.revolutions_.toNat = Mark.counter log := hw.counter
    exact {
      counter := hcounter.trans (counter_notify log us s.notify).symm
      time := by
        show ∀ t, (revolutionTimes (log ++ [.notify us s.notify])).getLast? = some t → _
        rw [hrev]
        exact hw.time
      due := fun t ht => by cases ht
      sent := by
        refine sent_concat hw.sent fun t p hp => ?_
        cases hp
        refine ⟨hlast, fun conn bytes hsent => ?_⟩
        rw [NimbleService.notify] at hsent
        obtain ⟨hok, hpair⟩ := Option.ite_none_left_eq_some.mp hsent
        cases hpair
        refine ⟨(not_or.mp hok).1, ?_⟩
        have htime : s.state_.lastEventTime_ = eventTime1024 us := hw.time us hlast
        rw [WheelState.measurement, decode_encodeWheelMeasurement, hcounter, htime] }

/-- Every run keeps this. -/
theorem recorded_run {ls : List (Interaction.Label HostCall Unit RmtSection)}
    {s : Interaction.Session Shared CriticalSection Bool HostReply HostCall}
    (hrun : (system h).run ls = some s) : Recorded s.world :=
  Interaction.world_invariant (P := Recorded) (fun _ q _ hw => hw.answer q)
    (fun _ _ _ hact hw => hw.act hact) recorded_init hrun

/-- In every interleaving of the two tasks:

- a measurement that is sent has the event time of the revolution it is sent for, which is
  the latest one, and the counter at that moment: the value that was set last and the
  revolutions since, up to the largest value;
- between two measurements without a write in between, the counter a collector reads goes
  up by the number of revolutions in between, as far as it can, and the event times differ
  by the ticks between the revolutions, taken modulo 2¹⁶. -/
theorem notified_measurements (h : Handles)
    {ls : List (Interaction.Label HostCall Unit RmtSection)}
    {s : Interaction.Session Shared CriticalSection Bool HostReply HostCall}
    (hrun : (system h).run ls = some s) :
    (∀ before t conn bytes after, s.world.log = before ++ .notify t (some (conn, bytes)) :: after →
      (revolutionTimes before).getLast? = some t ∧ conn ≠ connHandleNone ∧
        decodeWheelMeasurement bytes = some (Mark.counter before, (eventTime1024 t).toNat)) ∧
    ∀ before t₁ conn₁ bytes₁ mid t₂ conn₂ bytes₂ after,
      s.world.log = before ++ .notify t₁ (some (conn₁, bytes₁)) ::
        (mid ++ .notify t₂ (some (conn₂, bytes₂)) :: after) →
      (∀ v, .set v ∉ mid) →
      ∃ n₁ n₂ e₁ e₂, decodeWheelMeasurement bytes₁ = some (n₁, e₁) ∧
        decodeWheelMeasurement bytes₂ = some (n₂, e₂) ∧
        n₂ = min (n₁ + (revolutionTimes mid).length) (2 ^ 32 - 1) ∧
        (t₁ ≤ t₂ → (e₂ + (2 ^ 16 - e₁)) % 2 ^ 16
          = (t₂.toNat * 1024 / 10 ^ 6 - t₁.toNat * 1024 / 10 ^ 6) % 2 ^ 16) := by
  have hrecorded := recorded_run hrun
  refine ⟨fun before t conn bytes after hlog => ?_, ?_⟩
  · obtain ⟨hlast, hsent⟩ := hrecorded.sent before t _ after hlog
    exact ⟨hlast, hsent conn bytes rfl⟩
  · intro before t₁ conn₁ bytes₁ mid t₂ conn₂ bytes₂ after hlog hmid
    obtain ⟨-, hfirst⟩ := hrecorded.sent before t₁ _ _ hlog
    obtain ⟨-, hsecond⟩ := hrecorded.sent
      (before ++ .notify t₁ (some (conn₁, bytes₁)) :: mid) t₂ (some (conn₂, bytes₂)) after
      (by rw [hlog]; simp)
    refine ⟨_, _, _, _, (hfirst conn₁ bytes₁ rfl).2, (hsecond conn₂ bytes₂ rfl).2, ?_, ?_⟩
    · rw [← List.singleton_append, ← List.append_assoc, counter_append _ hmid, counter_notify]
    · intro hle
      have hle : t₁.toNat ≤ t₂.toNat := UInt64.le_iff_toNat_le.mp hle
      have hmono : eventTicks t₁.toNat ≤ eventTicks t₂.toNat := Rollover.ticks_mono hle
      rw [eventTime1024_toNat, eventTime1024_toNat]
      show _ = (eventTicks t₂.toNat - eventTicks t₁.toNat) % 2 ^ 16
      omega

/-- The first of three revolutions is notified, and the last one. -/
def twoNotifications : List (Interaction.Label HostCall Unit RmtSection) :=
  [.call (.gap (.connect 0 1)), .answer (), .ret,
    .call (.gap (.subscribe 10 true false)), .answer (), .ret,
    .act (.revolution 1000000), .act .notify, .act (.revolution 1500000),
    .act (.revolution 2000000), .act .notify]

theorem twoNotifications_throttled :
    ∃ s, (system ⟨10, 12⟩).run twoNotifications = some s ∧
      notifyTimes s.world.log ++ s.world.due.toList
        = admitted NotificationDue 0 [1000000, 1500000, 2000000] := by
  have hrun : (system ⟨10, 12⟩).run twoNotifications = some _ := rfl
  exact ⟨_, hrun, (notifications_throttled ⟨10, 12⟩ hrun).1⟩

theorem twoNotifications_measured :
    ∃ s, (system ⟨10, 12⟩).run twoNotifications = some s ∧
      s.world.log = [.revolution 1000000, .notify 1000000 (some (1, [1, 1, 0, 0, 0, 0, 4])),
        .revolution 1500000, .revolution 2000000,
        .notify 2000000 (some (1, [1, 3, 0, 0, 0, 0, 8]))] ∧
      decodeWheelMeasurement [1, 3, 0, 0, 0, 0, 8]
        = some (Mark.counter [.revolution 1000000,
            .notify 1000000 (some (1, [1, 1, 0, 0, 0, 0, 4])), .revolution 1500000,
            .revolution 2000000], (eventTime1024 2000000).toNat) := by
  have hrun : (system ⟨10, 12⟩).run twoNotifications = some _ := rfl
  refine ⟨_, hrun, rfl, ?_⟩
  exact ((notified_measurements ⟨10, 12⟩ hrun).1 [.revolution 1000000,
    .notify 1000000 (some (1, [1, 1, 0, 0, 0, 0, 4])), .revolution 1500000, .revolution 2000000]
    2000000 1 [1, 3, 0, 0, 0, 0, 8] [] rfl).2.2

end Shared

end SpokeSensor
