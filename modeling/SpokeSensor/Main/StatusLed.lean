import SpokeSensor.Main.LinkMonitor
import Mathlib.Data.List.Induction

/-!
# The user LED (`ir_spoke_debug.c`)

The LED shows the state of the link, with the flashes of single events on top. A
periodic timer counts the status ticks, a one-shot timer ends a flash, and the link
monitor reports the state.

- `linkStatusLedOn` (39–53), `applyLedBaseState` (55–58): what the LED shows between
  two flashes. The cadence of a link that is down is read off the tick counter.
- `ledOff` (60–64), `ledStatusTickCallback` (66–70), `signalLed` (196–207),
  `debugInit` (209–257): the timers, the events, and the start.
- `carrierLinkState` (284–327): every report sets the tick counter back (303), whether
  it brings a new state or repeats the old one.
- `Shown`, `shown_run`: at any time the LED is on during a flash and shows the state
  of the link otherwise.
- `Steady`, `InPlace`: which calls leave the counter at its place in the second.
- `cadence_shown`: so the LED keeps its cadence over runs of such calls;
  `repeated_report_breaks_cadence` is a run of others.

One call of a function or callback is one step. The timers themselves are left open:
their callbacks may come at any time, and how long a flash lasts plays no part.
Messages on the serial console are left out.
-/

namespace SpokeSensor.StatusLed

open LinkMonitor (Report)

/-- `ir_spoke_debug_event_t` -/
inductive DebugEvent where
  | startup
  | rmt
  | rmtCapture
  | link
  | pulseAccepted
  | pulseRejected
  | estimator
  | revolution
  | ble
  | bleNotify
  | can
  | canTx
  | error
  deriving DecidableEq

/-- The options of the menu "XIAO user LED", and the heartbeat on the console. -/
structure Options where
  activeLow : Bool
  linkStatus : Bool
  startup : Bool
  rmt : Bool
  pulseAccepted : Bool
  pulseRejected : Bool
  estimator : Bool
  revolution : Bool
  ble : Bool
  can : Bool
  errors : Bool
  serialLinkHeartbeatMs : Option ℕ

/-- The static variables, and the level of the LED's pin. -/
structure State where
  initialized : Bool
  linkState : LinkState
  lastLinkReportUs : ℤ
  ledOffTimer : Bool
  ledEventActive : Bool
  ledStatusTick : UInt32
  level : ℕ

/-- Before anything has been called. -/
def boot : State where
  initialized := false
  linkState := .unknown
  lastLinkReportUs := 0
  ledOffTimer := false
  ledEventActive := false
  ledStatusTick := 0
  level := 0

/-! ## The functions of the source

One definition for each function of `ir_spoke_debug.c` that reads or writes the LED,
with the options of Kconfig as an argument.
-/

/-- `led_level` -/
def ledLevel (o : Options) (on : Bool) : ℕ :=
  if o.activeLow then (if on then 0 else 1) else (if on then 1 else 0)

/-- `set_led` -/
def setLed (o : Options) (s : State) (on : Bool) : State := { s with level := ledLevel o on }

/-- `link_status_led_on` (39–53): always while the link is up, on every tenth tick
while it is down, and for two of every four ticks while nothing is known of it. -/
def linkStatusLedOn (o : Options) (s : State) : Bool :=
  if o.linkStatus then
    match s.linkState with
    | .up => true
    | .down => s.ledStatusTick % 10 == 0
    | .unknown => s.ledStatusTick % 4 < 2
  else false

/-- `apply_led_base_state` (55–58) -/
def applyLedBaseState (o : Options) (s : State) : State :=
  if !s.initialized || s.ledEventActive then s else setLed o s (linkStatusLedOn o s)

/-- `led_off` (60–64): the flash is over. -/
def ledOff (o : Options) (s : State) : State :=
  applyLedBaseState o { s with ledEventActive := false }

/-- `led_status_tick_callback` (66–70) -/
def ledStatusTickCallback (o : Options) (s : State) : State :=
  applyLedBaseState o { s with ledStatusTick := s.ledStatusTick + 1 }

/-- `led_enabled` -/
def ledEnabled (o : Options) : DebugEvent → Bool
  | .startup => o.startup
  | .rmt => o.rmt
  | .pulseAccepted => o.pulseAccepted
  | .pulseRejected => o.pulseRejected
  | .estimator => o.estimator
  | .revolution => o.revolution
  | .ble => o.ble
  | .can => o.can
  | .error => o.errors
  | _ => false

/-- `signal_led` (196–207): a flash, if the event is one that is shown. -/
def signalLed (o : Options) (s : State) (event : DebugEvent) : State :=
  if !s.initialized || !s.ledOffTimer || !ledEnabled o event then s
  else setLed o { s with ledEventActive := true } true

/-- `ir_spoke_debug_event` -/
def debugEvent (o : Options) (s : State) (event : DebugEvent) : State := signalLed o s event

/-- What the drivers answer to `ir_spoke_debug_init`. -/
structure InitResults where
  gpioConfig : Bool
  createOffTimer : Bool
  createStatusTimer : Bool
  startStatusTimer : Bool

/-- `ir_spoke_debug_init` (209–257): the state, and whether it returns `ESP_OK`. -/
def debugInit (o : Options) (r : InitResults) (s : State) : State × Bool :=
  if !r.gpioConfig then (s, false)
  else
    let s := setLed o s false
    if !r.createOffTimer then (s, false)
    else
      let s := { s with ledOffTimer := true }
      if !r.createStatusTimer || !r.startStatusTimer then (s, false)
      else (debugEvent o { s with initialized := true } .startup, true)

/-- The console is due for a report that brings nothing new. -/
def heartbeat (o : Options) (s : State) (nowUs : ℤ) : Bool :=
  s.lastLinkReportUs == 0 ||
    match o.serialLinkHeartbeatMs with
    | some ms => nowUs - s.lastLinkReportUs ≥ ms * 1000
    | none => false

/-- `ir_spoke_debug_carrier_link_state` (284–327). The LED comes before the console,
and with a message due the report is an event of its own. -/
def carrierLinkState (o : Options) (s : State) (r : Report) (nowUs : ℤ) : State :=
  let changed := r.state != s.linkState
  let heartbeat := heartbeat o s nowUs
  let s := applyLedBaseState o { s with linkState := r.state, ledStatusTick := 0 }
  if changed || heartbeat then { debugEvent o s .link with lastLinkReportUs := nowUs } else s

/-! ## Runs

The calls come in any order: ticks, flashes, their ends, and reports of the link.
-/

/-- What can be called once `ir_spoke_debug_init` has returned. -/
inductive Call where
  | tick
  | off
  | event (event : DebugEvent)
  | report (report : Report) (nowUs : ℤ)

/-- One call. -/
def step (o : Options) (s : State) : Call → State
  | .tick => ledStatusTickCallback o s
  | .off => ledOff o s
  | .event event => debugEvent o s event
  | .report r nowUs => carrierLinkState o s r nowUs

/-- The state in which `ir_spoke_debug_init` leaves the LED. -/
def start (o : Options) : State := (debugInit o ⟨true, true, true, true⟩ boot).1

/-- The state after a sequence of calls. -/
def run (o : Options) (calls : List Call) : State := calls.foldl (step o) (start o)

/-- The state reported last, and the ticks since it was entered. -/
def observe (seen : LinkState × ℕ) : Call → LinkState × ℕ
  | .tick => (seen.1, seen.2 + 1)
  | .report r _ => if r.state = seen.1 then seen else (r.state, 0)
  | _ => seen

/-- The observations over a sequence of calls. -/
def observed (calls : List Call) : LinkState × ℕ := calls.foldl observe (.unknown, 0)

/-- The status ticks since the link entered its state. -/
def ticksSinceEntry (calls : List Call) : ℕ := (observed calls).2

/-- The LED is on. -/
def Lit (o : Options) (s : State) : Prop := s.level = ledLevel o true

instance (o : Options) (s : State) : Decidable (Lit o s) :=
  inferInstanceAs (Decidable (s.level = ledLevel o true))

/-- A call that leaves the counter at its place in the second: a report repeats `DOWN` on a
multiple of ten, and a tick does not overflow. -/
def Steady (s : State) : Call → Prop
  | .tick => s.linkState = .down → s.ledStatusTick.toNat + 1 < 2 ^ 32
  | .report r _ => s.linkState = .down → r.state = .down → s.ledStatusTick.toNat % 10 = 0
  | _ => True

instance (s : State) : (call : Call) → Decidable (Steady s call)
  | .tick => inferInstanceAs (Decidable (s.linkState = .down → s.ledStatusTick.toNat + 1 < 2 ^ 32))
  | .report r _ => inferInstanceAs
    (Decidable (s.linkState = .down → r.state = .down → s.ledStatusTick.toNat % 10 = 0))
  | .off => inferInstanceAs (Decidable True)
  | .event _ => inferInstanceAs (Decidable True)

/-- Every call is steady in the state it comes in. -/
def SteadyFrom (o : Options) (s : State) : List Call → Prop
  | [] => True
  | call :: calls => Steady s call ∧ SteadyFrom o (step o s call) calls

instance (o : Options) : (s : State) → (calls : List Call) → Decidable (SteadyFrom o s calls)
  | _, [] => inferInstanceAs (Decidable True)
  | s, call :: calls =>
    have := instDecidableSteadyFrom o (step o s call) calls
    inferInstanceAs (Decidable (Steady s call ∧ SteadyFrom o (step o s call) calls))

/-! ## One call

What a call does to the level and to what the code knows of the link.
-/

variable {o : Options} {s : State}

theorem ledLevel_injective (o : Options) {a b : Bool} : ledLevel o a = ledLevel o b ↔ a = b := by
  cases h : o.activeLow <;> cases a <;> cases b <;> simp [ledLevel, h]

/-- The LED is on during a flash, and shows the state of the link otherwise. Every
function that changes one of these ends with `apply_led_base_state`, or turns the LED
on (`ir_spoke_debug.c:60–70, 196–203, 301–305`). -/
structure Shown (o : Options) (s : State) : Prop where
  initialized : s.initialized = true
  flash : s.ledEventActive = true → Lit o s
  base : s.ledEventActive = false → s.linkState ≠ .unknown → (Lit o s ↔ linkStatusLedOn o s = true)

theorem linkStatusLedOn_up (hlink : o.linkStatus = true) (hup : s.linkState = .up) :
    linkStatusLedOn o s = true := by
  simp [linkStatusLedOn, hlink, hup]

theorem linkStatusLedOn_down (hlink : o.linkStatus = true) (hdown : s.linkState = .down) :
    linkStatusLedOn o s = true ↔ s.ledStatusTick.toNat % 10 = 0 := by
  simp only [linkStatusLedOn, hlink, hdown, if_true, beq_iff_eq]
  rw [← UInt32.toNat_inj, UInt32.toNat_mod]
  rfl

/-- Applying the base state does not touch the link or the counter. -/
theorem applyLedBaseState_frame (o : Options) (s : State) :
    (applyLedBaseState o s).linkState = s.linkState ∧
      (applyLedBaseState o s).ledStatusTick = s.ledStatusTick := by
  rw [applyLedBaseState]
  split_ifs <;> exact ⟨rfl, rfl⟩

/-- After it the LED shows the link, unless a flash is on. -/
theorem shown_applyLedBaseState (hinit : s.initialized = true)
    (hflash : s.ledEventActive = true → Lit o s) : Shown o (applyLedBaseState o s) := by
  cases hactive : s.ledEventActive with
  | true =>
    have hsame : applyLedBaseState o s = s := by simp [applyLedBaseState, hactive]
    rw [hsame]
    exact ⟨hinit, hflash, fun h => absurd (hactive.symm.trans h) (by decide)⟩
  | false =>
    have hset : applyLedBaseState o s = setLed o s (linkStatusLedOn o s) := by
      simp [applyLedBaseState, hinit, hactive]
    rw [hset]
    refine ⟨hinit, fun h => absurd (hactive.symm.trans h) (by decide), fun _ _ => ?_⟩
    show ledLevel o (linkStatusLedOn o s) = ledLevel o true ↔ linkStatusLedOn o s = true
    exact ledLevel_injective o

/-- An event leaves the LED as it is or starts a flash. -/
theorem debugEvent_cases (o : Options) (s : State) (event : DebugEvent) :
    debugEvent o s event = s ∨
      debugEvent o s event = setLed o { s with ledEventActive := true } true := by
  rw [debugEvent, signalLed]
  split_ifs
  · exact .inl rfl
  · exact .inr rfl

/-- An event does not touch the link or the counter. -/
theorem debugEvent_frame (o : Options) (s : State) (event : DebugEvent) :
    (debugEvent o s event).linkState = s.linkState ∧
      (debugEvent o s event).ledStatusTick = s.ledStatusTick := by
  rcases debugEvent_cases o s event with heq | heq <;> rw [heq] <;> exact ⟨rfl, rfl⟩

theorem Shown.debugEvent (h : Shown o s) (event : DebugEvent) :
    Shown o (StatusLed.debugEvent o s event) := by
  rcases debugEvent_cases o s event with heq | heq <;> rw [heq]
  · exact h
  · exact ⟨h.initialized, fun _ => rfl, fun hactive => absurd hactive nofun⟩

/-- A report with its LED part first. -/
theorem carrierLinkState_cases (o : Options) (s : State) (r : Report) (nowUs : ℤ) :
    let shown := applyLedBaseState o { s with linkState := r.state, ledStatusTick := 0 }
    carrierLinkState o s r nowUs = shown ∨
      carrierLinkState o s r nowUs
        = { debugEvent o shown .link with lastLinkReportUs := nowUs } := by
  rw [carrierLinkState]
  dsimp only
  split_ifs
  · exact .inr rfl
  · exact .inl rfl

/-- What a report makes of the link and of the counter. -/
theorem carrierLinkState_frame (o : Options) (s : State) (r : Report) (nowUs : ℤ) :
    (carrierLinkState o s r nowUs).linkState = r.state ∧
      (carrierLinkState o s r nowUs).ledStatusTick = 0 := by
  obtain ⟨hstate, htick⟩ :=
    applyLedBaseState_frame o { s with linkState := r.state, ledStatusTick := 0 }
  rcases carrierLinkState_cases o s r nowUs with heq | heq <;> rw [heq]
  · exact ⟨hstate, htick⟩
  · obtain ⟨hstate', htick'⟩ := debugEvent_frame o
      (applyLedBaseState o { s with linkState := r.state, ledStatusTick := 0 }) .link
    exact ⟨hstate'.trans hstate, htick'.trans htick⟩

theorem Shown.step (h : Shown o s) (call : Call) : Shown o (StatusLed.step o s call) := by
  cases call with
  | tick => exact shown_applyLedBaseState h.initialized h.flash
  | off => exact shown_applyLedBaseState h.initialized fun hactive => absurd hactive nofun
  | event event => exact h.debugEvent event
  | report r nowUs =>
    have hshown := shown_applyLedBaseState (o := o)
      (s := { s with linkState := r.state, ledStatusTick := 0 }) h.initialized h.flash
    show Shown o (carrierLinkState o s r nowUs)
    rcases carrierLinkState_cases o s r nowUs with heq | heq <;> rw [heq]
    · exact hshown
    · have hevent := hshown.debugEvent .link
      exact ⟨hevent.initialized, hevent.flash, hevent.base⟩

/-- The code knows the state of the link, and its counter keeps the place in the
second: while the link is down, it counts the ticks since the link went down, modulo
ten. -/
structure InPlace (s : State) (seen : LinkState × ℕ) : Prop where
  state : s.linkState = seen.1
  tick : s.linkState = .down → s.ledStatusTick.toNat % 10 = seen.2 % 10

theorem state_step {seen : LinkState × ℕ} (h : s.linkState = seen.1) (call : Call) :
    (step o s call).linkState = (observe seen call).1 := by
  cases call with
  | tick => exact (applyLedBaseState_frame o _).1.trans h
  | off => exact (applyLedBaseState_frame o _).1.trans h
  | event event => exact (debugEvent_frame o s event).1.trans h
  | report r nowUs =>
    rw [step, (carrierLinkState_frame o s r nowUs).1, observe]
    split_ifs with hsame
    · exact hsame
    · rfl

/-- A steady call keeps the counter in its place. -/
theorem InPlace.step {seen : LinkState × ℕ} (h : InPlace s seen) {call : Call}
    (hsteady : Steady s call) : InPlace (StatusLed.step o s call) (observe seen call) := by
  refine ⟨state_step h.state call, ?_⟩
  cases call with
  | tick =>
    obtain ⟨hstate, htick⟩ :=
      applyLedBaseState_frame o { s with ledStatusTick := s.ledStatusTick + 1 }
    rw [StatusLed.step, ledStatusTickCallback, hstate, htick]
    intro hdown
    have hnext : (s.ledStatusTick + 1).toNat = s.ledStatusTick.toNat + 1 := by
      rw [UInt32.toNat_add]
      exact Nat.mod_eq_of_lt (hsteady hdown)
    have hplace := h.tick hdown
    show (s.ledStatusTick + 1).toNat % 10 = (seen.2 + 1) % 10
    omega
  | off =>
    obtain ⟨hstate, htick⟩ := applyLedBaseState_frame o { s with ledEventActive := false }
    rw [StatusLed.step, ledOff, hstate, htick]
    exact h.tick
  | event event =>
    obtain ⟨hstate, htick⟩ := debugEvent_frame o s event
    rw [StatusLed.step, hstate, htick]
    exact h.tick
  | report r nowUs =>
    obtain ⟨hstate, htick⟩ := carrierLinkState_frame o s r nowUs
    rw [StatusLed.step, hstate, htick, observe]
    intro hdown
    split_ifs with hsame
    · -- the counter goes from one multiple of ten to another
      have hbefore : s.linkState = .down := h.state.trans (hsame.symm.trans hdown)
      exact (hsteady hbefore hdown).symm.trans (h.tick hbefore)
    · rfl

/-! ## Whole runs

Every tick of a link that is down is counted from where it went down, as long as the
calls are steady.
-/

theorem run_concat (o : Options) (calls : List Call) (call : Call) :
    run o (calls ++ [call]) = step o (run o calls) call := by
  rw [run, List.foldl_append]
  rfl

theorem observed_concat (calls : List Call) (call : Call) :
    observed (calls ++ [call]) = observe (observed calls) call := by
  rw [observed, List.foldl_append]
  rfl

/-- Whatever `ir_spoke_debug_init` meets, it starts here when it returns `ESP_OK`. -/
theorem debugInit_eq_start {r : InitResults} (h : (debugInit o r boot).2 = true) :
    (debugInit o r boot).1 = start o := by
  rw [debugInit] at h ⊢
  split_ifs at h ⊢
  rfl

theorem shown_start (o : Options) : Shown o (start o) := by
  have hfresh : Shown o { boot with
      ledOffTimer := true, initialized := true, level := ledLevel o false } :=
    ⟨rfl, fun hactive => absurd hactive nofun, fun _ hstate => absurd rfl hstate⟩
  exact hfresh.debugEvent .startup

theorem shown_run (o : Options) (calls : List Call) : Shown o (run o calls) := by
  induction calls using List.reverseRecOn with
  | nil => exact shown_start o
  | append_singleton calls call ih =>
    rw [run_concat]
    exact ih.step call

theorem state_run (o : Options) (calls : List Call) :
    (run o calls).linkState = (observed calls).1 := by
  induction calls using List.reverseRecOn with
  | nil => exact (debugEvent_frame o _ .startup).1
  | append_singleton calls call ih =>
    rw [run_concat, observed_concat]
    exact state_step ih call

theorem InPlace.foldl {seen : LinkState × ℕ} (h : InPlace s seen) {calls : List Call}
    (hsteady : SteadyFrom o s calls) :
    InPlace (calls.foldl (StatusLed.step o) s) (calls.foldl observe seen) := by
  induction calls generalizing s seen with
  | nil => exact h
  | cons call calls ih => exact ih (h.step hsteady.1) hsteady.2

theorem inPlace_run {calls : List Call} (h : SteadyFrom o (start o) calls) :
    InPlace (run o calls) (observed calls) := by
  have hstate : (start o).linkState = .unknown := state_run o []
  have hstart : InPlace (start o) (.unknown, 0) :=
    ⟨hstate, fun hdown => absurd (hstate.symm.trans hdown) nofun⟩
  exact hstart.foldl h

/-- Whenever the link is up the LED is on, whatever has been called. -/
theorem up_lit (hlink : o.linkStatus = true) (calls : List Call)
    (hup : (run o calls).linkState = .up) : Lit o (run o calls) := by
  have hshown := shown_run o calls
  cases hactive : (run o calls).ledEventActive with
  | true => exact hshown.flash hactive
  | false =>
    refine (hshown.base hactive ?_).mpr (linkStatusLedOn_up hlink hup)
    rw [hup]
    exact nofun

/-- A report that the link is still down turns the LED on, at any place in the second. -/
theorem repeated_report_lit (hlink : o.linkStatus = true) (calls : List Call) {r : Report}
    {nowUs : ℤ} (hdown : r.state = .down) : Lit o (run o (calls ++ [.report r nowUs])) := by
  have hshown := shown_run o (calls ++ [.report r nowUs])
  have hframe := carrierLinkState_frame o (run o calls) r nowUs
  rw [run_concat] at hshown ⊢
  cases hactive : (step o (run o calls) (.report r nowUs)).ledEventActive with
  | true => exact hshown.flash hactive
  | false =>
    have hstate : (step o (run o calls) (.report r nowUs)).linkState = .down :=
      hframe.1.trans hdown
    refine (hshown.base hactive ?_).mpr ((linkStatusLedOn_down hlink hstate).mpr ?_)
    · rw [hstate]
      exact nofun
    · show (carrierLinkState o (run o calls) r nowUs).ledStatusTick.toNat % 10 = 0
      rw [hframe.2]
      rfl

/-- Over runs of steady calls the LED of a link that is down is lit on every tenth
tick since it went down, flashes apart, and that of a link that is up is lit. The
condition is on the state before a call: a report that repeats `DOWN` comes on a
multiple of ten ticks. By induction on the calls (`inPlace_run`, `shown_run`). -/
theorem cadence_shown (hlink : o.linkStatus = true) {calls : List Call}
    (hsteady : SteadyFrom o (start o) calls) :
    ((run o calls).linkState = .down → (run o calls).ledEventActive = false →
      (Lit o (run o calls) ↔ 10 ∣ ticksSinceEntry calls)) ∧
    ((run o calls).linkState = .up → Lit o (run o calls)) := by
  constructor
  · intro hdown hactive
    have hknown : (run o calls).linkState ≠ .unknown := by
      rw [hdown]
      exact nofun
    have htick := (inPlace_run hsteady).tick hdown
    rw [(shown_run o calls).base hactive hknown, linkStatusLedOn_down hlink hdown, htick,
      ticksSinceEntry, Nat.dvd_iff_mod_eq_zero]
  · exact up_lit hlink calls

/-- The defaults of the menu. -/
def Options.default : Options where
  activeLow := true
  linkStatus := true
  startup := true
  rmt := true
  pulseAccepted := true
  pulseRejected := false
  estimator := true
  revolution := true
  ble := true
  can := true
  errors := true
  serialLinkHeartbeatMs := some 5000

/-- The report of a window without an edge. -/
def downReport : Report := ⟨.down, 0, 38000, 0, 100⟩

/-- A report repeats `DOWN` after a second, and the LED is off on the next tick. -/
def secondCalls : List Call :=
  .off :: .report downReport 0 :: List.replicate 10 .tick ++ [.report downReport 1000000, .tick]

theorem secondCalls_shown :
    ((run .default secondCalls).linkState = .down →
      (run .default secondCalls).ledEventActive = false →
      (Lit .default (run .default secondCalls) ↔ 10 ∣ ticksSinceEntry secondCalls)) ∧
    ((run .default secondCalls).linkState = .up → Lit .default (run .default secondCalls)) :=
  cadence_shown rfl (by decide)

/-- The link monitor repeats its report with every tick, and the LED stays on. -/
theorem repeated_report_breaks_cadence :
    let calls := [.off, .report downReport 0, .tick, .report downReport 100000]
    (run .default calls).linkState = .down ∧ (run .default calls).ledEventActive = false ∧
      Lit .default (run .default calls) ∧ ticksSinceEntry calls = 1 := by
  decide

end SpokeSensor.StatusLed
