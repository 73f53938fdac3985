import SpokeSensor.Core.Config
import SpokeSensor.Core.PulseRun

/-!
# Starting the sensor (`ir_spoke_rmt_adapter.c:207–296`), and the limits it works with

- `rmtStart`: validates the configuration, keeps a copy (209–220), and hands it to the
  RMT driver, whose calls are recorded with their arguments (236–286); what a call
  returns is up to the `Platform`.
- `rmtStart_ok`, `rmtStart_succeeds`: a start that succeeds was given a valid
  configuration and a pipeline, and with these only the platform can make it fail.
- `Enforces`: by its width a pulse is accepted, and by its spacing it enters the
  history, with the limits of a configuration.
- `limits_of_enforces`: no limits but the compiled ones survive one pulse of each
  width and two pulses of each spacing.
- `limits_enforced_iff`: the limits of the configuration reach the driver, but neither
  the detector nor the estimator, which compare with the compiled constants
  (`accepted_iff`, `enters_iff_spacing`). So a started configuration is enforced
  exactly when its limits are these constants; `limits_not_enforced` is one with
  others.
-/

namespace SpokeSensor

open RuntimeConfig

/-- The calls of the RMT driver, with the values they are given. -/
inductive DriverCall where
  | newTxChannel (gpioNum : Int32) (resolutionHz memBlockSymbols transQueueDepth : UInt32)
  | newRxChannel (gpioNum : Int32) (resolutionHz memBlockSymbols : UInt32)
  | newCopyEncoder
  | applyTxCarrier (frequencyHz : UInt32) (dutyCycle : Binary32)
  | applyRxCarrier (frequencyHz : Option UInt32) (dutyCycle : Binary32)
  | registerEventCallbacks
  | enableTx
  | enableRx
  | transmit
  deriving DecidableEq

/-- What FreeRTOS and the driver answer; a driver call succeeds with `0`. -/
structure Platform where
  queueCreated : Bool
  taskCreated : Bool
  driver : DriverCall → ℤ

/-- The static variables that `ir_spoke_rmt_start` writes, and the driver calls so far. -/
structure RmtAdapter where
  runtimeConfig : Option RuntimeConfig
  targetPipeline : Option (Pipeline Binary32)
  captureResolutionHz : UInt32
  calls : List DriverCall

namespace RmtAdapter

/-- Nothing is started. -/
def init : RmtAdapter where
  runtimeConfig := none
  targetPipeline := none
  captureResolutionHz := 0
  calls := []

/-- The driver calls before the receive task is created, in order. -/
def setupCalls (c : RuntimeConfig) : List DriverCall :=
  [.newTxChannel c.txGpio c.rmtResolutionHz c.rmtMemBlockSymbols c.rmtTxQueueDepth,
    .newRxChannel c.rxGpio c.rmtResolutionHz c.rmtMemBlockSymbols,
    .newCopyEncoder,
    .applyTxCarrier c.carrierHz c.carrierDuty,
    .applyRxCarrier (configRxDemodHz (some c)) c.rxDemodDuty,
    .registerEventCallbacks,
    .enableTx,
    .enableRx]

/-- Driver calls up to the first that fails, whose error is returned. -/
def callAll (driver : DriverCall → ℤ) (s : RmtAdapter) : List DriverCall → RmtAdapter × ℤ
  | [] => (s, 0)
  | call :: rest =>
    let s := { s with calls := s.calls ++ [call] }
    if driver call ≠ 0 then (s, driver call) else callAll driver s rest

/-- The assignments to the static variables. -/
def adopt (s : RmtAdapter) (c : RuntimeConfig) (p : Pipeline Binary32) : RmtAdapter :=
  { s with
    runtimeConfig := some c
    targetPipeline := some p
    captureResolutionHz := c.rmtResolutionHz }

/-- `ir_spoke_rmt_start` (207–296); `none` is the null pointer. A failure after the
assignments (217–220) leaves them made. -/
def rmtStart (s : RmtAdapter) (platform : Platform) (config : Option RuntimeConfig)
    (pipeline : Option (Pipeline Binary32)) : RmtAdapter × ℤ :=
  match config, pipeline with
  | some c, some p =>
    if configValidate (some c) ≠ 0 then (s, -1)
    else if platform.queueCreated = false then (s.adopt c p, -2)
    else
      let r := (s.adopt c p).callAll platform.driver (setupCalls c)
      if r.2 ≠ 0 then r
      else if platform.taskCreated = false then (r.1, -3)
      else r.1.callAll platform.driver [.transmit]
  | _, _ => (s, -1)

/-- The driver calls touch none of the variables. -/
theorem callAll_frame (driver : DriverCall → ℤ) (s : RmtAdapter) (calls : List DriverCall) :
    ∃ made, (s.callAll driver calls).1 = { s with calls := made } := by
  induction calls generalizing s with
  | nil => exact ⟨s.calls, rfl⟩
  | cons call rest ih =>
    rw [callAll]
    split_ifs
    · exact ⟨s.calls ++ [call], rfl⟩
    · exact ih _

/-- A valid configuration is adopted with the pipeline, whatever the platform answers. -/
theorem rmtStart_frame (s : RmtAdapter) (platform : Platform) {c : RuntimeConfig} (h : c.Valid)
    (p : Pipeline Binary32) :
    ∃ made, (s.rmtStart platform (some c) (some p)).1 = { s.adopt c p with calls := made } := by
  obtain ⟨setup, hsetup⟩ := callAll_frame platform.driver (s.adopt c p) (setupCalls c)
  obtain ⟨transmit, htransmit⟩ := callAll_frame platform.driver
    ((s.adopt c p).callAll platform.driver (setupCalls c)).1 [.transmit]
  rw [hsetup] at htransmit
  dsimp only [rmtStart]
  rw [if_neg (not_not.mpr (configValidate_eq_zero_iff.mpr h))]
  split_ifs
  · exact ⟨s.calls, rfl⟩
  · exact ⟨setup, hsetup⟩
  · exact ⟨setup, hsetup⟩
  · rw [hsetup]
    exact ⟨transmit, htransmit⟩

theorem rmtStart_runtimeConfig (s : RmtAdapter) (platform : Platform) {c : RuntimeConfig}
    (h : c.Valid) (p : Pipeline Binary32) :
    (s.rmtStart platform (some c) (some p)).1.runtimeConfig = some c := by
  obtain ⟨made, hmade⟩ := s.rmtStart_frame platform h p
  rw [hmade]
  rfl

theorem rmtStart_targetPipeline (s : RmtAdapter) (platform : Platform) {c : RuntimeConfig}
    (h : c.Valid) (p : Pipeline Binary32) :
    (s.rmtStart platform (some c) (some p)).1.targetPipeline = some p := by
  obtain ⟨made, hmade⟩ := s.rmtStart_frame platform h p
  rw [hmade]
  rfl

/-- The receive interrupt works with the resolution of the configuration. -/
theorem rmtStart_captureResolutionHz (s : RmtAdapter) (platform : Platform) {c : RuntimeConfig}
    (h : c.Valid) (p : Pipeline Binary32) :
    (s.rmtStart platform (some c) (some p)).1.captureResolutionHz = c.rmtResolutionHz := by
  obtain ⟨made, hmade⟩ := s.rmtStart_frame platform h p
  rw [hmade]
  rfl

/-- A start that succeeds was given a valid configuration and a pipeline. -/
theorem rmtStart_ok {platform : Platform} {s : RmtAdapter} {config : Option RuntimeConfig}
    {pipeline : Option (Pipeline Binary32)} (h : (s.rmtStart platform config pipeline).2 = 0) :
    ∃ c p, config = some c ∧ pipeline = some p ∧ c.Valid := by
  cases config with
  | none =>
    rw [rmtStart] at h
    · simp at h
    · rintro c p hc -
      cases hc
  | some c =>
    cases pipeline with
    | none =>
      rw [rmtStart] at h
      · simp at h
      · rintro c p - hp
        cases hp
    | some p =>
      refine ⟨c, p, rfl, rfl, configValidate_eq_zero_iff.mp ?_⟩
      by_contra hinvalid
      dsimp only [rmtStart] at h
      rw [if_pos hinvalid] at h
      simp at h

theorem callAll_succeeds {driver : DriverCall → ℤ} (h : ∀ call, driver call = 0) (s : RmtAdapter)
    (calls : List DriverCall) : (s.callAll driver calls).2 = 0 := by
  induction calls generalizing s with
  | nil => rfl
  | cons call rest ih =>
    rw [callAll, if_neg (not_not.mpr (h call))]
    exact ih _

/-- With a valid configuration only the platform can make the start fail. -/
theorem rmtStart_succeeds (s : RmtAdapter) {platform : Platform}
    (hqueue : platform.queueCreated = true) (htask : platform.taskCreated = true)
    (hdriver : ∀ call, platform.driver call = 0) {c : RuntimeConfig} (h : c.Valid)
    (p : Pipeline Binary32) : (s.rmtStart platform (some c) (some p)).2 = 0 := by
  dsimp only [rmtStart]
  rw [if_neg (not_not.mpr (configValidate_eq_zero_iff.mpr h)), hqueue,
    if_neg (by decide : ¬ true = false),
    if_neg (not_not.mpr (callAll_succeeds hdriver ..)), htask, if_neg (by decide : ¬ true = false)]
  exact callAll_succeeds hdriver ..

end RmtAdapter

/-! ## The limits of the running sensor

The pipeline compares with the compiled limits, and the configuration has its own.
When these are the same they are enforced, and each difference is shown by one or two
pulses.
-/

namespace Pipeline

/-- The pipeline works with the limits of `c` on a sequence of pulses: by its width a
pulse is accepted, and by its spacing to the accepted pulse before it, with only
rejected pulses in between, it enters the history. -/
structure Enforces (c : RuntimeConfig) (p : Pipeline Binary32) (pulses : List Pulse) : Prop where
  width : ∀ before u after, pulses = before ++ u :: after →
    (p.Accepted before u ↔ c.blockageMinUs ≤ u.durationUs ∧ u.durationUs ≤ c.blockageMaxUs)
  spacing : ∀ before a mid b after, pulses = before ++ a :: (mid ++ b :: after) →
    p.Accepted before a → p.Accepted (before ++ a :: mid) b →
    (∀ mid₁ u mid₂, mid = mid₁ ++ u :: mid₂ → ¬ p.Accepted (before ++ a :: mid₁) u) →
    ((p.ingestAll (before ++ a :: mid)).enters b.edgeUs b.durationUs = true ↔
      c.blockageMinUs.toNat ≤ (b.edgeUs - a.edgeUs).toNat ∧
        (b.edgeUs - a.edgeUs).toNat ≤ c.linkLossUs.toNat)

end Pipeline

/-- Two pulses that the detector accepts, `s` apart. -/
def twoPulses (s : UInt64) : List Pulse := [⟨1, 100⟩, ⟨s + 1, 100⟩]

theorem twoPulses_nonzero {s : UInt64} (hs : s.toNat < 2 ^ 32) :
    ∀ u ∈ twoPulses s, u.edgeUs ≠ 0 := by
  have hnext : s + 1 ≠ 0 := by
    intro h
    have hnat := congrArg UInt64.toNat h
    rw [UInt64.toNat_add] at hnat
    simp at hnat
    omega
  intro u hu
  rcases List.mem_pair.mp hu with rfl | rfl
  · decide
  · exact hnext

/-- What the limits of `c` would have to say about two pulses. -/
theorem Pipeline.Enforces.two {c : RuntimeConfig} {s : UInt64} (hs : s.toNat < 2 ^ 32)
    (h : Pipeline.Enforces c .init (twoPulses s)) :
    (70 ≤ s.toNat ∧ s.toNat ≤ 15000) ↔
      c.blockageMinUs.toNat ≤ s.toNat ∧ s.toNat ≤ c.linkLossUs.toNat := by
  have ha : (Pipeline.init : Pipeline Binary32).Accepted [] ⟨1, 100⟩ :=
    (Pipeline.accepted_iff ..).mpr (by decide)
  have hb : (Pipeline.init : Pipeline Binary32).Accepted [⟨1, 100⟩] ⟨s + 1, 100⟩ :=
    (Pipeline.accepted_iff ..).mpr (by simp)
  have hcode := Pipeline.enters_iff_spacing [] [] (twoPulses_nonzero hs) ha hb
    (fun u hu => absurd hu List.not_mem_nil)
  have hspec := h.spacing [] ⟨1, 100⟩ [] ⟨s + 1, 100⟩ [] rfl ha hb
    (fun mid₁ u mid₂ heq => absurd heq (by simp))
  have hdiff : s + 1 - 1 = s := UInt64.add_sub_cancel ..
  rw [hdiff] at hcode hspec
  exact hcode.symm.trans hspec

/-- A started sensor works with the limits of the configuration that it keeps. -/
def RmtAdapter.EnforcesLimits (s : RmtAdapter) (pulses : List Pulse) : Prop :=
  ∃ c p, s.runtimeConfig = some c ∧ s.targetPipeline = some p ∧ Pipeline.Enforces c p pulses

/-- With the compiled limits every sequence of pulses is treated as configured. -/
theorem Pipeline.enforces_of_limits {c : RuntimeConfig} (hmin : c.blockageMinUs = 70)
    (hmax : c.blockageMaxUs = 600) (hlink : c.linkLossUs = 15000) {pulses : List Pulse}
    (hnonzero : ∀ u ∈ pulses, u.edgeUs ≠ 0) : Pipeline.Enforces c .init pulses where
  width := by
    intro before u after _
    rw [accepted_iff, hmin, hmax, UInt32.le_iff_toNat_le, UInt32.le_iff_toNat_le]
    rfl
  spacing := by
    rintro before a mid b after rfl ha hb hmid
    rw [hmin, hlink]
    refine enters_iff_spacing before mid ?_ ha hb ?_
    · intro u hu
      refine hnonzero u ?_
      simp only [List.mem_append, List.mem_cons, List.not_mem_nil, or_false] at hu ⊢
      tauto
    · intro u hu hwidth
      obtain ⟨mid₁, mid₂, rfl⟩ := List.append_of_mem hu
      exact hmid mid₁ u mid₂ rfl ((accepted_iff ..).mpr hwidth)

/-- No other limits survive one pulse of each width and two pulses of each spacing. -/
theorem Pipeline.limits_of_enforces {c : RuntimeConfig} (hvalid : c.Valid)
    (h : ∀ pulses : List Pulse, (∀ u ∈ pulses, u.edgeUs ≠ 0) → Pipeline.Enforces c .init pulses) :
    c.blockageMinUs = 70 ∧ c.blockageMaxUs = 600 ∧ c.linkLossUs = 15000 := by
  obtain ⟨-, hminmax, hmaxlink⟩ := hvalid.limits
  have hwidth : ∀ d : UInt32, (70 ≤ d.toNat ∧ d.toNat ≤ 600) ↔
      c.blockageMinUs.toNat ≤ d.toNat ∧ d.toNat ≤ c.blockageMaxUs.toNat := by
    intro d
    have hone := (h [⟨1, d⟩] (by simp)).width [] ⟨1, d⟩ [] rfl
    rwa [accepted_iff, UInt32.le_iff_toNat_le, UInt32.le_iff_toNat_le] at hone
  have hspacing : ∀ s : UInt32, (70 ≤ s.toNat ∧ s.toNat ≤ 15000) ↔
      c.blockageMinUs.toNat ≤ s.toNat ∧ s.toNat ≤ c.linkLossUs.toNat := by
    intro s
    have hs : s.toUInt64.toNat < 2 ^ 32 := by
      rw [UInt32.toNat_toUInt64]
      exact s.toNat_lt
    have htwo := (h (twoPulses s.toUInt64) (twoPulses_nonzero hs)).two hs
    rwa [UInt32.toNat_toUInt64] at htwo
  have h70 := hwidth 70
  have h600 := hwidth 600
  have h15000 := hspacing 15000
  have hmin := hwidth c.blockageMinUs
  have hmax := hwidth c.blockageMaxUs
  have hlink := hspacing c.linkLossUs
  simp only [UInt32.reduceToNat] at h70 h600 h15000
  refine ⟨UInt32.toNat_inj.mp ?_, UInt32.toNat_inj.mp ?_, UInt32.toNat_inj.mp ?_⟩ <;>
    simp only [UInt32.reduceToNat]
  · omega
  · omega
  · omega

/-- The limits of a started configuration are enforced on every sequence of pulses
with nonzero timestamps exactly when they are the compiled ones. One direction is
`Pipeline.enforces_of_limits`; for the other, one pulse of each width and two pulses
of each spacing tell every other limit from these. -/
theorem RmtAdapter.limits_enforced_iff {s : RmtAdapter} {platform : Platform} {c : RuntimeConfig}
    (hstart : (s.rmtStart platform (some c) (some .init)).2 = 0) :
    (∀ pulses : List Pulse, (∀ u ∈ pulses, u.edgeUs ≠ 0) →
        (s.rmtStart platform (some c) (some .init)).1.EnforcesLimits pulses) ↔
      c.blockageMinUs = 70 ∧ c.blockageMaxUs = 600 ∧ c.linkLossUs = 15000 := by
  obtain ⟨_, _, ⟨⟩, ⟨⟩, hvalid⟩ := rmtStart_ok hstart
  have hconfig := s.rmtStart_runtimeConfig platform hvalid .init
  have hpipeline := s.rmtStart_targetPipeline platform hvalid .init
  constructor
  · intro h
    refine Pipeline.limits_of_enforces hvalid fun pulses hnonzero => ?_
    obtain ⟨c', p', hc', hp', henforces⟩ := h pulses hnonzero
    cases hconfig.symm.trans hc'
    cases hpipeline.symm.trans hp'
    exact henforces
  · rintro ⟨hmin, hmax, hlink⟩ pulses hnonzero
    exact ⟨c, .init, hconfig, hpipeline, Pipeline.enforces_of_limits hmin hmax hlink hnonzero⟩

/-- A platform on which everything succeeds. -/
def Platform.working : Platform where
  queueCreated := true
  taskCreated := true
  driver _ := 0

theorem RmtAdapter.limits_enforced_defaults :
    (RmtAdapter.init.rmtStart .working (some configDefaults) (some .init)).1.EnforcesLimits
      [⟨1, 80⟩, ⟨2001, 80⟩] :=
  (limits_enforced_iff (rmtStart_succeeds _ rfl rfl (fun _ => rfl) configDefaults_valid _)).mpr
    ⟨rfl, rfl, rfl⟩ _ (by decide)

/-- A pulse of 80 us is accepted although the sensor was started with a minimum of 100. -/
theorem RmtAdapter.limits_not_enforced :
    (RmtAdapter.init.rmtStart .working (some { configDefaults with blockageMinUs := 100 })
        (some .init)).2 = 0 ∧
      ¬ (RmtAdapter.init.rmtStart .working (some { configDefaults with blockageMinUs := 100 })
        (some .init)).1.EnforcesLimits [⟨1, 80⟩] := by
  have hvalid : ({ configDefaults with blockageMinUs := 100 } : RuntimeConfig).Valid :=
    configDefaults_valid.withLimits (by decide) (by decide) (by decide)
  refine ⟨rmtStart_succeeds _ rfl rfl (fun _ => rfl) hvalid _, ?_⟩
  rintro ⟨c, p, hc, hp, henforces⟩
  have hconfig := RmtAdapter.init.rmtStart_runtimeConfig .working hvalid .init
  have hpipeline := RmtAdapter.init.rmtStart_targetPipeline .working hvalid .init
  cases hconfig.symm.trans hc
  cases hpipeline.symm.trans hp
  have hwidth := henforces.width [] ⟨1, 80⟩ [] rfl
  rw [Pipeline.accepted_iff] at hwidth
  exact absurd (hwidth.mp (by decide)).1 (by decide)

end SpokeSensor
