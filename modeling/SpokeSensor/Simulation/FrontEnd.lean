import Mathlib.Algebra.Order.Group.MinMax
import SpokeSensor.Lib.Hysteresis
import SpokeSensor.Simulation.CarrierRemove
import SpokeSensor.Simulation.Parameters

/-!
# The simulated analog front end (`ir_spoke_sim.py:33–45, 180–275`)

From the light to the digital output: the photocurrent with its noise, the transimpedance
stage, the coupling that removes its constant part, the amplifier, the comparator with its
feedback, and the demodulator of `CarrierRemove`. Values are exact rationals, where the
source has doubles. The generator of the noise is seeded with a constant, so it draws the
same standard normal values whatever the light; what the ambient light and the sample rate
decide is by how much they are scaled (`totalNoiseRmsA`, lines 182–207). The roots in that
factor are left open, since they are no rationals.

- `ambient_rejected`: the comparator sees the ambient light only through the amplitude of
  the noise, not through the constant photocurrent that comes with it.
- `noise_immune`: an offset, and noise that leaves a margin at the thresholds, change nothing
  of the digital output.
- `transitions_bounded`: how often the comparator switches is bounded by how far the signal
  can move.
- `weak_blocked`: a signal whose swing stays below the threshold reads as blocked throughout.
-/

namespace SpokeSensor.Simulation

open LocalServer Ieee

/-- The values of `analog_frontend` in `config/system.json` that the signal path
reads: the components of the three stages, and the references of the comparator. -/
structure AnalogFrontend where
  supplyV : ℚ
  vrefV : ℚ
  tiaFeedbackOhm : ℚ
  tiaFeedbackPf : ℚ
  acCouplingNf : ℚ
  acBiasOhm : ℚ
  gainGroundOhm : ℚ
  gainFeedbackOhm : ℚ
  gainFeedbackPf : ℚ
  comparatorInputOhm : ℚ
  comparatorFeedbackOhm : ℚ
  comparatorInternalHysteresisMvTyp : ℚ

/-- `CFG["analog_frontend"]` -/
def afe : AnalogFrontend where
  supplyV := 3.3
  vrefV := 1.65
  tiaFeedbackOhm := 33000
  tiaFeedbackPf := 120
  acCouplingNf := 1.0
  acBiasOhm := 16000
  gainGroundOhm := 10000
  gainFeedbackOhm := 560000
  gainFeedbackPf := 4.7
  comparatorInputOhm := 10000
  comparatorFeedbackOhm := 1000000
  comparatorInternalHysteresisMvTyp := 4.2

/-- `rc_lowpass` -/
def rcLowpass (x : List ℚ) (dt tau initial : ℚ) : Except PyError (List ℚ) := do
  let alpha ← divide dt (tau + dt)
  return Lag.output alpha initial x

/-- `rc_highpass` -/
def rcHighpass (x : List ℚ) (dt tau : ℚ) : Except PyError (List ℚ) :=
  match x with
  | [] => .error indexError
  | first :: _ => do
    let baseline ← rcLowpass x dt tau first
    return List.zipWith (· - ·) x baseline

/-- The values of `analog_frontend` that make the noise. -/
structure NoiseSources where
  photodiodeDarkCurrentNaTyp : ℚ
  opampCurrentNoiseFaSqrtHzTyp : ℚ
  opampVoltageNoiseNvSqrtHzTyp : ℚ

/-- `CFG["analog_frontend"]`, the rest of it -/
def noiseSources : NoiseSources where
  photodiodeDarkCurrentNaTyp := 1.0
  opampCurrentNoiseFaSqrtHzTyp := 23.0
  opampVoltageNoiseNvSqrtHzTyp := 10.0

/-- `dark_a` -/
def NoiseSources.darkA (n : NoiseSources) : ℚ := n.photodiodeDarkCurrentNaTyp * 1e-9

example : noiseSources.darkA = 1 / 10 ^ 9 := by decide +kernel

/-- The values of `math.sqrt` and `math.hypot`, of which nothing is assumed but that
they are functions of their arguments. -/
structure Roots where
  sqrt : ℚ → ℚ
  hypot : ℚ → ℚ → ℚ

/-- `math.sqrt` -/
def Roots.mathSqrt (m : Roots) (x : ℚ) : Except PyError ℚ :=
  if x < 0 then .error (.valueError "math domain error") else .ok (m.sqrt x)

/-- `ELEMENTARY_CHARGE_C`, with the two constants below it -/
def elementaryChargeC : ℚ := 1.602176634e-19

def boltzmannJK : ℚ := 1.380649e-23

def roomTemperatureK : ℚ := 298.15

/-- `photo_current_a`; a sample is the carrier, the transmission and the standard normal value
that has been drawn for it. -/
def photoCurrentA (ambientA darkA signalPhotoA totalNoiseRmsA : ℚ) (samples : List (ℚ × ℚ × ℚ)) :
    List ℚ :=
  samples.map fun s => ambientA + darkA + signalPhotoA * s.1 * s.2.1 + totalNoiseRmsA * s.2.2

namespace AnalogFrontend

variable (a : AnalogFrontend)

/-- `total_noise_rms_a`: the shot noise of the constant current, the noise of the components,
and what the environment adds. -/
def totalNoiseRmsA (m : Roots) (n : NoiseSources) (ambientA environmentalNoiseRmsA : ℚ)
    (sampleRateHz : ℤ) : Except PyError ℚ := do
  let shotDensity ← m.mathSqrt (2 * elementaryChargeC * (ambientA + n.darkA))
  let thermal ← divide (4 * boltzmannJK * roomTemperatureK) a.tiaFeedbackOhm
  let resistorDensity ← m.mathSqrt thermal
  let opampCurrentDensity := n.opampCurrentNoiseFaSqrtHzTyp * 1e-15
  let opampVoltageAsCurrentDensity ← divide (n.opampVoltageNoiseNvSqrtHzTyp * 1e-9) a.tiaFeedbackOhm
  let physicalInputNoiseDensity ← m.mathSqrt (shotDensity ^ 2 + resistorDensity ^ 2
    + opampCurrentDensity ^ 2 + opampVoltageAsCurrentDensity ^ 2)
  let bandwidth ← m.mathSqrt (sampleRateHz / 2)
  return m.hypot (physicalInputNoiseDensity * bandwidth) environmentalNoiseRmsA

/-- The three time constants -/
def tiaTau : ℚ := a.tiaFeedbackOhm * a.tiaFeedbackPf * 1e-12

def hpTau : ℚ := a.acBiasOhm * a.acCouplingNf * 1e-9

def gainTau : ℚ := a.gainFeedbackOhm * a.gainFeedbackPf * 1e-12

/-- The gain of the amplifier behind the coupling; a feedback without ground resistor
raises -/
def gain : Except PyError ℚ := do
  let ratio ← divide a.gainFeedbackOhm a.gainGroundOhm
  return 1 + ratio

/-- `tia_v`: the transimpedance stage inverts, so more light is a lower voltage -/
def tiaV (photoCurrentA : List ℚ) (dt : ℚ) : Except PyError (List ℚ) :=
  match photoCurrentA with
  | [] => .error indexError
  | first :: _ => do
    let lowpass ← rcLowpass (photoCurrentA.map (· * a.tiaFeedbackOhm)) dt a.tiaTau
      (first * a.tiaFeedbackOhm)
    return lowpass.map fun v => a.vrefV + -v

/-- `np.clip` to the output range of the amplifier -/
def clip (v : ℚ) : ℚ := min (max v 0.04) (a.supplyV - 0.04)

/-- `bandpass_v`: the coupling, the gain and its low-pass, clipped -/
def bandpassV (photoCurrentA : List ℚ) (dt : ℚ) : Except PyError (List ℚ) := do
  let tiaV ← a.tiaV photoCurrentA dt
  let acV ← rcHighpass tiaV dt a.hpTau
  let gain ← a.gain
  let lowpass ← rcLowpass (acV.map (· * gain)) dt a.gainTau 0
  return lowpass.map fun v => a.clip (a.vrefV + v)

def internalHysteresisV : ℚ := a.comparatorInternalHysteresisMvTyp * 1e-3

/-- `falling_threshold_v` and `rising_threshold_v` -/
def thresholds : Except PyError (ℚ × ℚ) := do
  let feedbackRatio ← divide a.comparatorInputOhm a.comparatorFeedbackOhm
  return (a.vrefV + (a.vrefV - a.supplyV) * feedbackRatio - 1 / 2 * a.internalHysteresisV,
    a.vrefV * (1 + feedbackRatio) + 1 / 2 * a.internalHysteresisV)

/-- `comparator_ideal`: on from the upper threshold, off from the lower one, and as it
was in between -/
def comparatorIdeal (photoCurrentA : List ℚ) (dt : ℚ) : Except PyError (List Bool) := do
  let bandpassV ← a.bandpassV photoCurrentA dt
  let thresholds ← a.thresholds
  return Hysteresis.output thresholds.1 thresholds.2 false bandpassV

/-- `blocked_digital` -/
def blockedDigital (photoCurrentA : List ℚ) (dt : ℚ) (delayS : Double) (sampleRateHz : ℤ)
    (demodHoldUs : Double) : Except PyError (List ℕ) := do
  let comparatorIdeal ← a.comparatorIdeal photoCurrentA dt
  let comparator ← delayedLogic (comparatorIdeal.map Bool.toNat) delayS sampleRateHz
  let clearDigital ← rmtCarrierRemove comparator sampleRateHz demodHoldUs
  return clearDigital.map (1 - ·)

/-- The photocurrent of `simulate`, from the ambient light on. -/
def simulatedPhotoA (m : Roots) (n : NoiseSources)
    (ambientA signalPhotoA environmentalNoiseRmsA : ℚ) (samples : List (ℚ × ℚ × ℚ))
    (sampleRateHz : ℤ) : Except PyError (List ℚ) := do
  let totalNoiseRmsA ← a.totalNoiseRmsA m n ambientA environmentalNoiseRmsA sampleRateHz
  return photoCurrentA ambientA n.darkA signalPhotoA totalNoiseRmsA samples

end AnalogFrontend

/-! ## A constant offset

Ambient light adds a constant to the photocurrent. The first stage is linear and
starts at the first sample, so it shows the constant from the beginning; the coupling
takes differences from there on, and shows nothing of it (`highpass_add`).
-/

/-- A low-pass that starts higher by a constant stays higher by it. -/
theorem lowpass_add (x : List ℚ) (dt tau initial c : ℚ) :
    rcLowpass (x.map (· + c)) dt tau (initial + c)
      = (rcLowpass x dt tau initial).map (List.map (· + c)) := by
  rw [rcLowpass, rcLowpass]
  cases divide dt (tau + dt) with
  | error e => rfl
  | ok alpha => exact congrArg Except.ok (Lag.output_add alpha initial c x)

theorem zipWith_sub_add (x y : List ℚ) (c : ℚ) :
    List.zipWith (· - ·) (x.map (· + c)) (y.map (· + c)) = List.zipWith (· - ·) x y := by
  rw [List.zipWith_map]
  congr 1
  funext u v
  ring

/-- The coupling removes a constant. -/
theorem highpass_add (x : List ℚ) (dt tau c : ℚ) :
    rcHighpass (x.map (· + c)) dt tau = rcHighpass x dt tau := by
  cases x with
  | nil => rfl
  | cons first x =>
    show (rcLowpass ((first :: x).map (· + c)) dt tau (first + c) >>= fun baseline =>
      pure (List.zipWith (· - ·) ((first :: x).map (· + c)) baseline)) = _
    rw [lowpass_add, rcHighpass]
    cases rcLowpass (first :: x) dt tau first with
    | error e => rfl
    | ok baseline => exact congrArg Except.ok (zipWith_sub_add (first :: x) baseline c)

namespace AnalogFrontend

variable (a : AnalogFrontend)

/-- The transimpedance stage shows an offset in full. -/
theorem tiaV_offset (photo : List ℚ) (dt c : ℚ) :
    a.tiaV (photo.map (· + c)) dt
      = (a.tiaV photo dt).map (List.map (· + -(c * a.tiaFeedbackOhm))) := by
  cases photo with
  | nil => rfl
  | cons first photo =>
    have hscale : ((first :: photo).map (· + c)).map (· * a.tiaFeedbackOhm)
        = ((first :: photo).map (· * a.tiaFeedbackOhm)).map (· + c * a.tiaFeedbackOhm) := by
      rw [List.map_map, List.map_map]
      congr 1
      funext v
      exact add_mul v c a.tiaFeedbackOhm
    show (rcLowpass (((first :: photo).map (· + c)).map (· * a.tiaFeedbackOhm)) dt a.tiaTau
      ((first + c) * a.tiaFeedbackOhm) >>= fun lowpass =>
        pure (lowpass.map fun v => a.vrefV + -v)) = _
    rw [hscale, add_mul, lowpass_add, tiaV]
    cases rcLowpass ((first :: photo).map (· * a.tiaFeedbackOhm)) dt a.tiaTau
        (first * a.tiaFeedbackOhm) with
    | error e => rfl
    | ok lowpass =>
      refine congrArg Except.ok ?_
      rw [List.map_map, List.map_map]
      congr 1
      funext v
      show a.vrefV + -(v + _) = a.vrefV + -v + -_
      ring

/-- What the comparator sees does not depend on an offset. -/
theorem bandpassV_offset (photo : List ℚ) (dt c : ℚ) :
    a.bandpassV (photo.map (· + c)) dt = a.bandpassV photo dt := by
  rw [bandpassV, tiaV_offset, bandpassV]
  cases a.tiaV photo dt with
  | error e => rfl
  | ok tia =>
    show (rcHighpass (tia.map (· + _)) dt a.hpTau >>= _) = (rcHighpass tia dt a.hpTau >>= _)
    rw [highpass_add]

/-- The digital output does not depend on an offset either. -/
theorem blockedDigital_offset (photo : List ℚ) (dt c : ℚ) (delayS demodHoldUs : Double)
    (sampleRateHz : ℤ) :
    a.comparatorIdeal (photo.map (· + c)) dt = a.comparatorIdeal photo dt ∧
      a.blockedDigital (photo.map (· + c)) dt delayS sampleRateHz demodHoldUs
        = a.blockedDigital photo dt delayS sampleRateHz demodHoldUs := by
  have hcomparator : a.comparatorIdeal (photo.map (· + c)) dt = a.comparatorIdeal photo dt := by
    rw [comparatorIdeal, comparatorIdeal, bandpassV_offset]
  exact ⟨hcomparator, by rw [blockedDigital, blockedDigital, hcomparator]⟩

/-- Without the ambient light's constant current, at the same amplitude of the noise. -/
theorem photoCurrentA_ambient (ambientA darkA signalPhotoA rms : ℚ) (samples : List (ℚ × ℚ × ℚ)) :
    photoCurrentA ambientA darkA signalPhotoA rms samples
      = (photoCurrentA 0 darkA signalPhotoA rms samples).map (· + ambientA) := by
  rw [photoCurrentA, photoCurrentA, List.map_map]
  congr 1
  funext s
  show ambientA + darkA + signalPhotoA * s.1 * s.2.1 + rms * s.2.2
    = 0 + darkA + signalPhotoA * s.1 * s.2.1 + rms * s.2.2 + ambientA
  ring

/-- What the ambient light comes to. The transimpedance stage shows its constant
current in full, on top of what it shows without; behind the coupling nothing is left
of it. The noise is that of the source, whose amplitude depends on the ambient light
(`total_noise_rms_a`), so both sides have this amplitude. -/
theorem ambient_rejected (m : Roots) (n : NoiseSources)
    (ambientA signalPhotoA environmentalNoiseRmsA dt : ℚ) (samples : List (ℚ × ℚ × ℚ))
    (delayS demodHoldUs : Double) (sampleRateHz : ℤ) :
    let noise := fun ambientA => a.totalNoiseRmsA m n ambientA environmentalNoiseRmsA sampleRateHz
    let photo := fun ambientA =>
      a.simulatedPhotoA m n ambientA signalPhotoA environmentalNoiseRmsA samples sampleRateHz
    let output := fun photo => a.blockedDigital photo dt delayS sampleRateHz demodHoldUs
    (photo ambientA >>= (a.tiaV · dt)) = (noise ambientA >>= fun rms =>
      (a.tiaV (photoCurrentA 0 n.darkA signalPhotoA rms samples) dt).map
        (List.map (· + -(ambientA * a.tiaFeedbackOhm)))) ∧
    (photo ambientA >>= (a.comparatorIdeal · dt)) = (noise ambientA >>= fun rms =>
      a.comparatorIdeal (photoCurrentA 0 n.darkA signalPhotoA rms samples) dt) ∧
    (photo ambientA >>= output) = (noise ambientA >>= fun rms =>
      output (photoCurrentA 0 n.darkA signalPhotoA rms samples)) ∧
    ∀ ambientA', noise ambientA' = noise ambientA →
      (photo ambientA' >>= output) = (photo ambientA >>= output) := by
  intro noise photo output
  have hphoto : ∀ {β : Type} (ambientA : ℚ) (f : List ℚ → Except PyError β),
      (photo ambientA >>= f) = (noise ambientA >>= fun rms =>
        f ((photoCurrentA 0 n.darkA signalPhotoA rms samples).map (· + ambientA))) := by
    intro β ambientA f
    show ((a.totalNoiseRmsA m n ambientA environmentalNoiseRmsA sampleRateHz >>= fun rms =>
      pure (photoCurrentA ambientA n.darkA signalPhotoA rms samples)) >>= f) = _
    rw [bind_assoc]
    refine bind_congr fun rms => ?_
    rw [pure_bind, photoCurrentA_ambient]
  have hoffset := fun photo c => a.blockedDigital_offset photo dt c delayS demodHoldUs sampleRateHz
  refine ⟨?_, ?_, ?_, fun ambientA' hnoise => ?_⟩
  · rw [hphoto]
    exact bind_congr fun rms => a.tiaV_offset _ dt ambientA
  · rw [hphoto]
    exact bind_congr fun rms => (hoffset _ ambientA).1
  · rw [hphoto]
    exact bind_congr fun rms => (hoffset _ ambientA).2
  · rw [hphoto, hphoto, hnoise]
    exact bind_congr fun rms => ((hoffset _ ambientA').2).trans (hoffset _ ambientA).2.symm

/-! ## Values that make sense

For the values of a circuit every stage is a lag (`Lag`) with a factor between zero
and one, and no division raises. What follows is about any such values, not only the
installed ones.
-/

/-- Time moves on, no component is negative, and those that are divided by are positive. -/
structure Physical (dt : ℚ) : Prop where
  dt_pos : 0 < dt
  tiaFeedbackOhm : 0 ≤ a.tiaFeedbackOhm
  tiaFeedbackPf : 0 ≤ a.tiaFeedbackPf
  acCouplingNf : 0 ≤ a.acCouplingNf
  acBiasOhm : 0 ≤ a.acBiasOhm
  gainGroundOhm : 0 < a.gainGroundOhm
  gainFeedbackOhm : 0 ≤ a.gainFeedbackOhm
  gainFeedbackPf : 0 ≤ a.gainFeedbackPf
  comparatorInputOhm : 0 ≤ a.comparatorInputOhm
  comparatorFeedbackOhm : 0 < a.comparatorFeedbackOhm
  internalHysteresis : 0 ≤ a.comparatorInternalHysteresisMvTyp
  supplyV : 0 ≤ a.supplyV
  vrefV : 0.04 ≤ a.vrefV

/-- The gain, with what the transimpedance stage makes of a current. -/
def swing : ℚ := (1 + a.gainFeedbackOhm / a.gainGroundOhm) * a.tiaFeedbackOhm

/-- The distance of the thresholds. -/
def hysteresisV : ℚ :=
  a.supplyV * (a.comparatorInputOhm / a.comparatorFeedbackOhm) + a.internalHysteresisV

end AnalogFrontend

/-- With times of a circuit the low-pass is a lag. -/
theorem rcLowpass_ok {dt tau : ℚ} (hdt : 0 < dt) (htau : 0 ≤ tau) :
    0 ≤ dt / (tau + dt) ∧ dt / (tau + dt) ≤ 1 ∧
      ∀ x initial, rcLowpass x dt tau initial = .ok (Lag.output (dt / (tau + dt)) initial x) := by
  have hpos : 0 < tau + dt := by linarith
  refine ⟨div_nonneg hdt.le hpos.le, (div_le_one hpos).mpr (by linarith), fun x initial => ?_⟩
  rw [rcLowpass, divide, if_neg hpos.ne']
  rfl

section

variable {dt tau ε lo hi : ℚ} {x y : List ℚ}

/-- The coupling takes the difference of two signals twice at most. -/
theorem highpass_close (hdt : 0 < dt) (htau : 0 ≤ tau) (hne : x ≠ []) (h : Lag.Close ε x y) :
    ∃ u v, rcHighpass x dt tau = .ok u ∧ rcHighpass y dt tau = .ok v ∧ Lag.Close (2 * ε) u v := by
  obtain ⟨h0, h1, hok⟩ := rcLowpass_ok hdt htau
  cases h with
  | nil => exact absurd rfl hne
  | @cons first first' x y hfirst hrest =>
    have hbase := Lag.output_close h0 h1 hfirst (.cons hfirst hrest)
    refine ⟨_, _, by rw [rcHighpass, hok]; rfl, by rw [rcHighpass, hok]; rfl, ?_⟩
    rw [two_mul]
    exact Lag.Close.sub (.cons hfirst hrest) hbase

theorem zipWith_sub_within {u v : List ℚ} (hu : Lag.Within lo hi u) (hv : Lag.Within lo hi v) :
    Lag.Within (-(hi - lo)) (hi - lo) (List.zipWith (· - ·) u v) := by
  intro z hz
  obtain ⟨i, hi', rfl⟩ := List.getElem_of_mem hz
  rw [List.getElem_zipWith]
  obtain ⟨hul, huh⟩ := hu _ (List.getElem_mem _)
  obtain ⟨hvl, hvh⟩ := hv _ (List.getElem_mem _)
  exact ⟨by linarith, by linarith⟩

/-- The coupled signal swings to both sides by the width of the signal. -/
theorem highpass_within (hdt : 0 < dt) (htau : 0 ≤ tau) (hne : x ≠ []) (h : Lag.Within lo hi x) :
    ∃ u, rcHighpass x dt tau = .ok u ∧ u.length = x.length ∧
      Lag.Within (-(hi - lo)) (hi - lo) u := by
  obtain ⟨h0, h1, hok⟩ := rcLowpass_ok hdt htau
  cases x with
  | nil => exact absurd rfl hne
  | cons first x =>
    have hbase := Lag.output_mem h0 h1 (h first List.mem_cons_self) h
    refine ⟨_, by rw [rcHighpass, hok]; rfl, ?_, zipWith_sub_within h hbase⟩
    rw [List.length_zipWith, Lag.length_output, Nat.min_self]

end

namespace AnalogFrontend

variable {a : AnalogFrontend} {dt ε lo hi : ℚ} {photo photo' : List ℚ}

/-- No time constant is negative. -/
theorem Physical.taus (h : a.Physical dt) : 0 ≤ a.tiaTau ∧ 0 ≤ a.hpTau ∧ 0 ≤ a.gainTau := by
  refine ⟨?_, ?_, ?_⟩
  · exact mul_nonneg (mul_nonneg h.tiaFeedbackOhm h.tiaFeedbackPf) (by norm_num)
  · exact mul_nonneg (mul_nonneg h.acBiasOhm h.acCouplingNf) (by norm_num)
  · exact mul_nonneg (mul_nonneg h.gainFeedbackOhm h.gainFeedbackPf) (by norm_num)

/-- The gain is computed, and is not negative. -/
theorem Physical.gain (h : a.Physical dt) :
    a.gain = .ok (1 + a.gainFeedbackOhm / a.gainGroundOhm) ∧
      0 ≤ 1 + a.gainFeedbackOhm / a.gainGroundOhm := by
  constructor
  · rw [AnalogFrontend.gain, divide, if_neg h.gainGroundOhm.ne']
    rfl
  · have hratio := div_nonneg h.gainFeedbackOhm h.gainGroundOhm.le
    linarith

theorem Physical.swing (h : a.Physical dt) : 0 ≤ a.swing :=
  mul_nonneg h.gain.2 h.tiaFeedbackOhm

/-- The thresholds, and what lies between them. -/
theorem Physical.thresholds (h : a.Physical dt) :
    ∃ falling rising, a.thresholds = .ok (falling, rising) ∧ falling ≤ rising ∧
      rising - falling = a.hysteresisV ∧
      rising = a.vrefV * (1 + a.comparatorInputOhm / a.comparatorFeedbackOhm)
        + a.internalHysteresisV / 2 := by
  have hratio := div_nonneg h.comparatorInputOhm h.comparatorFeedbackOhm.le
  have hinternal : 0 ≤ a.internalHysteresisV := mul_nonneg h.internalHysteresis (by norm_num)
  have hdiff : 0 ≤ a.hysteresisV := add_nonneg (mul_nonneg h.supplyV hratio) hinternal
  refine ⟨_, _, by rw [AnalogFrontend.thresholds, divide, if_neg h.comparatorFeedbackOhm.ne']; rfl,
    ?_, ?_, ?_⟩
  · rw [hysteresisV] at hdiff
    linarith
  · rw [hysteresisV]
    ring
  · ring

/-- Clipping does not take two values further apart. -/
theorem abs_clip_sub_le (a : AnalogFrontend) (u v : ℚ) : |a.clip u - a.clip v| ≤ |u - v| := by
  have hmax : |max u 0.04 - max v 0.04| ≤ |u - v| := by
    simpa using abs_max_sub_max_le_max u 0.04 v 0.04
  have hmin : |a.clip u - a.clip v| ≤ |max u 0.04 - max v 0.04| := by
    simpa [clip] using abs_min_sub_min_le_max (max u 0.04) (a.supplyV - 0.04) (max v 0.04)
      (a.supplyV - 0.04)
  exact hmin.trans hmax

/-- Multiplication by a factor that is not negative. -/
theorem abs_mul_sub_mul_le {k : ℚ} (hk : 0 ≤ k) (u v : ℚ) : |u * k - v * k| ≤ k * |u - v| := by
  rw [← sub_mul, abs_mul, abs_of_nonneg hk, mul_comm]

/-- The transimpedance stage, of a signal that is there. -/
theorem Physical.tiaV (h : a.Physical dt) (first : ℚ) (photo : List ℚ) :
    a.tiaV (first :: photo) dt
      = .ok ((Lag.output (dt / (a.tiaTau + dt)) (first * a.tiaFeedbackOhm)
          ((first :: photo).map (· * a.tiaFeedbackOhm))).map fun v => a.vrefV + -v) := by
  obtain ⟨-, -, hok⟩ := rcLowpass_ok h.dt_pos h.taus.1
  rw [AnalogFrontend.tiaV, hok]
  rfl

/-- The amplifier, behind the coupling. -/
theorem Physical.bandpassV (h : a.Physical dt) {tia ac : List ℚ} (htia : a.tiaV photo dt = .ok tia)
    (hac : rcHighpass tia dt a.hpTau = .ok ac) :
    a.bandpassV photo dt = .ok ((Lag.output (dt / (a.gainTau + dt)) 0
      (ac.map (· * (1 + a.gainFeedbackOhm / a.gainGroundOhm)))).map
        fun v => a.clip (a.vrefV + v)) := by
  obtain ⟨-, -, hok⟩ := rcLowpass_ok h.dt_pos h.taus.2.2
  rw [AnalogFrontend.bandpassV, htia]
  show (rcHighpass tia dt a.hpTau >>= _) = _
  rw [hac]
  show (a.gain >>= _) = _
  rw [h.gain.1]
  show (rcLowpass _ _ _ _ >>= _) = _
  rw [hok]
  rfl

/-- The first stage takes two photocurrents as far apart as its resistance says. -/
theorem tiaV_close (h : a.Physical dt) (hne : photo ≠ []) (hclose : Lag.Close ε photo photo') :
    ∃ tia tia', a.tiaV photo dt = .ok tia ∧ a.tiaV photo' dt = .ok tia' ∧ tia ≠ [] ∧
      Lag.Close (a.tiaFeedbackOhm * ε) tia tia' := by
  obtain ⟨h0, h1, -⟩ := rcLowpass_ok h.dt_pos h.taus.1
  cases hclose with
  | nil => exact absurd rfl hne
  | @cons first first' photo photo' hfirst hrest =>
    have hflip : ∀ u v : ℚ, |a.vrefV + -u - (a.vrefV + -v)| ≤ 1 * |u - v| := fun u v => by
      rw [one_mul, abs_sub_comm u v]
      exact le_of_eq (congrArg _ (by ring))
    have hscaled := Lag.Close.map (abs_mul_sub_mul_le h.tiaFeedbackOhm) h.tiaFeedbackOhm
      (.cons hfirst hrest)
    have hstart := (abs_mul_sub_mul_le h.tiaFeedbackOhm first first').trans
      (mul_le_mul_of_nonneg_left hfirst h.tiaFeedbackOhm)
    have hlag := Lag.Close.map hflip zero_le_one (Lag.output_close h0 h1 hstart hscaled)
    rw [one_mul] at hlag
    exact ⟨_, _, h.tiaV first photo, h.tiaV first' photo', by simp [Lag.output_cons], hlag⟩

/-- How far apart the comparator sees two photocurrents. -/
theorem bandpassV_close (h : a.Physical dt) (hne : photo ≠ []) (hclose : Lag.Close ε photo photo') :
    ∃ band band', a.bandpassV photo dt = .ok band ∧ a.bandpassV photo' dt = .ok band' ∧
      Lag.Close (2 * a.swing * ε) band band' := by
  obtain ⟨-, hgain0⟩ := h.gain
  obtain ⟨h0, h1, -⟩ := rcLowpass_ok h.dt_pos h.taus.2.2
  have hε : 0 ≤ ε := hclose.nonneg hne
  obtain ⟨tia, tia', htia, htia', htiane, htiaclose⟩ := tiaV_close h hne hclose
  obtain ⟨ac, ac', hac, hac', hacclose⟩ := highpass_close h.dt_pos h.taus.2.1 htiane htiaclose
  have hout : ∀ u v : ℚ, |a.clip (a.vrefV + u) - a.clip (a.vrefV + v)| ≤ 1 * |u - v| := by
    intro u v
    have hclip := abs_clip_sub_le a (a.vrefV + u) (a.vrefV + v)
    rwa [add_sub_add_left_eq_sub, ← one_mul |u - v|] at hclip
  have hamped := Lag.Close.map (abs_mul_sub_mul_le hgain0) hgain0 hacclose
  have hzero : |(0 : ℚ) - 0| ≤ (1 + a.gainFeedbackOhm / a.gainGroundOhm)
      * (2 * (a.tiaFeedbackOhm * ε)) := by
    rw [sub_zero, abs_zero]
    exact mul_nonneg hgain0 (mul_nonneg zero_le_two (mul_nonneg h.tiaFeedbackOhm hε))
  have hband := Lag.Close.map hout zero_le_one (Lag.output_close h0 h1 hzero hamped)
  have hbound : 1 * ((1 + a.gainFeedbackOhm / a.gainGroundOhm) * (2 * (a.tiaFeedbackOhm * ε)))
      = 2 * a.swing * ε := by
    rw [swing]
    ring
  rw [hbound] at hband
  exact ⟨_, _, h.bandpassV htia hac, h.bandpassV htia' hac', hband⟩

/-! ## Noise

Two signals that stay close give the same decisions wherever one of them keeps a
distance from the thresholds. The distance that is needed is that of the signals,
times the greatest gain of the stages before the comparator (`bandpassV_close`).
-/

/-- An offset and noise are not seen, if the comparator has a margin for the noise: a
photocurrent that differs from another one by a constant and at most `ε` gives the
same decisions, sample by sample, provided that what the comparator sees of the other
one decides alike when it is moved up or down by twice the swing of `ε`. -/
theorem noise_immune (h : a.Physical dt) {c falling rising : ℚ} {band : List ℚ}
    (hclose : Lag.Close ε (photo.map (· + c)) photo') (hband : a.bandpassV photo dt = .ok band)
    (hthresholds : a.thresholds = .ok (falling, rising))
    (hmargin : Hysteresis.output falling rising false (band.map (· - 2 * a.swing * ε))
      = Hysteresis.output falling rising false (band.map (· + 2 * a.swing * ε))) :
    a.comparatorIdeal photo' dt = a.comparatorIdeal photo dt ∧
      ∀ delayS rate demodHoldUs, a.blockedDigital photo' dt delayS rate demodHoldUs
        = a.blockedDigital photo dt delayS rate demodHoldUs := by
  have hcomparator : a.comparatorIdeal photo' dt = a.comparatorIdeal photo dt := by
    by_cases hne : photo = []
    · subst hne
      cases hclose
      rfl
    have hoffset : photo.map (· + c) ≠ [] := fun hnil => hne (List.map_eq_nil_iff.mp hnil)
    obtain ⟨band₁, band', hband₁, hband', hbandclose⟩ := bandpassV_close h hoffset hclose
    rw [bandpassV_offset, hband] at hband₁
    cases hband₁
    obtain ⟨falling', rising', hthresholds', hle, -, -⟩ := h.thresholds
    cases hthresholds.symm.trans hthresholds'
    have hbelow : List.Forall₂ (· ≤ ·) (band.map (· - 2 * a.swing * ε)) band' :=
      List.forall₂_map_left_iff.mpr (hbandclose.imp fun u v huv => by
        have := (abs_le.mp huv).2
        linarith)
    have habove : List.Forall₂ (· ≤ ·) band' (band.map (· + 2 * a.swing * ε)) :=
      List.forall₂_map_right_iff.mpr (hbandclose.flip.imp fun v u huv => by
        have := (abs_le.mp huv).1
        linarith)
    have hδ : 0 ≤ 2 * a.swing * ε :=
      mul_nonneg (mul_nonneg zero_le_two h.swing) (hclose.nonneg hoffset)
    have hself := Lag.close_refl hδ band
    have hnoisy := Hysteresis.output_eq_of_between hle hbelow habove hmargin
    have hquiet := Hysteresis.output_eq_of_between hle
      (List.forall₂_map_left_iff.mpr (hself.imp fun u v huv => by
        have := (abs_le.mp huv).2
        linarith))
      (List.forall₂_map_right_iff.mpr (hself.imp fun u v huv => by
        have := (abs_le.mp huv).2
        linarith)) hmargin
    rw [comparatorIdeal, comparatorIdeal, hband, hband']
    show (a.thresholds >>= _) = (a.thresholds >>= _)
    rw [hthresholds]
    show Except.ok _ = Except.ok _
    rw [hnoisy, hquiet]
  refine ⟨hcomparator, fun delayS rate demodHoldUs => ?_⟩
  rw [blockedDigital, blockedDigital, hcomparator]

/-- The installed values, at the sample rate that is the default. -/
theorem afe_physical : afe.Physical (1 / 2000000) := by
  constructor <;> norm_num [afe]

/-- A dip of the photocurrent and a rise: the comparator switches on and off again. -/
def dipAndRise : List ℚ :=
  [1 / 10 ^ 6, 0, 0, 0, 1 / 10 ^ 5, 1 / 10 ^ 5, 1 / 10 ^ 5, 1 / 10 ^ 5]

/-- The same with two microamperes of ambient light and a nanoampere of noise. -/
def noisyDipAndRise : List ℚ :=
  [3001 / 10 ^ 9, 1999 / 10 ^ 9, 2001 / 10 ^ 9, 2 / 10 ^ 6,
    11999 / 10 ^ 9, 12001 / 10 ^ 9, 12 / 10 ^ 6, 12 / 10 ^ 6]

/-- What the comparator sees of it. -/
def dipAndRiseV : List ℚ :=
  match afe.bandpassV dipAndRise (1 / 2000000) with
  | .ok band => band
  | .error _ => []

/-- Both photocurrents make the comparator switch on and off, at the same samples. -/
theorem noise_immune_dipAndRise :
    afe.comparatorIdeal noisyDipAndRise (1 / 2000000)
      = .ok [false, true, true, true, false, false, false, false] ∧
    afe.comparatorIdeal noisyDipAndRise (1 / 2000000)
      = afe.comparatorIdeal dipAndRise (1 / 2000000) := by
  have hclose : Lag.Close (1 / 10 ^ 9) (dipAndRise.map (· + 2 / 10 ^ 6)) noisyDipAndRise := by
    repeat' constructor
    all_goals norm_num
  have hband : afe.bandpassV dipAndRise (1 / 2000000) = .ok dipAndRiseV := by decide +kernel
  have hthresholds : afe.thresholds = .ok (8157 / 5000, 8343 / 5000) := by decide +kernel
  have hsame := (noise_immune afe_physical hclose hband hthresholds (by decide +kernel)).1
  have hquiet : afe.comparatorIdeal dipAndRise (1 / 2000000)
      = .ok [false, true, true, true, false, false, false, false] := by decide +kernel
  exact ⟨hsame.trans hquiet, hsame⟩

/-! ## How far the signal moves

A lag stays between the bounds of its input, so the width of the photocurrent bounds
what every stage shows; and each step of a lag is a fraction of the way to its input,
so a comparator with some distance between its thresholds cannot switch at every
sample.
-/

/-- The first stage stays between what the bounds of the photocurrent come to. -/
theorem tiaV_within (h : a.Physical dt) (hne : photo ≠ []) (hphoto : Lag.Within lo hi photo) :
    ∃ tia, a.tiaV photo dt = .ok tia ∧ tia ≠ [] ∧ tia.length = photo.length ∧
      Lag.Within (a.vrefV - hi * a.tiaFeedbackOhm) (a.vrefV - lo * a.tiaFeedbackOhm) tia := by
  obtain ⟨h0, h1, -⟩ := rcLowpass_ok h.dt_pos h.taus.1
  cases photo with
  | nil => exact absurd rfl hne
  | cons first photo =>
    have hscale : ∀ u, lo ≤ u ∧ u ≤ hi →
        lo * a.tiaFeedbackOhm ≤ u * a.tiaFeedbackOhm ∧
          u * a.tiaFeedbackOhm ≤ hi * a.tiaFeedbackOhm := fun u hu =>
      ⟨mul_le_mul_of_nonneg_right hu.1 h.tiaFeedbackOhm,
        mul_le_mul_of_nonneg_right hu.2 h.tiaFeedbackOhm⟩
    have hscaled : Lag.Within (lo * a.tiaFeedbackOhm) (hi * a.tiaFeedbackOhm)
        ((first :: photo).map (· * a.tiaFeedbackOhm)) := by
      intro v hv
      obtain ⟨u, hu, rfl⟩ := List.mem_map.mp hv
      exact hscale u (hphoto u hu)
    have hlag := Lag.output_mem h0 h1 (hscale first (hphoto first List.mem_cons_self)) hscaled
    refine ⟨_, h.tiaV first photo, by simp [Lag.output_cons], by simp, fun v hv => ?_⟩
    obtain ⟨u, hu, rfl⟩ := List.mem_map.mp hv
    obtain ⟨hul, huh⟩ := hlag u hu
    exact ⟨by linarith, by linarith⟩

/-- The coupled and amplified signal swings by `swing` times the width of the photocurrent. -/
theorem bandpassV_within (h : a.Physical dt) (hne : photo ≠ []) (hphoto : Lag.Within lo hi photo) :
    ∃ vs, a.bandpassV photo dt = .ok (vs.map fun v => a.clip (a.vrefV + v)) ∧
      vs.length = photo.length ∧
      Lag.Within (-(a.swing * (hi - lo))) (a.swing * (hi - lo)) vs ∧
      Lag.Slew (dt / (a.gainTau + dt) * (2 * a.swing * (hi - lo))) 0 vs := by
  obtain ⟨-, hgain0⟩ := h.gain
  obtain ⟨h0, h1, -⟩ := rcLowpass_ok h.dt_pos h.taus.2.2
  obtain ⟨tia, htia, htiane, htialen, htiain⟩ := tiaV_within h hne hphoto
  obtain ⟨ac, hac, haclen, hacin⟩ := highpass_within h.dt_pos h.taus.2.1 htiane htiain
  have hwidth : lo ≤ hi := by
    cases photo with
    | nil => exact absurd rfl hne
    | cons first photo =>
      have hfirst := hphoto first List.mem_cons_self
      exact hfirst.1.trans hfirst.2
  have hbound : (1 + a.gainFeedbackOhm / a.gainGroundOhm)
      * (a.vrefV - lo * a.tiaFeedbackOhm - (a.vrefV - hi * a.tiaFeedbackOhm))
      = a.swing * (hi - lo) := by
    rw [swing]
    ring
  have hampin : Lag.Within (-(a.swing * (hi - lo))) (a.swing * (hi - lo))
      (ac.map (· * (1 + a.gainFeedbackOhm / a.gainGroundOhm))) := by
    intro v hv
    obtain ⟨u, hu, rfl⟩ := List.mem_map.mp hv
    obtain ⟨hul, huh⟩ := hacin u hu
    rw [← hbound, ← mul_neg]
    exact ⟨(mul_le_mul_of_nonneg_left hul hgain0).trans_eq (mul_comm _ _),
      (mul_comm _ _).trans_le (mul_le_mul_of_nonneg_left huh hgain0)⟩
  have hnonneg : 0 ≤ a.swing * (hi - lo) := mul_nonneg h.swing (sub_nonneg.mpr hwidth)
  have hzero : -(a.swing * (hi - lo)) ≤ 0 ∧ 0 ≤ a.swing * (hi - lo) :=
    ⟨neg_nonpos.mpr hnonneg, hnonneg⟩
  have hslew := Lag.slew_output h0 h1 hzero hampin
  have hstep : a.swing * (hi - lo) - -(a.swing * (hi - lo)) = 2 * a.swing * (hi - lo) := by ring
  rw [hstep] at hslew
  refine ⟨_, h.bandpassV htia hac, ?_, Lag.output_mem h0 h1 hzero hampin, hslew⟩
  rw [Lag.length_output, List.length_map, haclen, htialen]

/-- The comparator is a hysteresis (`Hysteresis`) of the amplified signal. -/
theorem Physical.comparatorIdeal (h : a.Physical dt) {band : List ℚ}
    (hband : a.bandpassV photo dt = .ok band) :
    ∃ falling rising, a.thresholds = .ok (falling, rising) ∧
      a.comparatorIdeal photo dt = .ok (Hysteresis.output falling rising false band) := by
  obtain ⟨falling, rising, hthresholds, -⟩ := h.thresholds
  refine ⟨falling, rising, hthresholds, ?_⟩
  rw [AnalogFrontend.comparatorIdeal, hband]
  show (a.thresholds >>= _) = _
  rw [hthresholds]
  rfl

/-- Clipping does not lift a value above a bound that the reference keeps. -/
theorem clip_le (h : a.Physical dt) {v m : ℚ} (hv : v ≤ m) (hm : a.vrefV ≤ m) : a.clip v ≤ m :=
  (min_le_left _ _).trans (max_le hv (h.vrefV.trans hm))

/-- The reference is below the upper threshold, by half of the internal hysteresis and
a share of the reference; the distance of the thresholds is that of `hysteresisV`. -/
theorem vrefV_le_rising (h : a.Physical dt) {falling rising : ℚ}
    (hthresholds : a.thresholds = .ok (falling, rising)) :
    a.vrefV ≤ rising ∧ rising - falling = a.hysteresisV ∧
      rising - a.vrefV = a.vrefV * (a.comparatorInputOhm / a.comparatorFeedbackOhm)
        + a.internalHysteresisV / 2 := by
  obtain ⟨falling', rising', hthresholds', -, hdiff, hrising⟩ := h.thresholds
  cases hthresholds.symm.trans hthresholds'
  have hratio := div_nonneg h.comparatorInputOhm h.comparatorFeedbackOhm.le
  have hinternal : 0 ≤ a.internalHysteresisV := mul_nonneg h.internalHysteresis (by norm_num)
  have hvref : 0 ≤ a.vrefV := le_trans (by norm_num) h.vrefV
  have hshare := mul_nonneg hvref hratio
  refine ⟨?_, hdiff, ?_⟩
  · rw [hrising]
    linarith
  · rw [hrising]
    ring

/-- Of `n` samples of a photocurrent of a given width, so many bring the comparator from one
threshold to the other: the transitions, but for the first, take `hysteresisV` each, and a
sample moves the signal by a share of the full swing at most. -/
theorem transitions_bounded (h : a.Physical dt) (hne : photo ≠ [])
    (hphoto : Lag.Within lo hi photo) :
    ∃ out, a.comparatorIdeal photo dt = .ok out ∧ out.length = photo.length ∧
      Hysteresis.flips false out * a.hysteresisV
        ≤ photo.length * (dt / (a.gainTau + dt) * (2 * a.swing * (hi - lo))) + a.hysteresisV := by
  obtain ⟨vs, hband, hlen, -, hslew⟩ := bandpassV_within h hne hphoto
  obtain ⟨falling, rising, hthresholds, hcomparator⟩ := h.comparatorIdeal hband
  obtain ⟨hvref, hdiff, -⟩ := vrefV_le_rising h hthresholds
  refine ⟨_, hcomparator, by rw [Hysteresis.length_output, List.length_map, hlen], ?_⟩
  have hout : ∀ u v : ℚ, |a.clip (a.vrefV + u) - a.clip (a.vrefV + v)| ≤ 1 * |u - v| := by
    intro u v
    have hclip := abs_clip_sub_le a (a.vrefV + u) (a.vrefV + v)
    rwa [add_sub_add_left_eq_sub, ← one_mul |u - v|] at hclip
  have hmoves := Lag.Slew.map hout zero_le_one hslew
  rw [one_mul] at hmoves
  have hvariation := Hysteresis.variation_le hmoves
  have hflips := Hysteresis.flips_mul_le falling rising false (a.clip (a.vrefV + 0))
    (vs.map fun v => a.clip (a.vrefV + v))
  have hstart : a.clip (a.vrefV + 0) ≤ rising :=
    clip_le h (by rw [add_zero]; exact hvref) hvref
  have hhysteresis : 0 ≤ a.hysteresisV := by
    have hratio := div_nonneg h.comparatorInputOhm h.comparatorFeedbackOhm.le
    exact add_nonneg (mul_nonneg h.supplyV hratio) (mul_nonneg h.internalHysteresis (by norm_num))
  have hslack : Hysteresis.slack falling rising false (a.clip (a.vrefV + 0)) ≤ a.hysteresisV := by
    rw [Hysteresis.slack, if_neg Bool.false_ne_true]
    exact max_le hhysteresis (by linarith)
  rw [hdiff] at hflips
  rw [List.length_map, hlen] at hvariation
  linarith

/-- Thirty nanoamperes go out: the comparator switches on, and in twelve samples it could not
switch more than six times. -/
theorem transitions_bounded_dip :
    ∃ out, afe.comparatorIdeal (List.replicate 2 (3 / 10 ^ 8) ++ List.replicate 10 0) (1 / 2000000)
        = .ok out ∧ out.length = 12 ∧ Hysteresis.flips false out = 1 ∧
      Hysteresis.flips false out * afe.hysteresisV
        ≤ 12 * (1 / 2000000 / (afe.gainTau + 1 / 2000000) * (2 * afe.swing * (3 / 10 ^ 8 - 0)))
          + afe.hysteresisV ∧
      12 * (1 / 2000000 / (afe.gainTau + 1 / 2000000) * (2 * afe.swing * (3 / 10 ^ 8 - 0)))
          + afe.hysteresisV < 7 * afe.hysteresisV := by
  have hphoto : Lag.Within (0 : ℚ) (3 / 10 ^ 8)
      (List.replicate 2 (3 / 10 ^ 8) ++ List.replicate 10 0) := by
    intro v hv
    rcases List.mem_append.mp hv with hv | hv <;> rw [List.eq_of_mem_replicate hv] <;> norm_num
  obtain ⟨out, hout, hlen, hbound⟩ := transitions_bounded afe_physical
    (List.append_ne_nil_of_left_ne_nil (List.cons_ne_nil _ _) _) hphoto
  have hrun : afe.comparatorIdeal (List.replicate 2 (3 / 10 ^ 8) ++ List.replicate 10 0)
      (1 / 2000000) = .ok (List.replicate 10 false ++ [true, true]) := by decide +kernel
  obtain rfl := Except.ok.inj (hrun.symm.trans hout)
  exact ⟨_, hrun, rfl, by decide, hbound, by decide +kernel⟩

theorem delayList_low (d n : ℕ) :
    delayList d 0 (0 :: List.replicate n 0) = 0 :: List.replicate n 0 := by
  rw [← List.replicate_succ, delayList, List.take_replicate, ← List.replicate_add,
    List.length_replicate]
  congr 1
  omega

/-- A comparator that stays off never sets the demodulator. -/
theorem carrierLoop_low (H n : ℕ) :
    carrierLoop H 0 0 (0 :: List.replicate n 0) = 0 :: List.replicate n 0 := by
  have hloop := carrierLoop_replicate H 0 (n + 1) []
  rw [List.append_nil] at hloop
  exact hloop.trans (List.append_nil _)

/-- A photocurrent whose swing does not reach the upper threshold reads as a blockage
all the time: the comparator is off at the start and stays off, so no transition ever
sets the demodulator. -/
theorem weak_blocked (h : a.Physical dt) (hne : photo ≠ []) (hphoto : Lag.Within lo hi photo)
    (hweak : a.swing * (hi - lo) ≤ a.vrefV * (a.comparatorInputOhm / a.comparatorFeedbackOhm)
      + a.internalHysteresisV / 2) :
    a.comparatorIdeal photo dt = .ok (List.replicate photo.length false) ∧
      ∀ delayS rate demodHoldUs ys, a.blockedDigital photo dt delayS rate demodHoldUs = .ok ys →
        ys = List.replicate photo.length 1 := by
  obtain ⟨vs, hband, hlen, hwithin, -⟩ := bandpassV_within h hne hphoto
  obtain ⟨falling, rising, hthresholds, hcomparator⟩ := h.comparatorIdeal hband
  obtain ⟨hvref, -, hrising⟩ := vrefV_le_rising h hthresholds
  have hbelow : ∀ v ∈ vs.map fun v => a.clip (a.vrefV + v), v ≤ rising := by
    intro v hv
    obtain ⟨u, hu, rfl⟩ := List.mem_map.mp hv
    refine clip_le h ?_ hvref
    have hswing := (hwithin u hu).2
    linarith
  rw [Hysteresis.output_of_le hbelow, List.length_map, hlen] at hcomparator
  refine ⟨hcomparator, fun delayS rate demodHoldUs ys hys => ?_⟩
  obtain ⟨n, hn⟩ : ∃ n, photo.length = n + 1 :=
    Nat.exists_eq_succ_of_ne_zero fun hzero => hne (List.length_eq_zero_iff.mp hzero)
  have hlow : (List.replicate photo.length false).map Bool.toNat = 0 :: List.replicate n 0 := by
    rw [List.map_replicate, hn]
    rfl
  rw [blockedDigital, hcomparator] at hys
  change (delayedLogic ((List.replicate photo.length false).map Bool.toNat) delayS rate >>= _) = _
    at hys
  rw [hlow] at hys
  cases hdelay : delaySamples delayS rate with
  | error e =>
    rw [delayedLogic, hdelay] at hys
    cases hys
  | ok d =>
    rw [delayedLogic_cons hdelay, delayList_low] at hys
    change (rmtCarrierRemove (0 :: List.replicate n 0) rate demodHoldUs >>= _) = _ at hys
    cases hhold : holdSamples demodHoldUs rate with
    | error e =>
      rw [rmtCarrierRemove, hhold] at hys
      cases hys
    | ok H =>
      rw [rmtCarrierRemove_cons hhold, carrierLoop_low] at hys
      cases hys
      rw [hn, List.replicate_succ, List.map_cons, List.map_replicate]

/-- A nanoampere of light does not switch the comparator. -/
theorem weak_blocked_dark :
    afe.comparatorIdeal [0, 1 / 10 ^ 9] (1 / 2000000) = .ok [false, false] := by
  have hphoto : Lag.Within (0 : ℚ) (1 / 10 ^ 9) [0, 1 / 10 ^ 9] := by
    intro v hv
    rcases List.mem_cons.mp hv with rfl | hv
    · norm_num
    · rw [List.mem_singleton.mp hv]
      norm_num
  have hweak : afe.swing * (1 / 10 ^ 9 - 0)
      ≤ afe.vrefV * (afe.comparatorInputOhm / afe.comparatorFeedbackOhm)
        + afe.internalHysteresisV / 2 := by
    norm_num [afe, swing, internalHysteresisV]
  exact (weak_blocked afe_physical (List.cons_ne_nil _ _) hphoto hweak).1

end AnalogFrontend

end SpokeSensor.Simulation
