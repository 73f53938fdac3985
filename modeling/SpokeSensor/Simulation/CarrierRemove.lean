import SpokeSensor.Server.PyNumber
import SpokeSensor.Lib.Monostable

/-!
# The simulated RMT demodulator (`ir_spoke_sim.py:48–76`)

- `rmtCarrierRemove`: a sample is clear while there was a transition of the comparator within the
  last `H` samples. The loop is a monostable that every transition retriggers (`carrierLoop_eq`).
- `delayedLogic`: the delay of the comparator.
- `Marks`: sample by sample the window of the last `H`, and run by run the gaps. After the first
  transition the blocked runs are the gaps without a transition that are longer than `H`, each
  without its first `H` samples.
- `removal_delay_comm`: a delay commutes with the demodulator.
- `blockages_are_gaps`: all of it, for every array, rate, hold time and delay.
-/

namespace SpokeSensor.Simulation

open LocalServer Ieee

/-! ## The functions of the source

`rmt_carrier_remove` and `delayed_logic` (`ir_spoke_sim.py:48–76`), over lists of
samples.
-/

/-- `hold_samples` -/
def holdSamples (holdUs : Double) (sampleRateHz : ℤ) : Except PyError ℕ := do
  let rate ← PyNumber.toFloat (.int sampleRateHz)
  let n ← PyNumber.roundFloat (holdUs * .ofRat binary64 1e-6 * rate)
  return (max 1 n).toNat

/-- `delay_samples` -/
def delaySamples (delayS : Double) (sampleRateHz : ℤ) : Except PyError ℕ := do
  let rate ← PyNumber.toFloat (.int sampleRateHz)
  let n ← PyNumber.roundFloat (delayS * rate)
  return (max 0 n).toNat

/-- `x[0]` of an empty array -/
def indexError : PyError :=
  .other "IndexError" "index 0 is out of bounds for axis 0 with size 0"

/-- The loop of `rmt_carrier_remove`. -/
def carrierLoop (holdSamples : ℕ) : ℕ → ℕ → List ℕ → List ℕ
  | _, _, [] => []
  | countdown, previous, current :: rest =>
    let countdown :=
      if current ≠ previous then holdSamples
      else if countdown ≠ 0 then countdown - 1
      else countdown
    (if countdown ≠ 0 then 1 else 0) :: carrierLoop holdSamples countdown current rest

/-- `rmt_carrier_remove` -/
def rmtCarrierRemove (digitalCarrier : List ℕ) (sampleRateHz : ℤ) (holdUs : Double) :
    Except PyError (List ℕ) := do
  let holdSamples ← holdSamples holdUs sampleRateHz
  match digitalCarrier with
  | [] => .error indexError
  | previous :: _ => return carrierLoop holdSamples 0 previous digitalCarrier

/-- `delayed_logic` -/
def delayedLogic (x : List ℕ) (delayS : Double) (sampleRateHz : ℤ) :
    Except PyError (List ℕ) := do
  let delaySamples ← delaySamples delayS sampleRateHz
  if delaySamples = 0 then return x
  match x with
  | [] => .error indexError
  | first :: _ =>
    return List.replicate (min delaySamples x.length) first ++ x.take (x.length - delaySamples)

/-! ## The loop is a monostable

The loop counts the samples since the last transition and is high when the count has
reached the hold. That is a monostable (`Monostable`) triggered by transitions.
-/

/-- Where a sample differs from the one before. -/
def transitions : ℕ → List ℕ → List Bool
  | _, [] => []
  | previous, current :: rest => decide (current ≠ previous) :: transitions current rest

/-- The sample `j` differs from the sample before it. -/
def Transition (x : List ℕ) (j : ℕ) : Prop :=
  1 ≤ j ∧ j < x.length ∧ x[j]? ≠ x[j - 1]?

@[simp] theorem transitions_length (p : ℕ) (x : List ℕ) : (transitions p x).length = x.length := by
  induction x generalizing p with
  | nil => rfl
  | cons v x ih => simp [transitions, ih]

theorem transitions_getElem? (p : ℕ) (x : List ℕ) {j : ℕ} (hj : j < x.length) :
    (transitions p x)[j]? = some true ↔ x[j]? ≠ (p :: x)[j]? := by
  induction x generalizing p j with
  | nil => exact absurd hj (Nat.not_lt_zero j)
  | cons v x ih =>
    rw [transitions]
    cases j with
    | zero => simp
    | succ j =>
      rw [List.getElem?_cons_succ, List.getElem?_cons_succ, ih v (Nat.lt_of_succ_lt_succ hj)]
      rfl

/-- The loop starts at the first sample, which is no transition. -/
theorem transitions_iff (v : ℕ) (x : List ℕ) (j : ℕ) :
    (transitions v (v :: x))[j]? = some true ↔ Transition (v :: x) j := by
  by_cases hj : j < (v :: x).length
  · rw [transitions_getElem? v _ hj]
    cases j with
    | zero => simp [Transition]
    | succ j =>
      rw [List.getElem?_cons_succ, Transition, Nat.add_sub_cancel]
      exact ⟨fun h => ⟨by omega, hj, h⟩, fun h => h.2.2⟩
  · rw [List.getElem?_eq_none (by simpa using hj)]
    exact iff_of_false nofun fun h => hj h.2.1

theorem carrierLoop_eq (hold countdown previous : ℕ) (x : List ℕ) :
    carrierLoop hold countdown previous x
      = (Monostable.output hold countdown (transitions previous x)).map
          fun high => if high then 1 else 0 := by
  induction x generalizing countdown previous with
  | nil => rfl
  | cons v x ih =>
    have hfall : (if countdown ≠ 0 then countdown - 1 else countdown) = countdown - 1 := by
      split <;> omega
    rw [carrierLoop, transitions, Monostable.output, List.map_cons, hfall, ih]
    simp

/-! ## Blockages

Runs of the output and gaps of the carrier: each begins a hold after the last
transition before it and ends with the next one.
-/

/-- The window of `rmt_carrier_remove`: a transition among the last `H` samples. -/
def Clear (x : List ℕ) (H i : ℕ) : Prop :=
  ∃ j, 1 ≤ j ∧ j ≤ i ∧ i - j < H ∧ x[j]? ≠ x[j - 1]?

/-- From a transition to the next one, or to the end of the samples. -/
def Gap (x : List ℕ) (j k : ℕ) : Prop :=
  Monostable.Gap x.length (Transition x) j k

/-- A maximal run of blocked samples, from `a` up to, not including, `b`. -/
def BlockedRun (y : List ℕ) (a b : ℕ) : Prop :=
  Monostable.Run y.length (fun i => y[i]? = some 0) a b

/-- The output `y` marks the gaps of the input `x`: sample by sample, and run by run
after the first transition. -/
structure Marks (H : ℕ) (x y : List ℕ) : Prop where
  length_eq : y.length = x.length
  clear : ∀ i < x.length, y[i]? = some 1 ↔ Clear x H i
  blocked : ∀ i < x.length, y[i]? = some 0 ↔ ¬ Clear x H i
  /-- After the first transition the blocked runs are the gaps longer than `H`, each
  without its first `H` samples. -/
  runs : Set.BijOn (fun g : ℕ × ℕ => (g.1 + H, g.2))
    {g | Gap x g.1 g.2 ∧ H < g.2 - g.1}
    {r | BlockedRun y r.1 r.2 ∧ ∃ t ≤ r.1, Transition x t}

theorem clear_iff {x : List ℕ} {H i : ℕ} (hi : i < x.length) :
    Monostable.High (Transition x) H i ↔ Clear x H i := by
  constructor
  · rintro ⟨j, hj, ⟨h1, -, hne⟩, hlt⟩
    exact ⟨j, h1, hj, hlt, hne⟩
  · rintro ⟨j, h1, hj, hlt, hne⟩
    exact ⟨j, hj, ⟨h1, by omega, hne⟩, hlt⟩

/-- The samples that the loop computes. -/
theorem carrierLoop_getElem? (H v : ℕ) (x : List ℕ) {i : ℕ} (hi : i < (v :: x).length) :
    (carrierLoop H 0 v (v :: x))[i]? = some
      (if (Monostable.output H 0 (transitions v (v :: x)))[i]? = some true then 1 else 0) := by
  have hlen : i < (Monostable.output H 0 (transitions v (v :: x))).length := by simpa using hi
  rw [carrierLoop_eq, List.getElem?_map, List.getElem?_eq_getElem hlen]
  simp

/-- Sample by sample, the loop is the window. -/
theorem carrierLoop_window (H v : ℕ) (x : List ℕ) {i : ℕ} (hi : i < (v :: x).length) :
    ((carrierLoop H 0 v (v :: x))[i]? = some 1 ↔ Clear (v :: x) H i) ∧
      ((carrierLoop H 0 v (v :: x))[i]? = some 0 ↔ ¬ Clear (v :: x) H i) := by
  have hlen : i < (transitions v (v :: x)).length := by simpa using hi
  have hout := Monostable.output_getElem? (H := H) hlen
  have htrig : (fun j => (transitions v (v :: x))[j]? = some true) = Transition (v :: x) :=
    funext fun j => propext (transitions_iff v x j)
  rw [htrig, clear_iff hi] at hout
  rw [carrierLoop_getElem? H v x hi]
  by_cases hclear : Clear (v :: x) H i
  · rw [if_pos (hout.mpr hclear)]
    simp [hclear]
  · rw [if_neg (fun hhigh => hclear (hout.mp hhigh))]
    simp [hclear]

theorem carrierLoop_marks {H : ℕ} (hH : 0 < H) (v : ℕ) (x : List ℕ) :
    Marks H (v :: x) (carrierLoop H 0 v (v :: x)) := by
  have hlen : (carrierLoop H 0 v (v :: x)).length = (v :: x).length := by
    simp [carrierLoop_eq]
  have hlow : ∀ i < (v :: x).length, ¬ Monostable.High (Transition (v :: x)) H i ↔
      (carrierLoop H 0 v (v :: x))[i]? = some 0 := fun i hi => by
    rw [(carrierLoop_window H v x hi).2, clear_iff hi]
  refine ⟨hlen, fun i hi => (carrierLoop_window H v x hi).1,
    fun i hi => (carrierLoop_window H v x hi).2, ?_⟩
  have hruns : ∀ a b, BlockedRun (carrierLoop H 0 v (v :: x)) a b ↔
      Monostable.Run (v :: x).length
        (fun i => ¬ Monostable.High (Transition (v :: x)) H i) a b := by
    intro a b
    rw [BlockedRun, hlen]
    exact ⟨Monostable.Run.congr fun i hi => (hlow i hi).symm, Monostable.Run.congr hlow⟩
  simp only [hruns]
  exact Monostable.bijOn_gaps hH

/-! ## Delay

A delay moves transitions, so it moves the runs of the output by the same number of
samples.
-/

/-- While nothing changes the counter stays at zero. -/
theorem carrierLoop_replicate (H v d : ℕ) (x : List ℕ) :
    carrierLoop H 0 v (List.replicate d v ++ x) = List.replicate d 0 ++ carrierLoop H 0 v x := by
  induction d with
  | zero => rfl
  | succ d ih =>
    rw [List.replicate_succ, List.cons_append, carrierLoop]
    simpa [List.replicate_succ] using ih

theorem carrierLoop_take (H countdown previous m : ℕ) (x : List ℕ) :
    carrierLoop H countdown previous (x.take m) = (carrierLoop H countdown previous x).take m := by
  induction m generalizing countdown previous x with
  | zero => rfl
  | succ m ih =>
    cases x with
    | nil => rfl
    | cons v x =>
      rw [List.take_succ_cons, carrierLoop, carrierLoop, List.take_succ_cons, ih]

/-- The first sample is never a transition. -/
theorem carrierLoop_cons (H v : ℕ) (x : List ℕ) :
    carrierLoop H 0 v (v :: x) = 0 :: carrierLoop H 0 v x := by
  simp [carrierLoop]

/-- The samples that `delayed_logic` returns. -/
def delayList (d first : ℕ) (x : List ℕ) : List ℕ :=
  List.replicate (min d x.length) first ++ x.take (x.length - d)

theorem delayList_zero (first : ℕ) (x : List ℕ) : delayList 0 first x = x := by
  simp [delayList]

/-- `delayed_logic` keeps the first sample. -/
theorem delayList_cons (d v : ℕ) (x : List ℕ) : ∃ x', delayList d v (v :: x) = v :: x' := by
  cases d with
  | zero => exact ⟨x, delayList_zero v _⟩
  | succ d =>
    refine ⟨List.replicate (min d x.length) v ++ (v :: x).take ((v :: x).length - (d + 1)), ?_⟩
    rw [delayList, List.length_cons, Nat.add_min_add_right, List.replicate_succ, List.cons_append]

theorem delayedLogic_cons {delayS : Double} {rate : ℤ} {d : ℕ}
    (hd : delaySamples delayS rate = .ok d) (v : ℕ) (x : List ℕ) :
    delayedLogic (v :: x) delayS rate = .ok (delayList d v (v :: x)) := by
  rw [delayedLogic, hd]
  show (if d = 0 then _ else _) = _
  by_cases h0 : d = 0
  · rw [if_pos h0, h0, delayList_zero]
    rfl
  · rw [if_neg h0]
    rfl

theorem rmtCarrierRemove_cons {holdUs : Double} {rate : ℤ} {H : ℕ}
    (hH : holdSamples holdUs rate = .ok H) (v : ℕ) (x : List ℕ) :
    rmtCarrierRemove (v :: x) rate holdUs = .ok (carrierLoop H 0 v (v :: x)) := by
  rw [rmtCarrierRemove, hH]
  rfl

/-- The loop on delayed samples is the delayed loop. -/
theorem carrierLoop_delayList (H d v : ℕ) (x : List ℕ) :
    carrierLoop H 0 v (delayList d v (v :: x)) = delayList d 0 (carrierLoop H 0 v (v :: x)) := by
  have hlen : (carrierLoop H 0 v (v :: x)).length = (v :: x).length := by
    simp [carrierLoop_eq]
  rw [delayList, carrierLoop_replicate, carrierLoop_take, delayList, hlen]

/-- The samples of `y`, `d` later; none of the new ones is clear. -/
structure Shifted (d : ℕ) (y y' : List ℕ) : Prop where
  length_eq : y'.length = y.length
  early : ∀ i < d, i < y.length → y'[i]? = some 0
  late : ∀ i, i + d < y.length → y'[i + d]? = y[i]?

theorem delayList_shifted (d : ℕ) (y : List ℕ) : Shifted d y (delayList d 0 y) where
  length_eq := by
    rw [delayList, List.length_append, List.length_replicate, List.length_take]
    omega
  early i hi hlt := by
    rw [delayList, List.getElem?_append_left (by simp; omega), List.getElem?_replicate_of_lt
      (by omega)]
  late i hi := by
    rw [delayList, List.getElem?_append_right (by simp), List.length_replicate,
      Nat.min_eq_left (by omega), Nat.add_sub_cancel, List.getElem?_take_of_lt (by omega)]

theorem hold_pos {holdUs : Double} {rate : ℤ} {H : ℕ} (hH : holdSamples holdUs rate = .ok H) :
    0 < H := by
  obtain ⟨r, -, hr⟩ := bind_eq_ok.mp hH
  obtain ⟨n, -, hn⟩ := bind_eq_ok.mp hr
  have hn : (max 1 n).toNat = H := ok_eq_ok.mp hn
  omega

/-- What is followed by a pass that always raises does not return. -/
theorem bind_raises {α β : Type} {f : α → Except PyError β} {e : PyError}
    (h : ∀ a, f a = .error e) (x : Except PyError α) : (x >>= f).toOption = none := by
  cases x with
  | error e' => rfl
  | ok a => exact congrArg Except.toOption (h a)

/-- The two orders give the same samples, or both raise. -/
theorem removal_delay_comm (x : List ℕ) (rate : ℤ) (holdUs delayS : Double) :
    (delayedLogic x delayS rate >>= fun x' => rmtCarrierRemove x' rate holdUs).toOption
      = (rmtCarrierRemove x rate holdUs >>= fun y => delayedLogic y delayS rate).toOption := by
  cases hH : holdSamples holdUs rate with
  | error e =>
    have hraise : ∀ x, rmtCarrierRemove x rate holdUs = .error e := fun x => by
      rw [rmtCarrierRemove, hH]
      rfl
    rw [hraise]
    exact bind_raises hraise _
  | ok H =>
    cases hd : delaySamples delayS rate with
    | error e =>
      have hraise : ∀ x, delayedLogic x delayS rate = .error e := fun x => by
        rw [delayedLogic, hd]
        rfl
      rw [hraise]
      exact (bind_raises hraise _).symm
    | ok d =>
      cases x with
      | nil =>
        have hempty : rmtCarrierRemove [] rate holdUs = .error indexError := by
          rw [rmtCarrierRemove, hH]
          rfl
        rw [hempty, delayedLogic, hd]
        show ((if d = 0 then _ else _)
          >>= fun x' => rmtCarrierRemove x' rate holdUs).toOption = none
        by_cases h0 : d = 0
        · rw [if_pos h0]
          exact congrArg Except.toOption hempty
        · rw [if_neg h0]
          rfl
      | cons v x =>
        obtain ⟨x', hx'⟩ := delayList_cons d v x
        rw [delayedLogic_cons hd, rmtCarrierRemove_cons hH, carrierLoop_cons]
        show (rmtCarrierRemove (delayList d v (v :: x)) rate holdUs).toOption
          = (delayedLogic (0 :: carrierLoop H 0 v x) delayS rate).toOption
        rw [hx', rmtCarrierRemove_cons hH, ← hx', delayedLogic_cons hd, carrierLoop_delayList,
          carrierLoop_cons]

/-- The demodulator marks exactly the carrier gaps, and commutes with a delay of the
comparator: where one side raises, so does the other. The loop is a monostable
(`carrierLoop_eq`), of which `Monostable.bijOn_gaps` says the same for triggers. -/
theorem blockages_are_gaps :
    (∀ (x : List ℕ) (rate : ℤ) (holdUs : Double) (H : ℕ), holdSamples holdUs rate = .ok H →
      x ≠ [] → ∃ y, rmtCarrierRemove x rate holdUs = .ok y ∧ Marks H x y) ∧
    (∀ (x : List ℕ) (rate : ℤ) (holdUs delayS : Double),
      (delayedLogic x delayS rate >>= fun x' => rmtCarrierRemove x' rate holdUs).toOption
        = (rmtCarrierRemove x rate holdUs >>= fun y => delayedLogic y delayS rate).toOption) ∧
    ∀ (x y y' : List ℕ) (rate : ℤ) (holdUs delayS : Double) (d : ℕ),
      delaySamples delayS rate = .ok d → rmtCarrierRemove x rate holdUs = .ok y →
      delayedLogic y delayS rate = .ok y' → Shifted d y y' := by
  refine ⟨fun x rate holdUs H hH hx => ?_, fun x rate holdUs delayS => ?_,
    fun x y y' rate holdUs delayS d hd hy hy' => ?_⟩
  · obtain ⟨v, x, rfl⟩ := List.exists_cons_of_ne_nil hx
    exact ⟨_, rmtCarrierRemove_cons hH v x, carrierLoop_marks (hold_pos hH) v x⟩
  · exact removal_delay_comm x rate holdUs delayS
  · obtain ⟨H, hH, hbody⟩ := bind_eq_ok.mp hy
    cases x with
    | nil => cases hbody
    | cons v x =>
      rw [rmtCarrierRemove_cons hH v x] at hy
      obtain rfl := Except.ok.inj hy
      rw [carrierLoop_cons, delayedLogic_cons hd] at hy'
      obtain rfl := Except.ok.inj hy'
      rw [carrierLoop_cons]
      exact delayList_shifted d _

instance (x : List ℕ) (j : ℕ) : Decidable (Transition x j) :=
  inferInstanceAs (Decidable (1 ≤ j ∧ j < x.length ∧ x[j]? ≠ x[j - 1]?))

/-- A carrier without a transition for five samples. -/
def pausedCarrier : List ℕ := [0, 1, 0, 1, 1, 1, 1, 1, 0, 1]

theorem pausedCarrier_gap : Gap pausedCarrier 3 8 where
  triggered := by decide
  lt := by decide
  le := by decide
  free i hlo hhi := by
    have hfree : ∀ i < 8, 3 < i → ¬ Transition pausedCarrier i := by decide
    exact hfree i hhi hlo
  ends := .inr (by decide)

/-- Two microseconds at 1 MHz: the pause shows as three blocked samples, and four samples later
behind a delay of four microseconds. -/
theorem blockages_are_gaps_paused : ∃ y y',
    rmtCarrierRemove pausedCarrier 1000000 (.finite 2) = .ok y ∧
      BlockedRun y 5 8 ∧
      delayedLogic y (.finite (1 / 2 ^ 18)) 1000000 = .ok y' ∧ Shifted 4 y y' := by
  obtain ⟨hmarks, -, hshifted⟩ := blockages_are_gaps
  have hdelay : delaySamples (.finite (1 / 2 ^ 18)) 1000000 = .ok 4 := by decide +kernel
  obtain ⟨y, hy, hblocked⟩ :=
    hmarks pausedCarrier 1000000 (.finite 2) 2 (by decide +kernel) (List.cons_ne_nil _ _)
  have hlong : ((3, 8) : ℕ × ℕ) ∈ {g : ℕ × ℕ | Gap pausedCarrier g.1 g.2 ∧ 2 < g.2 - g.1} :=
    ⟨pausedCarrier_gap, by decide⟩
  have hrun : BlockedRun y 5 8 := (hblocked.runs.mapsTo hlong).1
  have hdelayed : delayedLogic [0, 1, 1, 1, 1, 0, 0, 0, 1, 1] (.finite (1 / 2 ^ 18)) 1000000
      = .ok [0, 0, 0, 0, 0, 1, 1, 1, 1, 0] := by decide +kernel
  have hvalue : rmtCarrierRemove pausedCarrier 1000000 (.finite 2)
      = .ok [0, 1, 1, 1, 1, 0, 0, 0, 1, 1] := by decide +kernel
  obtain rfl := Except.ok.inj (hy.symm.trans hvalue)
  exact ⟨_, _, hy, hrun, hdelayed, hshifted _ _ _ _ _ _ _ hdelay hy hdelayed⟩

end SpokeSensor.Simulation
