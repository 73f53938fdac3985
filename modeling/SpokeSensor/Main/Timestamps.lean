import SpokeSensor.Main.ReceiveLoop
import SpokeSensor.Lib.Backdating
import Mathlib.Data.List.Forall2
import Mathlib.Tactic.Positivity

/-!
# The reconstruction of the timestamps (`ir_spoke_rmt_adapter.c:37–69`)

`rx_done` knows when a capture has ended and how many ticks each phase has lasted. It
rounds every phase to microseconds, goes back from the end by the sum (48–53), and
then forward phase by phase (54–69). Both passes and the start of the second phase of
a symbol (59) round alike.

- `phasesFrom_spans`: each phase starts at the end less what it and the later phases
  last, rounded one by one. So events do not overlap, and the cursor comes back to the
  end.
- `checkedRxDone`: the same computation with every operation checked for overflow;
  none occurs.
- `rxEvents_consistent`: order and bounds of the events of every capture, and that a
  start is off by at most half a microsecond for each phase from its own on.

That spans can be dated from their common end is `Backdating`.
-/

namespace SpokeSensor

/-! ## `rx_done` with overflow checks

The interrupt adds up durations in 64 bits and casts some of them to 32
(`ir_spoke_rmt_adapter.c:37–63`). Here every addition, product and cast fails if it
does not fit, and the result says that none of them ever does.
-/

theorem bind_of_some {α β : Type} {x : Option α} {a : α} (h : x = some a) (f : α → Option β) :
    (x >>= f) = f a := by
  rw [h, Option.bind_eq_bind, Option.bind_some]

def checkedAdd64 (a b : UInt64) : Option UInt64 :=
  if a.toNat + b.toNat < 2 ^ 64 then some (a + b) else none

def checkedMul64 (a b : UInt64) : Option UInt64 :=
  if a.toNat * b.toNat < 2 ^ 64 then some (a * b) else none

def checkedAdd32 (a b : UInt32) : Option UInt32 :=
  if a.toNat + b.toNat < 2 ^ 32 then some (a + b) else none

def checkedCast32 (a : UInt64) : Option UInt32 :=
  if a.toNat < 2 ^ 32 then some a.toUInt32 else none

/-- `ticks_to_us`, which also must not divide by zero. -/
def checkedTicksToUs (captureResolutionHz : UInt32) (ticks : BitVec 15) : Option UInt32 := do
  let product ← checkedMul64 (UInt64.ofNat ticks.toNat) 1000000
  let sum ← checkedAdd64 product (captureResolutionHz / 2).toUInt64
  if captureResolutionHz = 0 then none else checkedCast32 (sum / captureResolutionHz.toUInt64)

/-- The first loop of `rx_done`. -/
def checkedCapturedUs (captureResolutionHz : UInt32) (us : UInt64) :
    List RmtSymbol → Option UInt64
  | [] => some us
  | s :: symbols => do
    let us0 ← checkedTicksToUs captureResolutionHz s.duration0
    let us ← checkedAdd64 us us0.toUInt64
    let us1 ← checkedTicksToUs captureResolutionHz s.duration1
    let us ← checkedAdd64 us us1.toUInt64
    checkedCapturedUs captureResolutionHz us symbols

/-- The second loop of `rx_done`: the phases that are sent, and the cursor at the end. -/
def checkedPhasesFrom (captureResolutionHz : UInt32) (cursorUs : UInt64) :
    List RmtSymbol → Option (List BlockageEvent × UInt64)
  | [] => some ([], cursorUs)
  | s :: symbols => do
    let us0 ← checkedTicksToUs captureResolutionHz s.duration0
    let us1 ← checkedTicksToUs captureResolutionHz s.duration1
    let secondUs ← checkedAdd64 cursorUs us0.toUInt64
    let phases : List BlockageEvent :=
      [{ timestampUs := cursorUs, durationUs := if s.level0 then 0 else us0 },
        { timestampUs := secondUs, durationUs := if s.level1 then 0 else us1 }]
    let bothUs ← checkedAdd32 us0 us1
    let nextUs ← checkedAdd64 cursorUs bothUs.toUInt64
    let rest ← checkedPhasesFrom captureResolutionHz nextUs symbols
    some (phases.filter (fun phase => phase.durationUs ≠ 0) ++ rest.1, rest.2)

/-- `rx_done`: the events that it sends and the cursor after the last symbol. -/
def checkedRxDone (captureResolutionHz : UInt32) (now : UInt64) (symbols : List RmtSymbol) :
    Option (List BlockageEvent × UInt64) := do
  let captured ← checkedCapturedUs captureResolutionHz 0 symbols
  checkedPhasesFrom captureResolutionHz (if captured < now then now - captured else 0) symbols

/-! ## Phases

A symbol is two phases with a level each. The list of all phases is what both loops of
the interrupt run over.
-/

/-- Half of a symbol. -/
structure Phase where
  ticks : BitVec 15
  level : Bool
  deriving DecidableEq, Repr

/-- The phases of a capture in order. -/
def phaseList (symbols : List RmtSymbol) : List Phase :=
  symbols.flatMap fun s => [⟨s.duration0, s.level0⟩, ⟨s.duration1, s.level1⟩]

/-- The rounded duration of a phase. -/
def phaseUs (res : UInt32) (p : Phase) : ℕ := (ticksToUs res p.ticks).toNat

/-- The exact duration of a phase. -/
def exactUs (res : UInt32) (p : Phase) : ℚ := p.ticks.toNat * 1000000 / res.toNat

/-- The low phases of non-zero rounded duration, each with the phases after it. -/
def lowPhases (res : UInt32) (symbols : List RmtSymbol) : List (Phase × List Phase) :=
  (Backdating.withRest (phaseList symbols)).filter fun x => x.1.level = false ∧ phaseUs res x.1 ≠ 0

/-- The start and the duration of an event. -/
def BlockageEvent.span (e : BlockageEvent) : ℕ × ℕ := (e.timestampUs.toNat, e.durationUs.toNat)

variable {res : UInt32} {symbols : List RmtSymbol} {cursor : UInt64} {fin : ℕ}

@[simp] theorem phaseList_cons (s : RmtSymbol) (symbols : List RmtSymbol) :
    phaseList (s :: symbols)
      = ⟨s.duration0, s.level0⟩ :: ⟨s.duration1, s.level1⟩ :: phaseList symbols := rfl

/-! ## One phase

A duration in ticks is rounded to the nearest microsecond by adding half of the
resolution before the division (37–40), so it is off by half a microsecond at most.
-/

/-- The resolutions that the configuration admits: at least eight times the lowest
carrier, and at most 80 MHz. -/
structure Admitted (res : UInt32) : Prop where
  low : 200000 ≤ res.toNat
  high : res.toNat ≤ 80000000

theorem million_toNat : (1000000 : UInt64).toNat = 1000000 := rfl

/-- The dividend of `ticks_to_us` fits 64 bits. -/
theorem dividend_toNat (res : UInt32) (ticks : BitVec 15) :
    (UInt64.ofNat ticks.toNat * 1000000).toNat = ticks.toNat * 1000000 ∧
      (UInt64.ofNat ticks.toNat * 1000000 + (res / 2).toUInt64).toNat
        = ticks.toNat * 1000000 + res.toNat / 2 := by
  have hticks := ticks.isLt
  have hres := res.toNat_lt
  have hofNat : (UInt64.ofNat ticks.toNat).toNat = ticks.toNat := by
    rw [UInt64.toNat_ofNat']
    omega
  have hhalf : (res / 2).toUInt64.toNat = res.toNat / 2 := by
    rw [UInt32.toNat_toUInt64, UInt32.toNat_div]
    rfl
  have hproduct : (UInt64.ofNat ticks.toNat * 1000000).toNat = ticks.toNat * 1000000 := by
    rw [UInt64.toNat_mul, hofNat, million_toNat]
    omega
  refine ⟨hproduct, ?_⟩
  rw [UInt64.toNat_add, hproduct, hhalf]
  omega

theorem quotient_toNat (res : UInt32) (ticks : BitVec 15) :
    ((UInt64.ofNat ticks.toNat * 1000000 + (res / 2).toUInt64) / res.toUInt64).toNat
      = (ticks.toNat * 1000000 + res.toNat / 2) / res.toNat := by
  rw [UInt64.toNat_div, (dividend_toNat res ticks).2, UInt32.toNat_toUInt64]

/-- The quotient fits 32 bits by far. -/
theorem quotient_lt (hres : Admitted res) (ticks : BitVec 15) :
    (ticks.toNat * 1000000 + res.toNat / 2) / res.toNat < 2 ^ 18 := by
  obtain ⟨hlow, hhigh⟩ := hres
  have hticks := ticks.isLt
  rw [Nat.div_lt_iff_lt_mul (by omega)]
  omega

theorem phaseUs_eq (hres : Admitted res) (p : Phase) :
    phaseUs res p = (p.ticks.toNat * 1000000 + res.toNat / 2) / res.toNat := by
  have hlt := quotient_lt hres p.ticks
  rw [phaseUs, ticksToUs, UInt64.toNat_toUInt32, quotient_toNat]
  exact Nat.mod_eq_of_lt (hlt.trans (by norm_num))

theorem phaseUs_lt (hres : Admitted res) (p : Phase) : phaseUs res p < 2 ^ 18 := by
  rw [phaseUs_eq hres]
  exact quotient_lt hres p.ticks

/-- Rounding is off by at most half a microsecond. -/
theorem abs_phaseUs_sub_le (hres : Admitted res) (p : Phase) :
    |(phaseUs res p : ℚ) - exactUs res p| ≤ 1 / 2 := by
  have hpos : 0 < res.toNat := by
    have hlow := hres.low
    omega
  have hpos' : (0 : ℚ) < res.toNat := by exact_mod_cast hpos
  have hexact : exactUs res p * res.toNat = p.ticks.toNat * 1000000 := by
    rw [exactUs]
    field_simp
  -- the remainder of the division, between zero and the divisor
  have hlow : phaseUs res p * res.toNat ≤ p.ticks.toNat * 1000000 + res.toNat / 2 := by
    rw [phaseUs_eq hres]
    exact Nat.div_mul_le_self _ _
  have hhigh : p.ticks.toNat * 1000000 + res.toNat / 2 < (phaseUs res p + 1) * res.toNat := by
    rw [phaseUs_eq hres]
    exact Nat.lt_mul_of_div_lt (Nat.lt_succ_self _) hpos
  have hlow' : 2 * (phaseUs res p * res.toNat) ≤ 2 * (p.ticks.toNat * 1000000) + res.toNat := by
    omega
  have hhigh' :
      2 * (p.ticks.toNat * 1000000) + res.toNat ≤ 2 * ((phaseUs res p + 1) * res.toNat) := by
    omega
  have hlow'' : 2 * ((phaseUs res p : ℚ) * res.toNat)
      ≤ 2 * (p.ticks.toNat * 1000000) + res.toNat := by exact_mod_cast hlow'
  have hhigh'' : 2 * ((p.ticks.toNat : ℚ) * 1000000) + res.toNat
      ≤ 2 * ((phaseUs res p + 1) * res.toNat) := by exact_mod_cast hhigh'
  rw [abs_le]
  constructor <;> nlinarith

/-- No operation of `ticks_to_us` overflows. -/
theorem checkedTicksToUs_eq (hres : Admitted res) (ticks : BitVec 15) :
    checkedTicksToUs res ticks = some (ticksToUs res ticks) := by
  have hticks := ticks.isLt
  have hlt := quotient_lt hres ticks
  obtain ⟨hproduct, hsum⟩ := dividend_toNat res ticks
  have hne : res ≠ 0 := by
    rintro rfl
    have hlow := hres.low
    rw [UInt32.toNat_zero] at hlow
    omega
  have hmul : checkedMul64 (UInt64.ofNat ticks.toNat) 1000000
      = some (UInt64.ofNat ticks.toNat * 1000000) := by
    refine if_pos ?_
    rw [UInt64.toNat_ofNat', million_toNat]
    omega
  have hadd : checkedAdd64 (UInt64.ofNat ticks.toNat * 1000000) (res / 2).toUInt64
      = some (UInt64.ofNat ticks.toNat * 1000000 + (res / 2).toUInt64) := by
    refine if_pos ?_
    rw [hproduct, UInt32.toNat_toUInt64, UInt32.toNat_div]
    have hres := res.toNat_lt
    have hhalf : res.toNat / (2 : UInt32).toNat ≤ res.toNat := Nat.div_le_self _ _
    omega
  have hcast : checkedCast32 ((UInt64.ofNat ticks.toNat * 1000000 + (res / 2).toUInt64)
      / res.toUInt64) = some (ticksToUs res ticks) := by
    refine if_pos ?_
    rw [quotient_toNat]
    exact hlt.trans (by norm_num)
  rw [checkedTicksToUs, bind_of_some hmul, bind_of_some hadd, if_neg hne, hcast]

/-! ## The two passes

The first loop adds up all durations to find when the capture began (48–52); the
second one runs from there and notes the start of each phase (53–69). As both add the
same rounded durations, the last phase ends when the interrupt runs.
-/

theorem checkedAdd64_eq {a b : UInt64} (h : a.toNat + b.toNat < 2 ^ 64) :
    checkedAdd64 a b = some (a + b) ∧ (a + b).toNat = a.toNat + b.toNat := by
  refine ⟨if_pos h, ?_⟩
  rw [UInt64.toNat_add]
  omega

theorem checkedAdd32_eq {a b : UInt32} (h : a.toNat + b.toNat < 2 ^ 32) :
    checkedAdd32 a b = some (a + b) ∧ (a + b).toNat = a.toNat + b.toNat := by
  refine ⟨if_pos h, ?_⟩
  rw [UInt32.toNat_add]
  omega

/-- The backward pass sums the rounded durations. -/
theorem checkedCapturedUs_eq (hres : Admitted res) (symbols : List RmtSymbol) (us : UInt64)
    (hfit : us.toNat + Backdating.total (phaseUs res) (phaseList symbols) < 2 ^ 64) :
    ∃ sum : UInt64, checkedCapturedUs res us symbols = some sum ∧
      symbols.foldl (fun us s =>
        us + (ticksToUs res s.duration0).toUInt64 + (ticksToUs res s.duration1).toUInt64) us = sum ∧
      sum.toNat = us.toNat + Backdating.total (phaseUs res) (phaseList symbols) := by
  induction symbols generalizing us with
  | nil => exact ⟨us, rfl, rfl, rfl⟩
  | cons s symbols ih =>
    rw [phaseList_cons, Backdating.total_cons, Backdating.total_cons] at hfit ⊢
    simp only [phaseUs] at hfit ⊢
    obtain ⟨hfirst, hfirst'⟩ := checkedAdd64_eq (a := us)
      (b := (ticksToUs res s.duration0).toUInt64) (by rw [UInt32.toNat_toUInt64]; omega)
    rw [UInt32.toNat_toUInt64] at hfirst'
    obtain ⟨hsecond, hsecond'⟩ := checkedAdd64_eq
      (a := us + (ticksToUs res s.duration0).toUInt64)
      (b := (ticksToUs res s.duration1).toUInt64) (by rw [hfirst', UInt32.toNat_toUInt64]; omega)
    rw [hfirst', UInt32.toNat_toUInt64] at hsecond'
    obtain ⟨sum, hchecked, hfold, hsum⟩ := ih (us + (ticksToUs res s.duration0).toUInt64
      + (ticksToUs res s.duration1).toUInt64) (by rw [hsecond']; omega)
    refine ⟨sum, ?_, hfold, ?_⟩
    · rw [checkedCapturedUs, bind_of_some (checkedTicksToUs_eq hres _), bind_of_some hfirst,
        bind_of_some (checkedTicksToUs_eq hres _), bind_of_some hsecond]
      exact hchecked
    · rw [hsum, hsecond']
      omega

/-- The forward pass comes out at the end, and overflows nowhere on the way. -/
theorem checkedPhasesFrom_eq (hres : Admitted res) (hfin : fin < 2 ^ 64)
    (hcursor : cursor.toNat + Backdating.total (phaseUs res) (phaseList symbols) = fin) :
    checkedPhasesFrom res cursor symbols
      = some (phasesFrom res cursor symbols, UInt64.ofNat fin) := by
  induction symbols generalizing cursor with
  | nil =>
    have hend : cursor = UInt64.ofNat fin := by
      rw [← hcursor]
      exact (UInt64.ofNat_toNat).symm
    rw [hend]
    rfl
  | cons s symbols ih =>
    rw [phaseList_cons, Backdating.total_cons, Backdating.total_cons] at hcursor
    have h0 := phaseUs_lt hres ⟨s.duration0, s.level0⟩
    have h1 := phaseUs_lt hres ⟨s.duration1, s.level1⟩
    simp only [phaseUs] at h0 h1 hcursor
    obtain ⟨hsecond, -⟩ := checkedAdd64_eq (a := cursor)
      (b := (ticksToUs res s.duration0).toUInt64) (by rw [UInt32.toNat_toUInt64]; omega)
    obtain ⟨hboth, hboth'⟩ := checkedAdd32_eq (a := ticksToUs res s.duration0)
      (b := ticksToUs res s.duration1) (by omega)
    obtain ⟨hnext, hnext'⟩ := checkedAdd64_eq (a := cursor)
      (b := (ticksToUs res s.duration0 + ticksToUs res s.duration1).toUInt64)
      (by rw [UInt32.toNat_toUInt64, hboth']; omega)
    rw [UInt32.toNat_toUInt64, hboth'] at hnext'
    have hrest := @ih (cursor
      + (ticksToUs res s.duration0 + ticksToUs res s.duration1).toUInt64) (by rw [hnext']; omega)
    rw [checkedPhasesFrom, bind_of_some (checkedTicksToUs_eq hres _),
      bind_of_some (checkedTicksToUs_eq hres _), bind_of_some hsecond, bind_of_some hboth,
      bind_of_some hnext, bind_of_some hrest]
    rfl

/-- One phase: sent with its span if it is low and not of zero duration. -/
theorem span_of_phase (res : UInt32) (fin : ℕ) (p : Phase) (after : List Phase) (start : UInt64)
    (hstart : start.toNat = Backdating.start (phaseUs res) fin (p, after)) :
    (([{ timestampUs := start, durationUs := if p.level then 0 else ticksToUs res p.ticks }]
        : List BlockageEvent).filter fun e => e.durationUs ≠ 0).map BlockageEvent.span
      = ([(p, after)].filter fun x => x.1.level = false ∧ phaseUs res x.1 ≠ 0).map
          fun x => (Backdating.start (phaseUs res) fin x, phaseUs res x.1) := by
  have hzero : ticksToUs res p.ticks = 0 ↔ phaseUs res p = 0 := by
    rw [← UInt32.toNat_inj]
    rfl
  cases hlevel : p.level with
  | true => simp [hlevel]
  | false =>
    by_cases hus : ticksToUs res p.ticks = 0
    · simp [hlevel, hus, hzero.mp hus]
    · have hne := (not_congr hzero).mp hus
      simp [hlevel, hus, hne, BlockageEvent.span, hstart]
      rfl

/-- The events are the low phases, each starting at the end less what it and the later
phases last. -/
theorem phasesFrom_spans (hres : Admitted res) (hfin : fin < 2 ^ 64)
    (hcursor : cursor.toNat + Backdating.total (phaseUs res) (phaseList symbols) = fin) :
    (phasesFrom res cursor symbols).map BlockageEvent.span
      = (lowPhases res symbols).map
          fun x => (Backdating.start (phaseUs res) fin x, phaseUs res x.1) := by
  induction symbols generalizing cursor with
  | nil => rfl
  | cons s symbols ih =>
    have h0 := phaseUs_lt hres ⟨s.duration0, s.level0⟩
    have h1 := phaseUs_lt hres ⟨s.duration1, s.level1⟩
    have hsplit : lowPhases res (s :: symbols)
        = ([(⟨s.duration0, s.level0⟩, ⟨s.duration1, s.level1⟩ :: phaseList symbols)]
            : List (Phase × List Phase)).filter (fun x => x.1.level = false ∧ phaseUs res x.1 ≠ 0)
          ++ (([(⟨s.duration1, s.level1⟩, phaseList symbols)]
            : List (Phase × List Phase)).filter (fun x => x.1.level = false ∧ phaseUs res x.1 ≠ 0)
          ++ lowPhases res symbols) := by
      rw [lowPhases, lowPhases, ← List.filter_append, ← List.filter_append]
      rfl
    have hfirst := span_of_phase res fin ⟨s.duration0, s.level0⟩
      (⟨s.duration1, s.level1⟩ :: phaseList symbols) cursor
      (by rw [Backdating.start, ← hcursor]; exact (Nat.add_sub_cancel _ _).symm)
    rw [phaseList_cons, Backdating.total_cons, Backdating.total_cons] at hcursor
    simp only [phaseUs] at h0 h1 hcursor
    obtain ⟨-, hsecond'⟩ := checkedAdd64_eq (a := cursor)
      (b := (ticksToUs res s.duration0).toUInt64) (by rw [UInt32.toNat_toUInt64]; omega)
    obtain ⟨-, hboth'⟩ := checkedAdd32_eq (a := ticksToUs res s.duration0)
      (b := ticksToUs res s.duration1) (by omega)
    obtain ⟨-, hnext'⟩ := checkedAdd64_eq (a := cursor)
      (b := (ticksToUs res s.duration0 + ticksToUs res s.duration1).toUInt64)
      (by rw [UInt32.toNat_toUInt64, hboth']; omega)
    rw [UInt32.toNat_toUInt64] at hsecond'
    rw [UInt32.toNat_toUInt64, hboth'] at hnext'
    -- the second phase starts where the first one ends
    have hsecond := span_of_phase res fin ⟨s.duration1, s.level1⟩ (phaseList symbols)
      (cursor + (ticksToUs res s.duration0).toUInt64) (by
        rw [Backdating.start, Backdating.total_cons, hsecond', ← hcursor]
        simp only [phaseUs]
        omega)
    rw [hsplit, List.map_append, List.map_append, ← hfirst, ← hsecond, ← ih (by rw [hnext']; omega),
      ← List.map_append, ← List.map_append, ← List.append_assoc, ← List.filter_append]
    rfl

/-! ## A capture

In terms of spans the events of a capture are its low phases, at the places that
`Backdating` gives to them. Order, bounds and gaps are facts about these.
-/

section

variable {now : UInt64} (hres : Admitted res)
  (hnow : Backdating.total (phaseUs res) (phaseList symbols) ≤ now.toNat)

include hres hnow

/-- The first loop leaves the cursor as far before the callback as the phases last. -/
theorem capture_start : ∃ captured, checkedCapturedUs res 0 symbols = some captured ∧
    capturedUs res symbols = captured ∧
    (if captured < now then now - captured else 0).toNat
      + Backdating.total (phaseUs res) (phaseList symbols) = now.toNat := by
  have hlt := now.toNat_lt
  obtain ⟨captured, hchecked, hfold, hcaptured⟩ := checkedCapturedUs_eq hres symbols 0 (by
    rw [UInt64.toNat_zero]
    omega)
  rw [UInt64.toNat_zero, Nat.zero_add] at hcaptured
  refine ⟨captured, hchecked, hfold, ?_⟩
  rw [← hcaptured] at hnow ⊢
  split
  · rename_i hbefore
    rw [UInt64.toNat_sub_of_le _ _ (UInt64.le_of_lt hbefore)]
    omega
  · rename_i hnot
    have hle : now.toNat ≤ captured.toNat := by
      rw [← UInt64.le_iff_toNat_le]
      exact UInt64.not_lt.mp hnot
    rw [UInt64.toNat_zero]
    omega

/-- No operation overflows, and the cursor comes back to the time of the callback. -/
theorem checkedRxDone_eq :
    checkedRxDone res now symbols = some (rxEvents res now symbols, now) := by
  obtain ⟨captured, hchecked, hsum, hstart⟩ := capture_start hres hnow
  rw [checkedRxDone, bind_of_some hchecked, checkedPhasesFrom_eq hres now.toNat_lt hstart, rxEvents,
    hsum, UInt64.ofNat_toNat]

theorem rxEvents_spans : (rxEvents res now symbols).map BlockageEvent.span
    = (lowPhases res symbols).map
        fun x => (Backdating.start (phaseUs res) now.toNat x, phaseUs res x.1) := by
  obtain ⟨captured, -, hsum, hstart⟩ := capture_start hres hnow
  rw [rxEvents, hsum]
  exact phasesFrom_spans hres now.toNat_lt hstart

/-- One by one, the events start near the exact times of the low phases. -/
theorem rxEvents_near : List.Forall₂ (fun x e => e.durationUs.toNat = phaseUs res x.1 ∧
      |(e.timestampUs.toNat : ℚ) - (now.toNat - ((x.1 :: x.2).map (exactUs res)).sum)|
        ≤ (x.1 :: x.2).length * (1 / 2))
    (lowPhases res symbols) (rxEvents res now symbols) := by
  have heach : List.Forall₂ (fun x e => x ∈ Backdating.withRest (phaseList symbols) ∧
      (Backdating.start (phaseUs res) now.toNat x, phaseUs res x.1) = BlockageEvent.span e)
      (lowPhases res symbols) (rxEvents res now symbols) := by
    have heq : List.Forall₂ (· = ·)
        ((lowPhases res symbols).map
          fun x => (Backdating.start (phaseUs res) now.toNat x, phaseUs res x.1))
        ((rxEvents res now symbols).map BlockageEvent.span) := by
      rw [List.forall₂_eq_eq_eq]
      exact (rxEvents_spans hres hnow).symm
    exact (List.forall₂_and_left _ _).mpr
      ⟨fun x hx => List.mem_of_mem_filter hx,
        List.forall₂_map_right_iff.mp (List.forall₂_map_left_iff.mp heq)⟩
  refine heach.imp ?_
  rintro x e ⟨hx, hspan⟩
  obtain ⟨htime, hduration⟩ := Prod.mk.inj hspan
  refine ⟨hduration.symm, ?_⟩
  have hle := (Backdating.total_le_of_suffix (d := phaseUs res)
    (Backdating.suffix_of_mem_withRest hx)).trans hnow
  have herror := Backdating.abs_total_sub_le (x.1 :: x.2)
    (fun p _ => abs_phaseUs_sub_le hres p)
  rw [← htime, Backdating.start, Nat.cast_sub hle, abs_sub_comm]
  refine le_trans (le_of_eq (congrArg abs ?_)) herror
  ring

/-- No event starts before the end of an earlier one. -/
theorem rxEvents_pairwise : (rxEvents res now symbols).Pairwise fun e f =>
    e.timestampUs.toNat + e.durationUs.toNat ≤ f.timestampUs.toNat := by
  have hpairs : (lowPhases res symbols).Pairwise fun x y =>
      Backdating.start (phaseUs res) now.toNat x + phaseUs res x.1
        ≤ Backdating.start (phaseUs res) now.toNat y :=
    (Backdating.pairwise_start hnow).sublist List.filter_sublist
  have hmap := (List.pairwise_map (l := lowPhases res symbols)
    (f := fun x => (Backdating.start (phaseUs res) now.toNat x, phaseUs res x.1))
    (R := fun a b : ℕ × ℕ => a.1 + a.2 ≤ b.1)).mpr hpairs
  rw [← rxEvents_spans hres hnow] at hmap
  exact List.pairwise_map.mp hmap

/-- No event ends after the callback. -/
theorem rxEvents_end_le : ∀ e ∈ rxEvents res now symbols,
    e.timestampUs.toNat + e.durationUs.toNat ≤ now.toNat := by
  intro e he
  have hspan : e.span ∈ (rxEvents res now symbols).map BlockageEvent.span :=
    List.mem_map_of_mem he
  rw [rxEvents_spans hres hnow] at hspan
  obtain ⟨x, hx, hxe⟩ := List.mem_map.mp hspan
  obtain ⟨htime, hduration⟩ := Prod.mk.inj hxe
  rw [← htime, ← hduration]
  exact Backdating.end_le hnow (List.mem_of_mem_filter hx)

end

/-- For every resolution that the configuration admits and every capture that began
after zero: no operation overflows, the cursor comes back to the time of the callback,
the events are the low phases of non-zero rounded duration in order, each starts
within half a microsecond for each phase from its own on of the exact time, and none
starts before the end of an earlier one or ends after the callback. -/
theorem rxEvents_consistent (res : UInt32) (now : UInt64) (symbols : List RmtSymbol)
    (hlow : 200000 ≤ res.toNat) (hhigh : res.toNat ≤ 80000000)
    (hnow : ((phaseList symbols).map (phaseUs res)).sum ≤ now.toNat) :
    checkedRxDone res now symbols = some (rxEvents res now symbols, now) ∧
      List.Forall₂ (fun x e => e.durationUs.toNat = phaseUs res x.1 ∧
          |(e.timestampUs.toNat : ℚ) - (now.toNat - ((x.1 :: x.2).map (exactUs res)).sum)|
            ≤ (x.1 :: x.2).length * (1 / 2))
        (lowPhases res symbols) (rxEvents res now symbols) ∧
      (rxEvents res now symbols).Pairwise (fun e f =>
        e.timestampUs.toNat + e.durationUs.toNat ≤ f.timestampUs.toNat) ∧
      ∀ e ∈ rxEvents res now symbols, e.timestampUs.toNat + e.durationUs.toNat ≤ now.toNat := by
  have hres : Admitted res := ⟨hlow, hhigh⟩
  exact ⟨checkedRxDone_eq hres hnow, rxEvents_near hres hnow, rxEvents_pairwise hres hnow,
    rxEvents_end_le hres hnow⟩

/-- Three symbols at a resolution of 3 MHz: a blockage, a symbol with two low phases, the second
of which is rounded away, and one with the low phase second. -/
def threeSymbols : List RmtSymbol :=
  [{ duration0 := 400, level0 := false, duration1 := 1400, level1 := true },
    { duration0 := 500, level0 := false, duration1 := 1, level1 := false },
    { duration0 := 1000, level0 := true, duration1 := 301, level1 := false }]

theorem rxEvents_consistent_three :
    checkedRxDone 3000000 5000 threeSymbols
      = some ([{ timestampUs := 3800, durationUs := 133 },
        { timestampUs := 4400, durationUs := 167 },
        { timestampUs := 4900, durationUs := 100 }], 5000) :=
  (rxEvents_consistent 3000000 5000 threeSymbols (by decide) (by decide) (by decide)).1

end SpokeSensor
