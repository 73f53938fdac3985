import SpokeSensor.Can.Mcp2515

/-!
# Bringing the MCP2515 up (`ir_spoke_can_mcp2515_adapter.c`)

`ir_spoke_can_mcp2515_start` resets the controller, sets the bit timing and the interrupt mask,
asks for normal mode and reads back the mode. Every transfer may fail, and in between the
controller acts by itself: it may complete a transmission that was left from before, and it takes
up a requested mode some time after the request.

- `mcp2515Start`: the program of five transfers; `start_result_iff` says when it returns `0`.
- `CanDevice`: the controller, for the packets that the adapter sends and nothing else.
- `Stage`: until the request of normal mode the controller stays in configuration mode, where the
  bit timing can be written.
- `start_ready`: whatever the controller held at power-up, a start that returns `0` leaves it in
  normal mode at 500 kbit/s, with nothing to send.
- `frames_after_start`: what `send_frame` accepts from then on is what is transmitted. That the
  transmit buffer is free at the beginning is not assumed of the controller, but comes from its
  reset.
-/

namespace SpokeSensor

open Interaction (Prog)

/-- `IR_SPOKE_CAN_OSCILLATOR_HZ` -/
abbrev canOscillatorHz : ℕ := 16000000
/-- `IR_SPOKE_CAN_BITRATE_HZ` -/
abbrev canBitrateHz : ℕ := 500000

namespace Mcp2515

/-- The codes that a start uses besides (`ir_spoke_can_mcp2515_adapter.c:12–22`) -/
def mcpReset : UInt8 := 0xC0
def mcpBitModify : UInt8 := 0x05
def mcpCanstat : UInt8 := 0x0E
def mcpCanctrl : UInt8 := 0x0F
def mcpCnf3 : UInt8 := 0x28
def mcpCaninte : UInt8 := 0x2B

/-- `bit_modify` -/
def bitModify (address mask value : UInt8) : Spi Bool := do
  let rx ← transfer [mcpBitModify, address, mask, value]
  return rx.isSome

/-- What `ir_spoke_can_mcp2515_start` is given, and what the SPI driver answers. -/
structure StartCall where
  /-- `transport` is not null -/
  transport : Bool
  /-- `spi_bus_initialize` returns `ESP_OK` -/
  busInitialized : Bool
  /-- `spi_bus_add_device` returns `ESP_OK` -/
  deviceAdded : Bool
  deriving DecidableEq, Repr

/-- `timing` -/
def timing : List UInt8 := [0x04, 0xA4, 0x00]

/-- The end of the start: `*transport` is set just before `0` is returned. -/
def checkMode : Spi (Option ℤ) := do
  match ← readRegister mcpCanstat with
  | none => return none
  | some status => return if status &&& 0xE0 ≠ 0 then some (-3) else some 0

/-- The start from the request of normal mode on. -/
def requestNormalMode : Spi (Option ℤ) := do
  let ok ← bitModify mcpCanctrl 0xE0 0x00
  if ok = false then return none
  checkMode

/-- The start from the interrupt mask on. -/
def maskInterrupts : Spi (Option ℤ) := do
  let ok ← writeRegisters mcpCaninte [0x00]
  if ok = false then return none
  requestNormalMode

/-- The start from the bit timing on. -/
def setTiming : Spi (Option ℤ) := do
  let ok ← writeRegisters mcpCnf3 timing
  if ok = false then return none
  maskInterrupts

/-- The start from the reset on. -/
def resetController : Spi (Option ℤ) := do
  let ok ← command mcpReset
  if ok = false then return none
  setTiming

/-- `ir_spoke_can_mcp2515_start`; `none` is what the driver reports, never `0`. -/
def mcp2515Start (c : StartCall) : Spi (Option ℤ) :=
  if c.transport = false then return some (-1)
  else if canOscillatorHz ≠ 16000000 ∨ canBitrateHz ≠ 500000 then return some (-2)
  else if c.busInitialized = false then return none
  else if c.deviceAdded = false then return none
  else resetController

/-! ## The bit timing

The three bytes of CNF3, CNF2 and CNF1 (`ir_spoke_can_mcp2515_adapter.c:132–136`), and
what they say of a bit: its quanta, its rate at the oscillator of the board, and where
in it the level is sampled.
-/

/-- The fields of CNF1, CNF2 and CNF3 that make up a bit. -/
structure BitTiming where
  prescaler : ℕ
  propagation : ℕ
  phase1 : ℕ
  phase2 : ℕ

/-- The registers hold each field less one. -/
def decodeTiming (cnf1 cnf2 cnf3 : UInt8) : BitTiming where
  prescaler := (cnf1 &&& 0x3F).toNat + 1
  propagation := (cnf2 &&& 0x07).toNat + 1
  phase1 := (cnf2 >>> 3 &&& 0x07).toNat + 1
  phase2 := (cnf3 &&& 0x07).toNat + 1

namespace BitTiming

/-- The time quanta of a bit, with the one for synchronisation. -/
def quanta (t : BitTiming) : ℕ := 1 + t.propagation + t.phase1 + t.phase2

/-- A time quantum is two periods of the prescaled oscillator. -/
def bitRateHz (t : BitTiming) (oscillatorHz : ℕ) : ℚ :=
  oscillatorHz / (2 * t.prescaler * t.quanta)

/-- The place of the sample within the bit. -/
def samplePoint (t : BitTiming) : ℚ := (1 + t.propagation + t.phase1) / t.quanta

end BitTiming

/-- The registers that the adapter relies on: the mode, its request, the configuration and
transmit buffer 0. -/
def Kept (b : UInt8) : Prop :=
  b = 0x0E ∨ b = 0x0F ∨ 0x28 ≤ b ∧ b ≤ 0x2B ∨ 0x30 ≤ b ∧ b ≤ 0x3D

/-- Of CANSTAT only the mode is stable. -/
def stable (reg : UInt8 → UInt8) (b : UInt8) : UInt8 := if b = 0x0E then reg b &&& 0xE0 else reg b

theorem stable_of_ne {reg : UInt8 → UInt8} {b : UInt8} (h : b ≠ 0x0E) : stable reg b = reg b :=
  if_neg h

end Mcp2515

open Mcp2515

/-- A register that a start or `send_frame` reads. -/
def ReadBack (a : UInt8) : Prop := a = 0x0E ∨ a = 0x30

/-- What the adapter relies on from power-up on. `settle` takes up the requested mode. Only the
transfers are described that the adapter makes: the two reads, the writes of the bit timing and of
the interrupt mask in configuration mode, the request of normal mode, and what `send_frame` does.
In the values that are written the bits that the chip does not implement are zero. -/
structure CanDevice where
  State : Type
  reg : State → UInt8 → UInt8
  exchange : State → List UInt8 → State × List UInt8
  complete : State → State
  settle : State → State
  read_value : ∀ s a, ReadBack a → (exchange s [0x03, a, 0]).2[2]? = some (reg s a)
  read_keeps : ∀ s a b, ReadBack a → Kept b →
    stable (reg (exchange s [0x03, a, 0]).1) b = stable (reg s) b
  write_payload : ∀ s frame b, Valid frame → reg s 0x30 &&& 0x08 = 0 → 0x30 ≤ b → b ≤ 0x3D →
    reg (exchange s (0x02 :: 0x31 :: payload frame)).1 b = written (reg s) 0x31 (payload frame) b
  write_timing : ∀ s b, Kept b → reg s 0x0E &&& 0xE0 = 0x80 →
    stable (reg (exchange s (0x02 :: 0x28 :: timing)).1) b = stable (written (reg s) 0x28 timing) b
  write_mask : ∀ s b, Kept b → reg s 0x0E &&& 0xE0 = 0x80 →
    stable (reg (exchange s [0x02, 0x2B, 0x00]).1) b = stable (written (reg s) 0x2B [0x00]) b
  modify_request : ∀ s, reg (exchange s [0x05, 0x0F, 0xE0, 0x00]).1 0x0F &&& 0xE0 = 0
  modify_keeps : ∀ s b, Kept b → b ≠ 0x0F →
    stable (reg (exchange s [0x05, 0x0F, 0xE0, 0x00]).1) b = stable (reg s) b
  rts_requests : ∀ s, reg (exchange s [0x81]).1 0x30 &&& 0x08 ≠ 0
  rts_keeps : ∀ s b, 0x31 ≤ b → b ≤ 0x3D → reg (exchange s [0x81]).1 b = reg s b
  reset_idle : ∀ s, reg (exchange s [0xC0]).1 0x30 &&& 0x08 = 0
  reset_mode : ∀ s, reg (exchange s [0xC0]).1 0x0E &&& 0xE0 = 0x80
  reset_request : ∀ s, reg (exchange s [0xC0]).1 0x0F &&& 0xE0 = 0x80
  complete_clears : ∀ s, reg (complete s) 0x30 &&& 0x08 = 0
  complete_keeps : ∀ s b, Kept b → b ≠ 0x30 → stable (reg (complete s)) b = stable (reg s) b
  settle_mode : ∀ s, reg (settle s) 0x0E &&& 0xE0 = reg s 0x0F &&& 0xE0
  settle_keeps : ∀ s b, Kept b → b ≠ 0x0E → reg (settle s) b = reg s b

/-- What the controller does by itself. -/
inductive DeviceAct where
  | complete
  | settle
  deriving DecidableEq, Repr

namespace CanDevice

variable (D : CanDevice)

/-- The controller and what it has put on the bus. -/
structure World where
  controller : D.State
  bus : List CanMessage

/-- Transfers succeed or fail; a requested transmission is completed and a requested mode is
taken up at some time. -/
def spi : Interaction.World D.World (List UInt8) (Option (List UInt8)) Bool DeviceAct where
  answer w tx ok :=
    if ok then ({ w with controller := (D.exchange w.controller tx).1 },
      some (D.exchange w.controller tx).2)
    else (w, none)
  act w
    | .complete =>
      if D.reg w.controller 0x30 &&& 0x08 ≠ 0 then
        some { controller := D.complete w.controller
               bus := w.bus ++ [decodeBuffer (D.reg w.controller)] }
      else none
    | .settle => some { w with controller := D.settle w.controller }

/-- Starts, one after the other, from any state at power-up. -/
def system (boot : D.World) : Transition.System
    (Interaction.Session D.World (List UInt8) (Option (List UInt8)) (Option ℤ) StartCall)
    (Interaction.Label StartCall Bool DeviceAct) :=
  Interaction.system D.spi mcp2515Start boot

/-- The controller as `send_frame` finds it in a state in which nothing is to be sent. -/
def toController (start : D.State) (hidle : D.reg start 0x30 &&& 0x08 = 0) : CanController where
  State := D.State
  reg := D.reg
  exchange := D.exchange
  complete := D.complete
  start := start
  start_idle := hidle
  read_value s := D.read_value s 0x30 (.inr rfl)
  read_keeps s b hlo hhi := by
    have hne : b ≠ 0x0E := by
      rintro rfl
      exact absurd hlo (by decide)
    have hkept := D.read_keeps s 0x30 b (.inr rfl) (.inr (.inr (.inr ⟨hlo, hhi⟩)))
    rwa [stable_of_ne hne, stable_of_ne hne] at hkept
  write_payload := D.write_payload
  rts_requests := D.rts_requests
  rts_keeps := D.rts_keeps
  complete_clears := D.complete_clears

/-- The bit timing that the controller works with. -/
def bitTiming (s : D.State) : BitTiming :=
  decodeTiming (D.reg s 0x2A) (D.reg s 0x29) (D.reg s 0x28)

/-- The bit timing is set and nothing is to be sent. Both last: no later transfer
writes these registers until `send_frame` is called. -/
structure Timed (s : D.State) : Prop where
  cnf3 : D.reg s 0x28 = 0x04
  cnf2 : D.reg s 0x29 = 0xA4
  cnf1 : D.reg s 0x2A = 0x00
  idle : D.reg s 0x30 &&& 0x08 = 0

/-- Configured and in normal mode. -/
structure Ready (s : D.State) : Prop extends D.Timed s where
  caninte : D.reg s 0x2B = 0x00
  request : D.reg s 0x0F &&& 0xE0 = 0
  mode : D.reg s 0x0E &&& 0xE0 = 0

/-- How far a start has come (`ir_spoke_can_mcp2515_adapter.c:129–154`). Until the
request of normal mode (141–143) the controller stays in configuration mode, where the
bit timing can be written; after it the mode may be taken up at any time, and the read
of CANSTAT (147) tells whether it has been. -/
inductive Stage (c : StartCall) : Spi (Option ℤ) → D.State → Prop
  | start {s : D.State} : Stage c (mcp2515Start c) s
  | timing {s : D.State} (hidle : D.reg s 0x30 &&& 0x08 = 0)
      (hrequest : D.reg s 0x0F &&& 0xE0 = 0x80) (hmode : D.reg s 0x0E &&& 0xE0 = 0x80) :
      Stage c setTiming s
  | interrupts {s : D.State} (htimed : D.Timed s) (hrequest : D.reg s 0x0F &&& 0xE0 = 0x80)
      (hmode : D.reg s 0x0E &&& 0xE0 = 0x80) : Stage c maskInterrupts s
  | normal {s : D.State} (htimed : D.Timed s) (hcaninte : D.reg s 0x2B = 0x00) :
      Stage c requestNormalMode s
  | check {s : D.State} (htimed : D.Timed s) (hcaninte : D.reg s 0x2B = 0x00)
      (hrequest : D.reg s 0x0F &&& 0xE0 = 0) : Stage c checkMode s
  | ready {s : D.State} (h : D.Ready s) : Stage c (.done (some 0)) s
  | failed {s : D.State} {r : Option ℤ} (hr : r ≠ some 0) : Stage c (.done r) s

end CanDevice

namespace Mcp2515

/-! ## The program

A start as a program of transfers, with an equation for each part, in the order in
which they are run (`ir_spoke_can_mcp2515_adapter.c:129–154`). Each part goes on to
the next one unless its transfer fails.
-/

theorem resetController_eq :
    resetController = .ask [0xC0] fun rx =>
      if rx.isSome = false then .done none else setTiming := rfl

theorem setTiming_eq :
    setTiming = .ask [0x02, 0x28, 0x04, 0xA4, 0x00] fun rx =>
      if rx.isSome = false then .done none else maskInterrupts := rfl

theorem maskInterrupts_eq :
    maskInterrupts = .ask [0x02, 0x2B, 0x00] fun rx =>
      if rx.isSome = false then .done none else requestNormalMode := rfl

theorem requestNormalMode_eq :
    requestNormalMode = .ask [0x05, 0x0F, 0xE0, 0x00] fun rx =>
      if rx.isSome = false then .done none else checkMode := rfl

theorem checkMode_eq :
    checkMode = .ask [0x03, 0x0E, 0x00] fun rx =>
      match rx.map fun rx => rx[2]?.getD 0 with
      | none => .done none
      | some status => .done (if status &&& 0xE0 ≠ 0 then some (-3) else some 0) := rfl

/-- The arguments and the answers of the driver with which the controller is reached. -/
def StartCall.Reaches (c : StartCall) : Prop :=
  c.transport = true ∧ c.busInitialized = true ∧ c.deviceAdded = true

instance (c : StartCall) : Decidable c.Reaches := by
  unfold StartCall.Reaches; infer_instance

/-- A start fails before its first transfer, or makes the reset. -/
theorem mcp2515Start_cases (c : StartCall) :
    (¬ c.Reaches ∧ ∃ r, r ≠ some 0 ∧ mcp2515Start c = .done r) ∨
      (c.Reaches ∧ mcp2515Start c = resetController) := by
  have htiming : ¬ (canOscillatorHz ≠ 16000000 ∨ canBitrateHz ≠ 500000) := by decide
  rw [mcp2515Start, if_neg htiming]
  by_cases htransport : c.transport = false
  · rw [if_pos htransport]
    exact .inl ⟨fun h => Bool.false_ne_true (htransport.symm.trans h.1), some (-1), by decide, rfl⟩
  rw [if_neg htransport]
  by_cases hbus : c.busInitialized = false
  · rw [if_pos hbus]
    exact .inl ⟨fun h => Bool.false_ne_true (hbus.symm.trans h.2.1), none, by decide, rfl⟩
  rw [if_neg hbus]
  by_cases hdevice : c.deviceAdded = false
  · rw [if_pos hdevice]
    exact .inl ⟨fun h => Bool.false_ne_true (hdevice.symm.trans h.2.2), none, by decide, rfl⟩
  rw [if_neg hdevice]
  exact .inr ⟨⟨by simpa using htransport, by simpa using hbus, by simpa using hdevice⟩, rfl⟩

/-- The transfers of a start that get these answers, with the result if they are all. -/
def replay {A : Type} : Spi A → List (Option (List UInt8)) → List (List UInt8) × Option A
  | .done a, [] => ([], some a)
  | .done _, _ :: _ => ([], none)
  | .ask _ _, [] => ([], none)
  | .ask tx next, rx :: rxs =>
    let rest := replay (next rx) rxs
    (tx :: rest.1, rest.2)

/-- The five packets of a start. -/
def startPackets : List (List UInt8) :=
  [[0xC0], [0x02, 0x28, 0x04, 0xA4, 0x00], [0x02, 0x2B, 0x00], [0x05, 0x0F, 0xE0, 0x00],
    [0x03, 0x0E, 0x00]]

/-- A transfer that must succeed. -/
theorem replay_check (tx : List UInt8) (rest : Spi (Option ℤ)) (rxs : List (Option (List UInt8))) :
    (replay (.ask tx fun rx => if rx.isSome = false then .done none else rest) rxs).2
        = some (some 0) ↔
      ∃ rx rxs', rxs = some rx :: rxs' ∧ (replay rest rxs').2 = some (some 0) := by
  cases rxs with
  | nil =>
    constructor
    · intro h
      cases h
    · rintro ⟨rx, rxs', ⟨⟩, -⟩
  | cons rx rxs =>
    cases rx with
    | none =>
      constructor
      · intro h
        cases rxs <;> cases h
      · rintro ⟨rx, rxs', ⟨⟩, -⟩
    | some rx =>
      constructor
      · exact fun h => ⟨rx, rxs, rfl, h⟩
      · rintro ⟨rx', rxs', heq, h⟩
        cases heq
        exact h

/-- A start returns `0` exactly if nothing fails and the mode that is read is normal. -/
theorem start_result_iff (c : StartCall) (rxs : List (Option (List UInt8))) :
    (replay (mcp2515Start c) rxs).2 = some (some 0) ↔
      c.Reaches ∧ ∃ r₁ r₂ r₃ r₄ r₅, rxs = [some r₁, some r₂, some r₃, some r₄, some r₅] ∧
        r₅[2]?.getD 0 &&& 0xE0 = 0 := by
  rcases mcp2515Start_cases c with ⟨hno, r, hr, heq⟩ | ⟨hreach, heq⟩ <;> rw [heq]
  · refine iff_of_false (fun h => ?_) fun h => hno h.1
    cases rxs with
    | nil => exact hr (Option.some.inj h)
    | cons rx rxs => cases h
  · have hcheck : ∀ rxs, (replay checkMode rxs).2 = some (some 0) ↔
        ∃ r₅, rxs = [some r₅] ∧ r₅[2]?.getD 0 &&& 0xE0 = 0 := by
      intro rxs
      rw [checkMode_eq]
      match rxs with
      | [] => exact iff_of_false (fun h => by cases h) (by rintro ⟨r₅, ⟨⟩, -⟩)
      | [none] => exact iff_of_false (fun h => by cases h) (by rintro ⟨r₅, ⟨⟩, -⟩)
      | none :: rx :: rxs => exact iff_of_false (fun h => by cases h) (by rintro ⟨r₅, ⟨⟩, -⟩)
      | some r :: rx :: rxs => exact iff_of_false (fun h => by cases h) (by rintro ⟨r₅, ⟨⟩, -⟩)
      | [some r] =>
        show some (if r[2]?.getD 0 &&& 0xE0 ≠ 0 then some (-3) else some 0) = some (some 0) ↔ _
        by_cases hmode : r[2]?.getD 0 &&& 0xE0 = 0
        · rw [if_neg (not_not.mpr hmode)]
          exact iff_of_true rfl ⟨r, rfl, hmode⟩
        · rw [if_pos hmode]
          refine iff_of_false (by decide) ?_
          rintro ⟨r₅, heq, hzero⟩
          cases heq
          exact hmode hzero
    rw [and_iff_right hreach, resetController_eq, replay_check]
    simp only [setTiming_eq, maskInterrupts_eq, requestNormalMode_eq, replay_check, hcheck]
    constructor
    · rintro ⟨r₁, _, rfl, r₂, _, rfl, r₃, _, rfl, r₄, _, rfl, r₅, rfl, hmode⟩
      exact ⟨r₁, r₂, r₃, r₄, r₅, rfl, hmode⟩
    · rintro ⟨r₁, r₂, r₃, r₄, r₅, rfl, hmode⟩
      exact ⟨r₁, _, rfl, r₂, _, rfl, r₃, _, rfl, r₄, _, rfl, r₅, rfl, hmode⟩

/-- The packets that are sent, as far as a start comes, are these five in this order. -/
theorem start_packets (c : StartCall) (rxs : List (Option (List UInt8))) :
    (replay (mcp2515Start c) rxs).1 <+: startPackets := by
  have hdone : ∀ (r : Option ℤ) rxs, (replay (.done r) rxs).1 = [] := by
    intro r rxs
    cases rxs <;> rfl
  have hcheck : ∀ tx (rest : Spi (Option ℤ)) (txs : List (List UInt8)) rxs,
      (∀ rxs, (replay rest rxs).1 <+: txs) →
      (replay (.ask tx fun rx => if rx.isSome = false then .done none else rest) rxs).1
        <+: tx :: txs := by
    intro tx rest txs rxs hrest
    cases rxs with
    | nil => exact List.nil_prefix
    | cons rx rxs =>
      refine (List.prefix_cons_inj tx).mpr ?_
      cases rx with
      | none => exact (hdone none rxs).symm ▸ List.nil_prefix
      | some rx => exact hrest rxs
  have hlast : ∀ rxs, (replay checkMode rxs).1 <+: [[0x03, 0x0E, 0x00]] := by
    intro rxs
    rw [checkMode_eq]
    cases rxs with
    | nil => exact List.nil_prefix
    | cons rx rxs =>
      refine (List.prefix_cons_inj _).mpr ?_
      cases rx with
      | none => exact (hdone none rxs).symm ▸ List.nil_prefix
      | some rx => exact (hdone _ rxs).symm ▸ List.nil_prefix
  rcases mcp2515Start_cases c with ⟨-, r, -, heq⟩ | ⟨-, heq⟩ <;> rw [heq]
  · rw [hdone]
    exact List.nil_prefix
  · exact hcheck _ _ _ _ fun rxs => hcheck _ _ _ rxs fun rxs => hcheck _ _ _ rxs
      fun rxs => hcheck _ _ _ rxs hlast

/-- 16 MHz oscillator, 500 kbit/s, 16 TQ/bit, 68.75% sample point. -/
theorem timing_values :
    let t := decodeTiming 0x00 0xA4 0x04
    t.quanta = 16 ∧ t.bitRateHz canOscillatorHz = canBitrateHz ∧ t.samplePoint = 6875 / 10000 := by
  have hquanta : (decodeTiming 0x00 0xA4 0x04).quanta = 16 := by decide
  refine ⟨hquanta, ?_, ?_⟩
  · rw [BitTiming.bitRateHz, hquanta]
    have hprescaler : (decodeTiming 0x00 0xA4 0x04).prescaler = 1 := by decide
    rw [hprescaler]
    norm_num
  · rw [BitTiming.samplePoint, hquanta]
    have hpropagation : (decodeTiming 0x00 0xA4 0x04).propagation = 5 := by decide
    have hphase : (decodeTiming 0x00 0xA4 0x04).phase1 = 5 := by decide
    rw [hpropagation, hphase]
    norm_num

end Mcp2515

namespace CanDevice

variable {D : CanDevice}

/-! ## What the controller keeps

What is assumed of the device is in `CanDevice`: only the registers that a start
writes, only with the values it writes to them, and that the device changes none of
them by itself except for the status. From that a finished start leaves the controller
ready.
-/

/-- Apart from the status register nothing is masked. -/
theorem reg_of_stable {s t : D.State} {b : UInt8} (hb : b ≠ 0x0E)
    (h : stable (D.reg t) b = stable (D.reg s) b) : D.reg t b = D.reg s b := by
  rwa [stable_of_ne hb, stable_of_ne hb] at h

theorem kept_ctrl : Kept 0x0F := .inr (.inl rfl)
theorem kept_stat : Kept 0x0E := .inl rfl
theorem kept_cnf3 : Kept 0x28 := by unfold Kept; decide
theorem kept_cnf2 : Kept 0x29 := by unfold Kept; decide
theorem kept_cnf1 : Kept 0x2A := by unfold Kept; decide
theorem kept_caninte : Kept 0x2B := by unfold Kept; decide
theorem kept_txb0ctrl : Kept 0x30 := by unfold Kept; decide

/-- The bit timing lasts as long as its registers are kept. -/
theorem Timed.of_kept {s t : D.State} (h : D.Timed s)
    (hkept : ∀ b, Kept b → b ≠ 0x0E → b ≠ 0x0F → D.reg t b = D.reg s b) : D.Timed t where
  cnf3 := (hkept 0x28 kept_cnf3 (by decide) (by decide)).trans h.cnf3
  cnf2 := (hkept 0x29 kept_cnf2 (by decide) (by decide)).trans h.cnf2
  cnf1 := (hkept 0x2A kept_cnf1 (by decide) (by decide)).trans h.cnf1
  idle := by rw [hkept 0x30 kept_txb0ctrl (by decide) (by decide)]; exact h.idle

/-- Taking up a requested mode changes nothing but the mode. -/
theorem Stage.settle {c : StartCall} {p : Spi (Option ℤ)} {s : D.State} (h : D.Stage c p s) :
    D.Stage c p (D.settle s) := by
  have hkept : ∀ b, Kept b → b ≠ 0x0E → b ≠ 0x0F → D.reg (D.settle s) b = D.reg s b :=
    fun b hb hne _ => D.settle_keeps s b hb hne
  have hctrl := D.settle_keeps s 0x0F kept_ctrl (by decide)
  have hcaninte := D.settle_keeps s 0x2B kept_caninte (by decide)
  cases h with
  | start => exact .start
  | timing hidle hrequest hmode =>
    have htx := D.settle_keeps s 0x30 kept_txb0ctrl (by decide)
    exact .timing (by rwa [htx]) (by rwa [hctrl]) (by rwa [D.settle_mode])
  | interrupts htimed hrequest hmode =>
    exact .interrupts (htimed.of_kept hkept) (by rwa [hctrl]) (by rwa [D.settle_mode])
  | normal htimed hi => exact .normal (htimed.of_kept hkept) (hcaninte.trans hi)
  | check htimed hi hrequest =>
    exact .check (htimed.of_kept hkept) (hcaninte.trans hi) (by rwa [hctrl])
  | ready h =>
    exact .ready {
      toTimed := h.toTimed.of_kept hkept
      caninte := hcaninte.trans h.caninte
      request := by rw [hctrl]; exact h.request
      mode := by rw [D.settle_mode]; exact h.request }
  | failed hr => exact .failed hr

/-- Once the controller has been reset there is nothing to be completed. -/
theorem Stage.act {c : StartCall} {p : Spi (Option ℤ)} {w v : D.World} {e : DeviceAct}
    (h : D.Stage c p w.controller) (hact : D.spi.act w e = some v) :
    D.Stage c p v.controller := by
  obtain ⟨s, bus⟩ := w
  cases e with
  | settle =>
    cases hact
    exact h.settle
  | complete =>
    obtain ⟨hreq, -⟩ := Option.ite_none_right_eq_some.mp hact
    cases h with
    | start => exact .start
    | timing hidle _ _ => exact absurd hidle hreq
    | interrupts htimed _ _ => exact absurd htimed.idle hreq
    | normal htimed _ => exact absurd htimed.idle hreq
    | check htimed _ _ => exact absurd htimed.idle hreq
    | ready h => exact absurd h.idle hreq
    | failed hr => exact .failed hr

section

variable {s : D.State}

/-- Writing the bit timing sets its registers. -/
theorem reg_timing (hmode : D.reg s 0x0E &&& 0xE0 = 0x80) {b : UInt8} (hb : Kept b)
    (hne : b ≠ 0x0E) :
    D.reg (D.exchange s (0x02 :: 0x28 :: timing)).1 b = written (D.reg s) 0x28 timing b := by
  have h := D.write_timing s b hb hmode
  rwa [stable_of_ne hne, stable_of_ne hne] at h

/-- Writing the interrupt mask sets its register. -/
theorem reg_mask (hmode : D.reg s 0x0E &&& 0xE0 = 0x80) {b : UInt8} (hb : Kept b)
    (hne : b ≠ 0x0E) :
    D.reg (D.exchange s [0x02, 0x2B, 0x00]).1 b = written (D.reg s) 0x2B [0x00] b := by
  have h := D.write_mask s b hb hmode
  rwa [stable_of_ne hne, stable_of_ne hne] at h

/-- The bit timing has been written. -/
theorem Timed.of_write (hidle : D.reg s 0x30 &&& 0x08 = 0) (hmode : D.reg s 0x0E &&& 0xE0 = 0x80) :
    D.Timed (D.exchange s (0x02 :: 0x28 :: timing)).1 where
  cnf3 := reg_timing hmode kept_cnf3 (by decide)
  cnf2 := reg_timing hmode kept_cnf2 (by decide)
  cnf1 := reg_timing hmode kept_cnf1 (by decide)
  idle := by rw [reg_timing hmode kept_txb0ctrl (by decide)]; exact hidle

/-- The interrupt mask lies above the bit timing and below the transmit buffer. -/
theorem Timed.mask (h : D.Timed s) (hmode : D.reg s 0x0E &&& 0xE0 = 0x80) :
    D.Timed (D.exchange s [0x02, 0x2B, 0x00]).1 where
  cnf3 := (reg_mask hmode kept_cnf3 (by decide)).trans h.cnf3
  cnf2 := (reg_mask hmode kept_cnf2 (by decide)).trans h.cnf2
  cnf1 := (reg_mask hmode kept_cnf1 (by decide)).trans h.cnf1
  idle := by rw [reg_mask hmode kept_txb0ctrl (by decide)]; exact h.idle

/-- The mode has been read, and it is what the controller keeps. -/
theorem Stage.checked {c : StartCall} (htimed : D.Timed s) (hcaninte : D.reg s 0x2B = 0x00)
    (hrequest : D.reg s 0x0F &&& 0xE0 = 0) :
    D.Stage c (.done (if (D.exchange s [0x03, 0x0E, 0x00]).2[2]?.getD 0 &&& 0xE0 ≠ 0
        then some (-3) else some 0)) (D.exchange s [0x03, 0x0E, 0x00]).1 := by
  have hreg : ∀ b, Kept b → b ≠ 0x0E →
      D.reg (D.exchange s [0x03, 0x0E, 0x00]).1 b = D.reg s b :=
    fun b hb hne => reg_of_stable hne (D.read_keeps s 0x0E b (.inl rfl) hb)
  have hvalue : (D.exchange s [0x03, 0x0E, 0x00]).2[2]?.getD 0 = D.reg s 0x0E := by
    rw [D.read_value s 0x0E (.inl rfl), Option.getD_some]
  rw [hvalue]
  by_cases hmode : D.reg s 0x0E &&& 0xE0 = 0
  · rw [if_neg (not_not.mpr hmode)]
    have hstays : D.reg (D.exchange s [0x03, 0x0E, 0x00]).1 0x0E &&& 0xE0
        = D.reg s 0x0E &&& 0xE0 := D.read_keeps s 0x0E 0x0E (.inl rfl) kept_stat
    exact .ready {
      toTimed := htimed.of_kept fun b hb hne _ => hreg b hb hne
      caninte := (hreg 0x2B kept_caninte (by decide)).trans hcaninte
      request := by rw [hreg 0x0F kept_ctrl (by decide)]; exact hrequest
      mode := hstays.trans hmode }
  · rw [if_pos hmode]
    exact .failed (by decide)

end

/-- One answer takes a start to its next stage. -/
theorem Stage.answer {c : StartCall} {q : List UInt8}
    {next : Option (List UInt8) → Spi (Option ℤ)} {w : D.World}
    (h : D.Stage c (.ask q next) w.controller) (ok : Bool) :
    D.Stage c (next (D.spi.answer w q ok).2) (D.spi.answer w q ok).1.controller := by
  obtain ⟨s, bus⟩ := w
  generalize hp : (Interaction.Prog.ask q next : Spi (Option ℤ)) = p at h
  have hfail : D.Stage c (.done none) s := .failed (by decide)
  cases h with
  | start =>
    rcases mcp2515Start_cases c with ⟨-, r, -, heq⟩ | ⟨-, heq⟩
    · rw [heq] at hp
      cases hp
    rw [heq, resetController_eq] at hp
    cases hp
    cases ok with
    | false => exact hfail
    | true => exact .timing (D.reset_idle s) (D.reset_request s) (D.reset_mode s)
  | timing hidle hrequest hmode =>
    rw [setTiming_eq] at hp
    cases hp
    cases ok with
    | false => exact hfail
    | true =>
      -- the mode registers lie below those that are written
      have hstat : D.reg (D.exchange s (0x02 :: 0x28 :: Mcp2515.timing)).1 0x0E &&& 0xE0
          = D.reg s 0x0E &&& 0xE0 := D.write_timing s 0x0E kept_stat hmode
      have hctrl : D.reg (D.exchange s (0x02 :: 0x28 :: Mcp2515.timing)).1 0x0F = D.reg s 0x0F :=
        reg_timing hmode kept_ctrl (by decide)
      exact .interrupts (.of_write hidle hmode) (hctrl ▸ hrequest) (hstat.trans hmode)
  | interrupts htimed hrequest hmode =>
    rw [maskInterrupts_eq] at hp
    cases hp
    cases ok with
    | false => exact hfail
    | true =>
      exact .normal (htimed.mask hmode) (reg_mask hmode kept_caninte (by decide))
  | normal htimed hcaninte =>
    rw [requestNormalMode_eq] at hp
    cases hp
    cases ok with
    | false => exact hfail
    | true =>
      have hreg : ∀ b, Kept b → b ≠ 0x0E → b ≠ 0x0F →
          D.reg (D.exchange s [0x05, 0x0F, 0xE0, 0x00]).1 b = D.reg s b :=
        fun b hb hne hne' => reg_of_stable hne (D.modify_keeps s b hb hne')
      exact .check (htimed.of_kept hreg)
        ((hreg 0x2B kept_caninte (by decide) (by decide)).trans hcaninte) (D.modify_request s)
  | check htimed hcaninte hrequest =>
    rw [checkMode_eq] at hp
    cases hp
    cases ok with
    | false => exact hfail
    | true => exact .checked htimed hcaninte hrequest
  | ready h => cases hp
  | failed hr => cases hp

/-! ## Runs

Starts one after the other, with transfers that fail and a device that acts in
between. How far a start has come is its stage; between starts the result of the last
one decides.
-/

/-- Between two starts the controller is ready if the last one has returned `0`. -/
def prepared (D : CanDevice) :
    Interaction.Assertion D.World (List UInt8) (Option (List UInt8)) (Option ℤ) StartCall where
  idle w rs := rs.getLast?.map Prod.snd = some (some 0) → D.Ready w.controller
  busy c p w _ := D.Stage c p w.controller

/-- What the device does by itself leaves it ready. -/
theorem Ready.act {w v : D.World} {e : DeviceAct} (h : D.Ready w.controller)
    (hact : D.spi.act w e = some v) : D.Ready v.controller := by
  have hstage : D.Stage ⟨true, true, true⟩ (.done (some 0)) v.controller :=
    Stage.act (.ready h) hact
  generalize hp : (Interaction.Prog.done (some 0) : Spi (Option ℤ)) = p at hstage
  cases hstage with
  | start => cases hp
  | timing => cases hp
  | interrupts => cases hp
  | normal => cases hp
  | check => cases hp
  | ready h => exact h
  | failed hr =>
    cases hp
    exact absurd rfl hr

/-- Each step of a start and of the device keeps its stage. -/
theorem prepared_stable : D.prepared.Stable D.spi mcp2515Start where
  call _ := .start
  answer ok h := h.answer ok
  ret := by
    intro c r w rs h hlast
    have hr : r = some 0 := by simpa using hlast
    subst hr
    generalize hp : (Interaction.Prog.done (some 0) : Spi (Option ℤ)) = p at h
    cases h with
    | start =>
      rcases mcp2515Start_cases c with ⟨-, r, hr, heq⟩ | ⟨-, heq⟩ <;> rw [heq] at hp <;> cases hp
      exact absurd rfl hr
    | timing => cases hp
    | interrupts => cases hp
    | normal => cases hp
    | check => cases hp
    | ready h => exact h
    | failed hr =>
      cases hp
      exact absurd rfl hr
  actIdle hact h hlast := (h hlast).act hact
  actBusy hact h := h.act hact

/-- By the run rule of `Interaction`. -/
theorem ready_run {boot : D.World} {ls : List (Interaction.Label StartCall Bool DeviceAct)}
    {s : Interaction.Session D.World (List UInt8) (Option (List UInt8)) (Option ℤ) StartCall}
    (hrun : (D.system boot).run ls = some s) (hidle : s.running = none)
    (hlast : s.results.getLast?.map Prod.snd = some (some 0)) : D.Ready s.world.controller := by
  have hboot : D.prepared.idle boot [] := fun h => by cases h
  have hholds := Interaction.invariant prepared_stable hboot hrun
  rw [Interaction.Assertion.Holds, hidle] at hholds
  exact hholds hlast

/-- From whatever state at power-up, whatever the controller does meanwhile and however many
starts were made before: if the last start has returned `0`, the controller is in normal mode,
configured for 16 TQ at the configured bit rate with the sample at 68.75 %, without interrupts
and with nothing to send. A start returns `0` exactly if its pointer is valid, the bus and the
device were set up, all five transfers succeed and the mode that is read back is normal. -/
theorem start_ready (D : CanDevice) {boot : D.World}
    {ls : List (Interaction.Label StartCall Bool DeviceAct)}
    {s : Interaction.Session D.World (List UInt8) (Option (List UInt8)) (Option ℤ) StartCall}
    (hrun : (D.system boot).run ls = some s) (hidle : s.running = none)
    (hlast : s.results.getLast?.map Prod.snd = some (some 0)) :
    D.Ready s.world.controller ∧
    (D.bitTiming s.world.controller).quanta = 16 ∧
    (D.bitTiming s.world.controller).bitRateHz canOscillatorHz = canBitrateHz ∧
    (D.bitTiming s.world.controller).samplePoint = 6875 / 10000 ∧
    ∀ c rxs, (replay (mcp2515Start c) rxs).1 <+: startPackets ∧
      ((replay (mcp2515Start c) rxs).2 = some (some 0) ↔
        c.Reaches ∧ ∃ r₁ r₂ r₃ r₄ r₅, rxs = [some r₁, some r₂, some r₃, some r₄, some r₅] ∧
          r₅[2]?.getD 0 &&& 0xE0 = 0) := by
  have hready := ready_run hrun hidle hlast
  have htiming : D.bitTiming s.world.controller = decodeTiming 0x00 0xA4 0x04 := by
    rw [bitTiming, hready.cnf3, hready.cnf2, hready.cnf1]
  rw [htiming]
  obtain ⟨hquanta, hrate, hsample⟩ := timing_values
  exact ⟨hready, hquanta, hrate, hsample,
    fun c rxs => ⟨start_packets c rxs, start_result_iff c rxs⟩⟩

/-- After a start that has returned `0`, what has been transmitted or is about to be are the
frames that `send_frame` has accepted since, in order, whatever the controller held at
power-up. -/
theorem frames_after_start (D : CanDevice) {boot : D.World}
    {ls : List (Interaction.Label StartCall Bool DeviceAct)}
    {s : Interaction.Session D.World (List UInt8) (Option (List UInt8)) (Option ℤ) StartCall}
    (hrun : (D.system boot).run ls = some s) (hidle : s.running = none)
    (hlast : s.results.getLast?.map Prod.snd = some (some 0)) :
    ∃ hfree : D.reg s.world.controller 0x30 &&& 0x08 = 0,
      ∀ ls' t, (D.toController s.world.controller hfree).system.run ls' = some t →
        t.world.bus ++ (D.toController s.world.controller hfree).pending t.world.controller
            = (accepted t.results ++ committed t.running).map message ∧
          ((D.toController s.world.controller hfree).pending t.world.controller).length ≤ 1 := by
  refine ⟨(ready_run hrun hidle hlast).idle, fun ls' t hsend => ?_⟩
  generalize hC : D.toController s.world.controller (ready_run hrun hidle hlast).idle = C at *
  have hstart : C.ledger.idle { controller := C.start, bus := [] } [] := by
    show [] ++ C.pending C.start = []
    rw [CanController.pending_of_idle (not_not.mpr C.start_idle)]
    rfl
  refine ⟨CanController.ledger_committed
    (Interaction.invariant CanController.ledger_stable hstart hsend), ?_⟩
  unfold CanController.pending
  split <;> simp

/-! ## A device of registers

A device that keeps what is written to it and takes up the mode that is requested: a
start on it, followed by frames, is run by evaluation.
-/

/-- The values after a reset: configuration mode, all else zero. -/
def resetRegisters (b : UInt8) : UInt8 := if b = 0x0F then 0x87 else if b = 0x0E then 0x80 else 0

/-- What a transfer does to plain registers and what it reads. -/
def respond (s : UInt8 → UInt8) : List UInt8 → (UInt8 → UInt8) × List UInt8
  | [] => (s, [])
  | [op] =>
    if op = 0xC0 then (resetRegisters, [])
    else if op = 0x81 then (fun b => if b = 0x30 then 0x08 else s b, [])
    else (s, [])
  | op :: a :: values =>
    if op = 0x03 then (s, [0, 0, s a])
    else if op = 0x02 then (written s a values, [])
    else if op = 0x05 then
      (fun b => if b = a then (s a &&& ~~~values[0]?.getD 0) |||
        (values[1]?.getD 0 &&& values[0]?.getD 0) else s b, [])
    else (s, [])

/-- The transmission has been made. -/
def transmitted (s : UInt8 → UInt8) (b : UInt8) : UInt8 := if b = 0x30 then 0 else s b

/-- Asking for the transmission touches only the control register of the buffer. -/
theorem respond_rts_keeps (s : UInt8 → UInt8) (b : UInt8) (hlo : 0x31 ≤ b) (_ : b ≤ 0x3D) :
    (respond s [0x81]).1 b = s b := by
  have hne : b ≠ 0x30 := by
    rintro rfl
    exact absurd hlo (by decide)
  exact if_neg hne

/-- The controller as a plain file of registers. -/
def registerDevice : CanDevice where
  State := UInt8 → UInt8
  reg s := s
  exchange := respond
  complete := transmitted
  settle s b := if b = 0x0E then s 0x0F &&& 0xE0 else s b
  read_value _ _ _ := rfl
  read_keeps _ _ _ _ _ := rfl
  write_payload _ _ _ _ _ _ _ := rfl
  write_timing _ _ _ _ := rfl
  write_mask _ _ _ _ := rfl
  modify_request s := by
    show ((s 0x0F &&& ~~~0xE0) ||| (0x00 &&& 0xE0)) &&& 0xE0 = 0
    rw [UInt8.zero_and, UInt8.or_zero, UInt8.and_assoc]
    exact UInt8.and_zero
  modify_keeps s b _ hne := by
    have hsame : (if b = 0x0F then (s 0x0F &&& ~~~0xE0) ||| (0x00 &&& 0xE0) else s b) = s b :=
      if_neg hne
    show stable (fun b => if b = 0x0F then (s 0x0F &&& ~~~0xE0) ||| (0x00 &&& 0xE0) else s b) b = _
    rw [stable, stable, hsame]
  rts_requests _ := by
    show (0x08 : UInt8) &&& 0x08 ≠ 0
    decide
  rts_keeps := respond_rts_keeps
  reset_idle _ := by
    show resetRegisters 0x30 &&& 0x08 = 0
    decide
  reset_mode _ := by
    show resetRegisters 0x0E &&& 0xE0 = 0x80
    decide
  reset_request _ := by
    show resetRegisters 0x0F &&& 0xE0 = 0x80
    decide
  complete_clears _ := by
    show (0 : UInt8) &&& 0x08 = 0
    decide
  complete_keeps s b _ hne := by
    have hsame : transmitted s b = s b := if_neg hne
    show stable (transmitted s) b = stable s b
    rw [stable, stable, hsame]
  settle_mode s := by
    show s 0x0F &&& 0xE0 &&& 0xE0 = s 0x0F &&& 0xE0
    rw [UInt8.and_assoc]
    rfl
  settle_keeps s b _ hne := if_neg hne

/-- Every register is set, so that a transmission is pending; it is completed while the
controller is being reached, and the new mode is taken up before it is read. -/
def powerUpRun : List (Interaction.Label StartCall Bool DeviceAct) :=
  [.call ⟨true, true, true⟩, .act .complete, .answer true, .answer true, .answer true,
    .answer true, .act .settle, .answer true, .ret]

/-- A start at power-up succeeds and leaves the device ready. -/
theorem powerUpRun_ready :
    ∃ s, (registerDevice.system { controller := fun _ => 0xFF, bus := [] }).run powerUpRun
        = some s ∧
      s.results = [(⟨true, true, true⟩, some 0)] ∧ registerDevice.Ready s.world.controller := by
  have hrun : (registerDevice.system { controller := fun _ => 0xFF, bus := [] }).run powerUpRun
      = some _ := rfl
  exact ⟨_, hrun, rfl, (start_ready registerDevice hrun rfl rfl).1⟩

/-- The registers after this run. -/
def poweredUp : UInt8 → UInt8 :=
  let reset := (registerDevice.exchange (registerDevice.complete fun _ => 0xFF) [0xC0]).1
  let timed := (registerDevice.exchange reset [0x02, 0x28, 0x04, 0xA4, 0x00]).1
  let masked := (registerDevice.exchange timed [0x02, 0x2B, 0x00]).1
  registerDevice.settle (registerDevice.exchange masked [0x05, 0x0F, 0xE0, 0x00]).1

theorem poweredUp_idle : registerDevice.reg poweredUp 0x30 &&& 0x08 = 0 := by decide +kernel

theorem powerUpRun_frames :
    ∃ s, (registerDevice.system { controller := fun _ => 0xFF, bus := [] }).run powerUpRun
        = some s ∧
      s.world.controller = poweredUp ∧
      ∃ t, (registerDevice.toController poweredUp poweredUp_idle).system.run
          CanController.telemetryRun = some t ∧
        t.world.bus
            ++ (registerDevice.toController poweredUp poweredUp_idle).pending t.world.controller
          = [message CanController.telemetryFrame] := by
  have hrun : (registerDevice.system { controller := fun _ => 0xFF, bus := [] }).run powerUpRun
      = some _ := rfl
  refine ⟨_, hrun, rfl, ?_⟩
  obtain ⟨_, hframes⟩ := frames_after_start registerDevice hrun rfl rfl
  have hsent : ((registerDevice.toController poweredUp poweredUp_idle).system.run
      CanController.telemetryRun).map (fun t => (t.results, t.running.isNone))
      = some ([(some CanController.telemetryFrame, 0), (some CanController.telemetryFrame, -4)],
        true) := by decide +kernel
  obtain ⟨t, hsend, hend⟩ := Option.map_eq_some_iff.mp hsent
  have hresults : t.results = _ := congrArg Prod.fst hend
  have hidle : t.running = none := Option.isNone_iff_eq_none.mp (congrArg Prod.snd hend)
  refine ⟨t, hsend, (hframes _ t hsend).1.trans ?_⟩
  rw [hresults, hidle]
  rfl

end CanDevice

end SpokeSensor
