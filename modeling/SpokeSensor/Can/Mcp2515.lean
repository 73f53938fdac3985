import SpokeSensor.Can.Publisher
import SpokeSensor.Lib.Interaction

/-!
# The MCP2515 adapter (`ir_spoke_can_mcp2515_adapter.c`)

- `sendFrame` (`send_frame`): a program of SPI transfers, each of which may fail: read TXREQ of
  transmit buffer 0, write the payload, request to send. A transfer that fails has no effect.
- `CanController`: of the controller only that buffer matters. What the three transfers do to its
  registers is assumed as the chip documents it, for the very packets that the adapter sends; and
  the controller may finish a requested transmission at any time between two transfers.
- `Stage`, `ledger`: how far a call has come, and that what is on the bus or requested is what has
  been accepted.
- `frames_on_bus`: over every sequence of calls, failures and completions, the bus and the pending
  buffer hold the frames for which `send_frame` returned `0`, in order.
-/

namespace SpokeSensor

open Interaction (Prog)

/-! ## The adapter

`send_frame` is a program over transfers: what it does next depends on what the bus
has answered, and each transfer may fail. Between two transfers the controller may
complete a transmission, so a program is not run at once but asks one question at a
time.
-/

namespace Mcp2515

/-- The codes of the controller that `send_frame` uses
(`ir_spoke_can_mcp2515_adapter.c:13–24`) -/
def mcpRead : UInt8 := 0x03
def mcpWrite : UInt8 := 0x02
def mcpRtsTx0 : UInt8 := 0x81
def mcpTxb0ctrl : UInt8 := 0x30
def mcpTxb0sidh : UInt8 := 0x31

/-- SPI transfers: the bytes out, and the bytes in unless the driver reports an error. -/
abbrev Spi (A : Type) := Prog (List UInt8) (Option (List UInt8)) A

/-- `transfer` -/
def transfer (tx : List UInt8) : Spi (Option (List UInt8)) := .request tx

/-- `command`: whether it returned `ESP_OK`. -/
def command (opcode : UInt8) : Spi Bool := do
  let rx ← transfer [opcode]
  return rx.isSome

/-- `write_registers` -/
def writeRegisters (address : UInt8) (values : List UInt8) : Spi Bool :=
  if 13 < values.length then return false
  else do
    let rx ← transfer (mcpWrite :: address :: values)
    return rx.isSome

/-- `read_register` -/
def readRegister (address : UInt8) : Spi (Option UInt8) := do
  let rx ← transfer [mcpRead, address, 0]
  return rx.map fun rx => rx[2]?.getD 0

/-- The `5 + length` bytes of `payload` that are written. -/
def payload (frame : CanFrame) : List UInt8 :=
  [(frame.identifier >>> 3).toUInt8, (frame.identifier <<< 5).toUInt8, 0, 0, frame.length]
    ++ frame.data.toList.take frame.length.toNat

/-- The end of `send_frame`. -/
def requestToSend : Spi ℤ := do
  let ok ← command mcpRtsTx0
  return if ok then 0 else -5

/-- `send_frame` once the buffer is known to be free. -/
def loadBuffer (frame : CanFrame) : Spi ℤ := do
  let ok ← writeRegisters mcpTxb0sidh (payload frame)
  if ok = false then return -4
  requestToSend

/-- `send_frame`; a null pointer is `none`. -/
def sendFrame : Option CanFrame → Spi ℤ
  | none => return -1
  | some frame =>
    if frame.length > 8 ∨ frame.identifier > 0x7FF then return -1
    else do
      match ← readRegister mcpTxb0ctrl with
      | none => return -2
      | some control => if control &&& 0x08 ≠ 0 then return -3 else loadBuffer frame

end Mcp2515

/-! ## The controller

An abstract controller with one transmit buffer: what the adapter relies on, and no
more. A write to the buffer is kept while no transmission is requested, the request is
made by `RTS`, and only the controller takes it back, when the message is on the bus.
-/

/-- A message on the bus. -/
structure CanMessage where
  identifier : ℕ
  extended : Bool
  remote : Bool
  length : ℕ
  data : List UInt8
  deriving DecidableEq, Repr

namespace Mcp2515

/-- The message that SIDH, SIDL, DLC and the data registers of the buffer hold. -/
def decodeBuffer (reg : UInt8 → UInt8) : CanMessage where
  identifier := (reg 0x31).toNat * 8 + (reg 0x32).toNat / 32
  extended := reg 0x32 &&& 0x08 ≠ 0
  remote := reg 0x35 &&& 0x40 ≠ 0
  length := (reg 0x35).toNat % 16
  data := (List.range (min ((reg 0x35).toNat % 16) 8)).map fun i => reg (0x36 + UInt8.ofNat i)

/-- The message that a frame stands for. -/
def message (frame : CanFrame) : CanMessage where
  identifier := frame.identifier.toNat
  extended := false
  remote := false
  length := frame.length.toNat
  data := frame.data.toList.take frame.length.toNat

/-- The check at the head of `send_frame`. -/
def Valid (frame : CanFrame) : Prop := frame.length ≤ 8 ∧ frame.identifier ≤ 0x7FF

/-- The registers after a sequential write: the address moves on by itself. -/
def written (reg : UInt8 → UInt8) (address : UInt8) (values : List UInt8) (b : UInt8) : UInt8 :=
  if address ≤ b then values[(b - address).toNat]?.getD (reg b) else reg b

end Mcp2515

open Mcp2515

/-- What the adapter relies on. `reg` are the registers, `exchange` is a transfer that
succeeds, `complete` ends a transmission, and `start` is the state that
`ir_spoke_can_mcp2515_start` leaves behind. Only the transfers are described that `send_frame`
makes: the read of TXB0CTRL, the write of the payload of a valid frame, in which the bits that
the chip does not implement are zero, while nothing is requested, and the request. -/
structure CanController where
  State : Type
  reg : State → UInt8 → UInt8
  exchange : State → List UInt8 → State × List UInt8
  complete : State → State
  start : State
  start_idle : reg start 0x30 &&& 0x08 = 0
  read_value : ∀ s, (exchange s [0x03, 0x30, 0]).2[2]? = some (reg s 0x30)
  read_keeps : ∀ s b, 0x30 ≤ b → b ≤ 0x3D → reg (exchange s [0x03, 0x30, 0]).1 b = reg s b
  write_payload : ∀ s frame b, Valid frame → reg s 0x30 &&& 0x08 = 0 → 0x30 ≤ b → b ≤ 0x3D →
    reg (exchange s (0x02 :: 0x31 :: payload frame)).1 b = written (reg s) 0x31 (payload frame) b
  rts_requests : ∀ s, reg (exchange s [0x81]).1 0x30 &&& 0x08 ≠ 0
  rts_keeps : ∀ s b, 0x31 ≤ b → b ≤ 0x3D → reg (exchange s [0x81]).1 b = reg s b
  complete_clears : ∀ s, reg (complete s) 0x30 &&& 0x08 = 0

namespace CanController

variable (C : CanController)

/-- A transmission is requested and not completed (TXREQ). -/
def Requested (s : C.State) : Prop := C.reg s 0x30 &&& 0x08 ≠ 0

instance (s : C.State) : Decidable (C.Requested s) := by
  unfold Requested; infer_instance

/-- The controller and what it has put on the bus. -/
structure World where
  controller : C.State
  bus : List CanMessage

/-- The message that is still to be transmitted. -/
def pending (s : C.State) : List CanMessage :=
  if C.Requested s then [decodeBuffer (C.reg s)] else []

/-- Transfers succeed or fail; a requested transmission completes at some time. -/
def spi : Interaction.World C.World (List UInt8) (Option (List UInt8)) Bool Unit where
  answer w tx ok :=
    if ok then ({ w with controller := (C.exchange w.controller tx).1 },
      some (C.exchange w.controller tx).2)
    else (w, none)
  act w _ :=
    if C.Requested w.controller then
      some { controller := C.complete w.controller
             bus := w.bus ++ [decodeBuffer (C.reg w.controller)] }
    else none

/-- Calls of `send_frame`, one after the other. -/
def system : Transition.System
    (Interaction.Session C.World (List UInt8) (Option (List UInt8)) ℤ (Option CanFrame))
    (Interaction.Label (Option CanFrame) Bool Unit) :=
  Interaction.system C.spi sendFrame { controller := C.start, bus := [] }

end CanController

namespace Mcp2515

/-- The frames for which `send_frame` has returned `0`. -/
def accepted (results : List (Option CanFrame × ℤ)) : List CanFrame :=
  results.filterMap fun r => if r.2 = 0 then r.1 else none

/-- The frame of a call that is about to return `0`. -/
def committed : Option (Option CanFrame × Spi ℤ) → List CanFrame
  | some (some frame, .done r) => if r = 0 then [frame] else []
  | _ => []

/-! ## What the buffer holds

The identifier is split over two registers, eight bits and three
(`ir_spoke_can_mcp2515_adapter.c:91–96`), so decoding what has been written gives the
frame back as long as the identifier has eleven bits.
-/

/-- The written cell number `k` from SIDH on. -/
theorem written_sidh (reg : UInt8 → UInt8) (values : List UInt8) {k : ℕ} (hk : k < 13) :
    written reg 0x31 values (0x31 + UInt8.ofNat k)
      = values[k]?.getD (reg (0x31 + UInt8.ofNat k)) := by
  have haddress : ∀ k < 13, (0x31 : UInt8) ≤ 0x31 + UInt8.ofNat k ∧
      (0x31 + UInt8.ofNat k - 0x31 : UInt8).toNat = k := by decide
  obtain ⟨hle, hsub⟩ := haddress k hk
  rw [written, if_pos hle, hsub]

/-- The control register is below the cells that are written. -/
theorem written_ctrl (reg : UInt8 → UInt8) (values : List UInt8) :
    written reg 0x31 values 0x30 = reg 0x30 :=
  if_neg (by decide)

/-- The lower three bits, at the top of their register. -/
theorem sidl_eq (id : UInt32) : (id <<< 5).toUInt8 = UInt8.ofNat (32 * (id.toNat % 8)) := by
  rw [← UInt8.toNat_inj, UInt32.toNat_toUInt8, UInt32.toNat_shiftLeft, Nat.shiftLeft_eq,
    UInt8.toNat_ofNat']
  show id.toNat * 32 % 2 ^ 32 % 256 = 32 * (id.toNat % 8) % 256
  omega

/-- Both parts together are the identifier. -/
theorem identifier_split {id : UInt32} (h : id ≤ 0x7FF) :
    (id >>> 3).toUInt8.toNat * 8 + (id <<< 5).toUInt8.toNat / 32 = id.toNat := by
  have hle : id.toNat ≤ 2047 := UInt32.le_iff_toNat_le.mp h
  have hhigh : (id >>> 3).toUInt8.toNat = id.toNat / 8 % 256 := by
    rw [UInt32.toNat_toUInt8, UInt32.toNat_shiftRight, Nat.shiftRight_eq_div_pow]
    rfl
  rw [hhigh, sidl_eq, UInt8.toNat_ofNat']
  omega

/-- A standard frame: the extension bit of SIDL is clear. -/
theorem sidl_standard (id : UInt32) : (id <<< 5).toUInt8 &&& 0x08 = 0 := by
  have hbits : ∀ m < 8, UInt8.ofNat (32 * m) &&& 0x08 = 0 := by decide
  rw [sidl_eq]
  exact hbits _ (Nat.mod_lt _ (by decide))

/-- A data frame: the remote bit of DLC is clear. -/
theorem dlc_data {n : UInt8} (h : n ≤ 8) : n &&& 0x40 = 0 := by
  have hbits : ∀ n ≤ 8, UInt8.ofNat n &&& 0x40 = 0 := by decide
  have := hbits n.toNat (UInt8.le_iff_toNat_le.mp h)
  rwa [UInt8.ofNat_toNat] at this

/-- Writing the payload makes the buffer hold the frame. -/
theorem decode_written {frame : CanFrame} (h : Valid frame) (reg : UInt8 → UInt8) :
    decodeBuffer (written reg 0x31 (payload frame)) = message frame := by
  obtain ⟨hlength, hid⟩ := h
  have hlen : frame.length.toNat ≤ 8 := UInt8.le_iff_toNat_le.mp hlength
  have hsidh : written reg 0x31 (payload frame) 0x31 = (frame.identifier >>> 3).toUInt8 :=
    written_sidh reg (payload frame) (k := 0) (by decide)
  have hsidl : written reg 0x31 (payload frame) 0x32 = (frame.identifier <<< 5).toUInt8 :=
    written_sidh reg (payload frame) (k := 1) (by decide)
  have hdlc : written reg 0x31 (payload frame) 0x35 = frame.length :=
    written_sidh reg (payload frame) (k := 4) (by decide)
  have hdata : (List.range (min (frame.length.toNat % 16) 8)).map
      (fun i => written reg 0x31 (payload frame) (0x36 + UInt8.ofNat i))
        = frame.data.toList.take frame.length.toNat := by
    have hmin : min (frame.length.toNat % 16) 8 = frame.length.toNat := by omega
    have hnext : ∀ i < 8, (0x36 + UInt8.ofNat i : UInt8) = 0x31 + UInt8.ofNat (5 + i) := by decide
    rw [hmin]
    refine List.ext_getElem (by simp [hlen]) fun i hi _ => ?_
    have hi : i < frame.length.toNat := by simpa using hi
    rw [List.getElem_map, List.getElem_range, hnext i (by omega),
      written_sidh _ _ (by omega), payload, List.getElem?_append_right (by simp)]
    simp [hi, hlen]
  rw [decodeBuffer, message, hsidh, hsidl, hdlc, hdata, identifier_split hid, sidl_standard,
    dlc_data hlength, Nat.mod_eq_of_lt (by omega)]
  rfl

end Mcp2515

/-! ## Runs

A run interleaves the transfers of the calls with what the controller does. The
account (`ledger`) is between what has been accepted and what is on the bus or
pending; in the course of a call it depends on how far the call has come.
-/

namespace CanController

variable {C : CanController}

/-- On the bus, or requested and next to come. -/
def World.sentOrPending (w : C.World) : List CanMessage := w.bus ++ C.pending w.controller

theorem pending_of_idle {s : C.State} (h : ¬ C.Requested s) : C.pending s = [] := if_neg h

theorem pending_of_requested {s : C.State} (h : C.Requested s) :
    C.pending s = [decodeBuffer (C.reg s)] := if_pos h

/-- The buffer is decoded from its registers alone. -/
theorem decodeBuffer_congr {g g' : UInt8 → UInt8} (h : ∀ b, 0x31 ≤ b → b ≤ 0x3D → g b = g' b) :
    decodeBuffer g = decodeBuffer g' := by
  have hdata : ∀ i < 8,
      (0x31 : UInt8) ≤ 0x36 + UInt8.ofNat i ∧ 0x36 + UInt8.ofNat i ≤ (0x3D : UInt8) := by
    decide
  rw [decodeBuffer, decodeBuffer, h 0x31 (by decide) (by decide), h 0x32 (by decide) (by decide),
    h 0x35 (by decide) (by decide)]
  congr 1
  refine List.map_congr_left fun i hi => ?_
  have hi : i < 8 := lt_of_lt_of_le (List.mem_range.mp hi) (min_le_right _ _)
  exact h _ (hdata i hi).1 (hdata i hi).2

/-- How far a call has come. `before` is what had been sent or was pending at its
start; from the check of TXREQ (`ir_spoke_can_mcp2515_adapter.c:88–89`) to the request
(100) the buffer is free, so nothing that the controller does by itself concerns it. -/
inductive Stage (frame : Option CanFrame) (before : List CanMessage) : Spi ℤ → C.World → Prop
  | start {w : C.World} (h : w.sentOrPending = before) : Stage frame before (sendFrame frame) w
  | load {w : C.World} {f : CanFrame} (hf : frame = some f) (hvalid : Valid f)
      (hfree : ¬ C.Requested w.controller) (h : w.sentOrPending = before) :
      Stage frame before (loadBuffer f) w
  | request {w : C.World} {f : CanFrame} (hf : frame = some f)
      (hfree : ¬ C.Requested w.controller) (hheld : decodeBuffer (C.reg w.controller) = message f)
      (h : w.sentOrPending = before) : Stage frame before requestToSend w
  | failed {w : C.World} {r : ℤ} (hr : r ≠ 0) (h : w.sentOrPending = before) :
      Stage frame before (.done r) w
  | sent {w : C.World} {f : CanFrame} (hf : frame = some f)
      (h : w.sentOrPending = before ++ [message f]) : Stage frame before (.done 0) w

/-- What has been sent or is pending is what has been accepted: of the idle adapter as
it is, and while a call is being run in terms of its stage. -/
def ledger (C : CanController) :
    Interaction.Assertion C.World (List UInt8) (Option (List UInt8)) ℤ (Option CanFrame) where
  idle w rs := w.sentOrPending = (accepted rs).map message
  busy f p w rs := Stage f ((accepted rs).map message) p w

/-- A frame that is missing, too long or with too long an identifier is refused before
any transfer. -/
theorem sendFrame_rejected {frame : Option CanFrame} (h : ∀ f, frame = some f → ¬ Valid f) :
    sendFrame frame = .done (-1) := by
  cases frame with
  | none => rfl
  | some f =>
    have hcheck : f.length > 8 ∨ f.identifier > 0x7FF := by
      by_contra hno
      obtain ⟨hlen, hid⟩ := not_or.mp hno
      exact h f rfl ⟨UInt8.not_lt.mp hlen, UInt32.not_lt.mp hid⟩
    rw [sendFrame, if_pos hcheck]
    rfl

/-- A call is over before it makes a transfer, or its first transfer reads TXREQ. -/
theorem sendFrame_cases (frame : Option CanFrame) :
    sendFrame frame = .done (-1) ∨
    ∃ f, frame = some f ∧ Valid f ∧
      sendFrame frame = .ask [0x03, 0x30, 0] fun rx =>
        match rx.map fun rx => rx[2]?.getD 0 with
        | none => .done (-2)
        | some control => if control &&& 0x08 ≠ 0 then .done (-3) else loadBuffer f := by
  by_cases hrej : ∀ f, frame = some f → ¬ Valid f
  · exact .inl (sendFrame_rejected hrej)
  · obtain ⟨f, hf⟩ := not_forall.mp hrej
    obtain ⟨rfl, hvalid⟩ := Classical.not_imp.mp hf
    have hvalid := not_not.mp hvalid
    have hcheck : ¬ (f.length > 8 ∨ f.identifier > 0x7FF) := by
      rw [not_or]
      exact ⟨UInt8.not_lt.mpr hvalid.1, UInt32.not_lt.mpr hvalid.2⟩
    refine .inr ⟨f, rfl, hvalid, ?_⟩
    rw [sendFrame, if_neg hcheck]
    rfl

theorem loadBuffer_eq (f : CanFrame) :
    loadBuffer f = .ask (0x02 :: 0x31 :: payload f) fun rx =>
      if rx.isSome = false then .done (-4) else requestToSend := by
  have hlen : ¬ 13 < (payload f).length := by
    simp [payload]
  rw [loadBuffer, writeRegisters, if_neg hlen]
  rfl

theorem requestToSend_eq :
    requestToSend = .ask [0x81] fun rx => .done (if rx.isSome then 0 else -5) := rfl

theorem ctrl_le_sidh : (0x30 : UInt8) ≤ 0x31 := by decide

/-- A read keeps what has been sent or is pending. -/
theorem sentOrPending_read (w : C.World) :
    ({ w with controller := (C.exchange w.controller [0x03, 0x30, 0]).1 } : C.World).sentOrPending
      = w.sentOrPending := by
  have hctrl := C.read_keeps w.controller 0x30 (by decide) (by decide)
  have hbuffer : decodeBuffer (C.reg (C.exchange w.controller [0x03, 0x30, 0]).1)
      = decodeBuffer (C.reg w.controller) :=
    decodeBuffer_congr fun b hlo hhi =>
      C.read_keeps w.controller b (UInt8.le_trans ctrl_le_sidh hlo) hhi
  simp only [World.sentOrPending, pending, Requested, hctrl, hbuffer]

/-- A completed transmission moves from the buffer to the bus. -/
theorem sentOrPending_act {w v : C.World} (h : C.spi.act w () = some v) :
    C.Requested w.controller ∧ v.sentOrPending = w.sentOrPending := by
  by_cases hreq : C.Requested w.controller
  · have hv : C.spi.act w () = some { controller := C.complete w.controller
                                      bus := w.bus ++ [decodeBuffer (C.reg w.controller)] } :=
      if_pos hreq
    cases hv.symm.trans h
    have hidle : ¬ C.Requested (C.complete w.controller) :=
      not_not.mpr (C.complete_clears w.controller)
    refine ⟨hreq, ?_⟩
    simp only [World.sentOrPending]
    rw [pending_of_idle hidle, pending_of_requested hreq, List.append_nil]
  · have hv : C.spi.act w () = none := if_neg hreq
    cases hv.symm.trans h

section

variable {frame : Option CanFrame} {f : CanFrame} {before : List CanMessage} {w : C.World}

/-- The control register has been read. -/
theorem Stage.checked (hvalid : Valid f) (h : w.sentOrPending = before) :
    Stage (some f) before
      (if (C.exchange w.controller [0x03, 0x30, 0]).2[2]?.getD 0 &&& 0x08 ≠ 0 then .done (-3)
        else loadBuffer f)
      { w with controller := (C.exchange w.controller [0x03, 0x30, 0]).1 } := by
  have hvalue : (C.exchange w.controller [0x03, 0x30, 0]).2[2]?.getD 0
      = C.reg w.controller 0x30 := by
    rw [C.read_value, Option.getD_some]
  have hctrl := C.read_keeps w.controller 0x30 (by decide) (by decide)
  have hkept : World.sentOrPending
      { w with controller := (C.exchange w.controller [0x03, 0x30, 0]).1 } = before :=
    (sentOrPending_read w).trans h
  by_cases hreq : (C.exchange w.controller [0x03, 0x30, 0]).2[2]?.getD 0 &&& 0x08 ≠ 0
  · rw [if_pos hreq]
    exact .failed (by decide) hkept
  · have hidle : ¬ C.Requested (C.exchange w.controller [0x03, 0x30, 0]).1 := by
      rwa [Requested, hctrl, ← hvalue]
    rw [if_neg hreq]
    exact .load rfl hvalid hidle hkept

/-- The free buffer has been written. -/
theorem Stage.loaded (hf : frame = some f) (hvalid : Valid f) (hfree : ¬ C.Requested w.controller)
    (h : w.sentOrPending = before) :
    Stage frame before requestToSend
      { w with controller := (C.exchange w.controller (0x02 :: 0x31 :: payload f)).1 } := by
  have hreg := fun b => C.write_payload w.controller f b hvalid (not_not.mp hfree)
  have hidle : ¬ C.Requested (C.exchange w.controller (0x02 :: 0x31 :: payload f)).1 := by
    rwa [Requested, hreg 0x30 (by decide) (by decide), written_ctrl]
  refine .request hf hidle ?_ ?_
  · rw [← decode_written hvalid (C.reg w.controller)]
    exact decodeBuffer_congr fun b hlo hhi => hreg b (UInt8.le_trans ctrl_le_sidh hlo) hhi
  · rw [← h]
    show w.bus ++ C.pending (C.exchange w.controller (0x02 :: 0x31 :: payload f)).1
      = w.bus ++ C.pending w.controller
    rw [pending_of_idle hidle, pending_of_idle hfree]

/-- The loaded buffer has been requested. -/
theorem Stage.requested (hf : frame = some f) (hfree : ¬ C.Requested w.controller)
    (hheld : decodeBuffer (C.reg w.controller) = message f) (h : w.sentOrPending = before) :
    Stage frame before (.done 0)
      { w with controller := (C.exchange w.controller [0x81]).1 } := by
  refine .sent hf ?_
  rw [← h, ← hheld]
  simp only [World.sentOrPending]
  rw [pending_of_idle hfree, List.append_nil, pending_of_requested (C.rts_requests w.controller)]
  congr 2
  exact decodeBuffer_congr (C.rts_keeps w.controller)

end

/-- One answer takes a call to its next stage. -/
theorem Stage.answer {frame : Option CanFrame} {before : List CanMessage} {q : List UInt8}
    {next : Option (List UInt8) → Spi ℤ} {w : C.World}
    (h : Stage frame before (.ask q next) w) (ok : Bool) :
    Stage frame before (next (C.spi.answer w q ok).2) (C.spi.answer w q ok).1 := by
  generalize hp : (Interaction.Prog.ask q next : Spi ℤ) = p at h
  cases h with
  | start h =>
    rcases sendFrame_cases frame with hrej | ⟨f, rfl, hvalid, hsend⟩
    · rw [hrej] at hp
      cases hp
    rw [hsend] at hp
    cases hp
    cases ok with
    | false => exact .failed (by decide) h
    | true => exact .checked hvalid h
  | load hf hvalid hfree h =>
    rw [loadBuffer_eq] at hp
    cases hp
    cases ok with
    | false => exact .failed (by decide) h
    | true => exact .loaded hf hvalid hfree h
  | request hf hfree hheld h =>
    rw [requestToSend_eq] at hp
    cases hp
    cases ok with
    | false => exact .failed (r := -5) (by decide) h
    | true => exact .requested hf hfree hheld h
  | failed hr h => cases hp
  | sent hf h => cases hp

/-- A transmission that completes in the course of a call moves a message from the
buffer to the bus, and the account is the same. -/
theorem Stage.act {frame : Option CanFrame} {before : List CanMessage} {p : Spi ℤ} {w v : C.World}
    (h : Stage frame before p w) (hact : C.spi.act w () = some v) : Stage frame before p v := by
  obtain ⟨hreq, hkept⟩ := sentOrPending_act hact
  cases h with
  | start h => exact .start (hkept.trans h)
  | load _ _ hfree _ => exact absurd hreq hfree
  | request _ hfree _ _ => exact absurd hreq hfree
  | failed hr h => exact .failed hr (hkept.trans h)
  | sent hf h => exact .sent hf (hkept.trans h)

theorem accepted_concat (rs : List (Option CanFrame × ℤ)) (frame : Option CanFrame) (r : ℤ) :
    accepted (rs ++ [(frame, r)]) = accepted rs ++ (if r = 0 then frame else none).toList := by
  rw [accepted, accepted, List.filterMap_append]
  by_cases hr : r = 0
  · cases frame <;> simp [hr]
  · simp [hr]

/-- The ledger is kept by every transfer, return and completion. -/
theorem ledger_stable : C.ledger.Stable C.spi sendFrame where
  call h := .start h
  answer ok h := h.answer ok
  ret := by
    intro frame r w rs h
    show w.sentOrPending = (accepted (rs ++ [(frame, r)])).map message
    rw [accepted_concat]
    generalize hp : (Interaction.Prog.done r : Spi ℤ) = p at h
    cases h with
    | start h =>
      -- a call that is over at its start has been rejected
      rcases sendFrame_cases frame with hrej | ⟨f, -, -, hsend⟩
      · rw [hrej] at hp
        cases hp
        rw [h, if_neg (by decide)]
        simp
      · rw [hsend] at hp
        cases hp
    | load =>
      rw [loadBuffer_eq] at hp
      cases hp
    | request => cases hp
    | failed hr h =>
      cases hp
      rw [if_neg hr, h]
      simp
    | sent hf h =>
      cases hp
      rw [if_pos rfl, hf, h]
      simp
  actIdle hact h := (sentOrPending_act hact).2.trans h
  actBusy hact h := h.act hact

/-- The ledger of a session, seen from outside. -/
theorem ledger_committed {s : Interaction.Session C.World (List UInt8) (Option (List UInt8)) ℤ
    (Option CanFrame)} (h : C.ledger.Holds s) :
    s.world.sentOrPending = (accepted s.results ++ committed s.running).map message := by
  obtain ⟨w, running, rs⟩ := s
  rw [List.map_append]
  cases running with
  | none =>
    have hidle : w.sentOrPending = (accepted rs).map message := h
    simpa [committed] using hidle
  | some call =>
    obtain ⟨frame, p⟩ := call
    cases (show Stage frame ((accepted rs).map message) p w from h) with
    | start hkept =>
      rcases sendFrame_cases frame with hrej | ⟨f, -, -, hsend⟩
      · cases frame <;> simpa [committed, hrej] using hkept
      · simpa [committed, hsend] using hkept
    | load _ _ _ hkept => simpa [committed, loadBuffer_eq] using hkept
    | request _ _ _ hkept => simpa [committed, requestToSend_eq] using hkept
    | failed hr hkept => cases frame <;> simpa [committed, hr] using hkept
    | sent hf hkept => simpa [committed, hf] using hkept

/-- While a transmission is requested nothing but its completion changes the buffer. -/
theorem buffer_kept {s t : Interaction.Session C.World (List UInt8) (Option (List UInt8)) ℤ
    (Option CanFrame)} (h : C.ledger.Holds s) {l : Interaction.Label (Option CanFrame) Bool Unit}
    (hstep : C.system.step s l = some t) (hreq : C.Requested s.world.controller)
    (hl : l ≠ .act ()) {b : UInt8} (hlo : 0x30 ≤ b) (hhi : b ≤ 0x3D) :
    C.reg t.world.controller b = C.reg s.world.controller b := by
  obtain ⟨w, running, rs⟩ := s
  cases l with
  | act e => exact absurd rfl hl
  | call c =>
    cases running with
    | none =>
      cases hstep
      rfl
    | some call => cases hstep
  | ret =>
    match running, hstep with
    | some (_, .done _), hstep =>
      cases hstep
      rfl
  | answer ok =>
    match running, hstep, h with
    | some (frame, .ask q next), hstep, h =>
      cases hstep
      generalize hp : (Interaction.Prog.ask q next : Spi ℤ) = p at h
      -- only the read of TXREQ is made with the request still set
      cases (show Stage frame ((accepted rs).map message) p w from h) with
      | start =>
        rcases sendFrame_cases frame with hrej | ⟨f, -, -, hsend⟩
        · rw [hrej] at hp
          cases hp
        · rw [hsend] at hp
          cases hp
          cases ok with
          | false => rfl
          | true => exact C.read_keeps w.controller b hlo hhi
      | load _ _ hfree _ => exact absurd hreq hfree
      | request _ hfree _ _ => exact absurd hreq hfree
      | failed => cases hp
      | sent => cases hp

/-- The adapter transmits exactly the frames that it accepts. At every moment of every
sequence of calls, whichever transfers fail and whenever the controller completes a
transmission, the messages on the bus and the one that is pending are those of the
frames for which `send_frame` has returned `0`, in order; a frame that is returned
with an error is never seen. -/
theorem frames_on_bus (C : CanController)
    {ls : List (Interaction.Label (Option CanFrame) Bool Unit)}
    {s : Interaction.Session C.World (List UInt8) (Option (List UInt8)) ℤ (Option CanFrame)}
    (hrun : C.system.run ls = some s) :
    s.world.bus ++ C.pending s.world.controller
      = (accepted s.results ++ committed s.running).map message ∧
    (C.pending s.world.controller).length ≤ 1 ∧
    (∀ l t, C.system.step s l = some t → C.Requested s.world.controller → l ≠ .act () →
      ∀ b, 0x30 ≤ b → b ≤ 0x3D → C.reg t.world.controller b = C.reg s.world.controller b) ∧
    ∀ frame : CanFrame, frame.identifier > 0x7FF ∨ frame.length > 8 →
      sendFrame (some frame) = .done (-1) := by
  have hstart : C.ledger.idle { controller := C.start, bus := [] } [] := by
    show [] ++ C.pending C.start = []
    rw [pending_of_idle (not_not.mpr C.start_idle)]
    rfl
  have hledger := Interaction.invariant ledger_stable hstart hrun
  refine ⟨ledger_committed hledger, ?_, fun l t hstep hreq hl b hlo hhi =>
    buffer_kept hledger hstep hreq hl hlo hhi, fun frame hbad => sendFrame_rejected ?_⟩
  · unfold pending
    split <;> simp
  · rintro f hf ⟨hlen, hid⟩
    cases hf
    rcases hbad with hid' | hlen'
    · exact absurd hid (UInt32.not_le.mpr hid')
    · exact absurd hlen (UInt8.not_le.mpr hlen')

/-! ## A file of registers

A controller that is a plain file of registers, on which a run with a failing transfer
is evaluated.
-/

/-- The transmit buffer as a plain file of registers. -/
def registerFile : CanController where
  State := UInt8 → UInt8
  reg s := s
  exchange s tx :=
    match tx with
    | op :: a :: values =>
      if op = 0x03 then (s, [0, 0, s a])
      else if op = 0x02 then (written s a values, [])
      else (s, [])
    | [op] => if op = 0x81 then (fun b => if b = 0x30 then 0x08 else s b, []) else (s, [])
    | [] => (s, [])
  complete s b := if b = 0x30 then 0 else s b
  start _ := 0
  start_idle := by decide
  read_value _ := rfl
  read_keeps _ _ _ _ := rfl
  write_payload _ _ _ _ _ _ _ := rfl
  rts_requests _ := by
    show (0x08 : UInt8) &&& 0x08 ≠ 0
    decide
  rts_keeps s b hlo _ := if_neg (by rintro rfl; exact absurd hlo (by decide))
  complete_clears _ := by
    show (0 : UInt8) &&& 0x08 = 0
    decide

/-- A frame of the telemetry. -/
def telemetryFrame : CanFrame where
  identifier := 0x180
  length := 8
  data := #v[25, 3, 0xE8, 0x03, 0x90, 0x01, 0x20, 0x03]

/-- The frame is accepted, and completed before `send_frame` returns; a second call finds
the buffer free and its write fails. -/
def telemetryRun : List (Interaction.Label (Option CanFrame) Bool Unit) :=
  [.call (some telemetryFrame), .answer true, .answer true, .answer true, .act (), .ret,
    .call (some telemetryFrame), .answer true, .answer false, .ret]

theorem telemetryFrame_on_bus :
    ∃ s, registerFile.system.run telemetryRun = some s ∧
      s.results = [(some telemetryFrame, 0), (some telemetryFrame, -4)] ∧
      s.world.bus ++ registerFile.pending s.world.controller
        = (accepted s.results ++ committed s.running).map message :=
  have hrun : registerFile.system.run telemetryRun = some _ := rfl
  ⟨_, hrun, rfl, (frames_on_bus registerFile hrun).1⟩

end CanController
end SpokeSensor
