import Mathlib.Data.UInt
import Mathlib.Tactic.Common

/-!
# The CSC measurement (`csc_measurement.hpp`)

The wheel counter with its 1/1024 s event time, and the seven bytes of a wheel-only
CSC Measurement (`csc_measurement.hpp:15–44`).

- `eventTime1024` (15–19): the event time of a timestamp, reduced by whole periods of
  64 s before it is scaled. What it is as a clock is the subject of `EventTime`.
- `encodeWheelMeasurement` (21–29): the flags, the counter and the event time, lowest
  byte first.
- `WheelState` (31–44): the counter saturates and never wraps.
  `foldl_onRevolution_toNat` says so for any number of revolutions.
-/

namespace SpokeSensor

/-- `event_time_1024` (`csc_measurement.hpp:15–19`). The products are those of
`uint64_t`, and the last step cuts the quotient down to 16 bits. -/
def eventTime1024 (timestampUs : UInt64) : UInt16 :=
  (timestampUs % 64000000 * 1024 / 1000000).toUInt16

/-- `encode_wheel_measurement` (`csc_measurement.hpp:21–29`): the flag for wheel data,
four bytes of the counter and two of the event time. -/
def encodeWheelMeasurement (revolutions : UInt32) (eventTime : UInt16) : List UInt8 :=
  [0x01, revolutions.toUInt8, (revolutions >>> 8).toUInt8, (revolutions >>> 16).toUInt8,
    (revolutions >>> 24).toUInt8, eventTime.toUInt8, (eventTime >>> 8).toUInt8]

/-- `WheelState` (`csc_measurement.hpp:31–44`): the counter of the revolutions and the
event time of the latest one. -/
structure WheelState where
  revolutions_ : UInt32
  lastEventTime_ : UInt16
  deriving DecidableEq, Repr

namespace WheelState

def init : WheelState := { revolutions_ := 0, lastEventTime_ := 0 }

/-- `std::numeric_limits<std::uint32_t>::max()` -/
def maxRevolutions : UInt32 := 0xFFFFFFFF

/-- `on_revolution` (33–36): the counter saturates; the event time is taken over in
any case. -/
def onRevolution (w : WheelState) (timestampUs : UInt64) : WheelState where
  revolutions_ :=
    if w.revolutions_ ≠ maxRevolutions then w.revolutions_ + 1 else w.revolutions_
  lastEventTime_ := eventTime1024 timestampUs

/-- `set_cumulative` (37): the counter takes the value, and the event time is left as
it is. -/
def setCumulative (w : WheelState) (value : UInt32) : WheelState :=
  { w with revolutions_ := value }

/-- `measurement` (40): the bytes of the present counter and event time. -/
def measurement (w : WheelState) : List UInt8 :=
  encodeWheelMeasurement w.revolutions_ w.lastEventTime_

/-- One revolution adds one, up to the largest value. -/
theorem onRevolution_toNat (w : WheelState) (t : UInt64) :
    (w.onRevolution t).revolutions_.toNat = min (w.revolutions_.toNat + 1) (2 ^ 32 - 1) := by
  have hlt := w.revolutions_.toNat_lt
  have hmax : w.revolutions_ = maxRevolutions ↔ w.revolutions_.toNat = 2 ^ 32 - 1 := by
    rw [← UInt32.toNat_inj]
    rfl
  by_cases h : w.revolutions_ = maxRevolutions
  · have hnat := hmax.mp h
    rw [onRevolution, if_neg (not_not.mpr h)]
    show w.revolutions_.toNat = _
    omega
  · have hnat : w.revolutions_.toNat ≠ 2 ^ 32 - 1 := fun hc => h (hmax.mpr hc)
    rw [onRevolution, if_pos h, UInt32.toNat_add]
    show (w.revolutions_.toNat + 1) % 2 ^ 32 = _
    omega

/-- So many revolutions add their number, up to the largest value. -/
theorem foldl_onRevolution_toNat (w : WheelState) (ts : List UInt64) :
    (ts.foldl onRevolution w).revolutions_.toNat
      = min (w.revolutions_.toNat + ts.length) (2 ^ 32 - 1) := by
  induction ts generalizing w with
  | nil =>
    have hlt := w.revolutions_.toNat_lt
    rw [List.foldl_nil, List.length_nil]
    omega
  | cons t ts ih =>
    rw [List.foldl_cons, ih, onRevolution_toNat, List.length_cons]
    omega

end WheelState

end SpokeSensor
