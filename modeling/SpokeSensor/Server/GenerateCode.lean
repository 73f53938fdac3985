import SpokeSensor.Core.Config
import SpokeSensor.Server.PyNumber

/-!
# Generating a configuration header (`simulation/local_server.py`)

A body that passes the checks of the server and of `simulate` is answered with a
header.

- `Key.default`, `merged`: the defaults of `control_schema`, with the body on top of
  them (`local_server.py:246–250`).
- `validateCodeParameters` (128–152) and `simulateChecks` (`ir_spoke_sim.py:123–128`
  and the checks of the power scenario after it): what is rejected.
- `iv`, `fv` (156–160), `generatedConfigHeader` (163–203): how the tokens of the
  header are written.
- `generateCode` (242–260): the whole request. The transient simulation itself, whose
  result only appears in a comment of the header, is a parameter.
- `HeaderConfig.read`: the configuration that a C compiler reads from the header.
  Whole numbers are reduced to the field's width, and decimals become the `float` next
  to them.
-/

namespace SpokeSensor.LocalServer

open Ieee Rounding PyNumber

/-! ## Parameters

The keys of a body with their defaults (`local_server.py:118–125, 246–250`).
-/

/-- The keys of `control_schema`. -/
inductive Key where
  | speedKmh | spokeCount | spokeWidthMm | wheelDiameterM | beamRadiusM | durationMs
  | carrierHz | carrierDuty | distanceMm | alignmentFactor | ambientPhotocurrentUa
  | environmentalNoiseRmsUa | residualTransmissionBlocked
  | esp32CpuActiveDuty | esp32WifiTxDuty | supplyRiseUs | regulatorEfficiency | canEnabled
  | canBusActivityDuty
  | txGpio | rxGpio | rmtResolutionHz | rmtMemBlockSymbols | rmtTxQueueDepth | rxDemodRatio
  | rxDemodDuty | rxGlitchFilterUs | minimumBlockedUs | maximumBlockedUs | linkLossTimeoutUs
  | spokeCountMin | spokeCountMax | lutBins | learningRate | spokeCountConfidenceEvents
  | outlierSigma
  deriving DecidableEq

/-- A number written with a decimal point. -/
def decimal (q : ℚ) : PyNumber := .float (.ofRat binary64 q)

/-- The defaults of `control_schema`, from `config/system.json`. -/
def Key.default : Key → PyNumber
  | .speedKmh => decimal 60
  | .spokeCount => .int 32
  | .spokeWidthMm => decimal 2
  | .wheelDiameterM => decimal (702 / 1000)
  | .beamRadiusM => decimal (25 / 100)
  | .durationMs => .int 2
  | .carrierHz => .int 38000
  | .carrierDuty => decimal (5 / 10)
  | .distanceMm => decimal 50
  | .alignmentFactor => decimal (65 / 100)
  | .ambientPhotocurrentUa => decimal 12
  | .environmentalNoiseRmsUa => decimal (2 / 1000)
  | .residualTransmissionBlocked => decimal (5 / 100)
  | .esp32CpuActiveDuty => decimal (1 / 10)
  | .esp32WifiTxDuty => decimal (5 / 100)
  | .supplyRiseUs => decimal 500
  | .regulatorEfficiency => decimal (9 / 10)
  | .canEnabled => .int 0
  | .canBusActivityDuty => decimal (1 / 10)
  | .txGpio => .int 1
  | .rxGpio => .int 2
  | .rmtResolutionHz => .int 1000000
  | .rmtMemBlockSymbols => .int 64
  | .rmtTxQueueDepth => .int 2
  | .rxDemodRatio => decimal (66 / 100)
  | .rxDemodDuty => decimal (5 / 10)
  | .rxGlitchFilterUs => .int 3
  | .minimumBlockedUs => .int 70
  | .maximumBlockedUs => .int 600
  | .linkLossTimeoutUs => .int 15000
  | .spokeCountMin => .int 16
  | .spokeCountMax => .int 48
  | .lutBins => .int 64
  | .learningRate => decimal (8 / 100)
  | .spokeCountConfidenceEvents => .int 192
  | .outlierSigma => decimal (35 / 10)

/-- `defaults | values` -/
def merged (body : Key → Option PyNumber) (k : Key) : PyNumber := (body k).getD k.default

/-! ## Checks

The checks that a body meets, in their order: those of the gate
(`local_server.py:128–152`), and then those of `simulate`.
-/

/-- `validate_code_parameters` (128–152), check by check in the order of the source.
Of the pins it only asks that they differ. -/
def validateCodeParameters (values : Key → PyNumber) : Except PyError Unit := do
  let carrierHz ← (values .carrierHz).toFloat
  let resolutionHz ← (values .rmtResolutionHz).toFloat
  let glitchFilterUs ← (values .rxGlitchFilterUs).toFloat
  let blockageMinUs ← (values .minimumBlockedUs).toFloat
  let blockageMaxUs ← (values .maximumBlockedUs).toFloat
  let linkLossTimeoutUs ← (values .linkLossTimeoutUs).toFloat
  let txGpio ← (values .txGpio).toInt
  let rxGpio ← (values .rxGpio).toInt
  raiseIf (txGpio = rxGpio) (.valueError "TX and RX GPIO must be different")
  raiseIf (resolutionHz < .finite 8 * carrierHz)
    (.valueError "RMT resolution must be at least 8x the carrier frequency")
  let memBlockSymbols ← (values .rmtMemBlockSymbols).toInt
  raiseIf (¬ (48 ≤ memBlockSymbols ∧ memBlockSymbols ≤ 512))
    (.valueError "RMT channel memory must be between 48 and 512 symbols")
  let txQueueDepth ← (values .rmtTxQueueDepth).toInt
  raiseIf (¬ (1 ≤ txQueueDepth ∧ txQueueDepth ≤ 8))
    (.valueError "RMT TX queue depth must be between 1 and 8")
  raiseIf ((.finite 500000 : Double) ≤ glitchFilterUs * carrierHz)
    (.valueError "RX minimum pulse must be shorter than half a carrier period")
  raiseIf (¬ (blockageMinUs < blockageMaxUs ∧ blockageMaxUs < linkLossTimeoutUs))
    (.valueError "Timing must satisfy minimum blockage < maximum blockage < link-loss timeout")
  let countMin ← (values .spokeCountMin).toInt
  let countMax ← (values .spokeCountMax).toInt
  raiseIf (countMax ≤ countMin)
    (.valueError "Auto-count minimum must be smaller than its maximum")

/-- The checks that `simulate` makes on its parameters; the sample rate is the default. -/
def simulateChecks (values : Key → PyNumber) : Except PyError Unit := do
  let carrierHz ← (values .carrierHz).toFloat
  let durationMs ← (values .durationMs).toFloat
  let durationS := durationMs * .ofRat binary64 (1 / 10 ^ 3)
  raiseIf (¬ ((.finite 25000 : Double) ≤ carrierHz ∧ carrierHz ≤ .finite 50000))
    (.valueError "carrier_hz outside analog-compatible configured range")
  raiseIf ((values .speedKmh).leInt 0 ∨ (values .spokeCount).ltInt 1)
    (.valueError "speed and spoke count must be positive")
  raiseIf (durationS ≤ .finite 0 ∨ (.finite 2000000 : Double) < .finite 10 * carrierHz)
    (.valueError "duration must be positive and sample rate >= 10x carrier")
  let cpuDuty ← (values .esp32CpuActiveDuty).toFloat
  let wifiDuty ← (values .esp32WifiTxDuty).toFloat
  raiseIf (¬ ((.finite 0 : Double) ≤ cpuDuty ∧ cpuDuty ≤ .finite 1) ∨
      ¬ ((.finite 0 : Double) ≤ wifiDuty ∧ wifiDuty ≤ .finite 1))
    (.valueError "CPU and Wi-Fi duty cycles must be from zero to one")
  let canBusDuty ← (values .canBusActivityDuty).toFloat
  raiseIf (¬ ((.finite 0 : Double) ≤ canBusDuty ∧ canBusDuty ≤ .finite 1))
    (.valueError "CAN bus activity duty must be from zero to one")
  let supplyRiseUs ← (values .supplyRiseUs).toFloat
  raiseIf (supplyRiseUs * .ofRat binary64 (1 / 10 ^ 6) ≤ .finite 0)
    (.valueError "supply_rise_us must be positive")
  let regulatorEfficiency ← (values .regulatorEfficiency).toFloat
  raiseIf (¬ ((.finite 0 : Double) < regulatorEfficiency ∧ regulatorEfficiency ≤ .finite 1))
    (.valueError "regulator_efficiency must be greater than zero and at most one")

/-! ## The header

The tokens of the header in the order of the text, since the first one that cannot be
written raises.
-/

/-- Nine significant digits. -/
def nineDigits : Grid := .digits 10 (by decide) 9

/-- What `.9g` makes of a float: a decimal, or `inf` or `nan`. -/
inductive FloatToken where
  | decimal (q : ℚ)
  | word
  deriving DecidableEq

/-- `fv` (159–160): nine significant digits of the float, and the suffix. -/
def fv (v : PyNumber) : Except PyError FloatToken := do
  let x ← v.toFloat
  match x with
  | .finite x => pure (.decimal (nineDigits.round x))
  | _ => pure .word

/-- `iv` (156–157): the whole number next to the float, a tie to the even one. -/
def iv (v : PyNumber) : Except PyError ℤ := do
  let x ← v.toFloat
  roundFloat x

/-- The value of a macro: a float, or a whole number with or without the suffix `u`. -/
inductive MacroValue where
  | float (token : FloatToken)
  | unsigned (n : ℤ)
  | int (n : ℤ)
  deriving DecidableEq

/-- The tokens of the structure literal. -/
structure HeaderConfig where
  txGpio : ℤ
  rxGpio : ℤ
  carrierHz : ℤ
  carrierDuty : FloatToken
  rmtResolutionHz : ℤ
  rmtMemBlockSymbols : ℤ
  rmtTxQueueDepth : ℤ
  rxDemodRatio : FloatToken
  rxDemodDuty : FloatToken
  rxGlitchFilterUs : ℤ
  blockageMinUs : ℤ
  blockageMaxUs : ℤ
  linkLossUs : ℤ
  deriving DecidableEq

/-- The header: its macros without their prefix `IR_SPOKE_EXPERIMENT_`, and the
configuration that `ir_spoke_experiment_config` returns. -/
structure Header where
  macros : List (String × MacroValue)
  config : HeaderConfig
  deriving DecidableEq

/-- The macros of the header, in order. -/
def experimentMacros (values : Key → PyNumber) : List (String × Except PyError MacroValue) :=
  [("WHEEL_DIAMETER_M", .float <$> fv (values .wheelDiameterM)),
    ("BEAM_RADIUS_M", .float <$> fv (values .beamRadiusM)),
    ("COUNT_MIN", .unsigned <$> iv (values .spokeCountMin)),
    ("COUNT_MAX", .unsigned <$> iv (values .spokeCountMax)),
    ("LUT_BINS", .unsigned <$> iv (values .lutBins)),
    ("LEARNING_RATE", .float <$> fv (values .learningRate)),
    ("CONFIDENCE_EVENTS", .unsigned <$> iv (values .spokeCountConfidenceEvents)),
    ("OUTLIER_SIGMA", .float <$> fv (values .outlierSigma)),
    ("CPU_ACTIVE_DUTY", .float <$> fv (values .esp32CpuActiveDuty)),
    ("WIFI_TX_DUTY", .float <$> fv (values .esp32WifiTxDuty)),
    ("SUPPLY_RISE_US", .unsigned <$> iv (values .supplyRiseUs)),
    ("REGULATOR_EFFICIENCY", .float <$> fv (values .regulatorEfficiency)),
    ("CAN_ENABLED", .int <$> iv (values .canEnabled)),
    ("CAN_ACTIVITY_DUTY", .float <$> fv (values .canBusActivityDuty))]

/-- The tokens of the structure literal, from the values. -/
def headerConfig (values : Key → PyNumber) : Except PyError HeaderConfig := do
  let txGpio ← iv (values .txGpio)
  let rxGpio ← iv (values .rxGpio)
  let carrierHz ← iv (values .carrierHz)
  let carrierDuty ← fv (values .carrierDuty)
  let rmtResolutionHz ← iv (values .rmtResolutionHz)
  let rmtMemBlockSymbols ← iv (values .rmtMemBlockSymbols)
  let rmtTxQueueDepth ← iv (values .rmtTxQueueDepth)
  let rxDemodRatio ← fv (values .rxDemodRatio)
  let rxDemodDuty ← fv (values .rxDemodDuty)
  let rxGlitchFilterUs ← iv (values .rxGlitchFilterUs)
  let blockageMinUs ← iv (values .minimumBlockedUs)
  let blockageMaxUs ← iv (values .maximumBlockedUs)
  let linkLossUs ← iv (values .linkLossTimeoutUs)
  pure { txGpio, rxGpio, carrierHz, carrierDuty, rmtResolutionHz, rmtMemBlockSymbols,
         rmtTxQueueDepth, rxDemodRatio, rxDemodDuty, rxGlitchFilterUs, blockageMinUs,
         blockageMaxUs, linkLossUs }

/-- `generated_config_header` (155–203) -/
def generatedConfigHeader (values : Key → PyNumber) : Except PyError Header := do
  let macros ← (experimentMacros values).mapM fun line => do
    let value ← line.2
    pure (line.1, value)
  let config ← headerConfig values
  pure { macros, config }

/-- `do_POST` on `/api/generate-code`, for a body of known parameters. The transient
simulation may raise exceptions of its own. It comes after all the checks here and
between them in the source, so only which exception is raised may differ. -/
def generateCode {Derived : Type} (transient : (Key → PyNumber) → Except PyError Derived)
    (body : Key → Option PyNumber) : Except PyError (Header × Derived) := do
  let values := merged body
  validateCodeParameters values
  simulateChecks values
  let derived ← transient values
  let header ← generatedConfigHeader values
  pure (header, derived)

/-! ## What a C compiler reads

The tokens as constants of C, and the structure that they initialise.
-/

/-- A whole number with the suffix `u`, possibly after a minus sign, in a field of type
`uint32_t`: it must fit the widest unsigned type, and is reduced modulo `2^32`. -/
def unsignedLiteral (n : ℤ) : Option UInt32 :=
  if |n| < 2 ^ 64 then some (n % 2 ^ 32).toNat.toUInt32 else none

/-- A whole number in a field of type `int32_t`: it must fit the widest signed type, and
is converted modulo `2^32`. -/
def intLiteral (n : ℤ) : Option Int32 :=
  if |n| < 2 ^ 63 then some (Int32.ofInt n) else none

/-- A decimal with the suffix `f`. Whole numbers below `10^9` are printed without a point
or an exponent, and are no floating constants then. -/
def floatLiteral : FloatToken → Option Binary32
  | .decimal q => if q.den = 1 ∧ |q| < 10 ^ 9 then none else some (ofRat q)
  | .word => none

/-- The configuration that the header returns. -/
def HeaderConfig.read (t : HeaderConfig) : Option RuntimeConfig := do
  let txGpio ← intLiteral t.txGpio
  let rxGpio ← intLiteral t.rxGpio
  let carrierHz ← unsignedLiteral t.carrierHz
  let carrierDuty ← floatLiteral t.carrierDuty
  let rmtResolutionHz ← unsignedLiteral t.rmtResolutionHz
  let rmtMemBlockSymbols ← unsignedLiteral t.rmtMemBlockSymbols
  let rmtTxQueueDepth ← unsignedLiteral t.rmtTxQueueDepth
  let rxDemodRatio ← floatLiteral t.rxDemodRatio
  let rxDemodDuty ← floatLiteral t.rxDemodDuty
  let rxGlitchFilterUs ← unsignedLiteral t.rxGlitchFilterUs
  let blockageMinUs ← unsignedLiteral t.blockageMinUs
  let blockageMaxUs ← unsignedLiteral t.blockageMaxUs
  let linkLossUs ← unsignedLiteral t.linkLossUs
  some { txGpio, rxGpio, carrierHz, carrierDuty, rmtResolutionHz, rmtMemBlockSymbols,
         rmtTxQueueDepth, rxDemodRatio, rxDemodDuty, rxGlitchFilterUs, blockageMinUs,
         blockageMaxUs, linkLossUs }

end SpokeSensor.LocalServer
