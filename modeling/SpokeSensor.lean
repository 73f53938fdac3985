import SpokeSensor.Ble.Access
import SpokeSensor.Ble.Counter
import SpokeSensor.Ble.EventTime
import SpokeSensor.Ble.Isolation
import SpokeSensor.Ble.Measurement
import SpokeSensor.Ble.Procedure
import SpokeSensor.Ble.Service
import SpokeSensor.Can.Mcp2515
import SpokeSensor.Can.Publisher
import SpokeSensor.Core.Adaptation
import SpokeSensor.Core.Binary32
import SpokeSensor.Core.Candidates
import SpokeSensor.Core.Checked
import SpokeSensor.Core.Config
import SpokeSensor.Core.Follow
import SpokeSensor.Core.Generated
import SpokeSensor.Core.Geometry
import SpokeSensor.Core.Harmonics
import SpokeSensor.Core.History
import SpokeSensor.Core.Identification
import SpokeSensor.Core.Invariant
import SpokeSensor.Core.Pattern
import SpokeSensor.Core.PatternSpec
import SpokeSensor.Core.Phase
import SpokeSensor.Core.Pipeline
import SpokeSensor.Core.PulseRun
import SpokeSensor.Core.Repetition
import SpokeSensor.Core.RotationSearch
import SpokeSensor.Core.Scaling
import SpokeSensor.Core.TimedRun
import SpokeSensor.Core.Uniform
import SpokeSensor.Lib.Backdating
import SpokeSensor.Lib.DecimalText
import SpokeSensor.Lib.Ieee
import SpokeSensor.Lib.Interaction
import SpokeSensor.Lib.LabelledBlocks
import SpokeSensor.Lib.LabelledPaths
import SpokeSensor.Lib.LittleEndian
import SpokeSensor.Lib.Loops
import SpokeSensor.Lib.LossyQueue
import SpokeSensor.Lib.Monostable
import SpokeSensor.Lib.Periodic
import SpokeSensor.Lib.Ring
import SpokeSensor.Lib.Rollover
import SpokeSensor.Lib.Rotation
import SpokeSensor.Lib.RoundRobin
import SpokeSensor.Lib.Rounding
import SpokeSensor.Lib.RunnerUp
import SpokeSensor.Lib.SExpression
import SpokeSensor.Lib.SelfDelimiting
import SpokeSensor.Lib.Smoothing
import SpokeSensor.Lib.SternBrocot
import SpokeSensor.Lib.Transition
import SpokeSensor.Main.Accounting
import SpokeSensor.Main.Adapter
import SpokeSensor.Main.ConfigArithmetic
import SpokeSensor.Main.Delivery
import SpokeSensor.Main.LinkMonitor
import SpokeSensor.Main.ReceiveLoop
import SpokeSensor.Main.Start
import SpokeSensor.Main.StatusLed
import SpokeSensor.Main.Timestamps
import SpokeSensor.Server.ConfigAgreement
import SpokeSensor.Server.GenerateCode
import SpokeSensor.Server.PyNumber
import SpokeSensor.Simulation.CarrierRemove
import SpokeSensor.Simulation.Current
import SpokeSensor.Simulation.Parameters
import SpokeSensor.Simulation.Transmission
import SpokeSensor.Tools.Connectivity
import SpokeSensor.Tools.GenerateConstants
import SpokeSensor.Tools.InteractiveBom
import SpokeSensor.Tools.KicadNetlist
import SpokeSensor.Tools.LayoutIntegrity
import SpokeSensor.Ble.HostTask
import SpokeSensor.Ble.Notifications
import SpokeSensor.Can.Start
import SpokeSensor.Lib.Hysteresis
import SpokeSensor.Lib.Triple
import SpokeSensor.Main.CaptureReports
import SpokeSensor.Main.Telemetry
import SpokeSensor.Simulation.FrontEnd
import SpokeSensor.Lib.Occurrence
import SpokeSensor.Tools.GenerateConnectivity
import SpokeSensor.Simulation.ConnectivityGuard
import SpokeSensor.Lib.Csv
import SpokeSensor.Lib.Grouping
import SpokeSensor.Tools.JlcAssembly
import SpokeSensor.Tools.LayoutRuns
