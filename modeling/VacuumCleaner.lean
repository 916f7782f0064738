import VacuumCleaner.A1.Button
import VacuumCleaner.A1.BuzzerRuns
import VacuumCleaner.A1.Dht11
import VacuumCleaner.A1.HexFields
import VacuumCleaner.A1.MotorRamp
import VacuumCleaner.A1.Panel
import VacuumCleaner.A1.PowerFrames
import VacuumCleaner.A1.PowerTimer
import VacuumCleaner.A1.RangeFinder
import VacuumCleaner.A1.ReceiveBounds
import VacuumCleaner.A1.Timer5
import VacuumCleaner.A1.WheelInterrupts
import VacuumCleaner.App.ManualControl
import VacuumCleaner.App.RobotSocketDiscovery
import VacuumCleaner.Core.AutomaticResume
import VacuumCleaner.Core.BluetoothEvents
import VacuumCleaner.Core.CallbackProtocol
import VacuumCleaner.Core.CliffRetreat
import VacuumCleaner.Core.ConcurrentJobs
import VacuumCleaner.Core.Disconnects
import VacuumCleaner.Core.FailedStart
import VacuumCleaner.Core.GetCleaningStatus
import VacuumCleaner.Core.RequestValidation
import VacuumCleaner.Core.Shutdown
import VacuumCleaner.Core.StopRequest
import VacuumCleaner.Core.WifiCredentials
import VacuumCleaner.Link.AlgorithmSettings
import VacuumCleaner.Link.Attribution
import VacuumCleaner.Link.ClockDays
import VacuumCleaner.Link.Driving
import VacuumCleaner.Link.PidSettings
import VacuumCleaner.Link.PowerOff
import VacuumCleaner.Link.RemoteCalls
import VacuumCleaner.Link.TelemetryOrder
import VacuumCleaner.Link.Uplink
import VacuumCleaner.PowerController.Button
