import ZeusPower.Library.Fallible
import ZeusPower.Library.Intervals
import ZeusPower.Library.Ledger
import ZeusPower.Library.Machine
import ZeusPower.Library.OrderedMap
import ZeusPower.Library.RightSum
import ZeusPower.Library.Trapezoid
import ZeusPower.Library.Decimal
import ZeusPower.Library.Dialogue
import ZeusPower.Library.Rounding
import ZeusPower.Basic
import ZeusPower.Device.Nvidia
import ZeusPower.Device.NvidiaReadings
import ZeusPower.Device.NvidiaTimeline
import ZeusPower.Device.NvidiaSetup
import ZeusPower.Device.NvidiaIntegral
import ZeusPower.Device.NvidiaThreads
import ZeusPower.Device.NvidiaListing
import ZeusPower.Device.NvidiaStop
import ZeusPower.Device.Sysfs
import ZeusPower.Device.Jetson
import ZeusPower.Device.JetsonRounds
import ZeusPower.Device.JetsonDiscovery
import ZeusPower.Device.JetsonSensors
import ZeusPower.Device.JetsonThreads
import ZeusPower.Device.JetsonStop
import ZeusPower.Device.Apple
import ZeusPower.Device.AppleMetrics
import ZeusPower.Device.AppleChannels
import ZeusPower.Device.AppleDeltas
import ZeusPower.Device.AppleResources
import ZeusPower.Monitor.EnergyMonitor
import ZeusPower.Monitor.PowerQuery
import ZeusPower.PowerMonitor
import ZeusPower.Lifetimes
import ZeusPower.Monitor.Run
import ZeusPower.Monitor.Windows
import ZeusPower.Monitor.AppleWindows
import ZeusPower.Monitor.Keys
import ZeusPower.Monitor.Isolation
import ZeusPower.Monitor.Parts
import ZeusPower.Monitor.JetsonWindows
import ZeusPower.Monitor.SameIndices
import ZeusPower.Reference.ZeusMonitor
import ZeusPower.Reference.History
import ZeusPower.Reference.Simulation
import ZeusPower.Reference.Selectors
import ZeusPower.Reference.PowerLimitOptimizer
import ZeusPower.Reference.PowerLimitRuns
import ZeusPower.Reference.PowerLimitProgress
import ZeusPower.Reference.PowerLimitEnds
import ZeusPower.Reference.Rapl
import ZeusPower.Reference.BatchSize.Trials
import ZeusPower.Reference.BatchSize.Explorer
import ZeusPower.Reference.BatchSize.Bandit
import ZeusPower.Reference.BatchSize.JobLocks
import ZeusPower.Reference.BatchSize.Server
import ZeusPower.Reference.BatchSize.Sessions
import ZeusPower.Reference.BatchSize.Pruning
import ZeusPower.Reference.BatchSize.Jobs
import ZeusPower.Reference.BatchSize.Records
import ZeusPower.Reference.BatchSize.Beliefs
