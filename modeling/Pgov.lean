import Pgov.FixedWidth
import Pgov.Runs
import Pgov.Rounding
import Pgov.DigitSqrt
import Pgov.Quantise
import Pgov.PgMath
import Pgov.PgTime
import Pgov.CpuCurves
import Pgov.CurveOrder
import Pgov.LoadDemand
import Pgov.DemandOrder
import Pgov.DemandRest
import Pgov.KalmanFilter
import Pgov.ThermalControl
import Pgov.DecimalText
import Pgov.Parser
import Pgov.SysfsCache
import Pgov.SysfsUpdate
import Pgov.SysfsRestore
import Pgov.RestorePaths
import Pgov.Tuning
import Pgov.Mapping
import Pgov.MappingDebounce
import Pgov.CString
import Pgov.ConfFile
import Pgov.ConfStream
import Pgov.UndoLog
import Pgov.Properties
import Pgov.FileWalk
import Pgov.TreeWalk
import Pgov.WalkVisits
import Pgov.Sweep
import Pgov.SweepInterrupt
import Pgov.ThermalOutlook
import Pgov.ThermalOutput
import Pgov.ThermalIntegrator
import Pgov.BreakSignal
import Pgov.FdTable
import Pgov.SweepFds
import Pgov.Sensor
import Pgov.PsiMonitor
import Pgov.PollInterval
import Pgov.Governor
import Pgov.GovernorSteps
import Pgov.DisplayState
import Pgov.StallGaps
import Pgov.Reactor
import Pgov.ReactorTimeouts
import Pgov.DaemonInit
import Pgov.DescriptorLife
import Pgov.NumberText
import Pgov.IntegerText
import Pgov.PsiText
import Pgov.PsiLines
import Pgov.StallRate
import Pgov.Q32Product
import Pgov.Debounce
import Pgov.Backoff
import Pgov.KalmanBounds
import Pgov.KalmanContraction
import Pgov.TokenBucket
import Pgov.SquareRoot
import Pgov.AlgSigmoid
import Pgov.PollOrder
import Pgov.PollRelax
import Pgov.LogLimit
import Pgov.Topology
import Pgov.TripPoint
import Pgov.OptDirectives
import Pgov.PropDirective
import Pgov.StringWrite
import Pgov.SweepDisplay
import Pgov.QuantPaths
import Pgov.ReactorRuns
import Pgov.BootState
import Pgov.GovernorRanges
import Pgov.KernelValues
import Pgov.DaemonRestore
import Pgov.MappingRuns
import Pgov.Streak
import Pgov.PsiBackoff
import Pgov.Substring
import Pgov.Preference
import Pgov.PathText
import Pgov.Scan
import Pgov.BlockTune
import Pgov.CrashSignals
import Pgov.TriggerRuns
import Pgov.DormantRuns
import Pgov.OptRuns
import Pgov.Exclusion
import Pgov.Instances
import Pgov.InstanceNodes
import Pgov.InstanceRuns
import Pgov.SweepUnlinks
import Pgov.SweepComplete
import Pgov.InterruptedWaits
import Pgov.PollTighten
import Pgov.SweepSpacing
import Pgov.ConfRefusal
import Pgov.Lockstep
import Pgov.LockstepRuns
