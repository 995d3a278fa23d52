import Roofline.CoreHash.EqualCores
import Roofline.CoreHash.RejectedHashes
import Roofline.Controller.FreshResults
import Roofline.Controller.RepeatedRequests
import Roofline.Controller.ConflictingHashes
import Roofline.ParentProcess.Registers
import Roofline.ParentProcess.Requests
import Roofline.ParentProcess.Delivery
import Roofline.ParentProcess.Wakeups
import Roofline.ParentProcess.Bookkeeping
import Roofline.SharedEntities.CppService
import Roofline.Quantities.OwnOutputs
import Roofline.Quantities.Grouping
import Roofline.Quantities.CalculatorTrees
import Roofline.SharedEntities.StringLines
import Roofline.Measurement.Preparation
import Roofline.MeasuringCore.Reproducible
import Roofline.MeasuringCore.ChangeDetection
import Roofline.SharedEntities.JavaLists
import Roofline.Optimization.CachedOptima
import Roofline.Optimization.AllPoints
import Roofline.ChildProcess.ActionHandover
import Roofline.ChildProcess.ThreadInstrumentation
import Roofline.SharedEntities.Enumeration
import Roofline.SharedEntities.ClonedGraphs
import Roofline.SharedEntities.EnumerationOrder
import Roofline.Measurement.ResultUids
import Roofline.Kernels.MMMKernel
import Roofline.Kernels.MemoryKernel
import Roofline.Kernels.ArithmeticKernel
import Roofline.ChildProcess.CpuAffinity
import Roofline.Optimization.BestMeasured
import Roofline.Quantities.DistributionController
import Roofline.ChildProcess.PressureBarrier
import Roofline.ChildProcess.Barrier
import Roofline.ChildProcess.SynchronousExecution
import Roofline.ChildProcess.ThreadMap
import Roofline.ParentProcess.ExitSteps
import Roofline.ParentProcess.ThreadExit
import Roofline.Java.Strings
import Roofline.Library.Savepoints
import Roofline.Configuration.Configuration
import Roofline.Configuration.Scoping
import Roofline.Configuration.Keys
import Roofline.Configuration.CommandLine
import Roofline.Library.WhileLoops
import Roofline.Measurement.CpuList
import Roofline.Plots.AxisRanges
import Roofline.Util.RuntimeMonitor
import Roofline.Library.Corners
import Roofline.Plots.LogTicks
import Roofline.Statistics.UncertainValue
import Roofline.Statistics.ErrorPropagation
import Roofline.Library.Bins
import Roofline.Plots.Histogram
import Roofline.Optimization.AxisOrder
import Roofline.SharedEntities.EscapeLoops
import Roofline.Plots.HistogramPlot
import Roofline.Optimization.Neighbors
import Roofline.ChildProcess.Termination
import Roofline.Controller.ExpTime1MeasurementController
import Roofline.Kernels.FFTnrKernel
import Roofline.Quantities.OperationCounts
import Roofline.ChildProcess.Configurators
import Roofline.Kernels.DiskIoKernel
