import Pcm.Lib.FreeRunning
import Pcm.Lib.Accumulate
import Pcm.WidthExtender
import Pcm.Bits
import Pcm.CpuModel
import Pcm.CounterState
import Pcm.RawConfig
import Pcm.ReadCounters
import Pcm.CounterDifference
import Pcm.CounterAgreement
import Pcm.BandwidthAggregation
import Pcm.Daemon
import Pcm.CoreProgram
import Pcm.ProgramHistory
import Pcm.NmiWatchdog
import Pcm.Lib.WriteLog
import Pcm.UncorePmu
import Pcm.UncoreProgram
import Pcm.UncoreFreeze
import Pcm.UncoreUnits
import Pcm.RawProgram
import Pcm.UncoreEvents
import Pcm.PebsEnable
import Pcm.UncoreCleanup
import Pcm.CleanupRuns
import Pcm.Lib.KeyedMap
import Pcm.RegisterEvents
import Pcm.RegisterRuns
import Pcm.Lib.Runs
import Pcm.SocketBuf
import Pcm.Lib.StdString
import Pcm.SampleHistory
import Pcm.Lib.Transition
import Pcm.ThreadPool
import Pcm.Topology
import Pcm.ApicId
import Pcm.Lib.Compaction
import Pcm.DaemonTables
import Pcm.TsvEvents
import Pcm.Lib.BitWrites
import Pcm.DatabaseEvents
import Pcm.RegisterFields
import Pcm.FailedEvents
import Pcm.TopologyTree
import Pcm.Lib.SortedRuns
import Pcm.TopologyDiscovery
import Pcm.DispatchPool
import Pcm.HttpUrl
import Pcm.Lib.IStream
import Pcm.Lib.Loop
import Pcm.HttpMessage
import Pcm.HttpRequest
import Pcm.RequestTermination
import Pcm.HttpConnection
import Pcm.Lib.Decimal
import Pcm.Lib.Digits
import Pcm.Lib.Json
import Pcm.Lib.JsonScan
import Pcm.JsonPrinter
import Pcm.JsonDocument
import Pcm.PrometheusPrinter
import Pcm.Lib.Labelled
import Pcm.PrometheusSamples
import Pcm.SampleUniqueness
import Pcm.Lib.OrderedMap
import Pcm.Lib.Grouping
import Pcm.EventSyntax
import Pcm.EventGroups
import Pcm.RequestBody
import Pcm.TruncatedHeaders
import Pcm.PcieSnapshot
import Pcm.RawOutput
import Pcm.RawRows
import Pcm.RawAlignment
import Pcm.RawTabular
import Pcm.RawJson
import Pcm.IioEvents
import Pcm.IioTables
import Pcm.IioListing
import Pcm.IioRows
import Pcm.IioOutput
import Pcm.MemoryBandwidth
import Pcm.MemoryCsv
import Pcm.MemoryAlignment
import Pcm.Lib.JsonAutomaton
import Pcm.Lib.JsonReader
import Pcm.DashboardText
import Pcm.DashboardDocument
import Pcm.DashboardPanels
import Pcm.DashboardValue
import Pcm.DashboardLayout
import Pcm.UrlEncoding
import Pcm.Lib.Positions
import Pcm.UrlParts
import Pcm.UrlAuthority
import Pcm.UrlBoundaries
import Pcm.UrlPort
import Pcm.UrlPrinting
import Pcm.UrlRoundTrip
import Pcm.UrlReprint
import Pcm.Lib.Squeeze
import Pcm.WhiteSpace
import Pcm.HeaderPadding
import Pcm.PaddedRequest
import Pcm.Lib.Extraction
import Pcm.ReadNumber
import Pcm.IntegerList
import Pcm.TpmiDriver
import Pcm.Lib.PointerWalk
import Pcm.PciCapabilities
import Pcm.PciProbe
import Pcm.PciBusScan
import Pcm.PciTree
import Pcm.Lib.LittleEndian
import Pcm.McfgTable
import Pcm.Lib.LengthWalk
import Pcm.SratTable
import Pcm.MmioCopy
import Pcm.PmuDiscovery
import Pcm.Lib.Throwing
import Pcm.Lib.Blocks
import Pcm.MemoryControllers
import Pcm.TpmiFeatures
import Pcm.TickCount
import Pcm.ChaCollector
import Pcm.Lib.BitFields
import Pcm.IdxFilters
import Pcm.RegisterBits
import Pcm.CoreMasks
import Pcm.IioControl
import Pcm.UncoreNumbering
import Pcm.LoadEvents
import Pcm.EventNumbers
import Pcm.EventLines
import Pcm.Lib.Interleaving
import Pcm.CoreTaskQueue
import Pcm.CounterStateWrites
import Pcm.CounterStateTasks
import Pcm.HttpResponseText
import Pcm.GetCallback
import Pcm.Conversation
import Pcm.SharedState
import Pcm.Lib.Fields
import Pcm.SystemCsv
import Pcm.SystemColumns
import Pcm.Lib.Mutex
import Pcm.Rdt
import Pcm.RdtInvariant
import Pcm.RdtReadings
import Pcm.RdtLoop
import Pcm.RdtTraffic
import Pcm.Lib.PerfEvents
import Pcm.PerfProgram
import Pcm.PerfHandles
import Pcm.PerfReadings
import Pcm.PerfPlaces
import Pcm.PerfCounts
