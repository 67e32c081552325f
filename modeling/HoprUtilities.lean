import HoprUtilities.Lib.Suspension
import HoprUtilities.Lib.History
import HoprUtilities.Network.CopyBuffer
import HoprUtilities.Network.CopyStep
import HoprUtilities.Network.Duplex
import HoprUtilities.Network.DuplexStep
import HoprUtilities.Network.Conservation
import HoprUtilities.Network.DatagramBoundaries
import HoprUtilities.Network.DuplexLifecycle
import HoprUtilities.Network.Progress
import HoprUtilities.Network.Blocking
import HoprUtilities.Network.WakeUps
import HoprUtilities.Network.ReaderErrors
import HoprUtilities.Network.EndReasons
import HoprUtilities.Network.CrossfireSink
import HoprUtilities.Network.CrossfireDelivery
import HoprUtilities.Network.UdpStream
import HoprUtilities.Network.UdpCounterparty
import HoprUtilities.Network.UdpSenders
import HoprUtilities.Network.UdpShutdown
import HoprUtilities.Network.UdpCopy
import HoprUtilities.Lib.FirstSuccess
import HoprUtilities.Network.UdpBuilder
import HoprUtilities.Network.UdpBinding
import HoprUtilities.Network.TimeoutSink
import HoprUtilities.Network.Attempts
import HoprUtilities.Network.Forwarding
import HoprUtilities.Network.ForwardOutcomes
import HoprUtilities.Network.Capture
import HoprUtilities.Lib.Chunks
import HoprUtilities.Network.Chunking
import HoprUtilities.Lib.Transition
import HoprUtilities.Lib.Threads
import HoprUtilities.Parallelize.Arbitration
import HoprUtilities.Parallelize.AdmissionCap
import HoprUtilities.Parallelize.Pool
import HoprUtilities.Parallelize.PoolStep
import HoprUtilities.Parallelize.Accounting
import HoprUtilities.Parallelize.SlotSemaphore
import HoprUtilities.Parallelize.ThreadPool
import HoprUtilities.Parallelize.Admission
import HoprUtilities.Parallelize.PolicyChange
import HoprUtilities.Parallelize.TaskLifecycle
import HoprUtilities.Parallelize.Configuration
import HoprUtilities.Lib.Totals
import HoprUtilities.Lib.IndexMap
import HoprUtilities.Runtime.AbortableList
import HoprUtilities.Runtime.AbortableStore
import HoprUtilities.Runtime.InsertionOrder
import HoprUtilities.Runtime.DropAbortable
import HoprUtilities.Statistics.WindowedRatio
import HoprUtilities.Lib.SlidingWindow
import HoprUtilities.Statistics.MovingAverage
import HoprUtilities.Statistics.WindowOverflow
import HoprUtilities.Lib.Mixture
import HoprUtilities.Statistics.ExponentialAverage
import HoprUtilities.Statistics.Weighted
import HoprUtilities.Lib.StableSort
import HoprUtilities.Statistics.WeightedShuffle
import HoprUtilities.Lib.MapLookup
import HoprUtilities.Lib.MapTranslation
import HoprUtilities.Lib.Text
import HoprUtilities.Blokli.Emulator
import HoprUtilities.Blokli.Connector
import HoprUtilities.Blokli.EmulatorParts
import HoprUtilities.Blokli.EmulatorSteps
import HoprUtilities.Blokli.ReferenceHost
import HoprUtilities.Blokli.Atomicity
import HoprUtilities.Blokli.Withdrawal
import HoprUtilities.Blokli.TokenConservation
import HoprUtilities.Blokli.Registry
import HoprUtilities.Blokli.ChannelLifecycle
import HoprUtilities.Blokli.TicketRedemption
import HoprUtilities.Blokli.ChannelEvents
import HoprUtilities.Blokli.Subscription
import HoprUtilities.Blokli.Funding
import HoprUtilities.Blokli.StateBuilder
import HoprUtilities.Blokli.BuilderRoundTrip
import HoprUtilities.Lib.Watermark
import HoprUtilities.Blokli.InFlight
import HoprUtilities.Lib.RetryLoop
import HoprUtilities.Runtime.ShouldWarn
import HoprUtilities.Lib.Spacing
import HoprUtilities.Runtime.Diagnostics
import HoprUtilities.Runtime.ConcurrentDiagnostics
import HoprUtilities.Runtime.ChildCounters
import HoprUtilities.Runtime.ChildWarnings
import HoprUtilities.Lib.Replica
import HoprUtilities.Blokli.ChannelMachine
import HoprUtilities.Blokli.Readable
import HoprUtilities.Blokli.ChannelRefinement
import HoprUtilities.Blokli.ChannelSimulation
import HoprUtilities.Blokli.Loading
import HoprUtilities.Blokli.BuiltChains
import HoprUtilities.Blokli.Mirror
import HoprUtilities.Blokli.Nonces
import HoprUtilities.Lib.Bookkeeping
import HoprUtilities.Blokli.SafeBooks
import HoprUtilities.Lib.Broadcast
import HoprUtilities.Blokli.Faults
import HoprUtilities.Blokli.Subscribers
import HoprUtilities.Blokli.Writes
import HoprUtilities.Blokli.WriteOutcomes
import HoprUtilities.Network.CaptureFile
