import Floodgate.BufferBound
import Floodgate.VoqRuns
import Floodgate.DestinationOrder
import Floodgate.DrainComplete
import Floodgate.TorWindows
import Floodgate.AbsoluteAcks
import Floodgate.DrillRouting
import Floodgate.StrandedCredit
import Floodgate.CreditTimer
import Floodgate.SynTimer
import Floodgate.PfcLink
import Floodgate.GoBackN
import Floodgate.MessageCache
import Floodgate.MessageTimer
import Floodgate.FlowCompletion
import Floodgate.AckGeneration
import Floodgate.RefusedEnqueue
import Floodgate.LinkDown
import Floodgate.MixedPfc
import Floodgate.Rerouting
import Floodgate.NicWakeup
import Floodgate.ReceiverCompletion
import Floodgate.Segmentation
import Floodgate.Routes
import Floodgate.SymmetricRouting
import Floodgate.TransportIdentity
import Floodgate.NackRecovery
import Floodgate.RateReset
import Floodgate.DcqcnTimers
import Floodgate.ByteCounter
import Floodgate.WireFormat
import Floodgate.HostAcks
import Floodgate.PacketAccounting
import Floodgate.IngressDecision
import Floodgate.HostSchedule
import Floodgate.FairService
import Floodgate.IntSamples
import Floodgate.InPlaceHop
import Floodgate.BacklogSignal
import Floodgate.PairTables
import Floodgate.HpccRuns
import Floodgate.RateRange
import Floodgate.PsnChain
import Floodgate.HeaderCodec
import Floodgate.LinkMatrices
import Floodgate.DownHosts
import Floodgate.SynExchange
import Floodgate.ControlAddresses
import Floodgate.CreditConservation
import Floodgate.SynOrder
import Floodgate.HeapScheduler
import Floodgate.CalendarScheduler
import Floodgate.LinkTransmission
import Floodgate.QuietNetwork
import Floodgate.PacketSharing
import Floodgate.ExperimentEnd
