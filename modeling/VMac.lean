import VMac.Foundation.SlotRing
import VMac.Foundation.FixedWidthBytes
import VMac.Foundation.FallibleRun
import VMac.Foundation.BufferLedger
import VMac.Foundation.HashBuckets
import VMac.Foundation.CircularList
import VMac.Foundation.SideBySide
import VMac.Kernel
import VMac.Wire
import VMac.Entries
import VMac.ReceiveData
import VMac.ReceiveWindow
import VMac.DackCadence
import VMac.Foundation.WhileLoop
import VMac.HoleScan
import VMac.HoleShape
import VMac.DackSlot
import VMac.TransmitEntry
import VMac.DackPass
import VMac.RetransmissionCopies
import VMac.DackRace
import VMac.RetransmissionPacing
import VMac.RetransmissionSafety
import VMac.BufferOwnership
import VMac.Tables
import VMac.FramePath
import VMac.TableInvariant
import VMac.TableLookup
import VMac.RetransmissionRing
import VMac.CopyAccounts
import VMac.ReceiveEntry
import VMac.ReceiveMemory
import VMac.TransmitMemory
import VMac.StaleFrames
import VMac.DackTruth
import VMac.DackSuppression
import VMac.FrameBounds
import VMac.FrameConservation
import VMac.EntryExpiry
import VMac.EncodingIsolation
import VMac.EntryLifetime
import VMac.Queues
import VMac.QueueService
import VMac.StreamDelivery
import VMac.FrameRoundTrip
import VMac.MessageBounds
import VMac.IndexSafety
import VMac.RetransmissionOrder
import VMac.Foundation.TruncatedClock
import VMac.InterFrame
import VMac.LossCount
import VMac.DackBackoff
import VMac.DackCodec
import VMac.RateControl
import VMac.HandlerCases
import VMac.Station
import VMac.Foundation.SharedMedium
import VMac.NetworkIntegrity
import VMac.LossRepair
import VMac.Foundation.ProgressMeasure
import VMac.ServiceBound
import VMac.Subscriptions
import VMac.DackTraffic
import VMac.Foundation.OrderedPipe
import VMac.OrderedChannel
import VMac.HandlersReturn
import VMac.NetworkSafety
