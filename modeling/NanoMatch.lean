import NanoMatch.IntrusiveList
import NanoMatch.Order
import NanoMatch.OrderPool
import NanoMatch.PoolRuns
import NanoMatch.PriceGrid
import NanoMatch.PriceLevel
import NanoMatch.OrderBook
import NanoMatch.OrderBookRepresentation
import NanoMatch.OrderBookOperations
import NanoMatch.OrderBookExact
import NanoMatch.OrderBookRuns
import NanoMatch.MatchingEngine
import NanoMatch.EngineRepresentation
import NanoMatch.MatchingSweep
import NanoMatch.EngineSteps
import NanoMatch.EngineRuns
import NanoMatch.Uncrossed
import NanoMatch.SweepAccounting
import NanoMatch.OrderOutcome
import NanoMatch.FeasibilityScan
import NanoMatch.Cancellable
import NanoMatch.ReportLedger
import NanoMatch.Exchange
import NanoMatch.ExchangeRefinement
import NanoMatch.CounterLog
import NanoMatch.ExchangeRuns
import NanoMatch.SpscQueue
import NanoMatch.LittleEndian
import NanoMatch.SpscFifo
import NanoMatch.SpscWaitFree
import NanoMatch.WireProtocol
import NanoMatch.Decoder
import NanoMatch.PoolAccounting
import NanoMatch.LevelTotals
import NanoMatch.Framing
import NanoMatch.WireGrammar
import NanoMatch.Encoder
import NanoMatch.SubmissionRing
import NanoMatch.SendSlots
import NanoMatch.SendBackPressure
import NanoMatch.SendStream
import NanoMatch.BufferOwnership
import NanoMatch.BookContents
import NanoMatch.LockStep
import NanoMatch.MirroredSteps
import NanoMatch.InstrumentIsolation
import NanoMatch.BoundedFifo
import NanoMatch.SpscBounded
import NanoMatch.Pipeline
import NanoMatch.ScheduleIndependence
import NanoMatch.CheckedInt64
import NanoMatch.GridArithmetic
import NanoMatch.HeaderCounts
import NanoMatch.RingBatches
import NanoMatch.Rejection
import NanoMatch.AlignedRuns
import NanoMatch.LimitThenCancel
import NanoMatch.SweepTermination
import NanoMatch.QueueObservers
import NanoMatch.SizeApprox
import NanoMatch.OwnCalls
import NanoMatch.FairProgress
import NanoMatch.PipelineProgress
import NanoMatch.ReceiverDelivery
import NanoMatch.ReceiverProgress
import NanoMatch.Assembly
import NanoMatch.JoinedQueues
import NanoMatch.EndToEnd
import NanoMatch.ExecutionTape
import NanoMatch.Shutdown
import NanoMatch.ReportBudget
import NanoMatch.FinalStatistics
import NanoMatch.PriorityLevels
import NanoMatch.BookPriority
import NanoMatch.BookPriorityRuns
import NanoMatch.EngineWrites
import NanoMatch.ArrivalOrder
import NanoMatch.DebugBuild
import NanoMatch.DebugRuns
