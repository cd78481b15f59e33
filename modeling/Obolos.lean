import Obolos.LTS.Run
import Obolos.Limiter.Anchored
import Obolos.Evm.Basic
import Obolos.Contracts.PolicyEnvelope
import Obolos.Contracts.PolicySteps
import Obolos.Contracts.PolicyAccounting
import Obolos.Contracts.PolicyWindows
import Obolos.Contracts.EconomicLedger
import Obolos.Contracts.MarketSettlement
import Obolos.Contracts.Erc20
import Obolos.Contracts.Market
import Obolos.Contracts.Versions
import Obolos.Contracts.PolicyApprovals
import Obolos.Contracts.LedgerOrders
import Obolos.Contracts.MarketOrders
import Obolos.Contracts.MarketFees
import Obolos.Contracts.Receipts
import Obolos.Crash.Prog
import Obolos.Crash.Statement
import Obolos.Crash.Table
import Obolos.Crash.System
import Obolos.Crash.Reach
import Obolos.Crash.Outcome
import Obolos.Crash.Callers
import Obolos.Crash.Exclusive
import Obolos.Js.Text
import Obolos.Js.Json
import Obolos.Js.Value
import Obolos.Js.Utf8
import Obolos.Js.Same
import Obolos.Js.Parse
import Obolos.Platform.Database
import Obolos.Economy.Schema
import Obolos.Economy.CanonicalJson
import Obolos.Economy.KeyOrder
import Obolos.Economy.ServiceContract
import Obolos.Economy.RemoteService
import Obolos.Economy.Settlement
import Obolos.Economy.ExecutorState
import Obolos.Economy.PaidRequest
import Obolos.Economy.Operation
import Obolos.Economy.Effects
import Obolos.Economy.Circle
import Obolos.Economy.CircleCalls
import Obolos.Economy.CircleCorrelation
import Obolos.Economy.Executor
import Obolos.Economy.ExecutorLive
import Obolos.Economy.ExecutorInvariant
import Obolos.Economy.OperationSteps
import Obolos.Economy.Session
import Obolos.Economy.ExecutorSteps
import Obolos.Economy.ExecutorRuns
import Obolos.Economy.ExecutorPolicy
import Obolos.Economy.OrderTable
import Obolos.Economy.Collection
import Obolos.Economy.StoredTerms
import Obolos.Economy.Marketplace
import Obolos.Economy.OrderInvariant
import Obolos.Economy.OrderRuns
import Obolos.Economy.PaidOrders
import Obolos.Economy.Catalog
import Obolos.Economy.OrderRetries
import Obolos.Economy.ProviderTable
import Obolos.Js.BigInt
import Obolos.Js.Lines
import Obolos.Js.Printable
import Obolos.Js.Radix
import Obolos.Js.Loops
import Obolos.Numeric.WeightedIndex
import Obolos.Js.StableSort
import Obolos.Economy.Measurements
import Obolos.Economy.PriceHistory
import Obolos.Economy.Metrics
import Obolos.Economy.MetricLaws
import Obolos.Economy.IndexLaws
import Obolos.Economy.MeasurementMerges
import Obolos.Economy.MeasurementOrder
import Obolos.Economy.Recovery
import Obolos.Graph.Functional
import Obolos.Economy.Ownership
import Obolos.Economy.RecoveryTables
import Obolos.Economy.RecoveryRuns
import Obolos.Economy.RecoverySystem
import Obolos.Economy.RefundTransfers
import Obolos.Economy.RecoveryProjection
import Obolos.Economy.ProjectionLaws
import Obolos.Economy.Indexer
import Obolos.Economy.IndexerTables
import Obolos.Economy.IndexerRuns
import Obolos.Economy.IndexerSystem
import Obolos.Economy.ProductionAccount
import Obolos.Economy.ProductionStore
import Obolos.Economy.ProductionTables
import Obolos.Economy.ProductionSystem
import Obolos.Graph.EdgeList
import Obolos.Crash.Holding
import Obolos.Crash.Method
import Obolos.Crash.Sequential
import Obolos.Js.Jsonb
import Obolos.Runs.Audit
import Obolos.Runs.Contracts
import Obolos.Runs.Engine
import Obolos.Runs.Stores
import Obolos.Runs.EventLog
import Obolos.Runs.AuditChain
import Obolos.Runs.TableChain
import Obolos.Runs.Rejections
import Obolos.Runs.Turns
import Obolos.Runs.Spending
import Obolos.Runs.SpendingEngine
import Obolos.Runs.SpendingStore
import Obolos.Crash.Queue
import Obolos.Crash.Listing
import Obolos.Crash.Transactions
import Obolos.Crash.Only
import Obolos.Broker.Journal
import Obolos.Broker.Payments
import Obolos.Scripts.ProcessLock
import Obolos.Js.Base64
import Obolos.Js.Bytes
import Obolos.Tasks.Plan
import Obolos.Tasks.Templates
import Obolos.Tasks.Inputs
import Obolos.Tasks.Availability
import Obolos.Economy.Availability
import Obolos.Js.Dates
import Obolos.Economy.ProviderWork
import Obolos.Runs.Evidence
import Obolos.Runs.WorkerReport
import Obolos.Runs.MetricVerifier
import Obolos.Broker.Routes
import Obolos.Broker.Verification
import Obolos.Platform.DataService
import Obolos.Platform.DataPayments
import Obolos.Hedera.SchedulePlans
import Obolos.Platform.ScheduledDeliveries
import Obolos.Platform.ScheduledRuns
import Obolos.Runner.Journal
import Obolos.Runner.JournalRuns
import Obolos.Runner.MandatedGateway
import Obolos.Runner.MandatedRuns
import Obolos.Runner.MandateMessage
import Obolos.Hedera.Purchase
import Obolos.Hedera.PurchaseRuns
import Obolos.Hedera.TokenBuyer
import Obolos.Hedera.TokenBuyerRuns
import Obolos.Hedera.A2a
import Obolos.Hedera.A2aTokens
import Obolos.Hedera.Negotiation
import Obolos.Scripts.SignedTransaction
import Obolos.Hedera.HcsOperation
import Obolos.Hedera.Base58
import Obolos.Platform.MarketTable
import Obolos.Platform.Marketplace
import Obolos.Platform.MarketRuns
import Obolos.Platform.TaskTable
import Obolos.Platform.Tasks
import Obolos.Platform.TaskInvariant
import Obolos.Platform.TaskSteps
import Obolos.Platform.TaskRuns
import Obolos.Platform.TaskSafety
import Obolos.Economy.ProviderQueue
import Obolos.Economy.ProviderInvariant
import Obolos.Economy.ProviderRuns
import Obolos.Economy.ProviderSafety
