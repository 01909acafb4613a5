import RatifyOs.Agent.Budget
import RatifyOs.Agent.Models
import RatifyOs.Agent.Protocol
import RatifyOs.Agent.Runtime
import RatifyOs.Agent.Value
import RatifyOs.Approvals.Binding
import RatifyOs.Approvals.Canonical
import RatifyOs.Approvals.Comparison
import RatifyOs.Async.Calls
import RatifyOs.Async.Cooperative
import RatifyOs.Async.Crash
import RatifyOs.Async.Exclusive
import RatifyOs.Async.Inline
import RatifyOs.Async.Program
import RatifyOs.Async.Refinement
import RatifyOs.Async.Shared
import RatifyOs.Async.System
import RatifyOs.Async.Transactions
import RatifyOs.Autonomy.Authority
import RatifyOs.Autonomy.Bookkeeping
import RatifyOs.Autonomy.Cron
import RatifyOs.Autonomy.Delegation
import RatifyOs.Autonomy.Delivery
import RatifyOs.Autonomy.Drain
import RatifyOs.Autonomy.Encoding
import RatifyOs.Autonomy.Events
import RatifyOs.Autonomy.Fencing
import RatifyOs.Autonomy.Grammar
import RatifyOs.Autonomy.Instances
import RatifyOs.Autonomy.Jobs
import RatifyOs.Autonomy.Leases
import RatifyOs.Autonomy.MemoryBus
import RatifyOs.Autonomy.Moves
import RatifyOs.Autonomy.Occurrences
import RatifyOs.Autonomy.Outbox
import RatifyOs.Autonomy.Overdue
import RatifyOs.Autonomy.Schedule
import RatifyOs.Autonomy.Scheduler
import RatifyOs.Autonomy.Settling
import RatifyOs.Autonomy.Subtree
import RatifyOs.Autonomy.Unblocked
import RatifyOs.Cluster.Chain
import RatifyOs.Cognition.Compilation
import RatifyOs.Cognition.Context
import RatifyOs.Cognition.Exchanges
import RatifyOs.Cognition.Pruning
import RatifyOs.Cognition.Skills
import RatifyOs.Data.Apportion
import RatifyOs.Data.Buffer
import RatifyOs.Data.Calendar
import RatifyOs.Data.Collation
import RatifyOs.Data.Consumption
import RatifyOs.Data.Double
import RatifyOs.Data.FileTree
import RatifyOs.Data.Grouping
import RatifyOs.Data.JsValue
import RatifyOs.Data.Json
import RatifyOs.Data.JsonParse
import RatifyOs.Data.Keyed
import RatifyOs.Data.Latest
import RatifyOs.Data.Lines
import RatifyOs.Data.Literal
import RatifyOs.Data.Merkle
import RatifyOs.Data.Numeral
import RatifyOs.Data.Regex
import RatifyOs.Data.Result
import RatifyOs.Data.Rounding
import RatifyOs.Data.Run
import RatifyOs.Data.Session
import RatifyOs.Data.Spelling
import RatifyOs.Data.Table
import RatifyOs.Data.Tally
import RatifyOs.Data.Through
import RatifyOs.Data.Utf16
import RatifyOs.Data.Utf8
import RatifyOs.Data.Window
import RatifyOs.Data.Words
import RatifyOs.Execution.Agreement
import RatifyOs.Execution.Alike
import RatifyOs.Execution.Answers
import RatifyOs.Execution.ApprovalEngine
import RatifyOs.Execution.ApprovalMatch
import RatifyOs.Execution.ApprovalRuns
import RatifyOs.Execution.ApprovalSafety
import RatifyOs.Execution.ApprovalTables
import RatifyOs.Execution.ApprovalTransactions
import RatifyOs.Execution.Approvals
import RatifyOs.Execution.Canonical
import RatifyOs.Execution.Control
import RatifyOs.Execution.Issuer
import RatifyOs.Execution.Ledger
import RatifyOs.Execution.Limits
import RatifyOs.Execution.Movement
import RatifyOs.Execution.Oversubscription
import RatifyOs.Execution.PolicyText
import RatifyOs.Execution.Reconciliation
import RatifyOs.Execution.RpcSimulator
import RatifyOs.Execution.Simulation
import RatifyOs.Gateway.Api
import RatifyOs.Gateway.Channels
import RatifyOs.Gateway.Core
import RatifyOs.Gateway.Finality
import RatifyOs.Gateway.Isolation
import RatifyOs.Gateway.Requests
import RatifyOs.Gateway.Restriction
import RatifyOs.Gateway.Telegram
import RatifyOs.Kernel.Blame
import RatifyOs.Kernel.Books
import RatifyOs.Kernel.Caps
import RatifyOs.Kernel.Discipline
import RatifyOs.Kernel.Expiry
import RatifyOs.Kernel.Fills
import RatifyOs.Kernel.Gateway
import RatifyOs.Kernel.Guards
import RatifyOs.Kernel.Idempotency
import RatifyOs.Kernel.Lifecycle
import RatifyOs.Kernel.Outcomes
import RatifyOs.Kernel.Preview
import RatifyOs.Kernel.Recovery
import RatifyOs.Kernel.Stages
import RatifyOs.Kernel.Store
import RatifyOs.Kernel.Switch
import RatifyOs.Kernel.Turns
import RatifyOs.Market.Aggregator
import RatifyOs.Market.Candles
import RatifyOs.Memory.Batch
import RatifyOs.Memory.Sessions
import RatifyOs.Memory.Store
import RatifyOs.Observability.Audit
import RatifyOs.Observability.Events
import RatifyOs.Perps.Drift
import RatifyOs.Perps.Exits
import RatifyOs.Perps.Exposure
import RatifyOs.Perps.Guards
import RatifyOs.Perps.Leverage
import RatifyOs.Perps.Liquidation
import RatifyOs.Perps.Portfolio
import RatifyOs.Perps.Types
import RatifyOs.Plugins.Host
import RatifyOs.Plugins.Installer
import RatifyOs.Pools.Brakes
import RatifyOs.Pools.Curve
import RatifyOs.Pools.CurveBuy
import RatifyOs.Pools.CurveSell
import RatifyOs.Pools.Deposit
import RatifyOs.Pools.Fee
import RatifyOs.Pools.Guards
import RatifyOs.Pools.Instructions
import RatifyOs.Pools.Open
import RatifyOs.Pools.Ranges
import RatifyOs.Pools.Rebalance
import RatifyOs.Pools.Withdraw
import RatifyOs.Settlement.Balances
import RatifyOs.Settlement.Shortfall
import RatifyOs.Signer.Dropped
import RatifyOs.Signer.Envelope
import RatifyOs.Signer.Fees
import RatifyOs.Signer.Frames
import RatifyOs.Signer.Loophole
import RatifyOs.Signer.Once
import RatifyOs.Signer.Policy
import RatifyOs.Signer.Retrieval
import RatifyOs.Signer.Service
import RatifyOs.Signer.Spending
import RatifyOs.Signer.System
import RatifyOs.Signer.Transaction
import RatifyOs.Storage.Branches
import RatifyOs.Storage.Lineage
import RatifyOs.Storage.Records
import RatifyOs.Storage.Retries
import RatifyOs.Storage.SessionStore
import RatifyOs.Strategy.Budget
import RatifyOs.Strategy.Executor
import RatifyOs.Strategy.Pause
import RatifyOs.Strategy.Runner
import RatifyOs.Tools.Failure
import RatifyOs.Tools.Invocation
import RatifyOs.Trading.Absorbing
import RatifyOs.Trading.Accounting
import RatifyOs.Trading.Approved
import RatifyOs.Trading.Authorize
import RatifyOs.Trading.Broadcast
import RatifyOs.Trading.Capital
import RatifyOs.Trading.Discipline
import RatifyOs.Trading.Dropped
import RatifyOs.Trading.Lifecycle
import RatifyOs.Trading.Orchestrator
import RatifyOs.Trading.Readings
import RatifyOs.Trading.System
import RatifyOs.Trading.Types
import RatifyOs.Watch.Connection
import RatifyOs.Watch.Following
import RatifyOs.Watch.Readings
import RatifyOs.Watch.Signals
import RatifyOs.Watch.Watcher
import RatifyOs.Web.Console
import RatifyOs.Web.RunStore
import RatifyOs.Web.Sessions
