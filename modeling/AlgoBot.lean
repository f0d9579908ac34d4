import AlgoBot.Core.Machine
import AlgoBot.Core.Owner
import AlgoBot.Core.Table
import AlgoBot.Core.Decimal
import AlgoBot.Python.Value
import AlgoBot.Billing.Models
import AlgoBot.Billing.Status
import AlgoBot.Billing.Effect
import AlgoBot.Billing.Amount
import AlgoBot.Billing.Webhook
import AlgoBot.Billing.Redelivery
import AlgoBot.Billing.Updates
import AlgoBot.Billing.Checkout
import AlgoBot.Billing.CheckoutRuns
import AlgoBot.Billing.CheckoutErrors
import AlgoBot.Billing.Refusals
import AlgoBot.Execution.Models
import AlgoBot.Execution.Engine
import AlgoBot.Execution.Ownership
import AlgoBot.Execution.Submission
import AlgoBot.Execution.Cancel
import AlgoBot.Execution.Calls
import AlgoBot.Execution.Recovery
import AlgoBot.Backtesting.Fencing
import AlgoBot.Execution.Reconciliation
import AlgoBot.Execution.EventOwnership
import AlgoBot.Core.Once
import AlgoBot.Execution.Requests
import AlgoBot.Brokers.Positions
import AlgoBot.Brokers.Submit
import AlgoBot.Brokers.Closing
import AlgoBot.Brokers.Settlement
import AlgoBot.Automation.Models
import AlgoBot.Automation.Schedules
import AlgoBot.Automation.Approvals
import AlgoBot.Automation.Orders
import AlgoBot.Automation.Chains
import AlgoBot.Billing.Referral
import AlgoBot.Portfolios.Allocation
import AlgoBot.Portfolios.CashFlows
import AlgoBot.Execution.TradeHistory
import AlgoBot.Billing.Quota
import AlgoBot.CopyTrading.Limits
import AlgoBot.Core.Cache
import AlgoBot.Core.Lock
import AlgoBot.Automation.Dispatch
import AlgoBot.Brokers.Contracts
import AlgoBot.Brokers.Accounts
import AlgoBot.Execution.Preview
import AlgoBot.Developer.Keys
import AlgoBot.Brokers.ActiveAccount
import AlgoBot.Python.Text
import AlgoBot.Auth.RecoveryCodes
import AlgoBot.Auth.Passwords
import AlgoBot.Notifications.Delivery
import AlgoBot.Notifications.Queue
import AlgoBot.Notifications.Models
import AlgoBot.Auth.Email
import AlgoBot.Auth.Google
import AlgoBot.Auth.TwoFactor
import AlgoBot.Notifications.Telegram
import AlgoBot.Core.Double
import AlgoBot.Core.HashChain
import AlgoBot.Core.ReadCommitted
import AlgoBot.AiEngine.Champion
import AlgoBot.AiEngine.Outcomes
import AlgoBot.Python.Json
import AlgoBot.Monitoring.Audit
import AlgoBot.Monitoring.Tampering
import AlgoBot.AiEngine.TrainingLock
import AlgoBot.AiEngine.Artifacts
import AlgoBot.Strategies.Activation
import AlgoBot.Brokers.OAuthCallback
import AlgoBot.Brokers.TokenRotation
import AlgoBot.Billing.References
import AlgoBot.Billing.Renewals
import AlgoBot.Automation.Conditions
import AlgoBot.Automation.FailClosed
import AlgoBot.Execution.Discrepancies
import AlgoBot.Execution.Batches
import AlgoBot.Execution.PreviewGates
import AlgoBot.Risk.Approval
import AlgoBot.Risk.ConsensusOrders
import AlgoBot.Automation.Workflows
import AlgoBot.Automation.Martingale
import AlgoBot.Backtesting.Score
import AlgoBot.Brokers.Equity
import AlgoBot.Brokers.Retry
import AlgoBot.Brokers.Acceptance
import AlgoBot.CopyTrading.Signals
import AlgoBot.CopyTrading.Subscribe
import AlgoBot.Core.DecimalOrder
import AlgoBot.Risk.Sizing
import AlgoBot.Analysis.Budget
import AlgoBot.Portfolios.EqualWeight
import AlgoBot.MarketData.Provenance
import AlgoBot.MarketData.Announcements
import AlgoBot.MarketData.Aggregation
import AlgoBot.MarketData.Snapshot
import AlgoBot.MarketData.Persistence
import AlgoBot.Auth.Attempts
import AlgoBot.Developer.RateLimit
import AlgoBot.Settings.Api
import AlgoBot.Notifications.TelegramBinding
import AlgoBot.Analysis.Indicators
import AlgoBot.Analysis.TechnicalScore
import AlgoBot.Analysis.Gate
import AlgoBot.MarketData.LiveSignals
import AlgoBot.Core.Causal
import AlgoBot.Strategies.Parity
import AlgoBot.Auth.Sessions
import AlgoBot.Cloudflare.Queues
import AlgoBot.Portfolios.Optimization
import AlgoBot.Core.Backlog
import AlgoBot.AiEngine.Starvation
import AlgoBot.Strategies.Criteria
import AlgoBot.AiEngine.ClosedCandles
import AlgoBot.Core.AsOf
import AlgoBot.AiEngine.Dataset
import AlgoBot.Strategies.Lookahead
import AlgoBot.Brokers.ProjectChanges
import AlgoBot.Core.DoubleError
import AlgoBot.AiEngine.Consensus
import AlgoBot.MarketData.Nesting
import AlgoBot.Core.Merged
import AlgoBot.Observability.AuditFeed
import AlgoBot.Realtime.MarketEvents
