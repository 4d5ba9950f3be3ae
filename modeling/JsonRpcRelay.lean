import JsonRpcRelay.Framework.Schedule
import JsonRpcRelay.Lock.RedisLock
import JsonRpcRelay.Lock.RedisLockQueue
import JsonRpcRelay.Lock.RedisLockFailOpen
import JsonRpcRelay.Framework.Fairness
import JsonRpcRelay.Lock.RedisLockWaiters
import JsonRpcRelay.Lock.RedisLockProgress
import JsonRpcRelay.Lock.RedisLockOrder
import JsonRpcRelay.Framework.Interleaving
import JsonRpcRelay.Framework.ExpiringStore
import JsonRpcRelay.HbarLimiter.Cache
import JsonRpcRelay.HbarLimiter.HbarLimitService
import JsonRpcRelay.HbarLimiter.Alone
import JsonRpcRelay.HbarLimiter.Attribution
import JsonRpcRelay.HbarLimiter.Budget
import JsonRpcRelay.HbarLimiter.Interleaved
import JsonRpcRelay.HbarLimiter.ConcurrentExpenses
import JsonRpcRelay.Framework.Discipline
import JsonRpcRelay.Lock.LockService
import JsonRpcRelay.Transactions.TransactionService
import JsonRpcRelay.Transactions.Stages
import JsonRpcRelay.Transactions.Relay
import JsonRpcRelay.Transactions.Released
import JsonRpcRelay.Transactions.NonceOrdering
import JsonRpcRelay.Framework.LRUCache
import JsonRpcRelay.Framework.Mutex
import JsonRpcRelay.Lock.LocalLock
import JsonRpcRelay.Lock.LocalLockInvariant
import JsonRpcRelay.Lock.LocalLockOrder
import JsonRpcRelay.Lock.LocalLockProgress
import JsonRpcRelay.Constants
import JsonRpcRelay.Formatters
import JsonRpcRelay.Framework.Grouping
import JsonRpcRelay.Blocks.Model
import JsonRpcRelay.Blocks.BlockWorker
import JsonRpcRelay.Blocks.TransactionViews
import JsonRpcRelay.Blocks.Receipts
import JsonRpcRelay.Framework.BloomFilter
import JsonRpcRelay.Blocks.LogsBloom
import JsonRpcRelay.Framework.Memo
import JsonRpcRelay.Mirror.ResolveEntityType
import JsonRpcRelay.Mirror.Chain
import JsonRpcRelay.Common.CommonService
import JsonRpcRelay.Blocks.TransactionService
import JsonRpcRelay.Blocks.SameTransaction
import JsonRpcRelay.Blocks.SameReceipt
import JsonRpcRelay.Debug.TracedTransactions
import JsonRpcRelay.Common.LogQueries
import JsonRpcRelay.Framework.Cursor
import JsonRpcRelay.Filters.FilterService
import JsonRpcRelay.Filters.Queries
import JsonRpcRelay.Filters.Polling
import JsonRpcRelay.Filters.BlockFilter
import JsonRpcRelay.Filters.LogFilter
import JsonRpcRelay.Filters.ConcurrentFilter
import JsonRpcRelay.Framework.Decimal
import JsonRpcRelay.Framework.Json
import JsonRpcRelay.Cache.CacheDecorator
import JsonRpcRelay.Common.FixedChain
import JsonRpcRelay.Common.GetLogs
import JsonRpcRelay.Common.LogRequests
import JsonRpcRelay.Validators.Types
import JsonRpcRelay.Validators.ObjectTypes
import JsonRpcRelay.Cache.CachedMethods
import JsonRpcRelay.Validators.Accepted
import JsonRpcRelay.Cache.CacheKeys
import JsonRpcRelay.Dispatcher.RpcMethodRegistry
import JsonRpcRelay.Dispatcher.Arguments
import JsonRpcRelay.Contract.ContractService
import JsonRpcRelay.Contract.Params
import JsonRpcRelay.Cache.SettledLogs
import JsonRpcRelay.Contract.Contracts
import JsonRpcRelay.Cache.SettledCalls
import JsonRpcRelay.Framework.ExpiringSets
import JsonRpcRelay.TransactionPool.RedisPendingTransactionStorage
import JsonRpcRelay.TransactionPool.GlobalIndex
import JsonRpcRelay.Framework.Keyed
import JsonRpcRelay.RateLimiter.LruRateLimitStore
import JsonRpcRelay.RateLimiter.Windows
import JsonRpcRelay.RateLimiter.RedisRateLimitStore
import JsonRpcRelay.RateLimiter.Counters
import JsonRpcRelay.Server.RpcResponse
import JsonRpcRelay.Server.KoaJsonRpc
import JsonRpcRelay.WsServer.JsonRpcController
import JsonRpcRelay.WsServer.Answers
import JsonRpcRelay.WsServer.SubscriptionService
import JsonRpcRelay.WsServer.SubscriptionLimit
import JsonRpcRelay.WsServer.SubscriptionCounter
import JsonRpcRelay.WsServer.PollerService
import JsonRpcRelay.WsServer.LogDelivery
import JsonRpcRelay.WsServer.SentLogs
import JsonRpcRelay.Account.AccountService
import JsonRpcRelay.Account.Network
import JsonRpcRelay.Account.SameBlock
import JsonRpcRelay.Fees.FeeService
import JsonRpcRelay.Framework.Tracked
import JsonRpcRelay.Account.StableAnswers
import JsonRpcRelay.Cache.StoredResults
import JsonRpcRelay.Cache.FailedRequests
import JsonRpcRelay.Cache.Handlers
import JsonRpcRelay.Framework.History
import JsonRpcRelay.Framework.Layers
import JsonRpcRelay.Clients.SdkClient
import JsonRpcRelay.Clients.ChargeReports
import JsonRpcRelay.Clients.CreatedFiles
import JsonRpcRelay.Transactions.FileCleanup
import JsonRpcRelay.Clients.CacheClients
import JsonRpcRelay.Clients.SameAnswers
import JsonRpcRelay.SpendingPlans.Repositories
import JsonRpcRelay.SpendingPlans.ConfigService
import JsonRpcRelay.SpendingPlans.Effects
import JsonRpcRelay.SpendingPlans.StoredPlans
import JsonRpcRelay.SpendingPlans.LimiterWrites
import JsonRpcRelay.SpendingPlans.Restarts
import JsonRpcRelay.Mirror.Pagination
import JsonRpcRelay.Mirror.Retries
import JsonRpcRelay.Common.ImmatureLogs
import JsonRpcRelay.Framework.StableSort
import JsonRpcRelay.Common.AddressUnion
import JsonRpcRelay.Framework.InsertionSet
import JsonRpcRelay.Framework.Indexing
import JsonRpcRelay.TransactionPool.LocalPendingTransactionStorage
import JsonRpcRelay.TransactionPool.TxPool
import JsonRpcRelay.WsServer.ConnectionLimiter
import JsonRpcRelay.WsServer.PolledTags
import JsonRpcRelay.Account.RecentBalance
import JsonRpcRelay.Common.BlockRanges
import JsonRpcRelay.Framework.Assignment
import JsonRpcRelay.SpendingPlans.AddressLinks
import JsonRpcRelay.Framework.Eviction
import JsonRpcRelay.Clients.Eviction
import JsonRpcRelay.SpendingPlans.ReservedKeys
import JsonRpcRelay.Account.SentTransactions
import JsonRpcRelay.Framework.Binary64
import JsonRpcRelay.Account.ParsedAmounts
import JsonRpcRelay.Fees.HistoryShape
import JsonRpcRelay.HbarLimiter.Decisions
import JsonRpcRelay.Framework.Windows
import JsonRpcRelay.HbarLimiter.ResetWindows
import JsonRpcRelay.SpendingPlans.FreshPlans
import JsonRpcRelay.SpendingPlans.VanishingPlans
import JsonRpcRelay.Transactions.Answers
import JsonRpcRelay.Framework.Wildcards
import JsonRpcRelay.Framework.Replacement
import JsonRpcRelay.Clients.KeyPatterns
import JsonRpcRelay.Clients.KeyTranslation
import JsonRpcRelay.Clients.MatchingKeys
import JsonRpcRelay.Framework.HexBytes
import JsonRpcRelay.Transactions.SubmittedBytes
import JsonRpcRelay.Framework.Chunks
import JsonRpcRelay.Clients.FileFees
import JsonRpcRelay.Filters.AcceptedFilters
import JsonRpcRelay.Framework.Attempts
import JsonRpcRelay.Filters.Leases
import JsonRpcRelay.Framework.Entries
import JsonRpcRelay.Debug.PrestateTraces
import JsonRpcRelay.Framework.Settling
import JsonRpcRelay.Debug.Tracers
import JsonRpcRelay.Debug.BlockTraces
import JsonRpcRelay.Framework.JsonReader
import JsonRpcRelay.Workers.WorkersPool
import JsonRpcRelay.Blocks.RevertReasons
import JsonRpcRelay.Contract.ErrorMessages
import JsonRpcRelay.Framework.DoubleTexts
import JsonRpcRelay.Blocks.CanonicalNumbers
import JsonRpcRelay.Framework.Patterns
import JsonRpcRelay.Validators.BlockNumbers
import JsonRpcRelay.Server.ForwardedHeader
import JsonRpcRelay.Framework.DoubleFractions
import JsonRpcRelay.Hapi.HapiService
import JsonRpcRelay.Hapi.ClientReuse
import JsonRpcRelay.Framework.Rules
import JsonRpcRelay.Transactions.Precheck
import JsonRpcRelay.Transactions.OwnAnswers
import JsonRpcRelay.Validators.Rejected
import JsonRpcRelay.Dispatcher.RpcMethodDispatcher
import JsonRpcRelay.Server.HttpServer
import JsonRpcRelay.Cache.SafeRedisCache
import JsonRpcRelay.TransactionPool.StoragesAgree
import JsonRpcRelay.Framework.FixedWindows
import JsonRpcRelay.RateLimiter.Guarantees
import JsonRpcRelay.WsServer.HttpParity
