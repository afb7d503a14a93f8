import Stellar8004.Contracts.AgentDetail
import Stellar8004.Contracts.Authorisation
import Stellar8004.Contracts.Chain
import Stellar8004.Contracts.Explorer
import Stellar8004.Contracts.Identity
import Stellar8004.Contracts.IdentityLog
import Stellar8004.Contracts.IdentityRefinement
import Stellar8004.Contracts.IdentityStorage
import Stellar8004.Contracts.Interpretation
import Stellar8004.Contracts.Lifetimes
import Stellar8004.Contracts.Packets
import Stellar8004.Contracts.Pagination
import Stellar8004.Contracts.Projections
import Stellar8004.Contracts.PublicApi
import Stellar8004.Contracts.Readings
import Stellar8004.Contracts.Registration
import Stellar8004.Contracts.Replays
import Stellar8004.Contracts.Reputation
import Stellar8004.Contracts.ReputationRefinement
import Stellar8004.Contracts.ReputationStorage
import Stellar8004.Contracts.Runs
import Stellar8004.Contracts.Summary
import Stellar8004.Contracts.SummaryLaws
import Stellar8004.Contracts.Upgrades
import Stellar8004.Contracts.Validation
import Stellar8004.Contracts.ValidationRefinement
import Stellar8004.Contracts.ValidationStorage
import Stellar8004.Contracts.ValidationSummary
import Stellar8004.D1.Drafts
import Stellar8004.D1.Import
import Stellar8004.D1.Literals
import Stellar8004.D1.Loading
import Stellar8004.D1.Script
import Stellar8004.D1.ScriptText
import Stellar8004.D1.Snapshot
import Stellar8004.D1.Sqlite
import Stellar8004.D1.StatementSize
import Stellar8004.Indexer.Accounts
import Stellar8004.Indexer.AddressGrammar
import Stellar8004.Indexer.Addresses
import Stellar8004.Indexer.AttemptRuns
import Stellar8004.Indexer.Attempts
import Stellar8004.Indexer.BatchOrder
import Stellar8004.Indexer.CatchUp
import Stellar8004.Indexer.CellRefinement
import Stellar8004.Indexer.CellReplay
import Stellar8004.Indexer.Cells
import Stellar8004.Indexer.Constraints
import Stellar8004.Indexer.ContractScans
import Stellar8004.Indexer.Convergence
import Stellar8004.Indexer.Coverage
import Stellar8004.Indexer.Database
import Stellar8004.Indexer.Decoding
import Stellar8004.Indexer.Deferrals
import Stellar8004.Indexer.Dependents
import Stellar8004.Indexer.Documents
import Stellar8004.Indexer.Events
import Stellar8004.Indexer.Fetching
import Stellar8004.Indexer.Helpers
import Stellar8004.Indexer.Histories
import Stellar8004.Indexer.Host
import Stellar8004.Indexer.Instants
import Stellar8004.Indexer.LateWrites
import Stellar8004.Indexer.LockFence
import Stellar8004.Indexer.Pages
import Stellar8004.Indexer.ParsedEvents
import Stellar8004.Indexer.Parsers
import Stellar8004.Indexer.PublicHosts
import Stellar8004.Indexer.Resolver
import Stellar8004.Indexer.ResolverBackoff
import Stellar8004.Indexer.ResolverDrain
import Stellar8004.Indexer.ResolverQueue
import Stellar8004.Indexer.ResolverRuns
import Stellar8004.Indexer.Rpc
import Stellar8004.Indexer.RunOnce
import Stellar8004.Indexer.RunSteps
import Stellar8004.Indexer.Scan
import Stellar8004.Indexer.ScanRuns
import Stellar8004.Indexer.ScanSafety
import Stellar8004.Indexer.SearchIndex
import Stellar8004.Indexer.Statements
import Stellar8004.Indexer.Supply
import Stellar8004.Indexer.Tables
import Stellar8004.Indexer.Time
import Stellar8004.Indexer.TimeCalls
import Stellar8004.Indexer.TimeOrder
import Stellar8004.Indexer.UpdateTimes
import Stellar8004.Indexer.UriReplays
import Stellar8004.Indexer.Windows
import Stellar8004.Indexer.Writer
import Stellar8004.Library.Accepted
import Stellar8004.Library.Base64
import Stellar8004.Library.Costs
import Stellar8004.Library.Embedding
import Stellar8004.Library.Failures
import Stellar8004.Library.Groups
import Stellar8004.Library.Guarded
import Stellar8004.Library.IndexedList
import Stellar8004.Library.JoinedPairs
import Stellar8004.Library.Keyset
import Stellar8004.Library.Loops
import Stellar8004.Library.NumberedPages
import Stellar8004.Library.PagedList
import Stellar8004.Library.PercentEncoding
import Stellar8004.Library.Program
import Stellar8004.Library.Relations
import Stellar8004.Library.Replay
import Stellar8004.Library.Requests
import Stellar8004.Library.Stateful
import Stellar8004.Library.Threads
import Stellar8004.Library.Utf16
import Stellar8004.Soroban.StrKey
import Stellar8004.Soroban.Value
import Stellar8004.Web.AgentDetail
import Stellar8004.Web.Cursor
import Stellar8004.Web.CursorReader
import Stellar8004.Web.CursorTravel
import Stellar8004.Web.DataUri
import Stellar8004.Web.Discovery
import Stellar8004.Web.DiscoveryPages
import Stellar8004.Web.DiscoveryWalk
import Stellar8004.Web.EditForm
import Stellar8004.Web.ExplorerClient
import Stellar8004.Web.FeedbackReplies
import Stellar8004.Web.Freighter
import Stellar8004.Web.IndexerHealth
import Stellar8004.Web.Leaderboard
import Stellar8004.Web.ListPages
import Stellar8004.Web.MppClient
import Stellar8004.Web.PathGuard
import Stellar8004.Web.QueryBinding
import Stellar8004.Web.QueryText
import Stellar8004.Web.RegisterForm
import Stellar8004.Web.Script
import Stellar8004.Web.Search
import Stellar8004.Web.SearchParams
import Stellar8004.Web.SearchResults
import Stellar8004.Web.Services
