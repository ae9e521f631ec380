import Northstar.Agent.Acquisition
import Northstar.Agent.Apostrophes
import Northstar.Agent.Expiry
import Northstar.Agent.Composition
import Northstar.Agent.Fetching
import Northstar.Agent.Promotion
import Northstar.Agent.Prompt
import Northstar.Agent.Remaining
import Northstar.Agent.Compiling
import Northstar.Agent.Duplicates
import Northstar.Agent.Gates
import Northstar.Agent.Splicing
import Northstar.Broker.Authority
import Northstar.Broker.Isolation
import Northstar.Broker.Settle
import Northstar.Browser.Containment
import Northstar.Chrome.Authorization
import Northstar.Chrome.Redaction
import Northstar.Chrome.Delivery
import Northstar.Github.Cursor
import Northstar.Graph.Cursor
import Northstar.Network.AuthFetch
import Northstar.Research.Completeness
import Northstar.Runtime.Cancellation
import Northstar.Runtime.Delivery
import Northstar.Runtime.Host
import Northstar.Runtime.Lease
import Northstar.Process.McpClient
import Northstar.Runtime.Listener
import Northstar.Runtime.Reads
import Northstar.Runtime.Requests
import Northstar.Runtime.RunTable
import Northstar.Runtime.Sequencing
import Northstar.Runtime.StateStore
import Northstar.Runtime.Transport
import Northstar.Search.Bm25
import Northstar.Search.Fusion
import Northstar.Search.Policy
import Northstar.Sidecar.Orphans
import Northstar.Sparql.Search
import Northstar.Web.Content
import Northstar.Web.ContentStore
import Northstar.Web.Retrieve
import Northstar.Web.SiteFilter
import Northstar.Assets.Jpeg
import Northstar.Browser.PageState
import Northstar.Web.RscWalk
import Northstar.Content.Reopening
import Northstar.Content.Hints
import Northstar.Paging
import Northstar.Chrome.Confinement
import Northstar.Research.Binding
import Northstar.Research.Aggregate
import Northstar.Runtime.Replay
import Northstar.Social.Contract
import Northstar.Social.Resubmission
import Northstar.Social.Cursor
import Northstar.Browser.Output
import Northstar.Chrome.Polls
import Northstar.Chrome.CookieJar
import Northstar.Grouping
import Northstar.Knowledge.Aggregate
import Northstar.Knowledge.Conflicts
import Northstar.Knowledge.Identity
import Northstar.Web.Markers
import Northstar.Web.PageQuery
import Northstar.Web.Passages
import Northstar.Process.CliCommand
import Northstar.Agent.Emitted
import Northstar.Agent.Warnings
import Northstar.Github.CloneSafety
import Northstar.Histories
import Northstar.Vision.GeminiLease
