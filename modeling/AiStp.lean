import AiStp.Sync.Server.Heads
import AiStp.Sync.Server.Replay
import AiStp.Client.Store.Heads
import AiStp.Sync.Client.RemoteHead
import AiStp.Sync.Client.Redelivery
import AiStp.Sync.Client.Consent
import AiStp.Sync.Client.Following
import AiStp.Queue.Cancellation
import AiStp.Queue.Credentials
import AiStp.Custody.Shared
import AiStp.Sync.Client.Readable
import AiStp.Context.Conflicts
import AiStp.Context.Settlement
import AiStp.Corporate.Administration
import AiStp.Publication.Verdicts
import AiStp.Publication.Ownership
import AiStp.Upstream.Reconciliation
import AiStp.Articles.Generations
import AiStp.Corporate.Revocation
import AiStp.Grants.Withdrawals
import AiStp.Technology.Decisions
import AiStp.Technology.Merge
import AiStp.Catalog.Projection
import AiStp.Catalog.Relations
import AiStp.Telemetry.Erasure
import AiStp.Telemetry.Confluence
import AiStp.Telemetry.ReportAssembly
import AiStp.Projection.Canonical
import AiStp.Auth.Links
import AiStp.Auth.SignIn
import AiStp.Setups.Closure
import AiStp.Installation.EffectPaths
import AiStp.Sync.Server.Undelivered
import AiStp.Sync.Client.Merge
import AiStp.Sync.Server.Pull
import AiStp.Installation.Pending
import AiStp.Selection.Closure
import AiStp.Catalog.QueryExact
import AiStp.Catalog.Pagination
