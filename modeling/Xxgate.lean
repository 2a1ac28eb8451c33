import Xxgate.Base.Rollup
import Xxgate.Base.Task
import Xxgate.Codex.Recovery
import Xxgate.Store.Report
import Xxgate.Store.Mappings
import Xxgate.Codex.References
import Xxgate.Gateway.Holdings
import Xxgate.Scheduling.Progress
import Xxgate.Scheduling.Fairness
import Xxgate.Scheduling.Eligibility
import Xxgate.Gateway.Passing
import Xxgate.Gateway.Permits
import Xxgate.Gateway.Books
import Xxgate.Accounts.Observed
import Xxgate.Accounts.Cooldown
import Xxgate.Accounts.Bracket
import Xxgate.Accounts.Rotation
import Xxgate.Codex.Events
import Xxgate.Codex.Framing
import Xxgate.Codex.Request
import Xxgate.Base.Erase
import Xxgate.Codex.Places
import Xxgate.Codex.Resolution
import Xxgate.Base.StableSort
import Xxgate.Codex.Cleanup
import Xxgate.Core.Pricing
import Xxgate.Core.Memory
import Xxgate.Core.Reports
import Xxgate.Core.MemoryJson
import Xxgate.Codex.Quota
import Xxgate.Codex.ImageUsage
import Xxgate.Codex.Preparable
import Xxgate.Codex.Projections
import Xxgate.Codex.Isolation
import Xxgate.Codex.SearchHistory
import Xxgate.Scheduling.MemoryBudget
import Xxgate.Scheduling.Queueing
import Xxgate.Scheduling.PublicModels
import Xxgate.Core.TurnState
import Xxgate.Resets.Idempotent
import Xxgate.Access.Settings
import Xxgate.Oauth.Exchanged
import Xxgate.Oauth.Served
import Xxgate.Transport.Clients
import Xxgate.Gateway.Screening
import Xxgate.Workers.ModelVersion
import Xxgate.Codex.Errors
