import Genaryx.Admission.Redaction
import Genaryx.Base.Base64
import Genaryx.Base.Binary64
import Genaryx.Base.Broadcast
import Genaryx.Base.Custody
import Genaryx.Base.Ddl
import Genaryx.Base.Der
import Genaryx.Base.Digest
import Genaryx.Base.Framing
import Genaryx.Base.Items
import Genaryx.Base.Letters
import Genaryx.Base.Lines
import Genaryx.Base.Matches
import Genaryx.Base.Numbers
import Genaryx.Base.Offsets
import Genaryx.Base.Path
import Genaryx.Base.Pieces
import Genaryx.Base.Recency
import Genaryx.Base.Replace
import Genaryx.Base.Rfc3339
import Genaryx.Base.Settings
import Genaryx.Base.Shell
import Genaryx.Base.Sql
import Genaryx.Base.Tally
import Genaryx.Base.Text
import Genaryx.Base.Timestamp
import Genaryx.Base.Transition
import Genaryx.Base.UrlPath
import Genaryx.Base.Utf8
import Genaryx.Base.Words
import Genaryx.Base.Writes
import Genaryx.Case.Counts
import Genaryx.Case.File
import Genaryx.Case.Gather
import Genaryx.Ceremony.Authorised
import Genaryx.Ceremony.Console
import Genaryx.Ceremony.Enrolment
import Genaryx.Ceremony.Enrolments
import Genaryx.Ceremony.Ledger
import Genaryx.Ceremony.Removal
import Genaryx.Ceremony.Roles
import Genaryx.Ceremony.SignCount
import Genaryx.Ceremony.Sound
import Genaryx.Ceremony.Steps
import Genaryx.Ceremony.WebAuthn
import Genaryx.Command.Chain
import Genaryx.Command.Conforming
import Genaryx.Command.Journal
import Genaryx.Command.Line
import Genaryx.Command.Privileged
import Genaryx.Copilot.Agent
import Genaryx.Copilot.Amounts
import Genaryx.Copilot.Anthropic
import Genaryx.Copilot.Clauses
import Genaryx.Copilot.Evidence
import Genaryx.Copilot.Fences
import Genaryx.Copilot.FuseKey
import Genaryx.Copilot.Grounding
import Genaryx.Copilot.Heard
import Genaryx.Copilot.Named
import Genaryx.Copilot.OpenAi
import Genaryx.Copilot.Quoted
import Genaryx.Copilot.References
import Genaryx.Copilot.Residency
import Genaryx.Copilot.Screened
import Genaryx.Copilot.Statements
import Genaryx.Copilot.Untrusted
import Genaryx.Copilot.Walked
import Genaryx.Core.Attribution
import Genaryx.Core.Conform
import Genaryx.Core.Dedupe
import Genaryx.Core.Event
import Genaryx.Core.Graph
import Genaryx.Core.GraphCounts
import Genaryx.Core.LastSeen
import Genaryx.Core.Migrate
import Genaryx.Core.Queries
import Genaryx.Core.Refused
import Genaryx.Core.Retention
import Genaryx.Core.Slice
import Genaryx.Core.Store
import Genaryx.Credentials.Posture
import Genaryx.Delegation.Stop
import Genaryx.Delegation.Stopped
import Genaryx.Delegation.Vouchryx
import Genaryx.Egress.Panel
import Genaryx.Evidence.Exact
import Genaryx.Evidence.Pack
import Genaryx.Hcl.Body
import Genaryx.Hcl.Read
import Genaryx.Hcl.Template
import Genaryx.Ingest.Cycle
import Genaryx.Ingest.Failure
import Genaryx.Ingest.FileTail
import Genaryx.Ingest.Live
import Genaryx.Ingest.Pinned
import Genaryx.Ingest.Resume
import Genaryx.Ingest.Service
import Genaryx.Ingest.StoreDir
import Genaryx.Ingest.Streamed
import Genaryx.Json.Display
import Genaryx.Json.Double
import Genaryx.Json.Grammar
import Genaryx.Json.Pretty
import Genaryx.Json.Read
import Genaryx.Json.Schema
import Genaryx.Json.Value
import Genaryx.Json.Write
import Genaryx.Lifecycle.Block
import Genaryx.Lifecycle.Dispatch
import Genaryx.Lifecycle.InStep
import Genaryx.Lifecycle.Members
import Genaryx.Mcp.Answered
import Genaryx.Mcp.Client
import Genaryx.Memory.Held
import Genaryx.Memory.Pool
import Genaryx.Money.Cloud
import Genaryx.Money.Commands
import Genaryx.Money.Evidence
import Genaryx.Money.Retained
import Genaryx.Money.Segments
import Genaryx.Money.Units
import Genaryx.Onboard.Accepted
import Genaryx.Onboard.Distinct
import Genaryx.Onboard.Generate
import Genaryx.Onboard.Grammar
import Genaryx.Onboard.Listed
import Genaryx.Onboard.Meant
import Genaryx.Onboard.Snippet
import Genaryx.Onboard.Staged
import Genaryx.Onboard.Stub
import Genaryx.Policy.Approvals
import Genaryx.Policy.Confirmed
import Genaryx.Policy.KeyExact
import Genaryx.Policy.KeyFormat
import Genaryx.Policy.Legal
import Genaryx.Policy.Statement
import Genaryx.Policy.Verify
import Genaryx.Policy.Wardryx
import Genaryx.Remedies.Checked
import Genaryx.Remedies.Routes
import Genaryx.Remote.Accounted
import Genaryx.Remote.Panel
import Genaryx.Remote.Ssh
import Genaryx.Replay.Amounts
import Genaryx.Replay.Answered
import Genaryx.Replay.Arguments
import Genaryx.Replay.Backtest
import Genaryx.Replay.Bounded
import Genaryx.Replay.Echo
import Genaryx.Replay.Halves
import Genaryx.Replay.Legible
import Genaryx.Replay.Query
import Genaryx.Replay.Reading
import Genaryx.Replay.Remainder
import Genaryx.Replay.Report
import Genaryx.Replay.Slots
import Genaryx.Replay.Table
import Genaryx.Seal.Commands
import Genaryx.Seal.Doubles
import Genaryx.Seal.Finite
import Genaryx.Seal.Identity
import Genaryx.Seal.Jcs
import Genaryx.Seal.Numbers
import Genaryx.Seal.Operations
import Genaryx.Seal.Stored
import Genaryx.Sse.Cloud
import Genaryx.Sse.Decoder
import Genaryx.Sse.Resume
import Genaryx.Stats.Agreement
import Genaryx.Stats.Days
import Genaryx.Stats.Halts
import Genaryx.Stats.Holds
import Genaryx.Stats.Panels
import Genaryx.Stats.Profile
import Genaryx.Stats.Totals
import Genaryx.Stats.Vocabulary
import Genaryx.Web.Backed
import Genaryx.Web.Flood
import Genaryx.Web.Gate
import Genaryx.Web.JwksBody
import Genaryx.Web.Lifetime
import Genaryx.Web.LiveKeys
import Genaryx.Web.Sessions
import Genaryx.Web.SignIn
import Genaryx.Web.Throttle
import Genaryx.Wg.Addresses
import Genaryx.Wg.Dump
import Genaryx.Wg.Interface
import Genaryx.Wg.Journaled
import Genaryx.Wg.KeyCheck
import Genaryx.Wg.Keys
import Genaryx.Wg.Operator
import Genaryx.Wg.ReadBack
import Genaryx.Wg.Requests
import Genaryx.Wg.Uapi
import Genaryx.Yaml.Read
