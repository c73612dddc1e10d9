import InferenceGate.Calendar.Date
import InferenceGate.Calendar.Instant
import InferenceGate.Call.Basic
import InferenceGate.Call.Pipeline
import InferenceGate.Call.Sequel
import InferenceGate.Call.Stage
import InferenceGate.Chat.Payload
import InferenceGate.Chat.Tokens
import InferenceGate.Chat.Turn
import InferenceGate.Config.Basic
import InferenceGate.Config.Reading
import InferenceGate.Credential.Base64Url
import InferenceGate.Credential.Claims
import InferenceGate.Credential.Digest
import InferenceGate.Credential.Gate
import InferenceGate.Credential.HeaderKey
import InferenceGate.Credential.Token
import InferenceGate.Decimal.Binary64
import InferenceGate.Decimal.Reading
import InferenceGate.Decimal.Shortest
import InferenceGate.Document.Tree
import InferenceGate.Http.Api
import InferenceGate.Http.Fields
import InferenceGate.Http.Query
import InferenceGate.Http.Status
import InferenceGate.Http.Uri
import InferenceGate.Ids
import InferenceGate.Json.Printing
import InferenceGate.Json.Reading
import InferenceGate.Json.Value
import InferenceGate.Messaging.Broker
import InferenceGate.Messaging.Connection
import InferenceGate.Messaging.Fanout
import InferenceGate.Messaging.Message
import InferenceGate.Proofs.Calendar.Days
import InferenceGate.Proofs.Calendar.Numbering
import InferenceGate.Proofs.Call.CutShort
import InferenceGate.Proofs.Call.Effects
import InferenceGate.Proofs.Call.Kept
import InferenceGate.Proofs.Call.Reading
import InferenceGate.Proofs.Call.Stages
import InferenceGate.Proofs.Chat.Abandoned
import InferenceGate.Proofs.Chat.Acceptance
import InferenceGate.Proofs.Chat.ConversationNumber
import InferenceGate.Proofs.Chat.Gateway
import InferenceGate.Proofs.Chat.Isolation
import InferenceGate.Proofs.Chat.Lawful
import InferenceGate.Proofs.Chat.Log
import InferenceGate.Proofs.Chat.Messages
import InferenceGate.Proofs.Chat.Replay
import InferenceGate.Proofs.Chat.ReplySize
import InferenceGate.Proofs.Chat.Room
import InferenceGate.Proofs.Chat.Runs
import InferenceGate.Proofs.Chat.Settling
import InferenceGate.Proofs.Chat.SideBySide
import InferenceGate.Proofs.Chat.Turns
import InferenceGate.Proofs.Credential.Base64
import InferenceGate.Proofs.Credential.Claims
import InferenceGate.Proofs.Credential.LoginWindow
import InferenceGate.Proofs.Credential.TokenSource
import InferenceGate.Proofs.Credential.Tokens
import InferenceGate.Proofs.Decimal.Exact
import InferenceGate.Proofs.Decimal.Nearest
import InferenceGate.Proofs.Decimal.Reading
import InferenceGate.Proofs.Decimal.Rounding
import InferenceGate.Proofs.Document.Fields
import InferenceGate.Proofs.Document.Records
import InferenceGate.Proofs.Http.Fields
import InferenceGate.Proofs.Http.Queries
import InferenceGate.Proofs.Ids.Drift
import InferenceGate.Proofs.Ids.Order
import InferenceGate.Proofs.Ids.Parts
import InferenceGate.Proofs.Json.Equality
import InferenceGate.Proofs.Json.Extent
import InferenceGate.Proofs.Json.Members
import InferenceGate.Proofs.Json.Numerals
import InferenceGate.Proofs.Json.Records
import InferenceGate.Proofs.Json.RoundTrip
import InferenceGate.Proofs.Messaging.Payloads
import InferenceGate.Proofs.Messaging.Record
import InferenceGate.Proofs.Messaging.Subscriptions
import InferenceGate.Proofs.Quota.Atomic
import InferenceGate.Proofs.Quota.Cache
import InferenceGate.Proofs.Quota.Counters
import InferenceGate.Proofs.Quota.Exact
import InferenceGate.Proofs.Quota.Keys
import InferenceGate.Proofs.Quota.Run
import InferenceGate.Proofs.Quota.TokenCost
import InferenceGate.Proofs.Relay.Address
import InferenceGate.Proofs.Relay.Capture
import InferenceGate.Proofs.Relay.QueryPieces
import InferenceGate.Proofs.Relay.RequestFields
import InferenceGate.Proofs.Relay.ResponseFields
import InferenceGate.Proofs.Relay.TokenParameter
import InferenceGate.Proofs.Reply.Accounts
import InferenceGate.Proofs.Reply.Cut
import InferenceGate.Proofs.Reply.Documents
import InferenceGate.Proofs.Reply.Events
import InferenceGate.Proofs.Reply.StreamUsage
import InferenceGate.Proofs.Reply.Streamed
import InferenceGate.Proofs.Server.Pages
import InferenceGate.Proofs.Store.AllTime
import InferenceGate.Proofs.Store.Books
import InferenceGate.Proofs.Store.Confined
import InferenceGate.Proofs.Store.DailyReport
import InferenceGate.Proofs.Store.Duty
import InferenceGate.Proofs.Store.Effects
import InferenceGate.Proofs.Store.Figures
import InferenceGate.Proofs.Store.Numbered
import InferenceGate.Proofs.Store.Order
import InferenceGate.Proofs.Store.Paging
import InferenceGate.Proofs.Store.Permit
import InferenceGate.Proofs.Store.RowsOfDays
import InferenceGate.Proofs.Store.Steps
import InferenceGate.Proofs.Store.SystemMessage
import InferenceGate.Proofs.Store.Tenant
import InferenceGate.Proofs.Store.Waits
import InferenceGate.Proofs.Store.Window
import InferenceGate.Proofs.Text.Ascii
import InferenceGate.Proofs.Text.Blanks
import InferenceGate.Proofs.Text.LowerCase
import InferenceGate.Proofs.Text.Numbers
import InferenceGate.Proofs.Text.Pieces
import InferenceGate.Proofs.Text.Spelling
import InferenceGate.Quota.Charge
import InferenceGate.Quota.Ledger
import InferenceGate.Quota.Settings
import InferenceGate.Relay.Backend
import InferenceGate.Relay.Fields
import InferenceGate.Relay.Stream
import InferenceGate.Relay.Target
import InferenceGate.Reply.Envelope
import InferenceGate.Reply.EventStream
import InferenceGate.Server.Basic
import InferenceGate.Server.Endpoint
import InferenceGate.Server.Handshake
import InferenceGate.Server.Listing
import InferenceGate.Server.Selection
import InferenceGate.Server.Serving
import InferenceGate.Server.Statement
import InferenceGate.Store.Accounts
import InferenceGate.Store.Conversations
import InferenceGate.Store.Report
import InferenceGate.Store.Routine
import InferenceGate.Store.Rows
import InferenceGate.Text.Blank
import InferenceGate.Text.Bytes
import InferenceGate.Text.Combining
import InferenceGate.Text.Graphic
import InferenceGate.Text.Integer
import InferenceGate.Text.Lossy
import InferenceGate.Text.Quoted
import InferenceGate.Toml.Moment
import InferenceGate.Toml.Reading
import InferenceGate.Toml.Scalar
import InferenceGate.Toml.Table
import InferenceGate.Total
import InferenceGate.Yaml.Block
import InferenceGate.Yaml.Cursor
import InferenceGate.Yaml.Node
import InferenceGate.Yaml.Plain
import InferenceGate.Yaml.Quoted
import InferenceGate.Yaml.Reading
import InferenceGate.Yaml.Scalar
import InferenceGate.Yaml.Tag
import InferenceGate.Yaml.Token
