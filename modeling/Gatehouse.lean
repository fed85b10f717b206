import Gatehouse.Base64
import Gatehouse.Body
import Gatehouse.Bytes
import Gatehouse.Cache.Capture
import Gatehouse.Cache.Entry
import Gatehouse.Cache.Key
import Gatehouse.Context
import Gatehouse.Digest.Sha256
import Gatehouse.Failure
import Gatehouse.Flow
import Gatehouse.Gate
import Gatehouse.Glob
import Gatehouse.Http.Cookie
import Gatehouse.Http.Headers
import Gatehouse.Http.Request
import Gatehouse.Http.Status
import Gatehouse.Http.Target
import Gatehouse.Journal
import Gatehouse.Json.Basic
import Gatehouse.Json.Lexer
import Gatehouse.Json.Magnitude
import Gatehouse.Json.Parser
import Gatehouse.Json.Progress
import Gatehouse.Json.Record
import Gatehouse.Layer
import Gatehouse.Layer.Auth
import Gatehouse.Layer.Cache
import Gatehouse.Layer.Logger
import Gatehouse.Layer.Marks
import Gatehouse.Layer.RateLimit
import Gatehouse.Limiter
import Gatehouse.Net.Address
import Gatehouse.Net.Network
import Gatehouse.Proofs.Store.Ideal
import Gatehouse.Proofs.Store.Live
import Gatehouse.Redis.Client
import Gatehouse.Redis.Connection
import Gatehouse.Redis.Exchange
import Gatehouse.Redis.Reply
import Gatehouse.Redis.Url
import Gatehouse.Response
import Gatehouse.Settings
import Gatehouse.Settings.Environment
import Gatehouse.Settings.Quoting
import Gatehouse.Site
import Gatehouse.Site.Cors
import Gatehouse.Site.Handlers
import Gatehouse.Site.Route
import Gatehouse.Store.Basic
import Gatehouse.Store.Faulty
import Gatehouse.Store.Memory
import Gatehouse.Table
import Gatehouse.Text
import Gatehouse.Text.Alphanumeric
import Gatehouse.Text.Decimal
import Gatehouse.Text.Percent
import Gatehouse.Time
import Gatehouse.Time.Rfc3339
import Gatehouse.Token
import Gatehouse.Token.Algorithm
import Gatehouse.Token.Claims
import Gatehouse.Token.KeyRecord
import Gatehouse.User
import Gatehouse.Uuid
import Gatehouse.Word
import Gatehouse.World
import Gatehouse.Proofs.Limiter.Traffic
import Gatehouse.Proofs.Limiter.Rolling
import Gatehouse.Proofs.Cache.Waiting
import Gatehouse.Proofs.Cache.Copying
import Gatehouse.Proofs.Cache.Key
import Gatehouse.Proofs.Base64
import Gatehouse.Proofs.Json.Spelling
import Gatehouse.Proofs.Json.RoundTrip
import Gatehouse.Proofs.Json.Record
import Gatehouse.Proofs.Cache.Replay
import Gatehouse.Proofs.Token.Parts
import Gatehouse.Proofs.Token.Soundness
import Gatehouse.Proofs.Token.Issuing
import Gatehouse.Proofs.Layer.Passage
import Gatehouse.Proofs.Cache.Reading
import Gatehouse.Proofs.Cache.Erasure
import Gatehouse.Proofs.Cache.History
import Gatehouse.Proofs.Layer.Gates
import Gatehouse.Proofs.Layer.FailsClosed
import Gatehouse.Proofs.Limiter.Fixed
import Gatehouse.Proofs.Site.Aside
import Gatehouse.Proofs.Site.Keys
import Gatehouse.Proofs.Site.Serving
import Gatehouse.Proofs.Site.Client
import Gatehouse.Proofs.Site.Purge
import Gatehouse.Proofs.Cache.Overlap
import Gatehouse.Proofs.Redis.Interchange
import Gatehouse.Proofs.Settings.PurgePattern
import Gatehouse.Proofs.Cache.FailsOpen
import Gatehouse.Proofs.Site.Outcome
import Gatehouse.Proofs.Site.Accounts
import Gatehouse.Proofs.Store.Truthful
import Gatehouse.Proofs.Site.Reachable
import Gatehouse.Proofs.Site.Marks
import Gatehouse.Proofs.Glob.Scanning
import Gatehouse.Proofs.Limiter.RetryAfter
import Gatehouse.Proofs.Site.Discreet
import Gatehouse.Proofs.Site.Sharing
import Gatehouse.Proofs.Net.Prefix
import Gatehouse.Proofs.Limiter.Reset
import Gatehouse.Proofs.Store.Sweeping
import Gatehouse.Proofs.Redis.Purging
import Gatehouse.Proofs.Text.Decimal
import Gatehouse.Proofs.Records
import Gatehouse.Proofs.Token.Expiry
import Gatehouse.Proofs.Site.Labels
import Gatehouse.Proofs.Settings.Items
import Gatehouse.Proofs.Settings.Files
import Gatehouse.Proofs.Settings.Demands
