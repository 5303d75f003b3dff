import TokenAuthority.Binary64
import TokenAuthority.Cache.Basic
import TokenAuthority.Cache.Memory
import TokenAuthority.Cache.Scripted
import TokenAuthority.Digest.Hmac
import TokenAuthority.Digest.Sha1
import TokenAuthority.Digest.Sha256
import TokenAuthority.Digest.Words
import TokenAuthority.Effect.Action
import TokenAuthority.Effect.Fault
import TokenAuthority.Effect.Flow
import TokenAuthority.Effect.Pool
import TokenAuthority.Effect.RandomText
import TokenAuthority.Effect.World
import TokenAuthority.Json.Basic
import TokenAuthority.Json.Members
import TokenAuthority.Json.Parser
import TokenAuthority.Json.Printer
import TokenAuthority.Json.Record
import TokenAuthority.Key.Algorithm
import TokenAuthority.Key.Asn1
import TokenAuthority.Key.Error
import TokenAuthority.Key.Material
import TokenAuthority.Key.Pem
import TokenAuthority.Key.Rsa
import TokenAuthority.Key.Secret
import TokenAuthority.Metrics
import TokenAuthority.Password.Bcrypt
import TokenAuthority.Password.Blowfish
import TokenAuthority.Password.Hasher
import TokenAuthority.Redis.Command
import TokenAuthority.Redis.Config
import TokenAuthority.Redis.Error
import TokenAuthority.Redis.Reply
import TokenAuthority.Redis.Server
import TokenAuthority.Report.Basic
import TokenAuthority.Report.Failure
import TokenAuthority.Report.Settings
import TokenAuthority.Report.Tokens
import TokenAuthority.Resilience.Backoff
import TokenAuthority.Resilience.Breaker
import TokenAuthority.Resilience.Retry
import TokenAuthority.Revocation.Entry
import TokenAuthority.Revocation.Store
import TokenAuthority.Service.Adapter
import TokenAuthority.Service.Basic
import TokenAuthority.Service.Context
import TokenAuthority.Service.Error
import TokenAuthority.Service.Refresh
import TokenAuthority.Service.Verification
import TokenAuthority.Settings.Basic
import TokenAuthority.Settings.Document
import TokenAuthority.Settings.EnvFile
import TokenAuthority.Settings.Environment
import TokenAuthority.Settings.Error
import TokenAuthority.Simulation.Bench
import TokenAuthority.Simulation.Call
import TokenAuthority.Simulation.Document
import TokenAuthority.Simulation.Lifecycle
import TokenAuthority.Simulation.Names
import TokenAuthority.Simulation.Randomness
import TokenAuthority.Simulation.ServerBench
import TokenAuthority.Simulation.Step
import TokenAuthority.Simulation.TokenText
import TokenAuthority.Text.Alphanumeric
import TokenAuthority.Text.Base64
import TokenAuthority.Text.Blank
import TokenAuthority.Text.CharRanges
import TokenAuthority.Text.Hex
import TokenAuthority.Text.Hidden
import TokenAuthority.Text.Integer
import TokenAuthority.Text.Quoted
import TokenAuthority.Text.Split
import TokenAuthority.Text.Utf8
import TokenAuthority.Throttle
import TokenAuthority.Time.Calendar
import TokenAuthority.Time.Instant
import TokenAuthority.Time.ManualClock
import TokenAuthority.Time.Seconds
import TokenAuthority.Time.Span
import TokenAuthority.Token.Claims
import TokenAuthority.Token.Codec
import TokenAuthority.Token.Credential
import TokenAuthority.Token.Header
import TokenAuthority.Token.Kind
import TokenAuthority.Url.Basic
import TokenAuthority.Url.Ipv6
import TokenAuthority.Url.Percent
import TokenAuthority.Verification.FailureReason
import TokenAuthority.Proofs.Effect.History
import TokenAuthority.Proofs.Resilience.Retry
import TokenAuthority.Proofs.Revocation.Store
import TokenAuthority.Proofs.Revocation.Accounts
import TokenAuthority.Proofs.Effect.Recorded
import TokenAuthority.Proofs.Service.FailClosed
import TokenAuthority.Proofs.Service.Refresh
import TokenAuthority.Proofs.Cache.Contract
import TokenAuthority.Proofs.Cache.Memory
import TokenAuthority.Proofs.Effect.Schedule
import TokenAuthority.Proofs.Effect.Replay
import TokenAuthority.Proofs.Service.Credentials
import TokenAuthority.Proofs.Service.SingleUse
import TokenAuthority.Proofs.Service.AfterRevocation
import TokenAuthority.Proofs.Service.Session
import TokenAuthority.Proofs.Json.RoundTrip
import TokenAuthority.Proofs.Json.Record
import TokenAuthority.Proofs.Token.Written
import TokenAuthority.Proofs.Token.Encoding
import TokenAuthority.Proofs.Token.Forgery
import TokenAuthority.Proofs.Effect.Alone
import TokenAuthority.Proofs.Cache.Changes
import TokenAuthority.Proofs.Service.FailedRefresh
import TokenAuthority.Proofs.Cache.Unanswered
import TokenAuthority.Proofs.Service.OwnWrite
import TokenAuthority.Proofs.Cache.PlainMap
import TokenAuthority.Proofs.Resilience.Breaker
import TokenAuthority.Proofs.Resilience.Callers
import TokenAuthority.Proofs.Resilience.ProbeRate
import TokenAuthority.Proofs.Resilience.Recovery
import TokenAuthority.Proofs.Resilience.Looking
import TokenAuthority.Proofs.Text.Integer
import TokenAuthority.Proofs.Cache.Counter
import TokenAuthority.Proofs.Service.Throttling
import TokenAuthority.Proofs.Service.FixedWindow
import TokenAuthority.Proofs.Effect.Asking
import TokenAuthority.Proofs.Effect.Complete
import TokenAuthority.Proofs.Effect.Together
import TokenAuthority.Proofs.Effect.Pooled
import TokenAuthority.Proofs.Service.Issuing
import TokenAuthority.Proofs.Service.FailsOpen
import TokenAuthority.Proofs.Service.MadeTokens
import TokenAuthority.Proofs.Service.Lineage
import TokenAuthority.Proofs.Revocation.Duration
import TokenAuthority.Proofs.Revocation.Kept
import TokenAuthority.Proofs.Resilience.Rounding
import TokenAuthority.Proofs.Resilience.Delays
import TokenAuthority.Proofs.Settings.Loading
import TokenAuthority.Proofs.Effect.Elapsed
import TokenAuthority.Proofs.Effect.Limit
import TokenAuthority.Proofs.Resilience.Attempts
import TokenAuthority.Proofs.Service.Deadlines
import TokenAuthority.Proofs.Cache.Confined
import TokenAuthority.Proofs.Service.DecisionOrder
import TokenAuthority.Proofs.Service.Overrun
import TokenAuthority.Proofs.Revocation.Bulk
import TokenAuthority.Proofs.Revocation.Tally
import TokenAuthority.Proofs.Cache.Bounded
import TokenAuthority.Proofs.Token.Acceptance
import TokenAuthority.Proofs.Password.Stored
import TokenAuthority.Proofs.Password.Key
import TokenAuthority.Proofs.Key.Secret
import TokenAuthority.Proofs.Text.Split
import TokenAuthority.Proofs.Url.Places
import TokenAuthority.Proofs.Redis.Shown
import TokenAuthority.Proofs.Settings.Variables
import TokenAuthority.Proofs.Service.Authentication
