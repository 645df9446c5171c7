import BearerAccess.AuthError
import BearerAccess.Cache.Basic
import BearerAccess.Cache.Policy
import BearerAccess.Cache.Schedule
import BearerAccess.Cache.Step
import BearerAccess.Config
import BearerAccess.Decision.Client
import BearerAccess.Decision.DecisionError
import BearerAccess.Digest.Sha2
import BearerAccess.Digest.Sha2Table
import BearerAccess.Gate
import BearerAccess.Http.Dialogue
import BearerAccess.Http.Exchange
import BearerAccess.Http.Form
import BearerAccess.Http.Url
import BearerAccess.Http.Wire
import BearerAccess.Json.Doc
import BearerAccess.Json.Lexeme
import BearerAccess.Json.Reader
import BearerAccess.Json.Record
import BearerAccess.Json.Value
import BearerAccess.Json.Writer
import BearerAccess.KeySet
import BearerAccess.KeySet.Fetch
import BearerAccess.KeySet.FetchError
import BearerAccess.Main
import BearerAccess.Number.Binary64
import BearerAccess.Number.Duration
import BearerAccess.Number.IntegerText
import BearerAccess.Number.Modular
import BearerAccess.Number.Positional
import BearerAccess.Number.Powers
import BearerAccess.Order.Increasing
import BearerAccess.Permission
import BearerAccess.Principal
import BearerAccess.Proofs.Cache.Cancellation
import BearerAccess.Proofs.Cache.Clock
import BearerAccess.Proofs.Cache.Coherence
import BearerAccess.Proofs.Cache.Delivery
import BearerAccess.Proofs.Cache.Demand
import BearerAccess.Proofs.Cache.Failure
import BearerAccess.Proofs.Cache.Grace
import BearerAccess.Proofs.Cache.History
import BearerAccess.Proofs.Cache.Isolation
import BearerAccess.Proofs.Cache.Moves
import BearerAccess.Proofs.Cache.Provenance
import BearerAccess.Proofs.Cache.Punctuality
import BearerAccess.Proofs.Cache.Renewal
import BearerAccess.Proofs.Cache.SingleFlight
import BearerAccess.Proofs.Cache.Staleness
import BearerAccess.Proofs.Cache.Together
import BearerAccess.Proofs.Cache.Waiting
import BearerAccess.Proofs.Config.Documented
import BearerAccess.Proofs.Config.Endpoints
import BearerAccess.Proofs.Decision.Course
import BearerAccess.Proofs.Decision.Identified
import BearerAccess.Proofs.Decision.Outcome
import BearerAccess.Proofs.Http.Addresses
import BearerAccess.Proofs.Http.Exchanges
import BearerAccess.Proofs.Json.Assembling
import BearerAccess.Proofs.Json.Cutting
import BearerAccess.Proofs.Json.Lexemes
import BearerAccess.Proofs.Json.Members
import BearerAccess.Proofs.Json.ObjectText
import BearerAccess.Proofs.Json.RoundTrip
import BearerAccess.Proofs.Json.Stated
import BearerAccess.Proofs.Json.Values
import BearerAccess.Proofs.Json.Written
import BearerAccess.Proofs.KeySet.Contents
import BearerAccess.Proofs.KeySet.Fetched
import BearerAccess.Proofs.KeySet.Lookup
import BearerAccess.Proofs.Number.IntegerTexts
import BearerAccess.Proofs.Order.Members
import BearerAccess.Proofs.Permission.Elements
import BearerAccess.Proofs.Permission.Told
import BearerAccess.Proofs.Permission.WrittenForm
import BearerAccess.Proofs.Request.Admission
import BearerAccess.Proofs.Request.Presented
import BearerAccess.Proofs.Request.Refusals
import BearerAccess.Proofs.Sequence
import BearerAccess.Proofs.Service.Asking
import BearerAccess.Proofs.Session.Answers
import BearerAccess.Proofs.Session.Batch
import BearerAccess.Proofs.Session.Rotation
import BearerAccess.Proofs.Session.Signed
import BearerAccess.Proofs.Session.Traffic
import BearerAccess.Proofs.Session.Verdicts
import BearerAccess.Proofs.Testing.Drafts
import BearerAccess.Proofs.Testing.SignedTokens
import BearerAccess.Proofs.Text.Base64
import BearerAccess.Proofs.Text.Utf8
import BearerAccess.Proofs.Text.Words
import BearerAccess.Proofs.Token.ActiveWindow
import BearerAccess.Proofs.Token.Canonical
import BearerAccess.Proofs.Token.ClaimsText
import BearerAccess.Proofs.Token.Classified
import BearerAccess.Proofs.Token.Families
import BearerAccess.Proofs.Token.GivenClaims
import BearerAccess.Proofs.Token.Scopes
import BearerAccess.Proofs.Token.Skew
import BearerAccess.Proofs.Token.Stages
import BearerAccess.Proofs.TokenCheck.ExitCodes
import BearerAccess.Realm
import BearerAccess.RequestGuard
import BearerAccess.Service
import BearerAccess.Session
import BearerAccess.Signature.Ecdsa
import BearerAccess.Signature.Edwards
import BearerAccess.Signature.Rsa
import BearerAccess.Signature.Scheme
import BearerAccess.Testing.Keypair
import BearerAccess.Testing.Provider
import BearerAccess.Testing.ScriptedDecider
import BearerAccess.Testing.ScriptedPeer
import BearerAccess.Testing.Site
import BearerAccess.Testing.TokenDraft
import BearerAccess.Text.Base64Url
import BearerAccess.Text.Blank
import BearerAccess.Text.Hidden
import BearerAccess.Text.Percent
import BearerAccess.Text.Quotation
import BearerAccess.Text.Symbols
import BearerAccess.Token.Claims
import BearerAccess.Token.Compact
import BearerAccess.Token.Registered
import BearerAccess.Token.Verification
import BearerAccess.Token.Window
import BearerAccess.TokenCheck
