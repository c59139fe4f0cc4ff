import AccessGateway.Gateway.Router
import AccessGateway.Gateway.Shutdown
import AccessGateway.Main
import AccessGateway.Proofs.Access.BearerSwap
import AccessGateway.Proofs.Access.OneShot
import AccessGateway.Proofs.Circuit.SingleTrial
import AccessGateway.Proofs.Gateway.Logout
import AccessGateway.Proofs.Gateway.Secrecy
import AccessGateway.Proofs.Gateway.Unseen
import AccessGateway.Proofs.Relay.IdentityMarker
import AccessGateway.Proofs.Relay.RoundTrip
import AccessGateway.Proofs.Session.Lifetime
import AccessGateway.Proofs.Session.Lookup
import AccessGateway.Proofs.Session.Afterlife
import AccessGateway.Proofs.Access.Answering
import AccessGateway.Proofs.Gateway.Visits
import AccessGateway.Proofs.Gateway.Isolation
import AccessGateway.Proofs.Relay.TransferEncoding
import AccessGateway.Proofs.Federation.KeptKeys
import AccessGateway.Proofs.Federation.AcceptedTokens
import AccessGateway.Proofs.Gateway.Transparency
import AccessGateway.Proofs.Gateway.Location
import AccessGateway.Proofs.Encoding.FormText
import AccessGateway.Proofs.Federation.Envelope
import AccessGateway.Proofs.Gateway.Staying
import AccessGateway.Proofs.Gateway.Posting
import AccessGateway.Proofs.Wire.BrowserCookie
import AccessGateway.Proofs.Gateway.Continuity
import AccessGateway.Proofs.Metrics.Gauges
import AccessGateway.Proofs.Metrics.Counters
import AccessGateway.Proofs.Session.Representation
import AccessGateway.Proofs.Circuit.Independence
import AccessGateway.Proofs.Circuit.FailureStreak
import AccessGateway.Proofs.Circuit.Cooldown
import AccessGateway.Proofs.Federation.Comments
import AccessGateway.Proofs.Encoding.Separators
import AccessGateway.Proofs.Session.CommandText
import AccessGateway.Proofs.Session.CommandEffect
import AccessGateway.Proofs.Session.RoleChecks
import AccessGateway.Proofs.Federation.Retracing
import AccessGateway.Proofs.Federation.ByteOffsets
import AccessGateway.Proofs.Federation.OffsetScans
import AccessGateway.Proofs.Federation.Stability
import AccessGateway.Proofs.Time.DateForms
import AccessGateway.Proofs.Time.WarningText
import AccessGateway.Proofs.Relay.Reconciliation
import AccessGateway.Proofs.Relay.Sources
import AccessGateway.Proofs.Access.Redirection
import AccessGateway.Proofs.Settings.Filling
import AccessGateway.Proofs.Relay.Conservation
import AccessGateway.Proofs.Settings.Acceptance
import AccessGateway.Proofs.Relay.BackendAddress
import AccessGateway.Proofs.Gateway.Routing
import AccessGateway.Proofs.Access.AllowList
import AccessGateway.Proofs.Session.RoleText
