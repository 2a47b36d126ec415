import BearerAuth.AuthFailure
import BearerAuth.Base64
import BearerAuth.Binary64
import BearerAuth.Binary64.Shortest
import BearerAuth.Bytes
import BearerAuth.Claims
import BearerAuth.Claims.Reader
import BearerAuth.Config
import BearerAuth.Config.Reader
import BearerAuth.Decimal
import BearerAuth.Der
import BearerAuth.Der.Leaf
import BearerAuth.Duration
import BearerAuth.Duration.Notation
import BearerAuth.Ending
import BearerAuth.Event
import BearerAuth.FileTree
import BearerAuth.FileTree.Access
import BearerAuth.FileTree.Host
import BearerAuth.FileTree.IoCause
import BearerAuth.FileTree.Path
import BearerAuth.FileTree.Walk
import BearerAuth.Fixtures
import BearerAuth.Gateway
import BearerAuth.Gateway.Route
import BearerAuth.Json.Canonical
import BearerAuth.Json.Fault
import BearerAuth.Json.Lexeme
import BearerAuth.Json.Numeral
import BearerAuth.Json.Parser
import BearerAuth.Json.Printer
import BearerAuth.Json.Value
import BearerAuth.KeyDirectory
import BearerAuth.KeyFailure
import BearerAuth.KeyId
import BearerAuth.KeyMaterial
import BearerAuth.KeyPair
import BearerAuth.KeyPair.Files
import BearerAuth.KeyPair.Generation
import BearerAuth.KeySource
import BearerAuth.Keygen
import BearerAuth.Keygen.LogFilter
import BearerAuth.Keygen.Options
import BearerAuth.Main
import BearerAuth.Pem
import BearerAuth.Pem.Lenient
import BearerAuth.Policy
import BearerAuth.Proofs.Base64
import BearerAuth.Proofs.Binary64
import BearerAuth.Proofs.Bytes
import BearerAuth.Proofs.Claims
import BearerAuth.Proofs.Claims.Fields
import BearerAuth.Proofs.Claims.Rewriting
import BearerAuth.Proofs.Config.Fields
import BearerAuth.Proofs.Config.RoundTrip
import BearerAuth.Proofs.Decimal
import BearerAuth.Proofs.Der
import BearerAuth.Proofs.Der.Leaf
import BearerAuth.Proofs.Der.Wrapping
import BearerAuth.Proofs.Duration.Notation
import BearerAuth.Proofs.Failable
import BearerAuth.Proofs.FileTree.Access
import BearerAuth.Proofs.FileTree.Changes
import BearerAuth.Proofs.FileTree.Entries
import BearerAuth.Proofs.FileTree.Host
import BearerAuth.Proofs.FileTree.Listing
import BearerAuth.Proofs.FileTree.Path
import BearerAuth.Proofs.FileTree.Walk
import BearerAuth.Proofs.FileTree.Writing
import BearerAuth.Proofs.Gateway.Mediation
import BearerAuth.Proofs.Gateway.Opacity
import BearerAuth.Proofs.Gateway.RegisteredRules
import BearerAuth.Proofs.Gateway.Rejections
import BearerAuth.Proofs.Gateway.SelfAccess
import BearerAuth.Proofs.Json.Grammar
import BearerAuth.Proofs.Json.Members
import BearerAuth.Proofs.Json.Number
import BearerAuth.Proofs.Json.Places
import BearerAuth.Proofs.Json.Printer
import BearerAuth.Proofs.Json.Quotes
import BearerAuth.Proofs.Json.Soundness
import BearerAuth.Proofs.Json.Text
import BearerAuth.Proofs.KeyDirectory
import BearerAuth.Proofs.KeyDirectory.Contents
import BearerAuth.Proofs.KeyDirectory.Flat
import BearerAuth.Proofs.KeyDirectory.Loading
import BearerAuth.Proofs.KeyDirectory.Oversize
import BearerAuth.Proofs.KeyDirectory.Places
import BearerAuth.Proofs.KeyPair
import BearerAuth.Proofs.KeyPair.Drawn
import BearerAuth.Proofs.KeyPair.Files
import BearerAuth.Proofs.KeyPair.Normalising
import BearerAuth.Proofs.KeyPair.Primes
import BearerAuth.Proofs.KeyPair.Rereading
import BearerAuth.Proofs.KeyPair.Signing
import BearerAuth.Proofs.KeyPair.WriteOutcomes
import BearerAuth.Proofs.Keygen.KeyIds
import BearerAuth.Proofs.Keygen.Runs
import BearerAuth.Proofs.Pem
import BearerAuth.Proofs.Pem.Strict
import BearerAuth.Proofs.Policy
import BearerAuth.Proofs.Registry
import BearerAuth.Proofs.Rsa.Inverse
import BearerAuth.Proofs.Rsa.Roots
import BearerAuth.Proofs.Rsa.Signature
import BearerAuth.Proofs.Service.Acceptance
import BearerAuth.Proofs.Service.Fleet
import BearerAuth.Proofs.Service.Issuance
import BearerAuth.Proofs.Service.KeySelection
import BearerAuth.Proofs.Service.Leeway
import BearerAuth.Proofs.Service.Lookups
import BearerAuth.Proofs.Service.ReadThrough
import BearerAuth.Proofs.Service.Rotation
import BearerAuth.Proofs.Service.Session
import BearerAuth.Proofs.Service.SigningKeys
import BearerAuth.Proofs.Service.Steps
import BearerAuth.Proofs.Service.Tampering
import BearerAuth.Proofs.Token.Beginnings
import BearerAuth.Proofs.Token.HeaderGrammar
import BearerAuth.Proofs.Token.HeaderReadings
import BearerAuth.Proofs.Token.NamedKey
import BearerAuth.Proofs.Token.Outcomes
import BearerAuth.Proofs.Token.PayloadReadings
import BearerAuth.Proofs.Token.RegisteredMembers
import BearerAuth.Proofs.Token.RoundTrip
import BearerAuth.Proofs.Token.Segments
import BearerAuth.Proofs.Token.Signed
import BearerAuth.Proofs.Token.Strays
import BearerAuth.Proofs.Token.ValidityWindow
import BearerAuth.Proofs.Token.Window
import BearerAuth.Proofs.UserId
import BearerAuth.Proofs.Utf8
import BearerAuth.Registry
import BearerAuth.Role
import BearerAuth.Rsa
import BearerAuth.Rsa.Power
import BearerAuth.Rsa.Primes
import BearerAuth.Rsa.Signature
import BearerAuth.Service
import BearerAuth.Sha256
import BearerAuth.Text.Blank
import BearerAuth.Text.Cut
import BearerAuth.Text.Lossy
import BearerAuth.Text.Quoted
import BearerAuth.Text.Unprintable
import BearerAuth.Token
import BearerAuth.Token.Fault
import BearerAuth.Token.Header
import BearerAuth.Token.Validity
import BearerAuth.Token.Verify
import BearerAuth.UserId
import BearerAuth.Wording
