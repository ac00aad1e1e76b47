import OffchainNames.Bytes
import OffchainNames.Bytes.Hex
import OffchainNames.Hash.Keccak
import OffchainNames.Text.Utf8
import OffchainNames.Text.Blank
import OffchainNames.Hash.Sha256
import OffchainNames.Curve.Secp256k1
import OffchainNames.Address
import OffchainNames.Curve.Signature
import OffchainNames.Abi.Value
import OffchainNames.Abi.Encoding
import OffchainNames.Abi.Decoding
import OffchainNames.Abi.Specifier
import OffchainNames.Abi.Signature
import OffchainNames.Numeral
import OffchainNames.Record
import OffchainNames.Store.Backend
import OffchainNames.Store.Basic
import OffchainNames.Store.Memory
import OffchainNames.Store.Tables
import OffchainNames.Error
import OffchainNames.Flight
import OffchainNames.Calldata
import OffchainNames.Call
import OffchainNames.Response
import OffchainNames.Course
import OffchainNames.Arguments
import OffchainNames.Abi.Interface
import OffchainNames.Table
import OffchainNames.Dispatch
import OffchainNames.Authority
import OffchainNames.Namehash
import OffchainNames.Gateway
import OffchainNames.Integrity
import OffchainNames.Resolver
import OffchainNames.Envelope
import OffchainNames.Decimal.Shortest
import OffchainNames.Json.Lexeme
import OffchainNames.Json.Value
import OffchainNames.Json.Shape
import OffchainNames.Http.Payload
import OffchainNames.Abi.Document
import OffchainNames.Http.MediaType
import OffchainNames.Http.Path
import OffchainNames.Http.Server
import OffchainNames.Net.SocketAddress
import OffchainNames.Net.Url
import OffchainNames.Toml.Value
import OffchainNames.Toml.Lexeme
import OffchainNames.Toml.Number
import OffchainNames.Toml.Document
import OffchainNames.Toml.Quoted
import OffchainNames.Settings.Basic
import OffchainNames.Settings.Document
import OffchainNames.Settings.Issue
import OffchainNames.Settings.Assembly
import OffchainNames.CommandLine.Help
import OffchainNames.CommandLine.Invocation
import OffchainNames.CommandLine.Program
import OffchainNames.Main
import OffchainNames.Proofs.Dispatch.Plan
import OffchainNames.Proofs.Dispatch.Table
import OffchainNames.Proofs.Dispatch.Batch
import OffchainNames.Proofs.Store.Memory
import OffchainNames.Proofs.Resolver.Interface
import OffchainNames.Proofs.Resolver.Command
import OffchainNames.Proofs.Authority
import OffchainNames.Proofs.Integrity.Search
import OffchainNames.Proofs.Integrity.Marking
import OffchainNames.Proofs.Resolver.Gateway
import OffchainNames.Proofs.Resolver.WriteSafety
import OffchainNames.Proofs.Curve.Signature
import OffchainNames.Proofs.Resolver.Marker
import OffchainNames.Proofs.Dispatch.Failure
import OffchainNames.Proofs.Abi.Reading
import OffchainNames.Proofs.Text.Utf8
import OffchainNames.Proofs.Abi.RoundTrip
import OffchainNames.Proofs.Envelope
import OffchainNames.Proofs.Dispatch.Flight
import OffchainNames.Proofs.Dispatch.Fold
import OffchainNames.Proofs.Bytes.Hex
import OffchainNames.Proofs.Numeral
import OffchainNames.Proofs.Store.Tables
import OffchainNames.Proofs.Abi.Types
import OffchainNames.Proofs.Abi.Calls
import OffchainNames.Proofs.Abi.Conforming
import OffchainNames.Proofs.Dispatch.Calldata
import OffchainNames.Proofs.Store.Rows
import OffchainNames.Proofs.Store.Backend
import OffchainNames.Proofs.Resolver.Direct
import OffchainNames.Proofs.Resolver.Refusal
import OffchainNames.Proofs.Resolver.Commit
import OffchainNames.Proofs.Resolver.ReadBack
import OffchainNames.Proofs.Dispatch.Moments
import OffchainNames.Proofs.Store.Owners
import OffchainNames.Proofs.Resolver.Lifecycle
import OffchainNames.Proofs.Resolver.Interleaving
import OffchainNames.Proofs.Resolver.Ttl
import OffchainNames.Proofs.Abi.Extents
import OffchainNames.Proofs.Dispatch.Amplification
import OffchainNames.Proofs.Abi.Injectivity
import OffchainNames.Proofs.Fingerprint
import OffchainNames.Proofs.Dispatch.Identity
import OffchainNames.Proofs.Store.Texts
import OffchainNames.Proofs.Store.History
import OffchainNames.Proofs.Resolver.Reserved
import OffchainNames.Proofs.Resolver.Receipts
import OffchainNames.Proofs.Resolver.Locality
import OffchainNames.Proofs.Resolver.Reordering
import OffchainNames.Proofs.Digests
import OffchainNames.Proofs.Namehash
import OffchainNames.Proofs.Store.Registration
import OffchainNames.Proofs.Accesses
import OffchainNames.Proofs.Resolver.Accesses
import OffchainNames.Proofs.Dispatch.Slots
import OffchainNames.Proofs.Resolver.Slots
import OffchainNames.Proofs.Settings.KeyText
import OffchainNames.Proofs.Settings.Validity
import OffchainNames.Proofs.Json.Strings
import OffchainNames.Proofs.Json.Objects
import OffchainNames.Proofs.Http.Path
import OffchainNames.Proofs.Http.Server
import OffchainNames.Proofs.Http.Limit
import OffchainNames.Proofs.Http.Failures
import OffchainNames.Proofs.Http.Agreement
import OffchainNames.Proofs.Dispatch.Registration
