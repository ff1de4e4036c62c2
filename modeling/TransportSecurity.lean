import TransportSecurity.Alert.Basic
import TransportSecurity.Alert.Wire
import TransportSecurity.BlockCipher.Aes
import TransportSecurity.BlockCipher.Aes.Block
import TransportSecurity.BlockCipher.Aes.Substitution
import TransportSecurity.BlockCipher.Chaining
import TransportSecurity.Bytes.Basic
import TransportSecurity.Bytes.Field
import TransportSecurity.Bytes.Scan
import TransportSecurity.Certificate.PublicKey
import TransportSecurity.Certificate.Time
import TransportSecurity.Der.Element
import TransportSecurity.Der.Open
import TransportSecurity.Digest.Hmac
import TransportSecurity.Digest.Running
import TransportSecurity.Digest.Sha1
import TransportSecurity.Digest.Sha256
import TransportSecurity.Digest.Words
import TransportSecurity.Entropy.Basic
import TransportSecurity.Entropy.Reproducible
import TransportSecurity.Entropy.Faltering
import TransportSecurity.Error
import TransportSecurity.Handshake.Assembly
import TransportSecurity.Handshake.ChangeCipherSpec
import TransportSecurity.Handshake.Transcript
import TransportSecurity.Identity
import TransportSecurity.KeySchedule
import TransportSecurity.Link.Connection
import TransportSecurity.Link.Loopback
import TransportSecurity.Link.Transport
import TransportSecurity.Message.Body
import TransportSecurity.Message.Exchange
import TransportSecurity.Message.Hello
import TransportSecurity.Record.Framing
import TransportSecurity.Record.Header
import TransportSecurity.Record.Plain
import TransportSecurity.Record.Protection
import TransportSecurity.Rsa.Encryption
import TransportSecurity.Rsa.Key
import TransportSecurity.Rsa.Modular
import TransportSecurity.Session.Basic
import TransportSecurity.Session.Client
import TransportSecurity.Session.Endpoint
import TransportSecurity.Session.Server
import TransportSecurity.Settings
import TransportSecurity.Suite
import TransportSecurity.Proofs.BlockCipher.Inverse
import TransportSecurity.Proofs.Bytes.Reading
import TransportSecurity.Proofs.Causes
import TransportSecurity.Proofs.Link.Cuts
import TransportSecurity.Proofs.Link.Delivery
import TransportSecurity.Proofs.Link.Farewell
import TransportSecurity.Proofs.Link.Handshaking
import TransportSecurity.Proofs.Link.Runs
import TransportSecurity.Proofs.Message.Delimited
import TransportSecurity.Proofs.Message.ReadBack
import TransportSecurity.Proofs.Message.WireFormat
import TransportSecurity.Proofs.Record.Canonical
import TransportSecurity.Proofs.Record.Delimited
import TransportSecurity.Proofs.Record.Opened
import TransportSecurity.Proofs.Record.RoundTrip
import TransportSecurity.Proofs.Record.Sealed
import TransportSecurity.Proofs.Rsa.Undone
import TransportSecurity.Proofs.Session.Agreement
import TransportSecurity.Proofs.Session.AtOnce
import TransportSecurity.Proofs.Session.Binding
import TransportSecurity.Proofs.Session.Calls
import TransportSecurity.Proofs.Session.Completion
import TransportSecurity.Proofs.Session.Dispatch
import TransportSecurity.Proofs.Session.Feeding
import TransportSecurity.Proofs.Session.Flight
import TransportSecurity.Proofs.Session.Handlers
import TransportSecurity.Proofs.Session.Honest
import TransportSecurity.Proofs.Session.Losses
import TransportSecurity.Proofs.Session.Means
import TransportSecurity.Proofs.Session.Network
import TransportSecurity.Proofs.Session.OneWay
import TransportSecurity.Proofs.Session.Phases
import TransportSecurity.Proofs.Session.Pieces
import TransportSecurity.Proofs.Session.Reachable
import TransportSecurity.Proofs.Session.Reads
import TransportSecurity.Proofs.Session.Records
import TransportSecurity.Proofs.Session.Settings
import TransportSecurity.Proofs.Session.Shape
import TransportSecurity.Proofs.Session.Writing
import TransportSecurity.Proofs.Success
import TransportSecurity.Proofs.Session.Refusals
import TransportSecurity.Proofs.Session.Failing
import TransportSecurity.Proofs.Session.Emission
import TransportSecurity.Proofs.Trapping.Handlers
import TransportSecurity.Proofs.Trapping.Messages
import TransportSecurity.Proofs.Trapping.Operations
import TransportSecurity.Proofs.Trapping.Reading
import TransportSecurity.Proofs.Trapping.Records
import TransportSecurity.Proofs.Trapping.Servable
import TransportSecurity.Proofs.Trapping.Sessions
import TransportSecurity.Proofs.Link.ExactlyOnce
import TransportSecurity.Proofs.Link.Hearing
import TransportSecurity.Proofs.Message.Collecting
import TransportSecurity.Proofs.Session.Independence
import TransportSecurity.Proofs.Session.Offer
import TransportSecurity.Proofs.Session.Outcomes
import TransportSecurity.Proofs.Session.Packing
import TransportSecurity.Proofs.Session.Rejection
import TransportSecurity.Proofs.Message.Unreadable
import TransportSecurity.Proofs.Session.Entrusting
import TransportSecurity.Proofs.Session.KeyExchange
import TransportSecurity.Proofs.Session.Meeting
import TransportSecurity.Proofs.Session.Negotiation
import TransportSecurity.Proofs.Session.TwoWay
import TransportSecurity.Proofs.KeySchedule.Expansion
import TransportSecurity.Proofs.Session.Answering
import TransportSecurity.Proofs.Session.Limits
import TransportSecurity.Proofs.Session.Progress
import TransportSecurity.Proofs.Session.Resetting
import TransportSecurity.Proofs.Bytes.Requests
import TransportSecurity.Proofs.Digest.Pieces
import TransportSecurity.Proofs.Record.Covered
import TransportSecurity.Proofs.Trapping.Requests
