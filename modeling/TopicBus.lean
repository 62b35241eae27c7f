import TopicBus.Document.Schema
import TopicBus.Main
import TopicBus.Simulation
import TopicBus.Simulation.Loopback
import TopicBus.Simulation.Machine
import TopicBus.Proofs.Text.Utf8
import TopicBus.Proofs.Topic.Segments
import TopicBus.Proofs.Wire.Chunks
import TopicBus.Proofs.Broker.Clients
import TopicBus.Proofs.Broker.Requests
import TopicBus.Proofs.Broker.Delivery
import TopicBus.Proofs.Broker.Runs
import TopicBus.Proofs.Broker.Effect
import TopicBus.Proofs.Broker.Ledger
import TopicBus.Proofs.Broker.ControlTraffic
import TopicBus.Proofs.Broker.Copies
import TopicBus.Proofs.Wire.Layout
import TopicBus.Proofs.Wire.Cursor
import TopicBus.Proofs.Wire.Encoding
import TopicBus.Proofs.Wire.Stream
import TopicBus.Proofs.Decimal.Rounding
import TopicBus.Proofs.Decimal.Shortest
import TopicBus.Proofs.Json.Number
import TopicBus.Proofs.Json.Figures
import TopicBus.Proofs.Json.Text
import TopicBus.Proofs.Json.RoundTrip
import TopicBus.Proofs.Text.Order
import TopicBus.Proofs.Json.Parsed
import TopicBus.Proofs.Document.Made
import TopicBus.Proofs.Document.RoundTrip
import TopicBus.Proofs.Connection.Messages
import TopicBus.Proofs.Connection.Announced
import TopicBus.Proofs.Connection.Reading
import TopicBus.Proofs.Broker.Heard
import TopicBus.Proofs.Connection.Replay
import TopicBus.Proofs.Connection.Sends
import TopicBus.Proofs.Connection.Receipt
import TopicBus.Proofs.Broker.Output
import TopicBus.Proofs.Connection.Subscribed
import TopicBus.Proofs.Connection.Delivery
import TopicBus.Proofs.Wire.Damage
import TopicBus.Proofs.Server.Lines
import TopicBus.Proofs.Server.Runs
import TopicBus.Proofs.Server.Erasure
import TopicBus.Proofs.Connection.Slot
import TopicBus.Proofs.Connection.Answers
import TopicBus.Proofs.Connection.Inboxes
import TopicBus.Proofs.Connection.Requests
import TopicBus.Proofs.Connection.LateAnswers
import TopicBus.Proofs.Wire.Buffer
import TopicBus.Proofs.Broker.DebugRoute
import TopicBus.Proofs.Connection.Streams
import TopicBus.Proofs.Broker.Departed
import TopicBus.Proofs.Server.Departure
import TopicBus.Proofs.Broker.Admission
import TopicBus.Proofs.Connection.Exchanges
import TopicBus.Proofs.Connection.Attempts
import TopicBus.Proofs.Connection.AtMostOnce
import TopicBus.Proofs.Connection.Rollback
import TopicBus.Proofs.Connection.Registration
import TopicBus.Proofs.Wire.EndOfStream
import TopicBus.Proofs.Connection.Establishment
import TopicBus.Proofs.Connection.Events
import TopicBus.Proofs.Connection.Journal
import TopicBus.Proofs.Connection.Deadlines
import TopicBus.Proofs.Broker.Table
import TopicBus.Proofs.Connection.SubscriptionIds
import TopicBus.Proofs.Wire.Needed
import TopicBus.Proofs.Address.Grammar
import TopicBus.Proofs.Document.Fields
import TopicBus.Proofs.Document.FiniteMap
import TopicBus.Proofs.Json.Spaced
import TopicBus.Proofs.Document.MemberOrder
import TopicBus.Proofs.Connection.Issuing
import TopicBus.Proofs.Connection.Closed
import TopicBus.Proofs.Connection.SequenceNumbers
