import Colloquy.Agent
import Colloquy.FieldType.Codec
import Colloquy.MessagePack.Token.Lemmas
import Colloquy.Negotiation.Specification
import Colloquy.Portable.Forms
import Colloquy.Proofs.Dialogue.Path
import Colloquy.Proofs.Dialogue.Run
import Colloquy.Proofs.Registry.Operation
import Colloquy.Proofs.Registry.Effect
import Colloquy.Proofs.Registry.Index
import Colloquy.Proofs.Registry.Succession
import Colloquy.Proofs.Network.Schedule
import Colloquy.Proofs.Network.Testimony
import Colloquy.Proofs.Network.Agreement
import Colloquy.Proofs.Wire.RoundTrip
import Colloquy.Proofs.FieldType.RoundTrip
import Colloquy.Proofs.Message.Envelope
import Colloquy.Proofs.Specification.Load
import Colloquy.Proofs.Message.RoundTrip
import Colloquy.Proofs.Registry.Refusal
import Colloquy.Proofs.Registry.Frame
import Colloquy.Proofs.Registry.Resolution
import Colloquy.Proofs.Registry.Room
import Colloquy.Proofs.Registry.Completion
import Colloquy.Proofs.Registry.Replay
import Colloquy.Proofs.Network.LockStep
import Colloquy.Proofs.Negotiation.Records
import Colloquy.Proofs.Network.Negotiation
import Colloquy.Proofs.Registry.Statistics
import Colloquy.Proofs.Message.Identity
import Colloquy.Proofs.Specification.Consistency
import Colloquy.Proofs.Specification.Conversation
import Colloquy.Proofs.FieldType.Canonical
import Colloquy.Proofs.Message.Rebuild
import Colloquy.Proofs.Registry.Dispatch
import Colloquy.Proofs.Registry.Capacity
import Colloquy.Proofs.Registry.Commutation
import Colloquy.Proofs.Registry.Traffic
import Colloquy.Proofs.FieldType.Grammar
import Colloquy.Proofs.FieldType.Notation
import Colloquy.Proofs.FieldType.Membership
import Colloquy.Proofs.Wire.Boundary
import Colloquy.Proofs.Message.Conformance
import Colloquy.Proofs.Negotiation.Terms
import Colloquy.Proofs.Negotiation.Acts
import Colloquy.Proofs.Dialogue.Derived
import Colloquy.Proofs.Registry.Hearing
import Colloquy.Proofs.FieldType.Record
import Colloquy.Proofs.Specification.Source
