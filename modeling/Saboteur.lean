import Saboteur.Http.Endpoint
import Saboteur.Main
import Saboteur.Metric
import Saboteur.Proofs.Attestation.Coverage
import Saboteur.Proofs.Feedback.Completion
import Saboteur.Proofs.Service.Dispatch
import Saboteur.Proofs.Service.Isolation
import Saboteur.Proofs.Service.Pairing
import Saboteur.Proofs.Feedback.Record
import Saboteur.Proofs.Feedback.Retention
import Saboteur.Proofs.Block.Reassembly
import Saboteur.Proofs.Service.Frame
import Saboteur.Proofs.Action.Text
import Saboteur.Proofs.Service.Installation
import Saboteur.Proofs.Action.Display
import Saboteur.Proofs.Strategy.NormalForm
import Saboteur.Proofs.Json.Lexing
import Saboteur.Proofs.Json.RoundTrip
import Saboteur.Proofs.Strategy.Codec
import Saboteur.Proofs.Http.StrategyExchange
import Saboteur.Proofs.Pool.Accounting
import Saboteur.Proofs.Attestation.NormalForm
import Saboteur.Proofs.Http.Routing
import Saboteur.Proofs.Net.Display
import Saboteur.Proofs.Http.Origins
import Saboteur.Proofs.Json.Fields
import Saboteur.Proofs.Settings.Sources
import Saboteur.Proofs.Attestation.Repacking
import Saboteur.Proofs.Feedback.Order
import Saboteur.Proofs.Registration.Keys
import Saboteur.Proofs.Feedback.Delivery
import Saboteur.Proofs.Clock.Slots
import Saboteur.Proofs.Registration.Roster
import Saboteur.Proofs.Action.Targets
import Saboteur.Proofs.Action.Waits
import Saboteur.Proofs.Strategy.Designation
import Saboteur.Proofs.Strategy.Lookahead
import Saboteur.Proofs.Block.Mixing
import Saboteur.Proofs.Block.Pruning
import Saboteur.Proofs.Roles.Updates
import Saboteur.Proofs.Attestation.Aggregation
import Saboteur.Proofs.Signature.Order
import Saboteur.Proofs.Node.Refusals
import Saboteur.Proofs.Duties.History
import Saboteur.Proofs.NodeAddress.Redaction
import Saboteur.Proofs.NodeAddress.Serialized
import Saboteur.Proofs.Text.Case
import Saboteur.Proofs.Clock.Epochs
import Saboteur.Proofs.Pubkey.Renderings
import Saboteur.Proofs.Service.Modification
