import MeteredLedger.BlockExecution
import MeteredLedger.Bytes.Lemmas
import MeteredLedger.Json.Records
import MeteredLedger.Params.Toml
import MeteredLedger.Proofs.Action
import MeteredLedger.Proofs.View.Sight
import MeteredLedger.Proofs.Machine.Moves
import MeteredLedger.Proofs.Machine.Runs
import MeteredLedger.Proofs.Frame.Atomicity
import MeteredLedger.Proofs.Gas.Meters
import MeteredLedger.Proofs.Gas.Mirror
import MeteredLedger.Proofs.Engine
import MeteredLedger.Proofs.Gas.Reconciliation
import MeteredLedger.Proofs.View.Publish
import MeteredLedger.Proofs.Ledger.Conservation
import MeteredLedger.Proofs.Frame.Deeds
import MeteredLedger.Proofs.Frame.Occupation
import MeteredLedger.Proofs.Gas.BlockLimit
import MeteredLedger.Proofs.Framing
import MeteredLedger.Proofs.Store.Canonical
import MeteredLedger.Proofs.Store.Commitment
import MeteredLedger.Proofs.Effect
import MeteredLedger.Proofs.Ledger.Payers
import MeteredLedger.Proofs.Ledger.Occupants
import MeteredLedger.Proofs.View.Snapshots
import MeteredLedger.Proofs.View.Ending
import MeteredLedger.Proofs.Failure
import MeteredLedger.Proofs.Gas.Tiers
import MeteredLedger.Proofs.Block.Failures
import MeteredLedger.Proofs.Machine.Safety
import MeteredLedger.Proofs.Frame.Faults
import MeteredLedger.Proofs.Faults
import MeteredLedger.Proofs.Machine.Decoding
import MeteredLedger.Proofs.Frame.Termination
import MeteredLedger.Proofs.Ledger.Writers
import MeteredLedger.Proofs.Block.Admission
import MeteredLedger.Proofs.Block.Composition
import MeteredLedger.Proofs.Ledger.CodeHashes
import MeteredLedger.Proofs.Encoding
import MeteredLedger.Proofs.Machine.Likeness
import MeteredLedger.Proofs.Frame.Likeness
import MeteredLedger.Proofs.Frame.Labels
import MeteredLedger.Proofs.Simulation
import MeteredLedger.Proofs.Block.Replay
import MeteredLedger.Proofs.Denial
import MeteredLedger.Proofs.Creation
import MeteredLedger.Proofs.Frame.Trail
import MeteredLedger.Proofs.Frame.Oblivious
import MeteredLedger.Proofs.MoreGas
import MeteredLedger.Proofs.Machine.MemoryBytes
import MeteredLedger.Proofs.Machine.Instructions
import MeteredLedger.Proofs.Machine.Padding
import MeteredLedger.Proofs.Frame.Turns
import MeteredLedger.Proofs.Frame.MemoryMap
import MeteredLedger.Proofs.Gas.MemoryCost
import MeteredLedger.Proofs.Frame.StackDiscipline
import MeteredLedger.Proofs.Frame.Deployment
import MeteredLedger.Proofs.Machine.TrailingZeros
import MeteredLedger.Proofs.Frame.TrailingZeros
import MeteredLedger.Proofs.Store.Unwritten
import MeteredLedger.Proofs.Machine.StorageAccess
import MeteredLedger.Proofs.Frame.StorageMap
import MeteredLedger.Proofs.Block.Commitment
import MeteredLedger.Proofs.View.Transfer
import MeteredLedger.Proofs.Ledger.NetChange
import MeteredLedger.Proofs.Json.Text
import MeteredLedger.Proofs.Json.Records
import MeteredLedger.Proofs.Gas.Operations
import MeteredLedger.Proofs.Classification
import MeteredLedger.Proofs.Signing
import MeteredLedger.Proofs.Json.Parts
import MeteredLedger.Proofs.Params.Partial
import MeteredLedger.Proofs.Toml.Tokens
import MeteredLedger.Proofs.Toml.Lines
import MeteredLedger.Proofs.Params.Toml
import MeteredLedger.Proofs.Hex
import MeteredLedger.Proofs.Identifiers
