import SymbolUsage.Error
import SymbolUsage.Files
import SymbolUsage.Import
import SymbolUsage.Json.Basic
import SymbolUsage.Json.Fault
import SymbolUsage.Json.Fields
import SymbolUsage.Json.Name
import SymbolUsage.Json.Outcome
import SymbolUsage.Json.Position
import SymbolUsage.Json.Reader
import SymbolUsage.Json.Tagged
import SymbolUsage.Name
import SymbolUsage.Number.Double
import SymbolUsage.Number.Shortest
import SymbolUsage.Proofs.Json.Agree
import SymbolUsage.Proofs.Json.Depth
import SymbolUsage.Proofs.Json.Faithful
import SymbolUsage.Proofs.Json.Members
import SymbolUsage.Proofs.Json.Places
import SymbolUsage.Proofs.Json.Reordered
import SymbolUsage.Proofs.Json.Steady
import SymbolUsage.Proofs.Json.SteadyForms
import SymbolUsage.Proofs.Json.SteadyTags
import SymbolUsage.Proofs.Name.Segments
import SymbolUsage.Proofs.Resolve.Events
import SymbolUsage.Proofs.Resolve.Failure
import SymbolUsage.Proofs.Resolve.Frame
import SymbolUsage.Proofs.Resolve.History
import SymbolUsage.Proofs.Resolve.Replay
import SymbolUsage.Proofs.Resolve.Resolved
import SymbolUsage.Proofs.Resolve.Restoration
import SymbolUsage.Proofs.Text.ByteOrder
import SymbolUsage.Proofs.Toml.Keys
import SymbolUsage.Proofs.Traversal
import SymbolUsage.Proofs.Tree.Blank
import SymbolUsage.Proofs.Tree.Children
import SymbolUsage.Proofs.Tree.Commuting
import SymbolUsage.Proofs.Tree.MemberOrder
import SymbolUsage.Proofs.Tree.Names
import SymbolUsage.Proofs.Tree.Outline
import SymbolUsage.Proofs.Tree.Preorder
import SymbolUsage.Proofs.Tree.Readers
import SymbolUsage.Proofs.Tree.Rewrite
import SymbolUsage.Proofs.Tree.RoundTrip
import SymbolUsage.Proofs.Tree.Slots
import SymbolUsage.Proofs.Usage.Accumulation
import SymbolUsage.Proofs.Usage.Batches
import SymbolUsage.Proofs.Usage.Desugaring
import SymbolUsage.Proofs.Usage.Exactness
import SymbolUsage.Proofs.Usage.Idempotence
import SymbolUsage.Proofs.Usage.ImportFree
import SymbolUsage.Proofs.Usage.Imports
import SymbolUsage.Proofs.Usage.Keys
import SymbolUsage.Proofs.Usage.Noninterference
import SymbolUsage.Proofs.Usage.Positions
import SymbolUsage.Proofs.Usage.Recorded
import SymbolUsage.Proofs.Usage.Reordering
import SymbolUsage.Proofs.Usage.Separation
import SymbolUsage.Proofs.Usage.SortedNames
import SymbolUsage.Proofs.Usage.Transparency
import SymbolUsage.Proofs.Usage.Unwritten
import SymbolUsage.Proofs.Walk.Calls
import SymbolUsage.Proofs.Walk.Ending
import SymbolUsage.Proofs.Walk.Order
import SymbolUsage.Proofs.Walk.Pass
import SymbolUsage.Proofs.Walk.Proceeding
import SymbolUsage.Proofs.Walk.Simulation
import SymbolUsage.Resolve
import SymbolUsage.Scope
import SymbolUsage.Text.Case
import SymbolUsage.Text.CaseData
import SymbolUsage.Toml.Basic
import SymbolUsage.Toml.Reader
import SymbolUsage.Toml.Scalar
import SymbolUsage.Toml.Text
import SymbolUsage.Tree.Basic
import SymbolUsage.Tree.Decode
import SymbolUsage.Tree.Descend
import SymbolUsage.Tree.Encode
import SymbolUsage.Tree.Node
import SymbolUsage.Tree.Preorder
import SymbolUsage.Tree.Tag
import SymbolUsage.Usage
import SymbolUsage.Walk
import SymbolUsage.Proofs.Files
