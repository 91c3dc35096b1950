import PassingLisp.Text.Alphanumeric
import PassingLisp.Text.Escaped
import PassingLisp.Text.Blank
import PassingLisp.Value
import PassingLisp.Value.Printer
import PassingLisp.Error
import PassingLisp.Reader.Program
import PassingLisp.Store
import PassingLisp.Builtin.Registry
import PassingLisp.Interpreter
import PassingLisp.Main
import PassingLisp.Proofs.Builtins
import PassingLisp.Proofs.Calls
import PassingLisp.Proofs.Layers
import PassingLisp.Proofs.Reachable
import PassingLisp.Proofs.Raised
import PassingLisp.Proofs.Ending
import PassingLisp.Proofs.Termination
import PassingLisp.Proofs.Commands
import PassingLisp.Proofs.Reading
import PassingLisp.Proofs.Printing
import PassingLisp.Proofs.Items
import PassingLisp.Proofs.Footprint
import PassingLisp.Proofs.Budget
import PassingLisp.Proofs.Comments
import PassingLisp.Proofs.Layout
import PassingLisp.Proofs.Completion
import PassingLisp.Proofs.FirstLines
import PassingLisp.Proofs.Fused
import PassingLisp.Proofs.Conversation
import PassingLisp.Proofs.Depths
import PassingLisp.Proofs.Lexical
import PassingLisp.Proofs.Agreement
import PassingLisp.Proofs.Aliases
import PassingLisp.Proofs.Passing
import PassingLisp.Proofs.Fuel
import PassingLisp.Proofs.FirstMatch
import PassingLisp.Proofs.Shapes
import PassingLisp.Proofs.Malformed
import PassingLisp.Proofs.Derived
import PassingLisp.Proofs.Heads
import PassingLisp.Proofs.Script
import PassingLisp.Proofs.Exactness
import PassingLisp.Proofs.Equality
import PassingLisp.Proofs.Changes
import PassingLisp.Proofs.Listing
import PassingLisp.Proofs.History
import PassingLisp.Proofs.Excerpts
