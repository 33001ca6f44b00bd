import WebBindings.Attribute.Reflection
import WebBindings.Attribute.PropertyTable
import WebBindings.Attribute.TokenList
import WebBindings.Handler.Configuration
import WebBindings.Handler.Map
import WebBindings.Idl.Type
import WebBindings.Invocation
import WebBindings.Node.Dispatch
import WebBindings.Number.Words
import WebBindings.Proofs.Attribute.DoubleText
import WebBindings.Proofs.Attribute.Doubles
import WebBindings.Proofs.Attribute.Enumerated
import WebBindings.Proofs.Attribute.IntegerText
import WebBindings.Proofs.Attribute.Reference
import WebBindings.Proofs.Attribute.Replacement
import WebBindings.Proofs.Attribute.TokenText
import WebBindings.Proofs.Handler.Answer
import WebBindings.Proofs.Handler.Blocking
import WebBindings.Proofs.Handler.Builtin
import WebBindings.Proofs.Handler.Removal
import WebBindings.Proofs.Heap.Lengths
import WebBindings.Proofs.Heap.Listing
import WebBindings.Proofs.Idl.ArrayReading
import WebBindings.Proofs.Idl.Record
import WebBindings.Proofs.Node.CurrentTarget
import WebBindings.Proofs.Number.IntegerLiteral
import WebBindings.Proofs.Script.Blocks
import WebBindings.Proofs.Script.Coverage
import WebBindings.Proofs.Script.Depth
import WebBindings.Proofs.Script.Freezing
import WebBindings.Proofs.Script.Minus
import WebBindings.Proofs.Script.Order
import WebBindings.Proofs.Script.Scoping
import WebBindings.Proofs.Text.Surrogates
import WebBindings.Proofs.Policy.Header
import WebBindings.Proofs.Number.Difference
import WebBindings.Proofs.Script.Subtraction
import WebBindings.Proofs.Script.WhiteSpace
import WebBindings.Proofs.Node.Coherence
import WebBindings.Proofs.Attribute.LetterCase
import WebBindings.Proofs.Script.Targets
import WebBindings.Proofs.Script.Progress
import WebBindings.Url.Parse
