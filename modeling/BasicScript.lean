import BasicScript.Main
import BasicScript.Proofs.Evaluate.Bookkeeping
import BasicScript.Proofs.Evaluate.Isolation
import BasicScript.Proofs.Node.Roundtrip
import BasicScript.Proofs.Node.Stopping
import BasicScript.Proofs.Evaluate.Limit
import BasicScript.Proofs.Evaluate.Trace
import BasicScript.Proofs.Evaluate.CallSite
import BasicScript.Proofs.Evaluate.Termination
import BasicScript.Proofs.Evaluate.Line
import BasicScript.Proofs.Token.Tiling
import BasicScript.Proofs.Store.Equality
import BasicScript.Proofs.Evaluate.Keys
import BasicScript.Proofs.Evaluate.Merge
import BasicScript.Proofs.Evaluate.Directory
import BasicScript.Proofs.Node.Extent
import BasicScript.Proofs.Node.Leaf
import BasicScript.Proofs.Node.Walk
import BasicScript.Proofs.Store.Upsert
import BasicScript.Proofs.Evaluate.Upsert
import BasicScript.Proofs.Store.Scope
import BasicScript.Proofs.Store.Forest
import BasicScript.Proofs.Token.Lexeme
import BasicScript.Proofs.Token.Quoting
import BasicScript.Proofs.Evaluate.Traversal
import BasicScript.Proofs.Evaluate.Compound
import BasicScript.Proofs.Number.Arithmetic
import BasicScript.Proofs.Number.Whole
import BasicScript.Proofs.Number.Equality
import BasicScript.Proofs.Evaluate.Range
import BasicScript.Proofs.Number.Reading
import BasicScript.Proofs.Store.Conversion
import BasicScript.Proofs.Evaluate.Underline
