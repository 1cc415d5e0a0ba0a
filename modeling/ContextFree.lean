import ContextFree.Derivation
import ContextFree.Main
import ContextFree.Proofs.Interpretation
import ContextFree.Proofs.Sweep
import ContextFree.RuleLine.Layout
import ContextFree.Proofs.Nullable
import ContextFree.Proofs.UnitChain
import ContextFree.Proofs.BinaryForm
import ContextFree.Proofs.Pruning
import ContextFree.Proofs.NormalGrammar
import ContextFree.Proofs.Chart
import ContextFree.Proofs.Run
import ContextFree.Proofs.NormalForm
import ContextFree.Proofs.Membership
import ContextFree.Proofs.Rewriting
import ContextFree.Proofs.NameSupply
import ContextFree.Proofs.Rounds
import ContextFree.Proofs.FreshNames
import ContextFree.Proofs.Unchanged
import ContextFree.Proofs.Binarized
import ContextFree.Proofs.Fruitful
import ContextFree.Proofs.SecondRun
import ContextFree.Proofs.Order
import ContextFree.Proofs.Naming
import ContextFree.Proofs.Reordering
import ContextFree.Proofs.SharedSupply
import ContextFree.Proofs.Emptiness
import ContextFree.Proofs.Words
import ContextFree.Proofs.Layout
import ContextFree.Proofs.Lines
import ContextFree.Proofs.Declared
import ContextFree.Proofs.Kept
import ContextFree.Proofs.Queue
import ContextFree.Proofs.RecycledNames
import ContextFree.Proofs.Session
import ContextFree.Proofs.NormalView
import ContextFree.Proofs.Variants
import ContextFree.Proofs.Spelling
import ContextFree.Proofs.Traversal
