import ConicForm.Shape
import ConicForm.Decimal.Shortest
import ConicForm.Decimal.Layout
import ConicForm.Decimal.Quick
import ConicForm.Error
import ConicForm.Binary64
import ConicForm.Arrange
import ConicForm.Unicode
import ConicForm.Dense
import ConicForm.Value
import ConicForm.World
import ConicForm.IdMap
import ConicForm.Expr.Basic
import ConicForm.Expr.Build
import ConicForm.Expr.Rebuild
import ConicForm.Expr.Eval
import ConicForm.Expr.Traverse
import ConicForm.Constraint
import ConicForm.Problem
import ConicForm.Solution
import ConicForm.Canon.Table
import ConicForm.Canon.Rules
import ConicForm.Canon.Walk
import ConicForm.Canon.Inverse
import ConicForm.Canon.Apply
import ConicForm.Canon.Chain
import ConicForm.Session.Doc
import ConicForm.Session.Syntax
import ConicForm.Session.State
import ConicForm.Session.Read
import ConicForm.Session.Write
import ConicForm.Session.Ops
import ConicForm.Session.Answer
import ConicForm.Proofs.Broadcast
import ConicForm.Proofs.Run
import ConicForm.Proofs.IdMap
import ConicForm.Proofs.Rules
import ConicForm.Proofs.Eval
import ConicForm.Proofs.Walk
import ConicForm.Proofs.ConstraintMap
import ConicForm.Proofs.Vocabulary
import ConicForm.Proofs.Folding
import ConicForm.Proofs.Meaning
import ConicForm.Proofs.Recursion
import ConicForm.Proofs.Inversion
import ConicForm.Proofs.Ledger
import ConicForm.Proofs.Identity
import ConicForm.Proofs.Recanonical
import ConicForm.Proofs.Shapes
import ConicForm.Proofs.Abort
import ConicForm.Proofs.ShapeSemantics
import ConicForm.Proofs.Binary64Order
import ConicForm.Proofs.Binary64Round
import ConicForm.Proofs.RealReading
import ConicForm.Proofs.Epigraph
import ConicForm.Proofs.AtomOptimum
import ConicForm.Proofs.Traversal
import ConicForm.Proofs.Rebuild
import ConicForm.Proofs.Flags
import ConicForm.Proofs.Layout
import ConicForm.Proofs.Descendants
