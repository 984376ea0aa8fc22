import ConicForm.Expr.Build
/-!
Constraints. A constraint has an id from the counter that nodes use, and a relation over
expressions: `e = 0`, `e ≥ 0`, `a = b`, `a ≤ b`, the second-order cone `‖x‖₂ ≤ t`, the
exponential cone `y · exp(x / y) ≤ z` with `y > 0`, and the power cone
`|z| ≤ x^α · y^(1-α)` with `x, y ≥ 0`. Equalities and inequalities keep both sides as
written; canonicalization turns them into cone relations.
-/

namespace ConicForm

/-- The relation of a constraint over its operands. -/
inductive Relation where
  | zero (e : Expr)
  | nonneg (e : Expr)
  | equality (lhs rhs : Expr)
  | inequality (lhs rhs : Expr)
  | soc (t x : Expr)
  | expCone (x y z : Expr)
  | powerCone (x y z : Expr) (alpha : Float)
  deriving Inhabited

/-- The kind of a constraint: the tag that rule tables are keyed by. -/
inductive ConeKind where
  | zero | nonneg | equality | inequality | soc | expCone | powerCone
  deriving DecidableEq, Repr, Inhabited

namespace ConeKind

def all : List ConeKind := [.zero, .nonneg, .equality, .inequality, .soc, .expCone, .powerCone]

def name : ConeKind → String
  | .zero => "Zero" | .nonneg => "NonNeg" | .equality => "Equality"
  | .inequality => "Inequality" | .soc => "SOC" | .expCone => "ExpCone"
  | .powerCone => "PowerCone"

def ofName? (s : String) : Option ConeKind := all.find? (·.name == s)

def arity : ConeKind → Nat
  | .zero | .nonneg => 1
  | .equality | .inequality | .soc => 2
  | .expCone | .powerCone => 3

end ConeKind

namespace Relation

def kind : Relation → ConeKind
  | .zero _ => .zero | .nonneg _ => .nonneg | .equality .. => .equality
  | .inequality .. => .inequality | .soc .. => .soc | .expCone .. => .expCone
  | .powerCone .. => .powerCone

/-- The operands in order: `[lhs, rhs]`, `[t, x]`, `[x, y, z]`. -/
def args : Relation → List Expr
  | .zero e | .nonneg e => [e]
  | .equality a b | .inequality a b | .soc a b => [a, b]
  | .expCone x y z | .powerCone x y z _ => [x, y, z]

/-- The relation of the same kind over new operands; a power cone keeps its exponent. -/
def withArgs (r : Relation) (args : List Expr) : Except Error Relation :=
  match r, args with
  | .zero _, [e] => .ok (.zero e)
  | .nonneg _, [e] => .ok (.nonneg e)
  | .equality .., [a, b] => .ok (.equality a b)
  | .inequality .., [a, b] => .ok (.inequality a b)
  | .soc .., [t, x] => .ok (.soc t x)
  | .expCone .., [x, y, z] => .ok (.expCone x y z)
  | .powerCone _ _ _ alpha, [x, y, z] => .ok (.powerCone x y z alpha)
  | r, args => .error (.arity r.kind.name r.kind.arity args.length)

end Relation

/-- A constraint: an id and a relation. -/
structure Constraint where
  id : Nat
  rel : Relation
  deriving Inhabited

namespace Constraint

def make (rel : Relation) : Build Constraint := do
  pure ⟨← fresh, rel⟩

def kind (c : Constraint) : ConeKind := c.rel.kind

def args (c : Constraint) : List Expr := c.rel.args

/-- `a ≥ b`, written as `b ≤ a`. -/
def geq (a b : Expr) : Build Constraint := make (.inequality b a)

def withArgs (c : Constraint) (args : List Expr) : ExceptT Error Build Constraint :=
  match c.rel.withArgs args with
  | .ok r => make r
  | .error e => throw e

def variableIds (c : Constraint) : List Nat := Expr.sortedIds (c.args.flatMap Expr.variableIds)

def parameterIds (c : Constraint) : List Nat := Expr.sortedIds (c.args.flatMap Expr.parameterIds)

end Constraint

end ConicForm
