import ConicForm.Canon.Table
import ConicForm.Expr.Rebuild
/-!
What each rule does. A rule receives the node or constraint being canonicalized and its
canonical operands, and returns the replacement with its auxiliary constraints in the order they
were made. The standard rules replace a nonlinear atom by a fresh variable `t` bounded by cone
constraints, and `lhs ≤ rhs` by `lhs + s - rhs = 0` for a non-negative slack `s`.
-/

namespace ConicForm

namespace Rules

def one (kind : String) : List Expr → Run Expr
  | [x] => pure x
  | args => throw (.ruleArity kind 1 args.length)

def two (kind : String) : List Expr → Run (Expr × Expr)
  | [x, y] => pure (x, y)
  | args => throw (.ruleArity kind 2 args.length)

def nonneg (e : Expr) : Run Constraint := Constraint.make (.nonneg e)

def flattenMatrix (x : Expr) : Run Expr :=
  if x.shape.ndim ≤ 1 then pure x else Expr.flatten x

/-- `‖x‖² ≤ t · y` as `‖(2x, t - y)‖₂ ≤ t + y`. -/
def rotatedSoc (x t y : Expr) : Run Constraint := do
  let fx ← flattenMatrix x
  let twice ← Expr.scale 2 fx
  let diff ← Expr.sub t y
  let stacked ← Expr.build .vstack [twice, diff]
  let total ← Expr.binary .add t y
  Constraint.make (.soc total stacked)

def bothSides (t x : Expr) : Run (List Constraint) := do
  let c1 ← nonneg (← Expr.sub t x)
  let c2 ← nonneg (← Expr.binary .add t x)
  pure [c1, c2]

end Rules

open Rules in
/-- The canonical form of node `e` over its canonical operands by a standard rule. -/
def ConeRule.apply (r : ConeRule) (e : Expr) (args : List Expr) : Run (Expr × List Constraint) :=
  let kind := e.kind.name
  match r with
  | .abs => do
    let x ← one kind args
    let t ← Expr.plainVar x.shape
    pure (t, ← bothSides t x)
  | .pos => do
    let x ← one kind args
    let t ← Expr.plainVar x.shape
    let c1 ← nonneg (← Expr.sub t x)
    let c2 ← nonneg t
    pure (t, [c1, c2])
  | .negPart => do
    let x ← one kind args
    let t ← Expr.plainVar x.shape
    let c1 ← nonneg (← Expr.binary .add t x)
    let c2 ← nonneg t
    pure (t, [c1, c2])
  | .norm1 => do
    let x ← one kind args
    let t ← Expr.plainVar x.shape
    let aux ← bothSides t x
    pure (← Expr.unary (.sum none) t, aux)
  | .normInf => do
    let x ← one kind args
    let t ← Expr.plainVar Shape.scalar
    pure (t, ← bothSides t x)
  | .maximum => do
    let t ← Expr.plainVar e.shape
    let aux ← args.mapM fun a => do nonneg (← Expr.sub t a)
    pure (t, aux)
  | .minimum => do
    let t ← Expr.plainVar e.shape
    let aux ← args.mapM fun a => do nonneg (← Expr.sub a t)
    pure (t, aux)
  | .norm2 => do
    let x ← one kind args
    let t ← Expr.plainVar Shape.scalar
    pure (t, [← Constraint.make (.soc t x)])
  | .sumSquares => do
    let x ← one kind args
    let t ← Expr.plainVar Shape.scalar
    let y ← Expr.scalar 1
    pure (t, [← rotatedSoc x t y])
  | .quadOverLin => do
    let (x, y) ← two kind args
    let t ← Expr.plainVar Shape.scalar
    pure (t, [← rotatedSoc x t y])
  | .exp => do
    let x ← one kind args
    let t ← Expr.plainVar x.shape
    let o ← Expr.filled x.shape 1
    pure (t, [← Constraint.make (.expCone x o t)])
  | .log => do
    let x ← one kind args
    let t ← Expr.plainVar x.shape
    let o ← Expr.filled x.shape 1
    pure (t, [← Constraint.make (.expCone t o x)])
  | .entropy => do
    let x ← one kind args
    let t ← Expr.plainVar x.shape
    let o ← Expr.filled x.shape 1
    pure (t, [← Constraint.make (.expCone t x o)])
  | .power => do
    let p ← match e with
      | .node _ (.power p) .. => pure p
      | _ => throw (.notPower kind)
    let x ← one kind args
    if (p - 1).abs < 1e-10 then pure (x, [])
    else if p.abs < 1e-10 then pure (← Expr.filled x.shape 1, [])
    else
      let t ← Expr.plainVar x.shape
      let o ← Expr.filled x.shape 1
      let rel :=
        if p > 0 && p < 1 then Relation.powerCone x o t p
        else if p > 1 then Relation.powerCone t o x (1 / p)
        else Relation.powerCone t x o (1 / (1 - p))
      pure (t, [← Constraint.make rel])

/-- The canonical form of node `e` over its canonical operands. -/
def ExprRule.apply (r : ExprRule) (e : Expr) (args : List Expr) : Run (Expr × List Constraint) :=
  match r with
  | .cone c => c.apply e args
  | .epigraph => do
    let t ← Expr.plainVar ((args.head?.map (·.shape)).getD e.shape)
    pure (t, [← Rules.nonneg t])
  | .passFirst =>
    match args with
    | a :: _ => pure (a, [])
    | [] => throw (.noArgsFor e.kind.name)
  | .reject => throw (.ruleRejected e.kind.name)

def ConsRule.apply (r : ConsRule) (c : Constraint) (args : List Expr) :
    Run (Constraint × List Constraint) :=
  let kind := c.kind.name
  match r with
  | .cone .equality => do
    let (lhs, rhs) ← Rules.two kind args
    pure (← Constraint.make (.zero (← Expr.sub lhs rhs)), [])
  | .cone .inequality => do
    let (lhs, rhs) ← Rules.two kind args
    let s ← Expr.nonnegVar ((lhs.shape.broadcast rhs.shape).getD lhs.shape)
    let sum ← Expr.binary .add lhs s
    let top ← Constraint.make (.zero (← Expr.sub sum rhs))
    pure (top, [← Rules.nonneg s])
  | .reject => throw (.ruleRejected kind)
  | .copyWithNonneg => do
    let top ← c.withArgs args
    match args with
    | a :: _ => pure (top, [← Rules.nonneg a])
    | [] => throw (.noArgsFor kind)
  | .zeroOfFirst =>
    match args with
    | a :: _ => do pure (← Constraint.make (.zero a), [])
    | [] => throw (.noArgsFor kind)

end ConicForm
