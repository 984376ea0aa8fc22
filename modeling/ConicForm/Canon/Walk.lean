import ConicForm.Canon.Rules
import ConicForm.Expr.Eval
/-!
Canonicalization of a tree: a walk after the operands, left to right, that replaces each node by
the first case that applies to it. A constant subtree with a parameter becomes a deferred leaf,
its operands walked first so that their errors show now; any other constant subtree is evaluated
once into a constant leaf; a variable stays itself; a node whose kind has a rule is replaced by
what the rule builds; any other node is copied. Auxiliary constraints come out in visit order.
-/

namespace ConicForm

namespace Table

def traceNote (kind : String) (id : Nat) (what : String) : Build Unit :=
  note .trace [.text (kind ++ " "), .node id, .text (": " ++ what)]

/-- The canonical form of one node, given its canonical operands. -/
def canonNode (T : Table) (e : Expr) (args : List Expr) : Run (Expr × List Constraint) := do
  if e.isConst then
    if e.hasParams then
      traceNote e.kind.name e.id "deferred"
      pure (← Expr.deferredOf e.shape e, [])
    else
      traceNote e.kind.name e.id "folded"
      let v ← e.eval
      pure (← Expr.constant v e.shape, [])
  else if e.isVariable then pure (e, [])
  else
    match T.exprRule? e.kind with
    | some r =>
      traceNote e.kind.name e.id "rewritten by rule"
      r.apply e args
    | none =>
      traceNote e.kind.name e.id "copied"
      pure (← e.withArgs args, [])

/-- The walk enters a node unless it is a constant subtree without parameters. -/
def enters (e : Expr) : Bool := !e.isConst || e.hasParams

mutual
/-- The canonical tree, with its auxiliary constraints appended to `acc` in visit order. -/
def canonTree (T : Table) : Expr → Array Constraint → Run (Expr × Array Constraint)
  | .node i op args s c h, acc => do
    let e := Expr.node i op args s c h
    if enters e then
      let (args', acc) ← canonList T args acc
      let (r, more) ← T.canonNode e args'
      pure (r, acc ++ more.toArray)
    else
      let (r, more) ← T.canonNode e []
      pure (r, acc ++ more.toArray)
  | e, acc => do
    let (r, more) ← T.canonNode e []
    pure (r, acc ++ more.toArray)

def canonList (T : Table) : List Expr → Array Constraint → Run (List Expr × Array Constraint)
  | [], acc => pure ([], acc)
  | e :: es, acc => do
    let (r, acc) ← canonTree T e acc
    let (rs, acc) ← canonList T es acc
    pure (r :: rs, acc)
end

def canonExpr (T : Table) (e : Expr) : Run (Expr × List Constraint) := do
  let (r, aux) ← T.canonTree e #[]
  pure (r, aux.toList)

def canonConsNode (T : Table) (c : Constraint) (args : List Expr) :
    Run (Constraint × List Constraint) := do
  match T.consRule? c.kind with
  | some r =>
    traceNote c.kind.name c.id "rewritten by rule"
    r.apply c args
  | none =>
    traceNote c.kind.name c.id "copied"
    pure (← c.withArgs args, [])

/-- The canonical constraint and its auxiliary constraints: those of the operands, in order,
then those of the constraint's own rule. -/
def canonConstraint (T : Table) (c : Constraint) : Run (Constraint × List Constraint) := do
  let (args, aux) ← T.canonList c.args #[]
  let (top, more) ← T.canonConsNode c args
  pure (top, aux.toList ++ more)

end Table

end ConicForm
