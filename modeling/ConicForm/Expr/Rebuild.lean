import ConicForm.Expr.Build
/-!
Copying a node over a new list of operands.

The copy has the node's kind and all of its own data, the given operands, the shape and flags
that those operands give, and a fresh id. Variables are never copied: a canonical tree shares
them. Leaves are copied from an empty operand list, and a copied parameter or source shares
its slot with the node it copies.
-/

namespace ConicForm

inductive Arity where
  | exactly (n : Nat)
  | any
  | atLeastOne
  deriving DecidableEq, Repr

/-- The operand count of an operator; a custom operator keeps the count it was built with. -/
def Op.arity (op : Op) (current : Nat) : Arity :=
  match op with
  | .add | .mul | .matmul | .quadForm | .quadOverLin => .exactly 2
  | .vstack | .hstack => .any
  | .maximum | .minimum => .atLeastOne
  | .custom _ => .exactly current
  | _ => .exactly 1

namespace Expr

def copyLeaf (e : Expr) (id : Nat) : Expr :=
  match e with
  | .var _ v => .var id v
  | .const _ v s => .const id v s
  | .param _ p => .param id p
  | .source _ s src => .source id s src
  | .deferred _ s b => .deferred id s b
  | .node _ op args s c h => .node id op args s c h

/-- The node of the same kind and data over `args`, with a fresh id. -/
def withArgs (e : Expr) (args : List Expr) : ExceptT Error Build Expr :=
  let n := args.length
  match e with
  | .var .. => throw .variableCopied
  | .node _ op old _ _ _ =>
    match op with
    | .custom c =>
      if !c.rebuildable then throw (.customFixed c.name)
      else if old.length ≠ n then throw (.arity c.name old.length n)
      else build op args
    | _ =>
      match op.arity old.length with
      | .exactly k => if k ≠ n then throw (.arity op.kind.name k n) else build op args
      | .any => build op args
      | .atLeastOne => if n = 0 then throw (.noOperands op.kind.name) else build op args
  | leaf =>
    if n ≠ 0 then throw (.arity leaf.kind.name 0 n)
    else do return leaf.copyLeaf (← fresh)

end Expr

end ConicForm
