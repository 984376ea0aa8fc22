import ConicForm.Expr.Build
/-!
Numeric evaluation.

An operator computes on dense copies of its operands' values, and its result is laid out for
the node's shape by `Value.ofDense`; a custom operator sees its operands' values as they are
and its result is taken as it is. A tree is evaluated after its operands, left to right, and
the first failure stops the evaluation. A source is read, and a deferred leaf evaluated, anew
on every evaluation.
-/

namespace ConicForm

abbrev Assignment := Nat → Option Value

namespace Op

/-- The dense result of a built-in operator on dense operands. -/
def compute (op : Op) (ms : List Dense) : Except Error Dense :=
  let a := ms.headD default
  let b := (ms.drop 1).headD default
  match op with
  | .add => Dense.broadcastWith (· + ·) a b
  | .neg => .ok (a.map (- ·))
  | .mul => Dense.broadcastWith (· * ·) a b
  | .matmul => a.matmul b
  | .sum none => .ok (Dense.unit a.elementSum)
  | .sum (some 0) => .ok a.columnSums
  | .sum (some _) => .ok a.rowSums
  | .reshape _ => .ok a
  | .index ranges => a.index ranges
  | .vstack => Dense.vstack ms
  | .hstack => Dense.hstack ms
  | .transpose => .ok a.transpose
  | .trace => .ok (Dense.unit a.trace)
  | .cumsum axis => .ok (a.cumsum (axis.getD 0))
  | .diag => .ok a.diag
  | .norm1 => .ok (Dense.unit (Dense.seriesSum (a.data.toList.map Float.abs)))
  | .norm2 => .ok (Dense.unit a.norm)
  | .normInf => .ok (Dense.unit a.amax)
  | .abs => .ok (a.map Float.abs)
  | .pos => .ok (a.map fun v => Dense.maxNum v 0)
  | .negPart => .ok (a.map fun v => Dense.maxNum (-v) 0)
  | .maximum =>
    match ms with
    | [] => .error .emptyElementwise
    | m :: rest => rest.foldlM (Dense.broadcastWith Dense.maxNum) m
  | .minimum =>
    match ms with
    | [] => .error .emptyElementwise
    | m :: rest => rest.foldlM (Dense.broadcastWith Dense.minNum) m
  | .quadForm =>
    if b.rows ≠ a.rows ∨ b.cols ≠ a.rows then .error (.dimsMismatch b.dims a.dims)
    else .ok ((a.transpose.mul b).mul a)
  | .sumSquares => .ok (Dense.unit a.normSquared)
  | .quadOverLin =>
    if b.isUnit then .ok (Dense.unit (a.normSquared / b.get 0 0)) else .error (.notScalar b.dims)
  | .exp => .ok (a.map Float.exp)
  | .log => .ok (a.map Float.log)
  | .entropy => .ok (a.map fun v => if v == 0 then 0 else -v * v.log)
  | .power p => .ok (a.map (· ^ p))
  | .custom _ => .ok a

end Op

/-- The value of an operator node of `shape` over its operands' values. -/
def Op.apply (op : Op) (vals : List Value) (shape : Shape) : Except Error Value :=
  match op with
  | .custom c => c.eval vals
  | _ => do Value.ofDense (← op.compute (vals.map Value.toDense)) shape

def Source.read : Source → Run Value
  | .fixed v => pure v
  | .failing why => throw (.sourceFailed why)
  | .ticker slot => do
    let k ← tick slot
    pure (.scalar k.toFloat)

namespace Expr

mutual
/-- The value of a tree with the variables at `σ`. -/
def evalAt (σ : Assignment) : Expr → Run Value
  | .var id v =>
    match σ id with
    | some x => pure x
    | none => throw (.unsetVariable id v.name)
  | .const _ v _ => pure v
  | .param id p => do
    match (← get).param? p.slot with
    | some v => pure v
    | none => throw (.unsetParameter id p.name)
  | .source _ _ src => src.read
  | .deferred _ _ body => evalAt σ body
  | .node _ op args shape _ _ => do
    let vals ← evalAtList σ args
    match op.apply vals shape with
    | .ok v => pure v
    | .error e => throw e

def evalAtList (σ : Assignment) : List Expr → Run (List Value)
  | [] => pure []
  | e :: es => do
    let v ← evalAt σ e
    let vs ← evalAtList σ es
    pure (v :: vs)
end

def eval (e : Expr) : Run Value := e.evalAt fun _ => none

/-- Assign a value to a parameter; its entry count must be the parameter's size. -/
def setValue (e : Expr) (v : Value) : ExceptT Error Build Unit :=
  match e with
  | .param _ p =>
    if v.size ≠ p.shape.size then throw (.sizeMismatch p.shape v.dims)
    else assignSlot p.slot v
  | _ => throw (.notAssignable e.kind.name e.id)

end Expr

end ConicForm
