import ConicForm.Value
import ConicForm.Unicode
/-!
Expression trees. A node has an id from the counter shared with constraints and is a variable,
a constant, a parameter (its value in a slot of the `World`), a source read again on every
evaluation, a deferred leaf, or an operator over operands that records its shape and whether it
is constant and has parameters. The nodes of a tree are listed by an iterator with a stack of its
own, since trees may be nested deeper than a call stack allows.
-/

namespace ConicForm

/-- An operator defined outside the library, known by its name: the shape it gives operands of
the given shapes, its value over its operands' values, and whether a copy over a new operand
list may be built. Its failures are errors of the library, never the abandoned layout of a
result. -/
structure CustomOp where
  name : String
  shape : List Shape → Shape
  eval : List Value → Except Error Value
  eval_not_abandoned : ∀ vals e, eval vals = .error e → e.category ≠ .abandoned
  rebuildable : Bool

/-- The operator of an inner node, with its own data. -/
inductive Op where
  | add
  | neg
  /-- Elementwise product. -/
  | mul
  | matmul
  /-- Sum of all entries, or along an axis. -/
  | sum (axis : Option Nat)
  | reshape (shape : Shape)
  /-- Picks `start, start + step, …` below `stop` per range; `none` takes a whole dimension. -/
  | index (ranges : List (Option (Nat × Nat × Nat)))
  | vstack
  | hstack
  | transpose
  | trace
  | cumsum (axis : Option Nat)
  | diag
  | norm1
  | norm2
  | normInf
  | abs
  | pos
  | negPart
  | maximum
  | minimum
  /-- `xᵀ P x` of operands `x` and `P`. -/
  | quadForm
  | sumSquares
  /-- `‖x‖² / y` of operands `x` and `y`. -/
  | quadOverLin
  | exp
  | log
  /-- `-x log x`, elementwise. -/
  | entropy
  | power (p : Float)
  | custom (op : CustomOp)
  deriving Inhabited

/-- The kind of a node: the tag that rule tables are keyed by. -/
inductive Kind where
  | variable | constant | parameter | callback
  | add | neg | mul | matmul | sum | reshape | index | vstack | hstack | transpose | trace
  | cumsum | diag | norm1 | norm2 | normInf | abs | pos | negPart | maximum | minimum
  | quadForm | sumSquares | quadOverLin | exp | log | entropy | power
  | custom (name : String)
  deriving DecidableEq, Repr, Inhabited

namespace Kind

def builtin : List Kind :=
  [.variable, .constant, .parameter, .callback, .add, .neg, .mul, .matmul, .sum, .reshape,
    .index, .vstack, .hstack, .transpose, .trace, .cumsum, .diag, .norm1, .norm2, .normInf,
    .abs, .pos, .negPart, .maximum, .minimum, .quadForm, .sumSquares, .quadOverLin, .exp, .log,
    .entropy, .power]

def name : Kind → String
  | .variable => "Variable" | .constant => "Constant" | .parameter => "Parameter"
  | .callback => "CallbackParam" | .add => "Add" | .neg => "Neg" | .mul => "Mul"
  | .matmul => "MatMul" | .sum => "Sum" | .reshape => "Reshape" | .index => "Index"
  | .vstack => "VStack" | .hstack => "HStack" | .transpose => "Transpose" | .trace => "Trace"
  | .cumsum => "Cumsum" | .diag => "Diag" | .norm1 => "Norm1" | .norm2 => "Norm2"
  | .normInf => "NormInf" | .abs => "Abs" | .pos => "Pos" | .negPart => "NegPart"
  | .maximum => "Maximum" | .minimum => "Minimum" | .quadForm => "QuadForm"
  | .sumSquares => "SumSquares" | .quadOverLin => "QuadOverLin" | .exp => "Exp" | .log => "Log"
  | .entropy => "Entropy" | .power => "Power" | .custom n => n

/-- Inspection text of a kind: the name, and `Custom("n")` for a custom operator, its name
quoted with escapes. -/
def debugText : Kind → String
  | .custom n => "Custom(" ++ Unicode.quoted n ++ ")"
  | k => k.name

def ofName? (s : String) : Option Kind := builtin.find? (·.name == s)

end Kind

def Op.kind : Op → Kind
  | .add => .add | .neg => .neg | .mul => .mul | .matmul => .matmul | .sum _ => .sum
  | .reshape _ => .reshape | .index _ => .index | .vstack => .vstack | .hstack => .hstack
  | .transpose => .transpose | .trace => .trace | .cumsum _ => .cumsum | .diag => .diag
  | .norm1 => .norm1 | .norm2 => .norm2 | .normInf => .normInf | .abs => .abs | .pos => .pos
  | .negPart => .negPart | .maximum => .maximum | .minimum => .minimum
  | .quadForm => .quadForm | .sumSquares => .sumSquares | .quadOverLin => .quadOverLin
  | .exp => .exp | .log => .log | .entropy => .entropy | .power _ => .power
  | .custom op => .custom op.name

structure VarInfo where
  shape : Shape
  name : Option String
  nonneg : Bool
  nonpos : Bool
  deriving Inhabited

/-- A parameter: a named placeholder whose value is held in a slot of the world. -/
structure ParamInfo where
  shape : Shape
  name : Option String
  slot : Nat
  deriving Inhabited

/-- A value source, read again on every evaluation. -/
inductive Source where
  /-- Always this value. -/
  | fixed (v : Value)
  /-- Always fails, with its own report. -/
  | failing (why : String)
  /-- Yields `0, 1, 2, …` on successive reads, counted in a slot of the world. -/
  | ticker (slot : Nat)
  deriving Inhabited

/-- An expression node. -/
inductive Expr where
  | var (id : Nat) (info : VarInfo)
  | const (id : Nat) (value : Value) (shape : Shape)
  | param (id : Nat) (info : ParamInfo)
  | source (id : Nat) (shape : Shape) (src : Source)
  /-- A leaf that evaluates `body` again on every read. -/
  | deferred (id : Nat) (shape : Shape) (body : Expr)
  /-- An operator over operands, with the shape and flags computed when it was built. -/
  | node (id : Nat) (op : Op) (args : List Expr) (shape : Shape) (isConst hasParams : Bool)
  deriving Inhabited

namespace Expr

def id : Expr → Nat
  | .var i _ | .const i .. | .param i _ | .source i .. | .deferred i .. | .node i .. => i

def kind : Expr → Kind
  | .var .. => .variable
  | .const .. => .constant
  | .param .. => .parameter
  | .source .. | .deferred .. => .callback
  | .node _ op .. => op.kind

def args : Expr → List Expr
  | .node _ _ args .. => args
  | _ => []

def shape : Expr → Shape
  | .var _ v => v.shape
  | .const _ _ s | .source _ s _ | .deferred _ s _ | .node _ _ _ s .. => s
  | .param _ p => p.shape

/-- No variable occurs in the subtree. -/
def isConst : Expr → Bool
  | .var .. => false
  | .node _ _ _ _ c _ => c
  | _ => true

/-- A parameter, source or deferred leaf occurs in the subtree. -/
def hasParams : Expr → Bool
  | .var .. | .const .. => false
  | .node _ _ _ _ _ h => h
  | _ => true

def isVariable : Expr → Bool
  | .var .. => true
  | _ => false

def isParameter : Expr → Bool
  | .param .. => true
  | _ => false

def constValue? : Expr → Option Value
  | .const _ v _ => some v
  | _ => none

mutual
/-- The number of nodes of a tree, a shared subtree once per occurrence. -/
def size : Expr → Nat
  | .node _ _ args _ _ _ => sizeList args + 1
  | _ => 1

def sizeList : List Expr → Nat
  | [] => 0
  | e :: es => size e + sizeList es
end

theorem sizeList_args_lt (e : Expr) : sizeList e.args < e.size := by
  cases e <;> simp [args, size, sizeList]

theorem sizeList_append (es fs : List Expr) : sizeList (es ++ fs) = sizeList es + sizeList fs := by
  induction es with
  | nil => simp [sizeList]
  | cons e es ih => simp only [List.cons_append, sizeList, ih]; omega

theorem sizeList_reverse (es : List Expr) : sizeList es.reverse = sizeList es := by
  induction es with
  | nil => rfl
  | cons e es ih => simp only [List.reverse_cons, sizeList_append, ih, sizeList]; omega

end Expr

/-- The pre-order iterator over trees: a stack of the subtrees still to walk, its top last. -/
structure Descendants where
  stack : Array Expr

namespace Descendants

def work (it : Descendants) : Nat := Expr.sizeList it.stack.toList

/-- One step: pop the top tree and yield it, after pushing its operands last to first, so that
the first operand is on top. -/
def next? (it : Descendants) : Option (Expr × Descendants) :=
  match it.stack.back? with
  | none => none
  | some node => some (node, ⟨it.stack.pop ++ node.args.reverse.toArray⟩)

theorem work_next? {it rest : Descendants} {node : Expr} (h : it.next? = some (node, rest)) :
    rest.work < it.work := by
  unfold next? at h
  split at h
  · cases h
  · rename_i hback
    cases h
    -- the popped node was the last entry of the stack
    obtain ⟨below, hbelow⟩ := List.getLast?_eq_some_iff.1 (by rwa [Array.getLast?_toList])
    have hlt := Expr.sizeList_args_lt node
    simp only [work, Array.toList_append, Array.toList_pop, hbelow, List.dropLast_concat,
      Expr.sizeList_append, Expr.sizeList_reverse, Expr.sizeList]
    omega

def collect (it : Descendants) (acc : Array Expr) : Array Expr :=
  match _h : it.next? with
  | none => acc
  | some (node, rest) => collect rest (acc.push node)
termination_by it.work
decreasing_by exact work_next? ‹_›

end Descendants

namespace Expr

def descendants (e : Expr) : Descendants := ⟨#[e]⟩

def preorder (e : Expr) : List Expr := (e.descendants.collect #[]).toList

def dedupRuns : List Nat → List Nat
  | [] => []
  | a :: tl@(b :: _) => if a = b then dedupRuns tl else a :: dedupRuns tl
  | [a] => [a]

def sortedIds (ids : List Nat) : List Nat := dedupRuns (ids.mergeSort (· ≤ ·))

def variableIds (e : Expr) : List Nat := sortedIds ((e.preorder.filter (·.isVariable)).map (·.id))

def parameterIds (e : Expr) : List Nat := sortedIds ((e.preorder.filter (·.isParameter)).map (·.id))

end Expr

def Op.inferShape (op : Op) (args : List Shape) : Shape :=
  let first := args.headD Shape.scalar
  let second := (args.drop 1).headD Shape.scalar
  match op with
  | .add | .mul => (first.broadcast second).getD Shape.scalar
  | .matmul => (first.matmul second).getD Shape.scalar
  | .neg | .cumsum _ | .abs | .pos | .negPart | .exp | .log | .entropy | .power _ => first
  | .sum axis =>
    if first.ndim ≤ 1 then Shape.scalar
    else match axis with
      | some 0 => Shape.vector first.cols
      | some _ => Shape.vector first.rows
      | none => Shape.scalar
  | .reshape s => s
  | .index ranges =>
    let pick := fun (i : Nat) (r : Option (Nat × Nat × Nat)) =>
      match r with
      | some (start, stop, step) =>
        let step := max step 1
        let n := (stop - start + step - 1) / step
        if n > 1 then [n] else []
      | none =>
        if ranges.length = 1 then [first.size]
        else if i < first.ndim then [first.dims.getD i 0] else []
    ⟨(ranges.zipIdx.map fun (r, i) => pick i r).flatten⟩
  | .vstack =>
    match args with
    | [] => Shape.scalar
    | f :: _ =>
      let total := Shape.wordSum (args.map (·.rows))
      if f.ndim ≤ 1 then Shape.vector total else Shape.matrix total f.cols
  | .hstack =>
    match args with
    | [] => Shape.scalar
    | f :: _ => Shape.matrix f.rows (Shape.wordSum (args.map (·.cols)))
  | .transpose => first.transpose
  | .trace | .norm1 | .norm2 | .normInf | .quadForm | .sumSquares | .quadOverLin => Shape.scalar
  | .diag =>
    if first.ndim ≤ 1 then Shape.matrix first.size first.size
    else Shape.vector (min first.rows first.cols)
  | .maximum | .minimum =>
    match args with
    | [] => Shape.scalar
    | f :: rest => rest.foldl (fun acc s => (acc.broadcast s).getD acc) f
  | .custom c => c.shape args

end ConicForm
