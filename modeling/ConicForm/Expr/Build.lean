import ConicForm.Expr.Basic
import ConicForm.World
/-!
Building nodes. Each builder takes fresh ids from the world, operands first: a builder
that makes helper nodes makes them in the order its doc comment gives, before the node it
returns.
-/

namespace ConicForm

namespace Expr

/-- An operator node over `args`, with a fresh id; its shape and flags follow from the
operands. -/
def build (op : Op) (args : List Expr) : Build Expr := do
  let id ← fresh
  pure (.node id op args (op.inferShape (args.map (·.shape))) (args.all (·.isConst))
    (args.any (·.hasParams)))

def unary (op : Op) (a : Expr) : Build Expr := build op [a]

def binary (op : Op) (a b : Expr) : Build Expr := build op [a, b]

def newVar (info : VarInfo) : Build Expr := do
  pure (.var (← fresh) info)

def plainVar (shape : Shape) : Build Expr := newVar ⟨shape, none, false, false⟩

def nonnegVar (shape : Shape) : Build Expr := newVar ⟨shape, none, true, false⟩

def constant (v : Value) (shape : Shape) : Build Expr := do
  pure (.const (← fresh) v shape)

def scalar (x : Float) : Build Expr := constant (.scalar x) Shape.scalar

def vector (xs : List Float) : Build Expr := constant (Value.ofList xs) (Shape.vector xs.length)

def matrix (m : Dense) : Build Expr := constant (.dense m) (Shape.matrix m.rows m.cols)

/-- A dense matrix from its entries in column order. The count must be `rows · cols`, else
the entries cannot be laid out and building is abandoned. -/
def columnMajor (rows cols : Nat) (data : List Float) : Run Expr :=
  if rows * cols ≠ data.length then throw .storageMismatch
  else matrix ⟨rows, cols, data.toArray⟩

def sparse (m : Sparse) : Build Expr := constant (.sparse m) (Shape.matrix m.rows m.cols)

/-- A constant of a shape with every entry `x`: a number for the scalar shape, else a dense
`rows × cols` matrix. -/
def filled (shape : Shape) (x : Float) : Build Expr :=
  constant (if shape.isScalar then .scalar x else .dense (Dense.fill shape.rows shape.cols x))
    shape

def identity (n : Nat) : Build Expr := matrix (Dense.ofFn n n fun i j => if i = j then 1 else 0)

def parameter (shape : Shape) (name : Option String) : Build Expr := do
  let id ← fresh
  pure (.param id ⟨shape, name, id⟩)

def newSource (shape : Shape) (src : Source) : Build Expr := do
  pure (.source (← fresh) shape src)

/-- A leaf read from a ticking source, counted in a slot of its own. -/
def ticker (shape : Shape) : Build Expr := do
  let id ← fresh
  pure (.source id shape (.ticker id))

/-- A leaf that evaluates `body` again on every read. -/
def deferredOf (shape : Shape) (body : Expr) : Build Expr := do
  pure (.deferred (← fresh) shape body)

/-- Changes a variable's declaration, keeping its id; other nodes are unchanged. -/
def mapVariable (f : VarInfo → VarInfo) : Expr → Expr
  | .var id v => .var id (f v)
  | e => e

/-- Declared non-negative; this clears non-positive. -/
def markNonneg : Expr → Expr := mapVariable fun v => { v with nonneg := true, nonpos := false }

/-- Declared non-positive; this clears non-negative. -/
def markNonpos : Expr → Expr := mapVariable fun v => { v with nonpos := true, nonneg := false }

def rename (name : String) : Expr → Expr := mapVariable fun v => { v with name := some name }

def sub (a b : Expr) : Build Expr := do
  let nb ← unary .neg b
  binary .add a nb

def scale (k : Float) (a : Expr) : Build Expr := do
  let c ← scalar k
  binary .mul c a

def divBy (a : Expr) (k : Float) : Build Expr := do
  let c ← scalar (1 / k)
  binary .mul c a

def dot (a b : Expr) : Build Expr := do
  let m ← binary .mul a b
  unary (.sum none) m

def flatten (a : Expr) : Build Expr := unary (.reshape (Shape.vector a.shape.size)) a

def slice (a : Expr) (start stop : Nat) : Build Expr := unary (.index [some (start, stop, 1)]) a

def entry (a : Expr) (i : Nat) : Build Expr := unary (.index [some (i, i + 1, 1)]) a

def sqrt (a : Expr) : Build Expr := unary (.power 0.5) a

def norm (a : Expr) (p : Float) : ExceptT Error Build Expr :=
  if p == 1 then unary .norm1 a
  else if p == 2 then unary .norm2 a
  else if p.isInf && p > 0 then unary .normInf a
  else throw (.unsupportedNorm p)

/-- The elementwise maximum of a list: one operand is returned as it is. -/
def maximumOf : List Expr → ExceptT Error Build Expr
  | [] => throw (.emptyList "maximum")
  | [a] => pure a
  | xs => build .maximum xs

def minimumOf : List Expr → ExceptT Error Build Expr
  | [] => throw (.emptyList "minimum")
  | [a] => pure a
  | xs => build .minimum xs

end Expr

end ConicForm
