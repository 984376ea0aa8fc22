import ConicForm.Dense
import ConicForm.Arrange
/-!
The value of an expression: a single number, a dense matrix, or a sparse matrix in
compressed-column form. Every value has column-major storage dimensions; a value of a
given shape is built from a dense result by `Value.ofDense`, which fails when the entry
counts differ.
-/

namespace ConicForm

/-- A sparse matrix: its stored entries `(row, column, value)`, ordered by column and then
by row, at most one per position. Stored zeros stay stored. -/
structure Sparse where
  rows : Nat
  cols : Nat
  entries : List (Nat × Nat × Float)
  deriving Inhabited

namespace Sparse

def combineRuns : List (Nat × Float) → List (Nat × Float)
  | a :: b :: rest =>
    if a.1 == b.1 then combineRuns ((a.1, a.2 + b.2) :: rest)
    else a :: combineRuns (b :: rest)
  | xs => xs
termination_by xs => xs.length

/-- One column of a matrix built from triplets: its `(row, value)` pairs in input order are
sorted by row with the unstable sort, and pairs of one row are then added in the order the
sort leaves them. -/
def assembleColumn (col : Nat) (lane : Array (Nat × Float)) : List (Nat × Nat × Float) :=
  (combineRuns (Arrange.sortBy (fun a b => decide (a.1 < b.1)) lane).toList).map
    fun p => (p.1, col, p.2)

/-- The compressed-column matrix of a list of triplets, column by column; repeated positions
are summed. -/
def ofTriplets (rows cols : Nat) (ts : List (Nat × Nat × Float)) : Sparse :=
  let byCol := ts.mergeSort fun a b => decide (a.2.1 ≤ b.2.1)
  let lanes := byCol.splitBy fun a b => a.2.1 == b.2.1
  ⟨rows, cols, lanes.flatMap fun lane =>
    match lane with
    | [] => []
    | t :: _ => assembleColumn t.2.1 (lane.map fun e => (e.1, e.2.2)).toArray⟩

/-- The dense copy: each stored entry added to a zero, so a stored `-0` reads as `+0`. -/
def toDense (m : Sparse) : Dense :=
  let zero := Array.replicate (m.rows * m.cols) (0 : Float)
  ⟨m.rows, m.cols, m.entries.foldl
    (fun d e => d.modify (e.2.1 * m.rows + e.1) (· + e.2.2)) zero⟩

end Sparse

inductive Value where
  | scalar (x : Float)
  | dense (m : Dense)
  | sparse (m : Sparse)
  deriving Inhabited

namespace Value

def ofList (xs : List Float) : Value := .dense (Dense.column xs.toArray)

def dims : Value → Nat × Nat
  | .scalar _ => (1, 1)
  | .dense m => (m.rows, m.cols)
  | .sparse m => (m.rows, m.cols)

def size (v : Value) : Nat := v.dims.1 * v.dims.2

def asScalar? : Value → Option Float
  | .scalar x => some x
  | .dense m => if m.rows = 1 ∧ m.cols = 1 then some (m.get 0 0) else none
  | .sparse _ => none

def isNonneg : Value → Bool
  | .scalar x => x ≥ 0
  | .dense m => m.data.all (· ≥ 0)
  | .sparse m => m.entries.all (·.2.2 ≥ 0)

def toDense : Value → Dense
  | .scalar x => Dense.unit x
  | .dense m => m
  | .sparse m => m.toDense

/-- A dense result laid out for `shape`: a number for the scalar shape, else the entries
reread in storage order as `rows × cols` of the shape. The entry count must be the shape's
size, and rereading needs it to be `rows · cols` as well, which fails for a shape whose
third dimension exceeds one. -/
def ofDense (m : Dense) (shape : Shape) : Except Error Value :=
  if m.rows * m.cols ≠ shape.size then .error (.sizeMismatch shape m.dims)
  else if shape.isScalar then .ok (.scalar (m.get 0 0))
  else if m.rows = shape.rows ∧ m.cols = shape.cols then .ok (.dense m)
  else if shape.rows * shape.cols ≠ m.rows * m.cols then .error .storageMismatch
  else .ok (.dense ⟨shape.rows, shape.cols, m.data⟩)

end Value

end ConicForm
