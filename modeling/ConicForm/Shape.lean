/-!
Shapes of expression values. A shape is a list of dimensions: `[]` is a scalar, `[n]` a
vector stored as an `n × 1` column, `[m, n]` a matrix. Storage is always a column-major
matrix of `rows × cols` entries, where only the first two dimensions count.

The two partial operations, broadcasting and the shape of a matrix product, return `none`
when the operands do not fit. Counts of entries are 64-bit words, so sizes and sums of
dimensions wrap around at `2^64`.
-/

namespace ConicForm

/-- The dimensions of a value. -/
structure Shape where
  dims : List Nat
  deriving DecidableEq, Repr, Inhabited

namespace Shape

def scalar : Shape := ⟨[]⟩

def vector (n : Nat) : Shape := ⟨[n]⟩

def matrix (m n : Nat) : Shape := ⟨[m, n]⟩

/-- Counts of entries are machine words: they wrap around at `2^64`. -/
def wordModulus : Nat := 18446744073709551616

def wordSum (xs : List Nat) : Nat := xs.foldl (fun a b => (a + b) % wordModulus) 0

/-- Number of entries: the product of the dimensions wrapped at `2^64`, and at least one. -/
def size (s : Shape) : Nat := max (s.dims.foldl (· * ·) 1 % wordModulus) 1

def ndim (s : Shape) : Nat := s.dims.length

def isScalar (s : Shape) : Bool := s.dims.isEmpty

def isVector (s : Shape) : Bool := s.dims.length == 1

def isMatrix (s : Shape) : Bool := s.dims.length == 2

def rows (s : Shape) : Nat := s.dims.headD 1

def cols (s : Shape) : Nat := (s.dims.drop 1).headD 1

def transpose (s : Shape) : Shape :=
  match s.dims with
  | [] => scalar
  | [n] => matrix 1 n
  | _ => matrix s.cols s.rows

def joinDim (a b : Nat) : Option Nat :=
  if a = b then some a
  else if a = 1 then some b
  else if b = 1 then some a
  else none

/-- Two lists of dimensions aligned at their ends, each given last dimension first: the
aligned pairs are joined, and the longer list keeps its extra leading dimensions. -/
def joinReversed : List Nat → List Nat → Option (List Nat)
  | [], ys => some ys
  | x :: xs, [] => some (x :: xs)
  | x :: xs, y :: ys => do
    let d ← joinDim x y
    let ds ← joinReversed xs ys
    pure (d :: ds)

/-- Broadcasting: the dimensions are aligned from the right and each aligned pair must agree
or contain a one; the shorter shape counts as padded with ones on the left, so a scalar fits
anything. -/
def broadcast (a b : Shape) : Option Shape :=
  (joinReversed a.dims.reverse b.dims.reverse).map fun ds => ⟨ds.reverse⟩

/-- The shape of a matrix product. A vector on the left is read as a row, a vector on the
right as a column, and a scalar on either side scales the other operand. -/
def matmul (a b : Shape) : Option Shape :=
  match a.ndim, b.ndim with
  | 2, 2 => if a.cols = b.rows then some (matrix a.rows b.cols) else none
  | 2, 1 => if a.cols = b.rows then some (vector a.rows) else none
  | 1, 2 => if a.rows = b.rows then some (vector b.cols) else none
  | 1, 1 => if a.rows = b.rows then some scalar else none
  | 0, _ => some b
  | _, 0 => some a
  | _, _ => none

def display (s : Shape) : String :=
  match s.dims with
  | [] => "()"
  | [n] => "(" ++ toString n ++ ",)"
  | ds => "(" ++ ", ".intercalate (ds.map toString) ++ ")"

def debugText (s : Shape) : String :=
  "Shape([" ++ ", ".intercalate (s.dims.map toString) ++ "])"

@[simp] theorem broadcast_scalar_left (b : Shape) : broadcast scalar b = some b := by
  simp [broadcast, scalar, joinReversed]

@[simp] theorem rows_scalar : scalar.rows = 1 := rfl

@[simp] theorem cols_scalar : scalar.cols = 1 := rfl

@[simp] theorem size_scalar : scalar.size = 1 := rfl

end Shape

end ConicForm
