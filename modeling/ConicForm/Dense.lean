import ConicForm.Error
import ConicForm.Binary64
/-!
Dense matrices of floats, stored column by column, and the arithmetic that evaluation
needs. The order of every floating-point sum is fixed by its definition here: element sums
run down the columns from `+0`, series sums start from `-0`, squared norms keep eight running
sums per column, and a product entry adds its terms in order starting from the first, except
in products whose dimensions all exceed five, where the terms are fused into a running sum.
-/

namespace ConicForm

/-- A `rows × cols` matrix of floats, stored column by column. -/
structure Dense where
  rows : Nat
  cols : Nat
  data : Array Float
  deriving Inhabited

namespace Dense

def ofFn (rows cols : Nat) (f : Nat → Nat → Float) : Dense :=
  ⟨rows, cols, Array.ofFn (n := rows * cols) fun k => f (k.val % rows) (k.val / rows)⟩

def fill (rows cols : Nat) (x : Float) : Dense := ⟨rows, cols, Array.replicate (rows * cols) x⟩

def unit (x : Float) : Dense := ⟨1, 1, #[x]⟩

def column (xs : Array Float) : Dense := ⟨xs.size, 1, xs⟩

def get (m : Dense) (i j : Nat) : Float := m.data.getD (j * m.rows + i) 0

def dims (m : Dense) : Nat × Nat := (m.rows, m.cols)

def isUnit (m : Dense) : Bool := m.rows == 1 && m.cols == 1

def columnList (m : Dense) (j : Nat) : List Float := (List.range m.rows).map (m.get · j)

def rowList (m : Dense) (i : Nat) : List Float := (List.range m.cols).map (m.get i ·)

def map (f : Float → Float) (m : Dense) : Dense := { m with data := m.data.map f }

def transpose (m : Dense) : Dense := ofFn m.cols m.rows fun i j => m.get j i

def isNegZero (x : Float) : Bool := x.toBits == 0x8000000000000000

/-- The larger of two floats: a NaN operand gives the other one, and of two equal
operands (such as `+0` and `-0`) the second is returned. -/
def maxNum (a b : Float) : Float :=
  if a.isNaN then b else if b.isNaN then a
  else if a > b then a else b

/-- The smaller of two floats: a NaN operand gives the other one, and of two equal
operands the second is returned. -/
def minNum (a b : Float) : Float :=
  if a.isNaN then b else if b.isNaN then a
  else if a < b then a else b

/-- Elementwise combination; a `1 × 1` operand is combined with every entry of the other. -/
def broadcastWith (f : Float → Float → Float) (a b : Dense) : Except Error Dense :=
  if a.dims = b.dims then .ok { a with data := Array.zipWith f a.data b.data }
  else if a.isUnit then .ok (b.map (f (a.get 0 0)))
  else if b.isUnit then .ok (a.map (fun v => f v (b.get 0 0)))
  else .error (.dimsMismatch a.dims b.dims)

def elementSum (m : Dense) : Float := m.data.foldl (· + ·) 0

def columnSums (m : Dense) : Dense :=
  ofFn 1 m.cols fun _ j => (m.columnList j).foldl (· + ·) 0

def rowSums (m : Dense) : Dense :=
  ofFn m.rows 1 fun i _ => (m.rowList i).foldl (· + ·) 0

/-- A series summed in order from `-0`, so that an empty series is `-0`. -/
def seriesSum (xs : List Float) : Float := xs.foldl (· + ·) (-0)

def trace (m : Dense) : Float := seriesSum ((List.range (min m.rows m.cols)).map fun i => m.get i i)

/-- Squares of whole blocks of eight entries added into eight running sums; the entries
left over are returned. -/
def squareBlocks : List Float → Array Float → Array Float × List Float
  | a0 :: a1 :: a2 :: a3 :: a4 :: a5 :: a6 :: a7 :: rest, acc =>
    squareBlocks rest
      (Array.zipWith (· + ·) acc #[a0 * a0, a1 * a1, a2 * a2, a3 * a3, a4 * a4, a5 * a5,
        a6 * a6, a7 * a7])
  | tail, acc => (acc, tail)

/-- The sum of squares of one column: the eight running sums added in pairs, then the
entries left over one by one. -/
def columnSquares (col : List Float) : Float :=
  let (acc, tail) := squareBlocks col (Array.replicate 8 0)
  let a := fun k => acc.getD k 0
  let res : Float := 0 + (a 0 + a 4)
  let res := res + (a 1 + a 5)
  let res := res + (a 2 + a 6)
  let res := res + (a 3 + a 7)
  tail.foldl (fun r x => r + x * x) res

def normSquared (m : Dense) : Float :=
  (List.range m.cols).foldl (fun res j => res + columnSquares (m.columnList j)) 0

def norm (m : Dense) : Float := m.normSquared.sqrt

/-- The largest magnitude, zero for an empty matrix. The running maximum takes the next
magnitude unless it is at least as large, so the result is NaN exactly when the last entry
is. -/
def amax (m : Dense) : Float :=
  match m.data.toList with
  | [] => 0
  | x :: xs => xs.foldl (fun a b => if a ≥ b.abs then a else b.abs) x.abs

/-- Entry `(i, j)` of a product over an inner dimension `n ≥ 1`: the first term, then each
further term added in order. -/
def productEntry (a b : Dense) (n i j : Nat) : Float :=
  (List.range (n - 1)).foldl (fun acc l => b.get (l + 1) j * a.get i (l + 1) + acc)
    (b.get 0 j * a.get i 0)

def innerBlock : Nat := 256

def fusedBlock (a b : Dense) (n i j k : Nat) : Float :=
  ((List.range innerBlock).map (k * innerBlock + ·) |>.filter (· < n)).foldl
    (fun acc l => Binary64.fusedMulAdd (a.get i l) (b.get l j) acc) 0

def fusedEntry (a b : Dense) (n i j : Nat) : Float :=
  (List.range ((n + innerBlock - 1) / innerBlock - 1)).foldl
    (fun acc k => acc + fusedBlock a b n i j (k + 1)) (fusedBlock a b n i j 0)

def isLargeProduct (a b : Dense) : Bool := a.rows > 5 && a.cols > 5 && b.cols > 5

def mul (a b : Dense) : Dense :=
  if a.cols = 0 then fill a.rows b.cols 0
  else if isLargeProduct a b then ofFn a.rows b.cols fun i j => fusedEntry a b a.cols i j
  else ofFn a.rows b.cols fun i j => productEntry a b a.cols i j

/-- Product of operands read as in algebra: a `1 × 1` side scales the other, a column on the
left of a matching matrix is read as a row. -/
def matmul (a b : Dense) : Except Error Dense :=
  if a.isUnit || b.isUnit then broadcastWith (· * ·) a b
  else if a.cols = b.rows then .ok (a.mul b)
  else if a.cols = 1 && a.rows = b.rows then .ok (a.transpose.mul b)
  else .error (.dimsMismatch a.dims b.dims)

def Stride.picks (start stop step : Nat) : List Nat :=
  let step := max step 1
  (List.range ((stop - start + step - 1) / step)).map (start + · * step)

def Stride.firstOutside (start stop step len : Nat) : Option Nat :=
  let step := max step 1
  let first := if start ≥ len then start else start + (len - start + step - 1) / step * step
  if first < stop then some first else none

/-- The positions a range picks out of `len`: all of them, or a stride; a stride past the
end is an error. -/
def selectRange (range : Option (Nat × Nat × Nat)) (len : Nat) : Except Error (List Nat) :=
  match range with
  | none => .ok (List.range len)
  | some (start, stop, step) =>
    match Stride.firstOutside start stop step len with
    | some i => .error (.indexOutOfRange len i)
    | none => .ok (Stride.picks start stop step)

/-- Indexing: one range picks from the entries in storage order and gives a column; two
ranges pick rows and columns. -/
def index (m : Dense) (ranges : List (Option (Nat × Nat × Nat))) : Except Error Dense :=
  match ranges with
  | [r] => do
    let picked ← selectRange r m.data.size
    .ok (column (picked.map (fun k => m.data.getD k 0)).toArray)
  | [r, c] => do
    let rs ← selectRange r m.rows
    let cs ← selectRange c m.cols
    let rs := rs.toArray
    let cs := cs.toArray
    .ok (ofFn rs.size cs.size fun i j => m.get (rs.getD i 0) (cs.getD j 0))
  | _ => .error (.indexRank ranges.length)

def vstack (ms : List Dense) : Except Error Dense :=
  match ms with
  | [] => .ok (fill 1 1 0)
  | first :: _ =>
    match ms.find? (fun b => b.cols != first.cols) with
    | some bad => .error (.dimsMismatch first.dims bad.dims)
    | none =>
      let rows := (ms.map (·.rows)).foldl (· + ·) 0
      .ok ⟨rows, first.cols,
        ((List.range first.cols).flatMap fun j => ms.flatMap (·.columnList j)).toArray⟩

def hstack (ms : List Dense) : Except Error Dense :=
  match ms with
  | [] => .ok (fill 1 1 0)
  | first :: _ =>
    match ms.find? (fun b => b.rows != first.rows) with
    | some bad => .error (.dimsMismatch first.dims bad.dims)
    | none =>
      .ok ⟨first.rows, (ms.map (·.cols)).foldl (· + ·) 0, (ms.flatMap (·.data.toList)).toArray⟩

def runningSums (xs : List Float) : List Float :=
  match xs with
  | [] => []
  | x :: rest => (rest.scanl (fun acc v => v + acc) x)

/-- Running sums down each column (axis 0) or along each row (any other axis). -/
def cumsum (m : Dense) (axis : Nat) : Dense :=
  if axis = 0 then
    let cols := (List.range m.cols).map fun j => (runningSums (m.columnList j)).toArray
    ofFn m.rows m.cols fun i j => (cols.getD j #[]).getD i 0
  else
    let rows := (List.range m.rows).map fun i => (runningSums (m.rowList i)).toArray
    ofFn m.rows m.cols fun i j => (rows.getD i #[]).getD j 0

def diag (m : Dense) : Dense :=
  if m.cols = 1 then ofFn m.rows m.rows fun i j => if i = j then m.get i 0 else 0
  else ofFn (min m.rows m.cols) 1 fun i _ => m.get i i

end Dense

end ConicForm
