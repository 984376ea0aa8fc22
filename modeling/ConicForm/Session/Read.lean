import ConicForm.Session.State
/-!
Reading requests: shapes, values, expressions, constraints, problems, rule tables and
solutions, built on the session's world. Expressions are built operands first, left to right,
before the node itself; a name refers to the node it names, without building anything.
-/

namespace ConicForm

mutual
def Doc.size : Doc → Nat
  | .arr xs => Doc.sizeItems xs + 1
  | .obj fs => Doc.sizeFields fs + 1
  | _ => 1

def Doc.sizeItems : List Doc → Nat
  | [] => 0
  | d :: ds => Doc.size d + Doc.sizeItems ds

def Doc.sizeFields : List (String × Doc) → Nat
  | [] => 0
  | (_, d) :: fs => Doc.size d + Doc.sizeFields fs
end

namespace Read

open Act

def field (d : Doc) (key : String) : Act Doc := need (d.get? key) ("missing field " ++ key)

def text (d : Doc) (key : String) : Act String := do
  need (← field d key).str? ("field " ++ key ++ " must be a string")

def text? (d : Doc) (key : String) : Option String := (d.get? key).map fun v => v.str?.getD ""

/-- An optional string field that selects a choice; a value that is not a string counts as
missing. -/
def choice? (d : Doc) (key : String) : Option String := (d.get? key).bind Doc.str?

def items (d : Doc) (key : String) : Act (List Doc) := do
  match ← field d key with
  | .arr xs => pure xs
  | _ => bad ("field " ++ key ++ " must be a list")

def list (d : Doc) (key : String) : Act (List Doc) :=
  match d.get? key with
  | none => pure []
  | some (.arr xs) => pure xs
  | some _ => bad ("field " ++ key ++ " must be a list")

/-- A float: a number, or one of the strings `"inf"`, `"-inf"` and `"nan"`. -/
def float (d : Doc) : Act Float :=
  match d with
  | .str s => need d.float? ("bad float string " ++ s)
  | _ => need d.float? "expected a number"

def natLimit : Nat := 1099511627776

def nat (d : Doc) : Act Nat :=
  match d.nat? with
  | some n => if n ≤ natLimit then pure n else bad ("expected a non-negative integer, got " ++ d.render)
  | none => bad ("expected a non-negative integer, got " ++ d.render)

def dimLimit : Nat := 1048576

def entryLimit : Nat := 65536

def tooLarge {α : Type} : Act α := bad "constant too large for the driver"

/-- A shape: a list of at most three dimensions, each at most `2^20`. -/
def shape (d : Doc) : Act Shape := do
  match d with
  | .arr xs =>
    let dims ← xs.mapM nat
    if dims.length > 3 || dims.any (· > dimLimit) then bad "shape out of driver limits"
    pure ⟨dims⟩
  | _ => bad "shape must be a list of integers"

def filledShape (d : Doc) : Act Shape := do
  let s ← shape d
  if s.dims.foldl (· * ·) 1 > entryLimit then tooLarge
  pure s

def matrixRow (width : Nat) : Doc → Act (List Float)
  | .arr xs => if xs.length != width then bad "ragged matrix" else xs.mapM float
  | _ => bad "matrix rows must be lists"

def matrix (d : Doc) : Act Dense := do
  match d with
  | .arr rs =>
    let c := match rs.head? with
      | some (.arr xs) => xs.length
      | _ => 0
    let rows ← rs.mapM (matrixRow c)
    let rows := rows.toArray.map List.toArray
    pure (Dense.ofFn rows.size c fun i j => (rows.getD i #[]).getD j 0)
  | _ => bad "mat must be a list of rows"

def sparse (sp : Doc) : Act Sparse := do
  let rows ← nat (← field sp "rows")
  let cols ← nat (← field sp "cols")
  let ts ← (← items sp "entries").mapM fun
    | .arr [i, j, v] => do pure (← nat i, ← nat j, ← float v)
    | _ => bad "sparse entry must be [i,j,v]"
  if rows * cols > entryLimit then tooLarge
  if ts.any (·.1 ≥ rows) then bad "bad sparse matrix: Row index out of bounds."
  if ts.any (·.2.1 ≥ cols) then bad "bad sparse matrix: Column index out of bounds."
  pure (Sparse.ofTriplets rows cols ts)

/-- A value: a number or float string, a column of numbers, `{"mat": rows}` or
`{"sparse": …}`. -/
def value (d : Doc) : Act Value := do
  match d with
  | .arr xs => pure (Value.ofList (← xs.mapM float))
  | .obj _ =>
    match d.get? "mat", d.get? "sparse" with
    | some m, _ => pure (.dense (← matrix m))
    | none, some sp => pure (.sparse (← sparse sp))
    | none, none => bad "array object needs mat or sparse"
  | .nat _ | .negInt _ | .float _ | .str _ => pure (.scalar (← float d))
  | _ => bad "bad array value"

def axis (d : Doc) : Act (Option Nat) := do
  match d.get? "axis" with
  | some a => pure (some (← nat a))
  | none => pure none

def ranges (d : Doc) : Act (List (Option (Nat × Nat × Nat))) := do
  match ← field d "ranges" with
  | .str "all" => pure [none]
  | _ => (← items d "ranges").mapM fun
    | .null => pure none
    | .arr [a, b, c] => do pure (some (← nat a, ← nat b, ← nat c))
    | _ => bad "range must be null or [start,stop,step]"

def plainUnary : String → Option Op
  | "neg" => some .neg
  | "transpose" => some .transpose
  | "trace" => some .trace
  | "diag" => some .diag
  | "norm1" => some .norm1
  | "norm2" => some .norm2
  | "norm_inf" => some .normInf
  | "abs" => some .abs
  | "pos" => some .pos
  | "neg_part" => some .negPart
  | "sum_squares" => some .sumSquares
  | "exp" => some .exp
  | "log" => some .log
  | "entropy" => some .entropy
  | _ => none

def twoArgOp : String → Option Op
  | "add" => some .add
  | "mul" => some .mul
  | "matmul" => some .matmul
  | "quad_form" => some .quadForm
  | "quad_over_lin" => some .quadOverLin
  | _ => none

def manyArgOp : String → Option Op
  | "vstack" => some .vstack
  | "hstack" => some .hstack
  | "maximum" => some .maximum
  | "minimum" => some .minimum
  | _ => none

def wrongCount {α : Type} (name : String) (want got : Nat) : Act α :=
  bad (name ++ " takes " ++ toString want ++ " args, got " ++ toString got)

def one (name : String) : List Expr → Act Expr
  | [a] => pure a
  | args => wrongCount name 1 args.length

def two (name : String) : List Expr → Act (Expr × Expr)
  | [a, b] => pure (a, b)
  | args => wrongCount name 2 args.length

/-- The value of a custom operator over its operands' values, as its document names it:
`"first"` passes the first operand on, `"sum"` gives the sum of all entries of all operands,
and any other choice has no numeric meaning. -/
def customEval (name : String) (meaning : Option String) (vals : List Value) :
    Except Error Value :=
  match meaning, vals with
  | some "first", v :: _ => .ok v
  | some "sum", _ => .ok (.scalar (Dense.seriesSum (vals.map (·.toDense.elementSum))))
  | _, _ => .error (.noNumericMeaning name)

theorem customEval_not_abandoned (name : String) (meaning : Option String) (vals : List Value)
    (e : Error) (h : customEval name meaning vals = .error e) : e.category ≠ .abandoned := by
  unfold customEval at h
  split at h
  · cases h
  · cases h
  · cases h
    simp [Error.category]

/-- A custom operator: its shape is the one the document gives, or its first operand's, and
its value the one `customEval` reads from the document. -/
def customOp (d : Doc) : Act CustomOp := do
  let name ← text d "name"
  let fixed ← match d.get? "shape" with
    | some s => do pure (some (← shape s))
    | none => pure none
  let eval := choice? d "eval"
  let rebuildable := if eval == some "default" then true
    else ((d.get? "rebuildable").bind Doc.bool?).getD true
  pure ⟨name, fun args => fixed.getD (args.headD .scalar), customEval name eval,
    customEval_not_abandoned name eval, rebuildable⟩

/-- The node of function `name` over built operands, with its data from `d`; the number of
operands is checked before any other field is read. -/
def applyFn (name : String) (d : Doc) (args : List Expr) : Act Expr := do
  if let some op := plainUnary name then
    return ← build (Expr.unary op (← one name args))
  if let some op := twoArgOp name then
    let (a, b) ← two name args
    return ← build (Expr.binary op a b)
  if let some op := manyArgOp name then
    return ← build (Expr.build op args)
  match name with
  | "sum" => do let a ← one name args; build (Expr.unary (.sum (← axis d)) a)
  | "cumsum" => do let a ← one name args; build (Expr.unary (.cumsum (← axis d)) a)
  | "reshape" => do
    let a ← one name args
    build (Expr.unary (.reshape (← shape (← field d "shape"))) a)
  | "power" => do
    let a ← one name args
    build (Expr.unary (.power (← float (← field d "p"))) a)
  | "index" => do let a ← one name args; build (Expr.unary (.index (← ranges d)) a)
  | "custom" => build (Expr.build (.custom (← customOp d)) args)
  | "sub" => do let (a, b) ← two name args; build (Expr.sub a b)
  | "dot" => do let (a, b) ← two name args; build (Expr.dot a b)
  | "scale" => do let a ← one name args; build (Expr.scale (← float (← field d "k")) a)
  | "div" => do let a ← one name args; build (Expr.divBy a (← float (← field d "k")))
  | "flatten" => do build (Expr.flatten (← one name args))
  | "slice" => do
    let a ← one name args
    build (Expr.slice a (← nat (← field d "start")) (← nat (← field d "stop")))
  | "index1" => do let a ← one name args; build (Expr.entry a (← nat (← field d "i")))
  | "sqrt" => do build (Expr.sqrt (← one name args))
  | "norm" => do let a ← one name args; lib (Expr.norm a (← float (← field d "p")))
  | "maximum_fn" => lib (Expr.maximumOf args)
  | "minimum_fn" => lib (Expr.minimumOf args)
  | _ => bad ("unknown fn " ++ name)

def wrapRepeatedly (wrap : String) (e : Expr) : Nat → Act Expr
  | 0 => pure e
  | times + 1 => do
    match plainUnary wrap with
    | some op => wrapRepeatedly wrap (← build (Expr.unary op e)) times
    | none => bad "bad repeat wrap"

/-- A variable declaration: `nonneg`, then `nonpos`, so that the latter wins. -/
def varInfo (d : Doc) (s : Shape) : VarInfo :=
  let name := text? d "name"
  let nonneg := ((d.get? "nonneg").bind Doc.bool?).getD false
  let nonpos := ((d.get? "nonpos").bind Doc.bool?).getD false
  ⟨s, name, nonneg && !nonpos, nonpos⟩

def applyExt (e : Expr) (d : Doc) : Act Expr := do
  let changes ← match d.get? "ext" with
    | none => pure []
    | some (.arr xs) => pure xs
    | some _ => bad "ext must be a list"
  changes.foldlM (fun e x =>
    match x with
    | .str "nonneg" => pure e.markNonneg
    | .str "nonpos" => pure e.markNonpos
    | .str t =>
      if t.startsWith "named:" then pure (e.rename (String.ofList (t.toList.drop 6)))
      else bad ("bad ext " ++ x.render)
    | _ => bad ("bad ext " ++ x.render)) e

def toInt32 (x : Float) : Float :=
  if x.isNaN then 0
  else if x ≥ 2147483647 then 2147483647
  else if x ≤ -2147483648 then -2147483648
  else (if x ≥ 0 then x.floor else x.ceil) + 0

def isInt32 (x : Float) : Bool := x == x.round && x ≥ -2147483648 && x ≤ 2147483647

def constant (d : Doc) (x : Float) : Act Float :=
  match choice? d "from" with
  | none | some "f64" => pure x
  | some "i32" =>
    if isInt32 x then pure (toInt32 x) else bad "from i32 needs an integer in i32 range"
  | some f => bad ("bad from " ++ f)

mutual
/-- An expression, built operands first: a name refers to the node it names, which takes no
declaration changes; any other form is built and then given its declaration changes. -/
def expr : Nat → Doc → Act Expr
  | 0, _ => bad "expression too deep"
  | fuel + 1, d => do
    match d with
    | .obj _ =>
      if let some r := d.get? "ref" then
        let e ← match r with
          | .str n => named n
          | _ => bad "ref must be a string"
        if (d.get? "ext").isSome then bad "ext cannot be applied to a ref"
        pure e
      else
        let e ← form fuel d
        applyExt e d
    | _ => bad ("expression must be an object, got " ++ d.render)

/-- The node of an expression object that is not a name. The first of its forms present is
built, in the order below; an object with none of them is a function application. -/
def form : Nat → Doc → Act Expr
  | 0, _ => bad "expression too deep"
  | fuel + 1, d => do
    if let some c := d.get? "const" then
      return ← build (Expr.scalar (← constant d (← float c)))
    if let some v := d.get? "vec" then
      match v with
      | .arr xs => return ← build (Expr.vector (← xs.mapM float))
      | _ => bad "vec must be a list"
    if let some m := d.get? "mat" then return ← build (Expr.matrix (← matrix m))
    if let some m := d.get? "cmat" then
      let rows ← nat (← field m "rows")
      let cols ← nat (← field m "cols")
      let data ← (← items m "data").mapM float
      if data.length != (rows * cols) % Shape.wordModulus then
        bad "cmat data length must be rows * cols"
      return ← lib (Expr.columnMajor rows cols data)
    if let some sp := d.get? "sparse" then return ← build (Expr.sparse (← sparse sp))
    if let some s := d.get? "zeros" then return ← build (Expr.filled (← filledShape s) 0)
    if let some s := d.get? "ones" then return ← build (Expr.filled (← filledShape s) 1)
    if let some n := d.get? "eye" then
      let n ← nat n
      if n * n > entryLimit then tooLarge
      return ← build (Expr.identity n)
    if let some s := d.get? "var" then return ← build (Expr.newVar (varInfo d (← shape s)))
    if let some s := d.get? "param" then
      let p ← build (Expr.parameter (← shape s) (text? d "name"))
      if let some v := d.get? "value" then
        let v ← value v
        lib (p.setValue v)
      return p
    if let some s := d.get? "callback" then
      let s ← shape s
      if (d.get? "counter").bind Doc.bool? == some true then return ← build (Expr.ticker s)
      if let some m := text? d "error" then return ← build (Expr.newSource s (.failing m))
      return ← build (Expr.newSource s (.fixed (← value (← field d "value"))))
    let name ← text d "fn"
    if name == "repeat" then
      let wrap ← text d "wrap"
      let times ← nat (← field d "times")
      let arg ← expr fuel (← field d "arg")
      return ← wrapRepeatedly wrap arg times
    let args ← exprs fuel (← list d "args")
    applyFn name d args

def exprs : Nat → List Doc → Act (List Expr)
  | 0, _ => bad "expression too deep"
  | _, [] => pure []
  | fuel + 1, d :: ds => do
    let e ← expr fuel d
    let es ← exprs (fuel + 1) ds
    pure (e :: es)
end

def inputExpr (d : Doc) : Act Expr := do
  let e ← expr (d.size + 1) d
  labelTree e
  pure e

def relArity : String → Option Nat
  | "zero" | "nonneg" => some 1
  | "eq" | "leq" | "geq" | "soc" => some 2
  | "exp_cone" | "power_cone" => some 3
  | _ => none

/-- A constraint, its operands built first; geq swaps its sides. -/
def constraint (d : Doc) : Act Constraint := do
  let rel ← text d "rel"
  let args ← exprs (d.size + 1) (← list d "args")
  let some n := relArity rel | bad ("unknown rel " ++ rel)
  if args.length != n then wrongCount rel n args.length
  let relation ← match rel, args with
    | "zero", [a] => pure (Relation.zero a)
    | "nonneg", [a] => pure (.nonneg a)
    | "eq", [a, b] => pure (.equality a b)
    | "leq", [a, b] => pure (.inequality a b)
    | "geq", [a, b] => pure (.inequality b a)
    | "soc", [t, x] => pure (.soc t x)
    | "exp_cone", [x, y, z] => pure (.expCone x y z)
    | "power_cone", [x, y, z] => do pure (.powerCone x y z (← float (← field d "alpha")))
    | _, _ => bad ("unknown rel " ++ rel)
  build (Constraint.make relation)

def inputConstraint (d : Doc) : Act Constraint := do
  let c ← constraint d
  if let some l := choice? d "label" then setLabel c.id l
  labelConstraint c
  pure c

/-- A problem: the objective, then its sense, then each constraint; a sense that is not a
string is the default, minimization. -/
def problem (d : Doc) : Act Problem := do
  let obj ← inputExpr (← field d "objective")
  let sense ← match choice? d "sense" with
    | none | some "min" => pure Sense.minimize
    | some "max" => pure .maximize
    | some s => bad ("bad sense " ++ s)
  let cons ← (← list d "constraints").mapM inputConstraint
  pure ⟨⟨sense, obj⟩, cons⟩

def exprKind (k : String) : Act Kind :=
  if k.startsWith "custom:" then pure (.custom (String.ofList (k.toList.drop 7)))
  else need (Kind.ofName? k) ("unknown expr kind " ++ k)

def consKind (k : String) : Act ConeKind :=
  need (ConeKind.ofName? k) ("unknown constraint kind " ++ k)

def coneName? (r : String) : Option String :=
  if r.startsWith "cone:" then some (String.ofList (r.toList.drop 5)) else none

def ruleName (r : Doc) : Act String := need r.str? "rule name must be a string"

/-- A rule table: `"none"`, `"cone"`, or a base with entries that replace its rules; a base
that is not a string is the empty table. -/
def table (d : Option Doc) : Act Table := do
  match d with
  | none | some (.str "none") => pure .empty
  | some (.str "cone") => pure .cone
  | some (.obj _) =>
    let d := d.getD .null
    let base ← match choice? d "base" with
      | none | some "none" => pure Table.empty
      | some "cone" => pure Table.cone
      | some b => bad ("bad rules base " ++ b)
    let exprEntries ← match d.get? "expr" with
      | none => pure []
      | some (.obj fs) => pure fs
      | some _ => bad "rules.expr must be an object"
    let consEntries ← match d.get? "constraint" with
      | none => pure []
      | some (.obj fs) => pure fs
      | some _ => bad "rules.constraint must be an object"
    let t ← exprEntries.foldlM (fun t (k, r) => do
      let kind ← exprKind k
      let r ← ruleName r
      if r == "none" then return t.withoutExpr kind
      if let some c := coneName? r then
        let ck ← exprKind c
        let cr ← need (ConeRule.ofKind? ck) ("cone table has no rule for " ++ c)
        return t.withExpr kind (.cone cr)
      match r with
      | "epigraph" => pure (t.withExpr kind .epigraph)
      | "first_arg" => pure (t.withExpr kind .passFirst)
      | "fail" => pure (t.withExpr kind .reject)
      | _ => bad ("unknown expr rule " ++ r)) base
    consEntries.foldlM (fun t (k, r) => do
      let kind ← consKind k
      let r ← ruleName r
      if r == "none" then return t.withoutCons kind
      if let some c := coneName? r then
        let ck ← consKind c
        let cr ← need (ConeConsRule.ofKind? ck) ("cone table has no rule for " ++ c)
        return t.withCons kind (.cone cr)
      match r with
      | "fail" => pure (t.withCons kind .reject)
      | "copy_nonneg_aux" => pure (t.withCons kind .copyWithNonneg)
      | "zero_of_first" => pure (t.withCons kind .zeroOfFirst)
      | _ => bad ("unknown constraint rule " ++ r)) t
  | some other => bad ("bad rules " ++ other.render)

def status (s : String) : Act Status :=
  match s with
  | "optimal" => pure .optimal
  | "infeasible" => pure .infeasible
  | "unbounded" => pure .unbounded
  | "error" => pure .error
  | "unknown" => pure .unknown
  | _ => bad ("bad status " ++ s)

def labeled : Doc → Act (String × Doc)
  | .arr [.str l, v] => pure (l, v)
  | _ => bad "expected [label, value]"

/-- Values by label from a list field, resolved to ids; of repeated ids the last counts. -/
def valuesByLabel (d : Doc) (key : String) : Act (IdMap Value) := do
  let pairs ← (← list d key).mapM fun p => do
    let (l, v) ← labeled p
    pure (← resolve l, ← value v)
  pure (IdMap.ofList pairs)

def labels (d : Doc) (key : String) : Act (List String) := do
  (← list d key).mapM fun l => need l.str? (key ++ " entries must be labels")

def attr (v : Doc) : Act Attr := do
  if let some f := v.get? "float" then return Attr.float (← float f)
  if let some i := v.get? "int" then return Attr.int (← need i.int? "attr int must be an integer")
  if let some t := text? v "text" then return Attr.text t
  bad "attr needs float, int or text"

/-- A solution; its labels are resolved now. -/
def solution (d : Doc) : Act Solution := do
  let st ← match choice? d "status" with
    | some s => status s
    | none => pure .optimal
  let optVal ← match d.get? "opt_val" with
    | some v => do pure (some (← float v))
    | none => pure none
  let primal ← valuesByLabel d "primal"
  let dual ← valuesByLabel d "dual"
  let attrs ← (← list d "attr").mapM fun p => do
    let (key, v) ← labeled p
    pure (key, ← attr v)
  let attr := attrs.foldl (fun acc (k, v) => (acc.filter (·.1 != k)) ++ [(k, v)]) []
  pure ⟨st, optVal, primal, dual, attr⟩

end Read

end ConicForm
