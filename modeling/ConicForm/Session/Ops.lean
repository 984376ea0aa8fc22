import ConicForm.Session.Write
/-!
The operations a session answers. Each reads its input from the request, calls the library,
and writes the answer; the order in which an answer writes ids is the order in which they get
their labels.
-/

namespace ConicForm

namespace Ops

open Act

def eval (d : Doc) : Act Doc := do
  let e ← Read.inputExpr (← Read.field d "expr")
  let v ← lib e.eval
  pure (.obj [("value", v.toDoc)])

def info (d : Doc) : Act Doc := do
  if let some cd := d.get? "constraint" then
    let c ← Read.inputConstraint cd
    let cdoc ← Write.constraint c
    let vars ← Write.labels c.variableIds
    let params ← Write.labels c.parameterIds
    return .obj [("constraint", cdoc), ("variables", vars), ("parameters", params)]
  let e ← Read.inputExpr (← Read.field d "expr")
  let vars ← Write.labels e.variableIds
  let params ← Write.labels e.parameterIds
  let pre := e.preorder
  let preorder ← if pre.length ≤ 300 then do pure [("preorder", ← Write.labels (pre.map (·.id)))]
    else pure []
  pure (.obj ([("kind", .str e.kind.name), ("shape", e.shape.toDoc), ("is_constant", .bool e.isConst),
    ("has_params", .bool e.hasParams), ("is_variable", .bool e.isVariable),
    ("variables", vars), ("parameters", params), ("node_count", .nat pre.length)] ++ preorder))

def storeAs (d : Doc) (e : Expr) : Act Unit := do
  if let some n := (d.get? "as").bind Doc.str? then store n e

def canon (d : Doc) : Act Doc := do
  let T ← Read.table (d.get? "rules")
  let e ← Read.inputExpr (← Read.field d "expr")
  let (r, aux) ← lib (T.canonExpr e)
  let nodes ← Write.table (r :: aux.flatMap (·.args))
  let auxDocs ← aux.mapM Write.constraint
  let root ← label r.id
  storeAs d r
  pure (.obj [("root", .str root), ("aux", .arr auxDocs), ("nodes", nodes)])

def canonConstraint (d : Doc) : Act Doc := do
  let T ← Read.table (d.get? "rules")
  let c ← Read.inputConstraint (← Read.field d "constraint")
  let (top, aux) ← lib (T.canonConstraint c)
  let nodes ← Write.table (aux.flatMap (·.args) ++ top.args)
  let auxDocs ← aux.mapM Write.constraint
  let topDoc ← Write.constraint top
  pure (.obj [("top", topDoc), ("aux", .arr auxDocs), ("nodes", nodes)])

def problemDoc (P : Problem) : Act Doc := do
  let nodes ← Write.table P.roots
  let cons ← P.constraints.mapM Write.constraint
  let obj ← label P.objective.expr.id
  let sense := match P.objective.sense with
    | .minimize => "min"
    | .maximize => "max"
  pure (.obj [("sense", .str sense), ("objective", .str obj), ("constraints", .arr cons),
    ("nodes", nodes)])

/-- Answers to queries on a solution: for each label, the variable value and dual value of its
id and the value of the expression of that name. -/
def queries (d : Doc) (S : Solution) : Act (List (String × Doc)) := do
  match d.get? "query" with
  | none => pure []
  | some _ => do
    let rows ← (← Read.labels d "query").mapM fun l => do
      let id ← resolve l
      let named := (← get).names.get? l
      let viaName := named.bind S.valueOf?
      pure (Doc.arr [.str l, ((S.getValue? id).map Value.toDoc).getD .null,
        ((S.dualValue? id).map Value.toDoc).getD .null, (viaName.map Value.toDoc).getD .null])
    pure [("queries", .arr rows)]

/-- Canonicalization of a problem, and the way back for a solution. The canonical parts are
stored under the request's `as` name before the solution is read, so that queries see them. -/
def apply (d : Doc) : Act Doc := do
  let T ← Read.table (d.get? "rules")
  let P ← Read.problem (← Read.field d "problem")
  let (Q, D) ← lib (T.apply P)
  let prob ← problemDoc Q
  let inv ← Write.inverse D
  let canon := InverseData.ofProblem Q
  let canonVars ← Write.varLayout canon.varShapes canon.varOffsets
  if let some n := (d.get? "as").bind Doc.str? then
    store (n ++ ".obj") Q.objective.expr
    Q.constraints.zipIdx.forM fun (c, i) =>
      c.args.zipIdx.forM fun (a, j) => store (n ++ ".c" ++ toString i ++ "." ++ toString j) a
  let solved ← match d.get? "solution" with
    | some sd => do
      let S ← Read.solution sd
      let S' := D.invert S
      let sdoc ← Write.solution S'
      pure ([("inverted", sdoc)] ++ (← queries d S'))
    | none => pure []
  pure (.obj ([("problem", prob), ("inverse", inv), ("canon_vars", canonVars),
    ("canon_x_length", .nat canon.xLength)] ++ solved))

def inverseData (d : Doc) : Act Doc := do
  let P ← Read.problem (← Read.field d "problem")
  let D := InverseData.ofProblem P
  let inv ← Write.inverse D
  let vars ← Write.labels P.variableShapes.keys
  let params ← Write.labels P.parameterShapes.keys
  let look ← (← Read.labels d "lookup").mapM fun l => do
    let id ← resolve l
    match P.constraint? id with
    | some c => do pure (Doc.arr [.str l, .str (← label c.id)])
    | none => pure (Doc.arr [.str l, .null])
  pure (.obj [("inverse", inv), ("variables", vars), ("parameters", params), ("lookup", .arr look)])

def chain (d : Doc) : Act Doc := do
  let stages ← (← Read.items d "stages").mapM fun s => Read.table (some s)
  let C : Chain := ⟨stages⟩
  let P ← Read.problem (← Read.field d "problem")
  let (Q, Ds) ← lib (C.apply P)
  let prob ← problemDoc Q
  let stageDocs ← Ds.mapM Write.inverse
  let solved ← match d.get? "solution" with
    | some sd => do
      let S ← Read.solution sd
      let drop ← match d.get? "drop_inverse" with
        | some k => Read.nat k
        | none => pure 0
      match C.invert S (Ds.take (Ds.length - drop)) with
      | .ok S' => do
        let sdoc ← Write.solution S'
        pure ([("inverted", sdoc)] ++ (← queries d S'))
      | .error e => do pure [("inverted", ← faultDoc (.lib e))]
    | none => pure []
  let details := if ((d.get? "details").bind Doc.bool?).getD false then
      [("is_empty", Doc.bool stages.isEmpty)] else []
  pure (.obj ([("len", .nat stages.length), ("problem", prob), ("stages", .arr stageDocs)] ++
    solved ++ details))

def withArgs (d : Doc) : Act Doc := do
  let args ← (← Read.items d "args").mapM Read.inputExpr
  if let some cd := d.get? "constraint" then
    let c ← Read.inputConstraint cd
    let c' ← lib (c.withArgs args)
    let cdoc ← Write.constraint c'
    let nodes ← Write.table c'.args
    return .obj [("constraint", cdoc), ("nodes", nodes)]
  let e ← Read.inputExpr (← Read.field d "expr")
  let r ← lib (e.withArgs args)
  let nodes ← Write.table [r]
  let root ← label r.id
  storeAs d r
  pure (.obj [("root", .str root), ("nodes", nodes)])

def set (d : Doc) : Act Doc := do
  let n ← Read.text d "target"
  let e ← need ((← get).names.get? n) ("unknown target " ++ n)
  let v ← Read.value (← Read.field d "value")
  lib (e.setValue v)
  pure (.obj [("ok", .bool true)])

def valueFields (v : Value) : List (String × Doc) :=
  [("value", v.toDoc), ("as_scalar", .optFloat v.asScalar?), ("is_nonneg", .bool v.isNonneg),
    ("dims", .arr [.nat v.dims.1, .nat v.dims.2]), ("size", .nat v.size),
    ("dense", v.toDense.toDoc)]

def arrayInfo (d : Doc) : Act Doc := do
  if let some ed := d.get? "expr" then
    let e ← Read.inputExpr ed
    let v ← lib e.eval
    return .obj (valueFields v ++ [("constant_value", (e.constValue?.map Value.toDoc).getD .null)])
  let v ← Read.value (← Read.field d "value")
  pure (.obj (valueFields v))

def sortPieces (inner : List Char) : List Char :=
  let pieces := (String.ofList inner).splitOn ", " |>.filter (· != "")
  (", ".intercalate (pieces.mergeSort fun a b => decide (a ≤ b))).toList

/-- Inspection text with each bracketed list sorted: the text from a `[` to the next `]` is
cut into pieces at `", "` and the nonempty pieces are sorted, since the lists come from hash
maps in no set order. -/
def sortLists : Nat → List Char → List Char
  | 0, cs => cs
  | fuel + 1, cs =>
    match cs.span (· != '[') with
    | (before, '[' :: after) =>
      match after.span (· != ']') with
      | (inner, ']' :: rest) => before ++ '[' :: sortPieces inner ++ ']' :: sortLists fuel rest
      | _ => cs
    | _ => cs

def tableDebugText (T : Table) : String :=
  let raw := "CanonMethods \x7b exprs: [" ++ ", ".intercalate (T.exprs.map (·.1.debugText)) ++
    "], constraints: [" ++ ", ".intercalate (T.constraints.map (·.1.name)) ++ "] \x7d"
  String.ofList (sortLists raw.length raw.toList)

/-- What a rule table holds; each probed key names a kind, listed after the built-in kinds
when the table has a rule for it. -/
def rulesInfo (d : Doc) : Act Doc := do
  let T ← Read.table (d.get? "rules")
  let probed ← match d.get? "probe" with
    | some (.obj fs) => fs.mapM fun (p : String × Doc) => Read.exprKind p.1
    | _ => pure []
  let kinds := (Kind.builtin ++ probed).filter fun k => (T.exprRule? k).isSome
  let cons := ConeKind.all.filter fun k => (T.consRule? k).isSome
  pure (.obj [("len", .nat T.size), ("is_empty", .bool (T.size == 0)),
    ("name", .str Table.reductionName), ("expr_kinds", .arr (kinds.map (.str ·.name))),
    ("constraint_kinds", .arr (cons.map (.str ·.name))), ("debug", .str (tableDebugText T))])

def debug (d : Doc) : Act Doc := do
  let e ← Read.inputExpr (← Read.field d "expr")
  let callback := match e with
    | .source _ s _ | .deferred _ s _ =>
      Doc.str ("CallbackParam \x7b shape: " ++ s.debugText ++ ", .. \x7d")
    | _ => .null
  pure (.obj [("shape", .str e.shape.debugText), ("kind", .str e.kind.debugText),
    ("callback", callback)])

def shape (d : Doc) : Act Doc := do
  let a ← Read.shape (← Read.field d "a")
  let base := [("size", Doc.nat a.size), ("ndim", .nat a.ndim), ("rows", .nat a.rows),
    ("cols", .nat a.cols), ("is_scalar", .bool a.isScalar), ("is_vector", .bool a.isVector),
    ("is_matrix", .bool a.isMatrix), ("transpose", a.transpose.toDoc), ("display", .str a.display)]
  match d.get? "b" with
  | some bd => do
    let b ← Read.shape bd
    let opt := fun (s : Option Shape) => (s.map Shape.toDoc).getD .null
    pure (.obj (base ++ [("broadcast", opt (a.broadcast b)), ("matmul", opt (a.matmul b)),
      ("equal", .bool (a == b))]))
  | none => pure (.obj base)

def failure (d : Doc) : Act Doc := do
  Write.solution (Solution.failure (← Read.status (← Read.text d "status")))

end Ops

end ConicForm
