import Std.Data.HashSet
import ConicForm.Session.Read
/-!
Writing answers: values, nodes and node tables, constraints, inverse records and solutions.
Ids are written as labels, and an id gets its label when it is first written.
-/

namespace ConicForm

def Value.toDoc : Value → Doc
  | .scalar x => .obj [("scalar", .float x)]
  | .dense m => .obj [("dense", .obj [("rows", .nat m.rows), ("cols", .nat m.cols),
      ("data", .arr (m.data.toList.map Doc.float))])]
  | .sparse m => .obj [("sparse", .obj [("rows", .nat m.rows), ("cols", .nat m.cols),
      ("entries", .arr (m.entries.map fun (i, j, v) => .arr [.nat i, .nat j, .float v]))])]

def Dense.toDoc (m : Dense) : Doc := Value.toDoc (.dense m)

def Shape.toDoc (s : Shape) : Doc := .arr (s.dims.map Doc.nat)

/-- Nodes of trees after their operands, left to right, each id once: a node already listed
is skipped with its subtree. -/
def Expr.postorderDistinct (roots : List Expr) : List Expr :=
  (go roots ({}, #[])).2.toList
where
  go : List Expr → Std.HashSet Nat × Array Expr → Std.HashSet Nat × Array Expr
    | [], acc => acc
    | e :: es, acc =>
      let acc := if acc.1.contains e.id then acc else visit e acc
      go es acc
  visit : Expr → Std.HashSet Nat × Array Expr → Std.HashSet Nat × Array Expr
    | .node i op args s c h, acc =>
      let (seen, out) := go args acc
      (seen.insert i, out.push (.node i op args s c h))
    | e, (seen, out) => (seen.insert e.id, out.push e)

namespace Write

open Act

def labels (ids : List Nat) : Act Doc := do pure (.arr ((← ids.mapM label).map Doc.str))

def optStr : Option String → Doc
  | some s => .str s
  | none => .null

def readNow (e : Expr) : Act Doc := do
  match ← attempt e.eval with
  | .ok v => pure v.toDoc
  | .error err => faultDoc (.lib err)

def extraFields (e : Expr) : Act (List (String × Doc)) :=
  match e with
  | .var _ v => pure [("name", optStr v.name), ("nonneg", .bool v.nonneg), ("nonpos", .bool v.nonpos)]
  | .const _ v _ => pure [("value", v.toDoc)]
  | .param _ p => do
    let v := (← get).world.param? p.slot
    pure [("name", optStr p.name), ("value", (v.map Value.toDoc).getD .null)]
  | .source .. | .deferred .. => do pure [("value", ← readNow e)]
  | .node _ (.sum a) .. | .node _ (.cumsum a) .. =>
    pure [("axis", (a.map Doc.nat).getD .null)]
  | .node _ (.index rs) .. =>
    pure [("ranges", .arr (rs.map fun
      | some (a, b, c) => .arr [.nat a, .nat b, .nat c]
      | none => .null))]
  | .node _ (.power p) .. => pure [("p", .float p)]
  | _ => pure []

def node (e : Expr) : Act Doc := do
  let id ← label e.id
  let args ← labels (e.args.map (·.id))
  let common := [("id", Doc.str id), ("kind", .str e.kind.name), ("shape", e.shape.toDoc),
    ("const", .bool e.isConst), ("params", .bool e.hasParams), ("args", args)]
  pure (.obj (common ++ (← extraFields e)))

def tableLimit : Nat := 600

def tableEnds : Nat := 100

/-- The table of the nodes under `roots`: every node is written in order, its label given and
its value read, and a table of more than `tableLimit` nodes then shows only its first and last
`tableEnds`. -/
def table (roots : List Expr) : Act Doc := do
  let all ← (Expr.postorderDistinct roots).mapM node
  let n := all.length
  let shown := if n > tableLimit then all.take tableEnds ++ all.drop (n - tableEnds) else all
  pure (.obj [("count", .nat n), ("truncated", .bool (n > tableLimit)), ("nodes", .arr shown)])

def constraint (c : Constraint) : Act Doc := do
  let id ← label c.id
  let args ← labels (c.args.map (·.id))
  let alpha := match c.rel with
    | .powerCone _ _ _ a => [("alpha", Doc.float a)]
    | _ => []
  pure (.obj ([("id", .str id), ("kind", .str c.kind.name), ("args", args)] ++ alpha))

def idPairs (m : IdMap Nat) : Act Doc := do
  pure (.arr (← m.mapM fun (a, b) => do pure (.arr [.str (← label a), .str (← label b)])))

/-- Variables with shapes and offsets; both maps list the same ids in the same order. -/
def varLayout (shapes : IdMap Shape) (offsets : IdMap Nat) : Act Doc := do
  pure (.arr (← (shapes.zip offsets).mapM fun ((id, s), (_, off)) => do
    pure (.arr [.str (← label id), s.toDoc, .nat off])))

def inverse (D : InverseData) : Act Doc := do
  let idMap ← idPairs D.idMap
  let vars ← varLayout D.varShapes D.varOffsets
  let params ← D.paramShapes.mapM fun (id, s) => do pure (Doc.arr [.str (← label id), s.toDoc])
  let cons ← labels D.constraints.keys
  let consMap ← idPairs D.consIdMap
  pure (.obj [("id_map", idMap), ("vars", vars), ("x_length", .nat D.xLength),
    ("params", .arr params), ("constraints", cons), ("cons_id_map", consMap),
    ("minimize", .bool D.minimize)])

/-- Sorted by key; pairs with one key keep their order. -/
def sortByKey {α : Type} (xs : List (String × α)) : List (String × α) :=
  xs.mergeSort fun p q => decide (p.1 ≤ q.1)

def valuesByLabel (m : IdMap Value) : Act Doc := do
  let pairs ← m.mapM fun (id, v) => do pure (← label id, v)
  pure (.arr ((sortByKey pairs).map fun (l, v) => .arr [.str l, v.toDoc]))

def attr : Attr → Doc
  | .float x => .obj [("float", .float x)]
  | .int i => .obj [("int", .int i)]
  | .text s => .obj [("text", .str s)]

def solution (S : Solution) : Act Doc := do
  let primal ← valuesByLabel S.primal
  let dual ← valuesByLabel S.dual
  pure (.obj [("status", .str S.status.name), ("opt_val", .optFloat S.optVal),
    ("primal", primal), ("dual", dual),
    ("attr", .arr ((sortByKey S.attr).map fun (k, a) => .arr [.str k, attr a]))])

end Write

end ConicForm
