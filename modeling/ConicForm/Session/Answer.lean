import ConicForm.Session.Ops
import ConicForm.Session.Syntax
/-!
Answering requests. A request first builds its definitions, in order, then runs its
operation; a failure becomes an error answer. A sequence of steps shares one session, and
each step's failure answers that step only, unless it abandons the whole request. With
`"log": true` an answer also lists the notes written while it ran, their ids labeled after
the rest of the answer.
-/

namespace ConicForm

namespace Session

open Act

/-- Build the request's definitions: each is named, its root labeled by its name unless it
has a label, and the rest of its tree labeled in pre-order. -/
def defineAll (d : Doc) : Act Unit := do
  (← Read.list d "defs").forM fun
    | .arr [n, ed] => do
      let name ← need n.str? "def name must be a string"
      let e ← Read.expr (ed.size + 1) ed
      setLabel e.id name
      labelTree e
      store name e
    | _ => bad "def must be [name, expr]"

mutual
def request : Nat → Doc → Act Doc
  | 0, _ => bad "request too deep"
  | fuel + 1, d => do
    defineAll d
    match ← Read.text d "op" with
    | "eval" => Ops.eval d
    | "info" => Ops.info d
    | "canon" => Ops.canon d
    | "canon_constraint" => Ops.canonConstraint d
    | "apply" => Ops.apply d
    | "inverse_data" => Ops.inverseData d
    | "chain" => Ops.chain d
    | "with_args" => Ops.withArgs d
    | "set" => Ops.set d
    | "array_info" => Ops.arrayInfo d
    | "rules_info" => Ops.rulesInfo d
    | "debug" => Ops.debug d
    | "shape" => Ops.shape d
    | "failure" => Ops.failure d
    | "defs" => pure (.obj [("ok", .bool true)])
    | "steps" => do pure (.obj [("steps", .arr (← steps fuel (← Read.items d "steps")))])
    | op => bad ("unknown op " ++ op)

def steps : Nat → List Doc → Act (List Doc)
  | 0, _ => pure []
  | _, [] => pure []
  | fuel + 1, s :: ss => do
    let a ← tryCatch (request fuel s) fun f => if f.abandons then throw f else faultDoc f
    let rest ← steps (fuel + 1) ss
    pure (a :: rest)
end

def notesDoc (start : Nat) : Act Doc := do
  let notes := ((← get).world.notes.toList.drop start)
  pure (.arr (← notes.mapM fun n => do pure (Doc.arr [.str n.level.name, .str (← messageText n.text)])))

/-- The answer to a request, with its notes if it asks for them. -/
def answer (d : Doc) : Act Doc := do
  let start := (← get).world.notes.size
  let body ← tryCatch (request (d.size + 1) d) faultDoc
  if (d.get? "log").bind Doc.bool? == some true then
    let log ← notesDoc start
    match body with
    | .obj fs => pure (.obj (fs ++ [("log", log)]))
    | other => pure other
  else pure body

/-- The answer line to a request line, each request in a session of its own. -/
def answerLine (line : String) : String :=
  match Syntax.parse line with
  | .error f => (Doc.obj [("error", .str "BadInput"), ("message", .str ("bad json: " ++ f.text))]).render
  | .ok d =>
    match ((answer d).run.run {}).1 with
    | .ok a => a.render
    | .error f => (match ((faultDoc f).run.run {}).1 with
      | .ok a => a.render
      | .error _ => "{}")

end Session

end ConicForm
