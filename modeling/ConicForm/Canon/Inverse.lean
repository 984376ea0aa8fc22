import ConicForm.Problem
/-!
The record a canonicalization of a problem keeps for mapping solutions back. Variables are laid out
one after the other in increasing id order in a vector of `xLength` entries, each taking as
many entries as its shape has.
-/

namespace ConicForm

/-- What a canonicalization of a problem remembers. -/
structure InverseData where
  /-- Each variable of the problem to itself. -/
  idMap : IdMap Nat
  varShapes : IdMap Shape
  /-- Where each variable starts in the layout. -/
  varOffsets : IdMap Nat
  xLength : Nat
  paramShapes : IdMap Shape
  /-- The problem's constraints by id. -/
  constraints : IdMap Constraint
  /-- Each constraint of the problem to the constraint that replaces it. -/
  consIdMap : IdMap Nat
  minimize : Bool
  deriving Inhabited

/-- Offsets of consecutive blocks of the given sizes, starting at `start`, and the end; the
offsets wrap around at `2^64`. -/
def blockOffsets (start : Nat) : List (Nat × Nat) → List (Nat × Nat) × Nat
  | [] => ([], start)
  | (id, n) :: rest =>
    let (offs, stop) := blockOffsets ((start + n) % Shape.wordModulus) rest
    ((id, start) :: offs, stop)

def InverseData.ofProblem (P : Problem) : InverseData :=
  let shapes := P.variableShapes
  let (offsets, xLength) := blockOffsets 0 (shapes.map fun (id, s) => (id, s.size))
  { idMap := shapes.map fun (id, _) => (id, id)
    varShapes := shapes
    varOffsets := offsets
    xLength := xLength
    paramShapes := P.parameterShapes
    constraints := IdMap.ofList (P.constraints.map fun c => (c.id, c))
    consIdMap := []
    minimize := P.objective.sense == .minimize }

end ConicForm
