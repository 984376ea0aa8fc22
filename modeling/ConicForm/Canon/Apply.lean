import ConicForm.Canon.Walk
import ConicForm.Canon.Inverse
import ConicForm.Solution
/-!
Canonicalization of a whole problem, and the way back for solutions.

The canonical problem keeps the objective's sense. Its constraints are the auxiliary
constraints of the objective, then for each constraint of the problem its auxiliary
constraints followed by its replacement. The inverse record maps each constraint to its
replacement. A solution of the canonical problem maps back by keeping the values of the
given problem's variables and the duals of the replacements.
-/

namespace ConicForm

namespace Table

/-- The canonical forms of constraints in order: each one's auxiliary constraints and replacement,
and the pairs (constraint, replacement) of ids. -/
def canonAll (T : Table) : List Constraint → Run (List Constraint × List (Nat × Nat))
  | [] => pure ([], [])
  | c :: cs => do
    let (top, aux) ← T.canonConstraint c
    let (rest, pairs) ← T.canonAll cs
    pure (aux ++ top :: rest, (c.id, top.id) :: pairs)

def applyNote (n m k r : Nat) : Message :=
  .ofText ("canonicalized " ++ toString n ++ " constraints into " ++ toString m ++ " (" ++
    toString k ++ " from the objective, " ++ toString r ++ " rules)")

/-- The canonical problem and its inverse record. -/
def apply (T : Table) (P : Problem) : Run (Problem × InverseData) := do
  let inv := InverseData.ofProblem P
  let (obj, objAux) ← T.canonExpr P.objective.expr
  let (cons, pairs) ← T.canonAll P.constraints
  let all := objAux ++ cons
  note .debug (applyNote P.constraints.length all.length objAux.length T.size)
  pure (⟨⟨P.objective.sense, obj⟩, all⟩, { inv with consIdMap := IdMap.ofList pairs })

end Table

/-- A solution of a canonical problem, mapped back: status, value and attributes are kept,
the values of the given problem's variables are kept, and each constraint takes the dual of its
replacement. -/
def InverseData.invert (D : InverseData) (S : Solution) : Solution :=
  { S with
    primal := D.idMap.filterMap fun (id, _) => (S.getValue? id).map ((id, ·))
    dual := D.consIdMap.filterMap fun (orig, canon) => (S.dualValue? canon).map ((orig, ·)) }

def Table.reductionName : String := "Canonicalization"

end ConicForm
