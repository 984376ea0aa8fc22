import ConicForm.Expr.Basic
import ConicForm.IdMap
/-!
Solutions: a status, an optimal value, values of variables and of constraint duals by id,
and named attributes.
-/

namespace ConicForm

inductive Status where
  | optimal | infeasible | unbounded | error | unknown
  deriving DecidableEq, Repr, Inhabited

def Status.name : Status → String
  | .optimal => "Optimal" | .infeasible => "Infeasible" | .unbounded => "Unbounded"
  | .error => "Error" | .unknown => "Unknown"

inductive Attr where
  | float (x : Float)
  | int (i : Int)
  | text (s : String)
  deriving Inhabited

/-- A solution of a problem. -/
structure Solution where
  status : Status
  optVal : Option Float
  primal : IdMap Value
  dual : IdMap Value
  attr : List (String × Attr)
  deriving Inhabited

namespace Solution

/-- The solution of a failed solve: infeasible problems have value `+∞`, unbounded ones
`-∞`, others none. -/
def failure (s : Status) : Solution :=
  let v : Option Float := match s with
    | .infeasible => some (1 / 0)
    | .unbounded => some (-1 / 0)
    | _ => none
  ⟨s, v, [], [], []⟩

def getValue? (S : Solution) (id : Nat) : Option Value := S.primal.find? id

def dualValue? (S : Solution) (id : Nat) : Option Value := S.dual.find? id

def valueOf? (S : Solution) (e : Expr) : Option Value :=
  if e.isVariable then S.getValue? e.id else none

end Solution

end ConicForm
