import ConicForm.Constraint
import ConicForm.IdMap
/-!
Problems: an objective to minimize or maximize, and a list of constraints. The expressions of
a problem are its objective and the operands of its constraints, in that order.
-/

namespace ConicForm

inductive Sense where
  | minimize
  | maximize
  deriving DecidableEq, Repr, Inhabited

structure Objective where
  sense : Sense
  expr : Expr
  deriving Inhabited

/-- An optimization problem. -/
structure Problem where
  objective : Objective
  constraints : List Constraint
  deriving Inhabited

namespace Problem

/-- The objective, then the operands of each constraint. -/
def roots (P : Problem) : List Expr := P.objective.expr :: P.constraints.flatMap (·.args)

/-- The variables of the problem with their shapes, by id. -/
def variableShapes (P : Problem) : IdMap Shape :=
  IdMap.ofList (((P.roots.flatMap Expr.preorder).filter (·.isVariable)).map fun e => (e.id, e.shape))

def parameterShapes (P : Problem) : IdMap Shape :=
  IdMap.ofList (((P.roots.flatMap Expr.preorder).filter (·.isParameter)).map fun e => (e.id, e.shape))

def constraint? (P : Problem) (id : Nat) : Option Constraint := P.constraints.find? (·.id == id)

end Problem

end ConicForm
