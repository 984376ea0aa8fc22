import ConicForm.Canon.Apply
/-!
Chains of canonicalizations: each stage canonicalizes the problem the stage before produced, and solutions
map back through the stages in reverse order.
-/

namespace ConicForm

/-- Canonicalizations applied one after another. -/
structure Chain where
  stages : List Table
  deriving Inhabited

namespace Chain

def stageNote (before after : Nat) : Message :=
  .ofText (Table.reductionName ++ ": " ++ toString before ++ " -> " ++ toString after ++
    " constraints")

/-- The problem after the stages, from `P` on, with each stage's inverse record in order. -/
def applyFrom : List Table → Problem → Run (Problem × List InverseData)
  | [], P => pure (P, [])
  | T :: Ts, P => do
    let (Q, D) ← T.apply P
    note .debug (stageNote P.constraints.length Q.constraints.length)
    let (R, Ds) ← applyFrom Ts Q
    pure (R, D :: Ds)

def apply (C : Chain) (P : Problem) : Run (Problem × List InverseData) := applyFrom C.stages P

/-- A solution of the final problem mapped back through every stage, last stage first. There
must be one inverse record per stage. -/
def invert (C : Chain) (S : Solution) (ds : List InverseData) : Except Error Solution :=
  if ds.length ≠ C.stages.length then .error (.inverseCount C.stages.length ds.length)
  else .ok (ds.foldr (fun D s => D.invert s) S)

end Chain

end ConicForm
