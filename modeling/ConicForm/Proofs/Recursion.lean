import ConicForm.Proofs.Walk
import ConicForm.Proofs.Eval
import ConicForm.Proofs.Traversal
/-!
The walk as a recursion. `canonTree` threads one array of auxiliary constraints through the
walk; its specification `canonRec` returns each node's own constraints, its operands' first.
For every tree whose flags say the truth the two are the same computation on the world
(`canon_eq_recursive`), and `canonTree` is the post-order fold of `foldPostorder` that enters a
node unless it is a constant subtree without parameters (`canonTree_eq_foldPostorder`).
-/

namespace ConicForm

namespace Table

/-- The recursion at node `e`, given the computation of its operands' canonical forms. The five
cases come in the walk's order: a constant subtree with parameters is deferred after its
operands, any other constant subtree is folded without entering it, a variable is itself, and
any other node is rewritten by its rule or copied over its canonical operands. -/
def recNode (T : Table) (e : Expr) (operands : Run (List (Expr × List Constraint))) :
    Run (Expr × List Constraint) :=
  if e.isConst then
    if e.hasParams then do
      let _ ← operands
      traceNote e.kind.name e.id "deferred"
      pure (← Expr.deferredOf e.shape e, [])
    else do
      traceNote e.kind.name e.id "folded"
      let v ← e.eval
      pure (← Expr.constant v e.shape, [])
  else if e.isVariable then pure (e, [])
  else do
    let rs ← operands
    match T.exprRule? e.kind with
    | some r => do
      traceNote e.kind.name e.id "rewritten by rule"
      let (t, more) ← r.apply e (rs.map (·.1))
      pure (t, rs.flatMap (·.2) ++ more)
    | none => do
      traceNote e.kind.name e.id "copied"
      pure (← e.withArgs (rs.map (·.1)), rs.flatMap (·.2))

mutual
/-- The canonical form of a tree and its auxiliary constraints, by recursion on the tree. -/
def canonRec (T : Table) : Expr → Run (Expr × List Constraint)
  | .node i op args s c h => T.recNode (.node i op args s c h) (canonRecList T args)
  | e => T.recNode e (pure [])

def canonRecList (T : Table) : List Expr → Run (List (Expr × List Constraint))
  | [] => pure []
  | e :: es => do
    let r ← canonRec T e
    let rs ← canonRecList T es
    pure (r :: rs)
end

def canonRecConstraint (T : Table) (k : Constraint) : Run (Constraint × List Constraint) := do
  let rs ← canonRecList T k.args
  match T.consRule? k.kind with
  | some r => do
    traceNote k.kind.name k.id "rewritten by rule"
    let (top, more) ← r.apply k (rs.map (·.1))
    pure (top, rs.flatMap (·.2) ++ more)
  | none => do
    traceNote k.kind.name k.id "copied"
    pure (← k.withArgs (rs.map (·.1)), rs.flatMap (·.2))

/-! ### The walk is a post-order fold -/

/-- One visit of the post-order fold that canonicalizes a tree: the node's canonical form over
its operands' results, with its auxiliary constraints appended to the array the fold carries. -/
def canonVisit (T : Table) (e : Expr) (args : List Expr) : StateT (Array Constraint) Run Expr := do
  let (r, more) ← (T.canonNode e args : Run (Expr × List Constraint))
  modify (· ++ more.toArray)
  pure r

lemma canonVisit_run (T : Table) (e : Expr) (args : List Expr) (acc : Array Constraint) :
    (T.canonVisit e args).run acc =
      (fun p => (p.1, acc ++ p.2.toArray)) <$> (T.canonNode e args : Run _) := by
  simp [canonVisit]

lemma foldRec_canonVisit (T : Table) :
    (∀ e acc, (foldRec (fun e => pure (enters e)) T.canonVisit e).run acc = T.canonTree e acc) ∧
    ∀ es acc, (foldRecList (fun e => pure (enters e)) T.canonVisit es).run acc =
      T.canonList es acc := by
  refine foldRec.mutual_induct
    (fun e => ∀ acc,
      (foldRec (fun e => pure (enters e)) T.canonVisit e).run acc = T.canonTree e acc)
    (fun es => ∀ acc,
      (foldRecList (fun e => pure (enters e)) T.canonVisit es).run acc = T.canonList es acc)
    ?node ?leaf ?nil ?cons
  case node =>
    -- the fold asks `enters` exactly where the walk tests it
    intro i op args s c h ih acc
    cases hd : enters (.node i op args s c h)
    · simp [foldRec, canonTree, hd, canonVisit_run]
    · simp [foldRec, canonTree, hd, canonVisit_run, ih]
  case leaf =>
    intro e hleaf acc
    rw [foldRec.eq_2 _ _ e hleaf]
    cases e
    case node i op args s c h => exact absurd rfl (hleaf i op args s c h)
    all_goals simp [canonTree, canonVisit_run]
  case nil =>
    intro acc
    simp [foldRecList, canonList]
  case cons =>
    intro e es ihe ihes acc
    simp [foldRecList, canonList, ihe, ihes]

/-- The walk over a tree is the post-order fold that enters a node unless it is a constant
subtree without parameters, visits each node by `canonVisit`, and carries the auxiliary
constraints as its state: the fold never meets an empty stack and makes the same calls. -/
theorem canonTree_eq_foldPostorder (T : Table) (e : Expr) (acc : Array Constraint) :
    (foldPostorder (fun e => pure (enters e)) T.canonVisit e).run.run acc =
      (fun p => (some p.1, p.2)) <$> T.canonTree e acc := by
  rw [foldPostorder_eq, ← (foldRec_canonVisit T).1 e acc]
  simp

theorem canonList_eq_mapM_foldPostorder (T : Table) (es : List Expr) (acc : Array Constraint) :
    (es.mapM (foldPostorder (fun e => pure (enters e)) T.canonVisit)).run.run acc =
      (fun p => (some p.1, p.2)) <$> T.canonList es acc := by
  induction es generalizing acc with
  | nil => simp [canonList]
  | cons e es ih =>
    simp [List.mapM_cons, canonList, foldPostorder_eq, ← (foldRec_canonVisit T).1 e acc, ih]

variable {T : Table}

/-! ### Constant trees make no constraint -/

lemma recNode_const {e : Expr} (hc : e.isConst = true)
    (operands : Run (List (Expr × List Constraint))) {w w' : World} {r : Expr}
    {aux : List Constraint} (h : (T.recNode e operands).run.run w = (.ok (r, aux), w')) :
    aux = [] := by
  unfold recNode at h
  rw [if_pos hc] at h
  split at h
  · obtain ⟨_, w₁, -, h₁⟩ := bind_eq_ok h
    simp only [run_monadLift_bind, Expr.deferredOf_run, run_pure] at h₁
    cases h₁
    rfl
  · simp only [run_monadLift_bind] at h
    obtain ⟨v, w₁, -, h₁⟩ := bind_eq_ok h
    simp only [run_monadLift_bind, Expr.constant_run, run_pure] at h₁
    cases h₁
    rfl

lemma canonRec_const {e : Expr} (hc : e.isConst = true) {w w' : World} {r : Expr}
    {aux : List Constraint} (h : (T.canonRec e).run.run w = (.ok (r, aux), w')) : aux = [] := by
  cases e
  case node i op args s c p => exact recNode_const hc _ h
  all_goals exact recNode_const hc _ h

lemma canonRecList_const :
    ∀ {es : List Expr}, es.all Expr.isConst = true → ∀ {w w' : World}
      {rs : List (Expr × List Constraint)},
      (T.canonRecList es).run.run w = (.ok rs, w') → rs.flatMap (·.2) = []
  | [], _, w, w', rs, h => by
    simp only [canonRecList, run_pure] at h
    cases h
    rfl
  | e :: es, hc, w, w', rs, h => by
    simp only [List.all_cons, Bool.and_eq_true] at hc
    rw [canonRecList] at h
    obtain ⟨r, w₁, h₁, hrest⟩ := bind_eq_ok h
    obtain ⟨rs', w₂, h₂, hdone⟩ := bind_eq_ok hrest
    simp only [run_pure] at hdone
    cases hdone
    simp [canonRec_const hc.1 h₁, canonRecList_const hc.2 h₂]

/-! ### The walk is the recursion -/

lemma canonTree_eq_canonRec (T : Table) :
    (∀ e acc, e.flagsExact = true →
      T.canonTree e acc = do
        let (r, aux) ← T.canonRec e
        pure (r, acc ++ aux.toArray)) ∧
    (∀ es acc, es.all Expr.flagsExact = true →
      T.canonList es acc = do
        let rs ← T.canonRecList es
        pure (rs.map (·.1), acc ++ (rs.flatMap (·.2)).toArray)) := by
  refine canonTree.mutual_induct
    (fun e acc => e.flagsExact = true →
      T.canonTree e acc = do
        let (r, aux) ← T.canonRec e
        pure (r, acc ++ aux.toArray))
    (fun es acc => es.all Expr.flagsExact = true →
      T.canonList es acc = do
        let rs ← T.canonRecList es
        pure (rs.map (·.1), acc ++ (rs.flatMap (·.2)).toArray)) ?_ ?_ ?_ ?_ ?_
  · intro i op args s c p acc
    dsimp only
    intro hent ih hf
    obtain ⟨hc, -, hargs⟩ := Expr.flagsExact_node.1 hf
    rw [canonTree, if_pos hent, ih hargs, canonRec]
    simp only [bind_assoc, pure_bind]
    cases c
    · -- not constant: the node is rewritten by its rule or copied, after its operands
      simp only [recNode, canonNode, Expr.isConst, Expr.isVariable, Bool.false_eq_true,
        if_false]
      rcases T.exprRule? _ with _ | r <;> simp
    · -- constant, and entered: it has parameters and is deferred after its operands
      cases p
      · simp [enters, Expr.isConst, Expr.hasParams] at hent
      simp only [recNode, canonNode, Expr.isConst, Expr.hasParams, if_true, bind_assoc,
        pure_bind]
      refine bind_congr_of_ok fun w rs w' h => ?_
      simp [canonRecList_const hc.symm h]
  · intro i op args s c p acc
    dsimp only
    intro hent hf
    rw [canonTree, if_neg hent, canonRec]
    -- a node the walk does not enter is constant without parameters: both fold it
    simp only [enters, Expr.isConst, Expr.hasParams, Bool.or_eq_true, Bool.not_eq_true',
      not_or, Bool.not_eq_false, Bool.not_eq_true] at hent
    obtain ⟨rfl, rfl⟩ := hent
    simp [recNode, canonNode, Expr.isConst, Expr.hasParams]
  · intro e acc hleaf hf
    rw [canonTree, canonRec]
    · cases e
      case node i op args s c p => exact absurd rfl (hleaf i op args s c p)
      all_goals simp [recNode, canonNode, Expr.isConst, Expr.hasParams, Expr.isVariable]
    all_goals exact hleaf
  · intro acc _
    simp [canonList, canonRecList]
  · intro e es acc ihe ihes hf
    simp only [List.all_cons, Bool.and_eq_true] at hf
    rw [canonList, ihe hf.1, canonRecList]
    simp only [bind_assoc, pure_bind, ihes _ hf.2]
    simp

/-- **The walk is its recursive specification.** For every table, canonicalizing a tree whose
flags say the truth is the recursion `canonRec`, and canonicalizing a constraint over such trees
is `canonRecConstraint`: as computations on the world they give the same canonical form and
auxiliary constraints, or the same first error, and take the same ids and write the same notes,
in the same order. -/
theorem canon_eq_recursive (T : Table) {e : Expr} {k : Constraint} (he : e.flagsExact = true)
    (hk : k.args.all Expr.flagsExact = true) :
    T.canonExpr e = T.canonRec e ∧ T.canonConstraint k = T.canonRecConstraint k := by
  constructor
  · rw [canonExpr, (canonTree_eq_canonRec T).1 e #[] he]
    simp
  · rw [canonConstraint, (canonTree_eq_canonRec T).2 k.args #[] hk, canonRecConstraint]
    simp only [bind_assoc, pure_bind, canonConsNode]
    rcases T.consRule? k.kind with _ | r <;> simp

/-- The tree `|x| + p · (2 · 3)` for a variable `x` and a parameter `p`: the walk rewrites the
absolute value, defers the product with the parameter after folding the constant under it. -/
def absScaled : Expr :=
  let x : Expr := .var 0 ⟨.scalar, none, false, false⟩
  let p : Expr := .param 1 ⟨.scalar, some "p", 1⟩
  let six : Expr := .node 4 .mul [.const 2 (.scalar 2) .scalar, .const 3 (.scalar 3) .scalar]
    .scalar true false
  .node 7 .add [.node 5 .abs [x] .scalar false false, .node 6 .mul [p, six] .scalar true true]
    .scalar false true

theorem canon_eq_recursive_absScaled :
    absScaled.flagsExact = true ∧ [absScaled].all Expr.flagsExact = true ∧
    Table.cone.canonExpr absScaled = Table.cone.canonRec absScaled ∧
    Table.cone.canonConstraint ⟨8, .nonneg absScaled⟩ =
      Table.cone.canonRecConstraint ⟨8, .nonneg absScaled⟩ :=
  have he : absScaled.flagsExact = true := by decide
  have hk : [absScaled].all Expr.flagsExact = true := by decide
  ⟨he, hk, canon_eq_recursive Table.cone he hk⟩

end Table

end ConicForm
