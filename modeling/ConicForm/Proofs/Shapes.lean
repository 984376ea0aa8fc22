import ConicForm.Proofs.Meaning
/-!
Canonicalization keeps the shape of a tree. Each of the walk's five cases returns a tree of the
node's own shape, given operands whose shapes were kept first, so the statement is carried up
the tree by the walk's own induction. It holds for every table whose node rules are standard
rules under their own kinds (`Table.OwnKindRules`); a standard rule under another kind may not
keep the shape.
-/

namespace ConicForm

/-- The node rules of the table are standard rules, each under the kind it is written for. -/
def Table.OwnKindRules (T : Table) : Prop :=
  ∀ k r, T.exprRule? k = some r → ∃ c : ConeRule, r = .cone c ∧ c.kind = k

namespace Table

lemma ownKindRules_of_exprs_nil {T : Table} (hT : T.exprs = []) : T.OwnKindRules := by
  intro k r h
  simp [exprRule?, hT] at h

lemma lookup_own_kinds :
    ∀ (rs : List ConeRule) {k : Kind} {r : ExprRule},
      (rs.map fun c => (c.kind, ExprRule.cone c)).lookup k = some r → ∃ c, r = .cone c ∧ c.kind = k
  | [], _, _, h => by simp at h
  | c :: rs, k, r, h => by
    simp only [List.map_cons, List.lookup_cons] at h
    split at h
    · rename_i hk
      exact ⟨c, (Option.some.inj h).symm, (beq_iff_eq.1 hk).symm⟩
    · exact lookup_own_kinds rs h

lemma cone_ownKindRules : cone.OwnKindRules := fun _ _ h => lookup_own_kinds _ h

end Table

/-! ### The standard rules -/

section Rules

variable {w w' : World}

/-- A standard rule applied to a node of the kind it is written for returns a tree of the
node's shape, when that shape is the one the node's operator infers over the rule's operands. -/
lemma ConeRule.apply_shape (r : ConeRule) {i : Nat} {op : Op} {old args : List Expr} {s : Shape}
    {c p : Bool} {t : Expr} {aux : List Constraint} (hk : op.kind = r.kind)
    (hs : s = op.inferShape (args.map (·.shape)))
    (h : (r.apply (.node i op old s c p) args).run.run w = (.ok (t, aux), w')) : t.shape = s := by
  cases r
  case maximum | minimum =>
    -- the epigraph variable is made with the node's own shape
    simp only [ConeRule.apply] at h
    obtain ⟨t', w₁, h₁, ht⟩ := bind_eq_ok h
    obtain ⟨cs, w₂, -, hcs⟩ := bind_eq_ok ht
    cases hcs
    simp only [Expr.plainVar, run_monadLift, Expr.newVar_run] at h₁
    cases h₁
    rfl
  case sumSquares =>
    -- a scalar epigraph variable, whatever the rotated cone makes
    cases op <;> simp only [Op.kind, ConeRule.kind, reduceCtorEq] at hk
    simp only [ConeRule.apply] at h
    obtain ⟨x, w₁, -, hx⟩ := bind_eq_ok h
    obtain ⟨t', w₂, h₂, ht⟩ := bind_eq_ok hx
    obtain ⟨y, w₃, -, hy⟩ := bind_eq_ok ht
    obtain ⟨c', w₄, -, hc⟩ := bind_eq_ok hy
    cases hc
    simp only [Expr.plainVar, run_monadLift, Expr.newVar_run] at h₂
    cases h₂
    simp [hs, Op.inferShape, Expr.shape]
  case quadOverLin =>
    cases op <;> simp only [Op.kind, ConeRule.kind, reduceCtorEq] at hk
    simp only [ConeRule.apply] at h
    obtain ⟨xy, w₁, -, hxy⟩ := bind_eq_ok h
    obtain ⟨t', w₂, h₂, ht⟩ := bind_eq_ok hxy
    obtain ⟨c', w₃, -, hc⟩ := bind_eq_ok ht
    cases hc
    simp only [Expr.plainVar, run_monadLift, Expr.newVar_run] at h₂
    cases h₂
    simp [hs, Op.inferShape, Expr.shape]
  case power =>
    cases op <;> simp only [Op.kind, ConeRule.kind, reduceCtorEq] at hk
    rename_i q
    simp only [ConeRule.apply] at h
    rw [run_bind_of_ok (run_pure q w)] at h
    obtain ⟨x, w₂, h₂, hrest⟩ := bind_eq_ok h
    obtain ⟨rfl, rfl⟩ := Rules.one_ok h₂
    -- the operand itself, a constant of its shape, or a variable of its shape
    by_cases hp1 : (q - 1).abs < 1e-10
    · rw [if_pos hp1, run_pure] at hrest
      cases hrest
      simp [hs, Op.inferShape]
    rw [if_neg hp1] at hrest
    by_cases hp0 : q.abs < 1e-10 <;>
      simp only [hp0, ↓reduceIte, Expr.filled, Expr.plainVar, run_bind, run_monadLift, run_pure,
        Expr.newVar_run, Expr.constant_run, Constraint.make_run] at hrest <;>
      cases hrest <;>
      simp [hs, Op.inferShape, Expr.shape]
  -- the rules of one operand that return a fresh variable, or the sum of one
  all_goals
    cases op <;> simp only [Op.kind, ConeRule.kind, reduceCtorEq] at hk
    rcases args with _ | ⟨x, _ | ⟨y, rest⟩⟩ <;>
      simp only [ConeRule.apply, Rules.one, Rules.bothSides, Rules.nonneg, Expr.plainVar,
        Expr.sub, Expr.filled, run_bind, run_monadLift, run_pure, run_throw, build_bind_run,
        Expr.build_run, Expr.newVar_run, Expr.constant_run, Constraint.make_run, Expr.unary_eq,
        Expr.binary_eq] at h <;>
      cases h
    simp [hs, Op.inferShape, Expr.shape]

end Rules

/-! ### The walk -/

namespace Table

variable {T : Table} {w w' : World}

lemma canonNode_shape (hT : T.OwnKindRules) {e r : Expr} {args : List Expr}
    {more : List Constraint} (hs : e.shapeExact = true)
    (hargs : e.isConst = false → args.map (·.shape) = e.args.map (·.shape))
    (h : (T.canonNode e args).run.run w = (.ok (r, more), w')) : r.shape = e.shape := by
  unfold canonNode at h
  split at h
  · split at h
    · -- a deferred leaf is made with the subtree's shape
      simp only [traceNote_run, run_bind, run_monadLift, Expr.deferredOf_run, run_pure] at h
      cases h
      rfl
    · -- so is a folded constant
      simp only [run_monadLift_bind, traceNote_run] at h
      obtain ⟨v, w₁, -, h₂⟩ := bind_eq_ok h
      simp only [run_bind, run_monadLift, Expr.constant_run, run_pure] at h₂
      cases h₂
      rfl
  · rename_i hc
    split at h
    · simp only [run_pure] at h
      cases h
      rfl
    · rename_i hv
      -- what is neither constant nor a variable is an operator node
      cases e with
      | node i op old s c p =>
        have hs' : s = op.inferShape (args.map (·.shape)) := by
          rw [hargs (Bool.eq_false_iff.2 hc), (Expr.shapeExact_node.1 hs).1]
          rfl
        split at h
        · rename_i rule hrule
          simp only [run_monadLift_bind, traceNote_run] at h
          obtain ⟨c', rfl, hck⟩ := hT _ _ hrule
          exact c'.apply_shape hck.symm hs' h
        · simp only [run_monadLift_bind, traceNote_run] at h
          obtain ⟨r', w₁, h₁, h₂⟩ := bind_eq_ok h
          simp only [run_pure] at h₂
          cases h₂
          rw [Expr.withArgs_node h₁]
          exact hs'.symm
      | _ => simp [Expr.isConst, Expr.isVariable] at hc hv

lemma canonTree_shape (hT : T.OwnKindRules) :
    (∀ e acc {w w' r acc'}, e.shapeExact = true →
      (T.canonTree e acc).run.run w = (.ok (r, acc'), w') → r.shape = e.shape) ∧
    (∀ es acc {w w' rs acc'}, es.all Expr.shapeExact = true →
      (T.canonList es acc).run.run w = (.ok (rs, acc'), w') →
      rs.map (·.shape) = es.map (·.shape)) := by
  refine canonTree.mutual_induct
    (fun e acc => ∀ {w w' r acc'}, e.shapeExact = true →
      (T.canonTree e acc).run.run w = (.ok (r, acc'), w') → r.shape = e.shape)
    (fun es acc => ∀ {w w' rs acc'}, es.all Expr.shapeExact = true →
      (T.canonList es acc).run.run w = (.ok (rs, acc'), w') →
      rs.map (·.shape) = es.map (·.shape)) ?_ ?_ ?_ ?_ ?_
  · intro i op args s c hp acc
    dsimp only
    intro hent ih w w' r acc' hs h
    rw [canonTree, if_pos hent] at h
    obtain ⟨⟨args', acc₁⟩, w₁, h₁, hrest⟩ := bind_eq_ok h
    obtain ⟨more, h₂, -⟩ := canonNode_append_ok hrest
    have hargs := ih (Expr.shapeExact_node.1 hs).2 h₁
    exact canonNode_shape hT hs (fun _ => hargs) h₂
  · intro i op args s c hp acc
    dsimp only
    intro hent w w' r acc' hs h
    rw [canonTree, if_neg hent] at h
    obtain ⟨more, h₂, -⟩ := canonNode_append_ok h
    -- a node the walk does not enter is constant, so neither a rule nor a copy sees it
    have hc : c = true := by
      simp only [enters, Expr.isConst, Bool.or_eq_true, Bool.not_eq_true', not_or] at hent
      simpa using hent.1
    exact canonNode_shape hT hs (fun hc' => by simp [Expr.isConst, hc] at hc') h₂
  · intro e acc hleaf w w' r acc' hs h
    rw [canonTree] at h
    · obtain ⟨more, h₂, -⟩ := canonNode_append_ok h
      exact canonNode_shape hT hs (fun _ => by simp [Expr.args_eq_nil hleaf]) h₂
    · exact hleaf
  · intro acc w w' rs acc' _ h
    simp only [canonList, run_pure] at h
    cases h
    rfl
  · intro e es acc ihe ihes w w' rs acc' hs h
    simp only [List.all_cons, Bool.and_eq_true] at hs
    obtain ⟨r, rs', acc₁, w₁, h₁, h₂, rfl⟩ := canonList_cons_ok h
    simp [ihe hs.1 h₁, ihes acc₁ hs.2 h₂]

/-- **Canonicalization keeps shapes.** With a table whose node rules are standard rules under
their own kinds (the standard table, or a table without node rules), a successful
canonicalization of a tree whose shapes are the ones its operators infer returns a tree of the
same shape. -/
theorem canonExpr_preserves_shape (hT : T.OwnKindRules) {e c : Expr} {aux : List Constraint}
    (hs : e.shapeExact = true) (h : (T.canonExpr e).run.run w = (.ok (c, aux), w')) :
    c.shape = e.shape := by
  obtain ⟨acc, h₁, -⟩ := canonExpr_ok h
  exact (canonTree_shape hT).1 e #[] hs h₁

/-- The tree `‖x‖₁ + |x|` over a vector `x` of two entries: a scalar and a vector atom under one
sum, each replaced by a rule of the standard table. -/
def normPlusAbs : Expr :=
  let x : Expr := .var 0 ⟨.vector 2, none, false, false⟩
  .node 3 .add [.node 1 .norm1 [x] .scalar false false, .node 2 .abs [x] (.vector 2) false false]
    (.vector 2) false false

theorem canonExpr_preserves_shape_normPlusAbs :
    cone.OwnKindRules ∧ normPlusAbs.shapeExact = true ∧
    ∃ c aux w', (cone.canonExpr normPlusAbs).run.run { next := 4 } = (.ok (c, aux), w') ∧
      c.shape = normPlusAbs.shape := by
  have hs : normPlusAbs.shapeExact = true := by decide
  have hok : (match (cone.canonExpr normPlusAbs).run.run { next := 4 } with
      | (.ok _, _) => true
      | (.error _, _) => false) = true := by decide +kernel
  rcases hr : (cone.canonExpr normPlusAbs).run.run { next := 4 } with ⟨_ | ⟨c, aux⟩, w'⟩
  · rw [hr] at hok
    cases hok
  · exact ⟨cone_ownKindRules, hs, c, aux, w', rfl,
      canonExpr_preserves_shape cone_ownKindRules hs hr⟩

end Table

end ConicForm
