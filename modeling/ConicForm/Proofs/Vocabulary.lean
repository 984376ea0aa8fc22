import ConicForm.Proofs.Walk
import ConicForm.Proofs.Descendants
/-!
The vocabulary of the standard table.

The standard table has a rule for every nonlinear atom but two: quadratic forms and custom
operators. A canonical problem made with it therefore has only cone constraints (zero,
non-negative, second-order, exponential and power cones), and its trees have only variables,
constants, deferred leaves, affine nodes, and the quadratic forms and custom nodes that the
table copies (`cone_apply_vocabulary`). The last two do survive (`cone_apply_keeps_quadForm`,
`cone_apply_keeps_custom`): the table leaves more than affine nodes.
-/

namespace ConicForm

/-! ### The nodes of a problem -/

lemma Problem.forall_mem_roots_flatMap {β : Type} {P : Problem} {g : Expr → List β}
    {p : β → Prop} :
    (∀ x ∈ P.roots.flatMap g, p x) ↔
      (∀ x ∈ g P.objective.expr, p x) ∧ ∀ c ∈ P.constraints, ∀ a ∈ c.args, ∀ x ∈ g a, p x := by
  simp only [Problem.roots, List.forall_mem_flatMap, List.forall_mem_cons]

lemma Problem.all_roots_flatMap {β : Type} {P : Problem} {g : Expr → List β} {p : β → Bool} :
    (P.roots.flatMap g).all p = true ↔
      (g P.objective.expr).all p = true ∧ ∀ c ∈ P.constraints, (c.args.flatMap g).all p = true := by
  simp only [List.all_eq_true, Problem.forall_mem_roots_flatMap, List.forall_mem_flatMap]

/-! ### What the standard table leaves -/

def Kind.isAffine : Kind → Bool
  | .add | .neg | .mul | .matmul | .sum | .reshape | .index | .vstack | .hstack | .transpose
  | .trace | .cumsum | .diag => true
  | _ => false

/-- The kinds the standard table leaves in a canonical tree: variables, constants, deferred
leaves and affine nodes, and the two kinds of node it has no rule for. -/
def Kind.isLeftByCone : Kind → Bool
  | .variable | .constant | .callback | .quadForm | .custom _ => true
  | k => k.isAffine

def ConeKind.isCone : ConeKind → Bool
  | .zero | .nonneg | .soc | .expCone | .powerCone => true
  | .equality | .inequality => false

/-- Every node of the tree has a kind that the standard table leaves. -/
def Expr.InVocab (e : Expr) : Prop := ∀ n ∈ e.preorder, n.kind.isLeftByCone = true

/-- A cone constraint over trees whose nodes the standard table leaves. -/
def Constraint.InVocab (c : Constraint) : Prop := c.kind.isCone = true ∧ ∀ a ∈ c.args, a.InVocab

namespace Expr

@[simp] lemma inVocab_node {i : Nat} {op : Op} {args : List Expr} {s : Shape} {c h : Bool} :
    (node i op args s c h).InVocab ↔ op.kind.isLeftByCone = true ∧ ∀ a ∈ args, a.InVocab := by
  simp only [InVocab, preorder_node, List.mem_cons, List.mem_flatMap, forall_eq_or_imp, kind]
  constructor
  · rintro ⟨hop, hargs⟩
    exact ⟨hop, fun a ha n hn => hargs n ⟨a, ha, hn⟩⟩
  · rintro ⟨hop, hargs⟩
    exact ⟨hop, fun n ⟨a, ha, hn⟩ => hargs a ha n hn⟩

@[simp] lemma inVocab_var (i : Nat) (v : VarInfo) : (var i v).InVocab := by
  simp [InVocab, kind, Kind.isLeftByCone]

@[simp] lemma inVocab_const (i : Nat) (v : Value) (s : Shape) : (const i v s).InVocab := by
  simp [InVocab, kind, Kind.isLeftByCone]

@[simp] lemma inVocab_deferred (i : Nat) (s : Shape) (body : Expr) :
    (deferred i s body).InVocab := by
  simp [InVocab, kind, Kind.isLeftByCone]

end Expr

@[simp] lemma Constraint.inVocab_mk (i : Nat) (r : Relation) :
    (⟨i, r⟩ : Constraint).InVocab ↔ r.kind.isCone = true ∧ ∀ a ∈ r.args, a.InVocab := Iff.rfl

/-! ### The rules build in the vocabulary -/

section Rules

variable {w w' : World}

lemma Rules.rotatedSoc_inVocab {x t y : Expr} {c : Constraint} (hx : x.InVocab)
    (ht : t.InVocab) (hy : y.InVocab) (h : (Rules.rotatedSoc x t y).run.run w = (.ok c, w')) :
    c.InVocab := by
  by_cases hflat : x.shape.ndim ≤ 1 <;>
    simp only [Rules.rotatedSoc, Rules.flattenMatrix, hflat, ↓reduceIte, Expr.flatten,
      Expr.sub, Expr.scale, Expr.scalar, run_bind, run_monadLift, run_pure, build_bind_run,
      Expr.build_run, Expr.constant_run, Constraint.make_run, Expr.unary_eq,
      Expr.binary_eq] at h <;>
    cases h <;>
    simp [Relation.kind, Relation.args, Op.kind, Kind.isLeftByCone, Kind.isAffine,
      ConeKind.isCone, hx, ht, hy]

lemma ConeRule.apply_inVocab (r : ConeRule) {e : Expr} {args : List Expr} {t : Expr}
    {aux : List Constraint} (hargs : ∀ a ∈ args, a.InVocab)
    (h : (r.apply e args).run.run w = (.ok (t, aux), w')) :
    t.InVocab ∧ ∀ c ∈ aux, c.InVocab := by
  cases r
  case maximum | minimum =>
    simp only [ConeRule.apply] at h
    obtain ⟨t, w₁, h₁, ht⟩ := bind_eq_ok h
    obtain ⟨cs, w₂, h₂, hcs⟩ := bind_eq_ok ht
    cases hcs
    simp only [Expr.plainVar, run_monadLift, Expr.newVar_run] at h₁
    cases h₁
    refine ⟨Expr.inVocab_var _ _, mapM_forall args (fun a ha w c w' hc => ?_) h₂⟩
    simp only [Rules.nonneg, Expr.sub, run_bind, run_monadLift, build_bind_run, Expr.build_run,
      Expr.unary_eq, Expr.binary_eq, Constraint.make_run] at hc
    cases hc
    simp [Relation.kind, Relation.args, Op.kind, Kind.isLeftByCone, Kind.isAffine,
      ConeKind.isCone, hargs a ha]
  case power =>
    simp only [ConeRule.apply] at h
    split at h
    · rename_i p _ _ _ _
      rw [run_bind_of_ok (run_pure p w)] at h
      obtain ⟨x, w₂, h₂, hrest⟩ := bind_eq_ok h
      obtain ⟨rfl, rfl⟩ := Rules.one_ok h₂
      have hx := hargs x (by simp)
      -- the exponent decides between the operand itself, a constant, and a power cone
      by_cases hp1 : (p - 1).abs < 1e-10
      · rw [if_pos hp1, run_pure] at hrest
        cases hrest
        exact ⟨hx, by simp⟩
      rw [if_neg hp1] at hrest
      by_cases hp0 : p.abs < 1e-10 <;>
        simp only [hp0, ↓reduceIte, Expr.filled, Expr.plainVar, run_bind, run_monadLift, run_pure,
          Expr.newVar_run, Expr.constant_run, Constraint.make_run] at hrest <;>
        cases hrest
      · simp
      · refine ⟨by simp, ?_⟩
        simp only [List.mem_singleton, forall_eq]
        repeat' split
        all_goals simp [Relation.kind, Relation.args, ConeKind.isCone, hx]
    · simp only [run_bind, run_throw] at h
      cases h
  case sumSquares =>
    simp only [ConeRule.apply] at h
    obtain ⟨x, w₁, h₁, hx⟩ := bind_eq_ok h
    obtain ⟨rfl, rfl⟩ := Rules.one_ok h₁
    obtain ⟨t, w₂, h₂, ht⟩ := bind_eq_ok hx
    obtain ⟨y, w₃, h₃, hy⟩ := bind_eq_ok ht
    obtain ⟨c, w₄, h₄, hc⟩ := bind_eq_ok hy
    cases hc
    simp only [Expr.plainVar, Expr.scalar, run_monadLift, Expr.newVar_run,
      Expr.constant_run] at h₂ h₃
    cases h₂
    cases h₃
    have hc := Rules.rotatedSoc_inVocab (hargs x (by simp)) (Expr.inVocab_var _ _)
      (Expr.inVocab_const _ _ _) h₄
    exact ⟨Expr.inVocab_var _ _, by simpa using hc⟩
  case quadOverLin =>
    simp only [ConeRule.apply] at h
    obtain ⟨⟨x, y⟩, w₁, h₁, hxy⟩ := bind_eq_ok h
    obtain ⟨rfl, rfl⟩ := Rules.two_ok h₁
    obtain ⟨t, w₂, h₂, ht⟩ := bind_eq_ok hxy
    obtain ⟨c, w₃, h₃, hc⟩ := bind_eq_ok ht
    cases hc
    simp only [Expr.plainVar, run_monadLift, Expr.newVar_run] at h₂
    cases h₂
    have hc := Rules.rotatedSoc_inVocab (hargs x (by simp)) (Expr.inVocab_var _ _)
      (hargs y (by simp)) h₃
    exact ⟨Expr.inVocab_var _ _, by simpa using hc⟩
  -- the rules of one operand with a fixed list of constraints, run through symbolically
  all_goals
    rcases args with _ | ⟨x, _ | ⟨y, rest⟩⟩ <;>
      simp only [ConeRule.apply, Rules.one, Rules.bothSides, Rules.nonneg, Expr.plainVar,
        Expr.sub, Expr.filled, run_bind, run_monadLift, run_pure, run_throw, build_bind_run,
        Expr.build_run, Expr.newVar_run, Expr.constant_run, Constraint.make_run, Expr.unary_eq,
        Expr.binary_eq] at h <;>
      cases h
    simp [Relation.kind, Relation.args, Op.kind, Kind.isLeftByCone, Kind.isAffine,
      ConeKind.isCone, hargs x (by simp)]

lemma ConeConsRule.apply_inVocab (r : ConeConsRule) {c : Constraint} {args : List Expr}
    {top : Constraint} {aux : List Constraint} (hargs : ∀ a ∈ args, a.InVocab)
    (h : ((ConsRule.cone r).apply c args).run.run w = (.ok (top, aux), w')) :
    top.InVocab ∧ ∀ x ∈ aux, x.InVocab := by
  cases r <;>
    rcases args with _ | ⟨x, _ | ⟨y, _ | ⟨z, rest⟩⟩⟩ <;>
    simp only [ConsRule.apply, Rules.two, Rules.nonneg, Expr.nonnegVar, Expr.sub, run_bind,
      run_monadLift, run_pure, run_throw, build_bind_run, Expr.build_run, Expr.newVar_run,
      Constraint.make_run, Expr.unary_eq, Expr.binary_eq] at h <;>
    cases h <;>
    simp [Relation.kind, Relation.args, Op.kind, Kind.isLeftByCone, Kind.isAffine,
      ConeKind.isCone, hargs x (by simp), hargs y (by simp)]

lemma Relation.withArgs_ok {r r' : Relation} {args : List Expr} (h : r.withArgs args = .ok r') :
    r'.kind = r.kind ∧ r'.args = args := by
  unfold Relation.withArgs at h
  split at h <;> cases h <;> exact ⟨rfl, rfl⟩

lemma Constraint.withArgs_rel {c top : Constraint} {args : List Expr}
    (h : (c.withArgs args).run.run w = (.ok top, w')) :
    top.kind = c.kind ∧ top.args = args := by
  unfold Constraint.withArgs at h
  split at h
  · rename_i r hr
    simp only [run_monadLift, Constraint.make_run] at h
    cases h
    exact Relation.withArgs_ok hr
  · cases h

end Rules

/-! ### The standard table -/

namespace Table

lemma lookup_cone_rules :
    ∀ (rs : List ConeRule) {k : Kind} {r : ExprRule},
      (rs.map fun c => (c.kind, ExprRule.cone c)).lookup k = some r → ∃ c, r = .cone c
  | [], _, _, h => by simp at h
  | c :: rs, k, r, h => by
    simp only [List.map_cons, List.lookup_cons] at h
    split at h
    · exact ⟨c, (Option.some.inj h).symm⟩
    · exact lookup_cone_rules rs h

lemma cone_exprRule?_eq_some {k : Kind} {r : ExprRule} (h : cone.exprRule? k = some r) :
    ∃ c, r = .cone c :=
  lookup_cone_rules _ h

lemma cone_exprRule?_eq_none {op : Op} (h : cone.exprRule? op.kind = none) :
    op.kind.isLeftByCone = true := by
  cases op <;> first
    | rfl
    | simp only [Op.kind] at h
      exact absurd h (by decide)

lemma cone_consRule?_eq_some {k : ConeKind} {r : ConsRule} (h : cone.consRule? k = some r) :
    ∃ c, r = .cone c := by
  cases k <;> cases h <;> exact ⟨_, rfl⟩

lemma cone_consRule?_eq_none {k : ConeKind} (h : cone.consRule? k = none) : k.isCone = true := by
  cases k <;> first | rfl | exact absurd h (by decide)

end Table

/-! ### The walk with the standard table -/

namespace Table

variable {w w' : World}

lemma cone_canonNode_inVocab {e r : Expr} {args : List Expr} {more : List Constraint}
    (hargs : ∀ a ∈ args, a.InVocab) (h : (cone.canonNode e args).run.run w = (.ok (r, more), w')) :
    r.InVocab ∧ ∀ c ∈ more, c.InVocab := by
  unfold canonNode at h
  split at h
  · split at h
    · -- a deferred leaf
      simp only [traceNote_run, run_bind, run_monadLift,
        Expr.deferredOf_run, run_pure] at h
      cases h
      simp
    · -- a folded constant
      simp only [run_monadLift_bind, traceNote_run] at h
      obtain ⟨v, w₁, h₁, h₂⟩ := bind_eq_ok h
      simp only [run_bind, run_monadLift, Expr.constant_run, run_pure] at h₂
      cases h₂
      simp
  · rename_i hc
    split at h
    · -- a variable stays itself
      rename_i hv
      simp only [run_pure] at h
      cases h
      cases e <;> simp_all [Expr.isVariable]
    · rename_i hv
      split at h
      · rename_i rule hrule
        simp only [run_monadLift_bind, traceNote_run] at h
        obtain ⟨c, rfl⟩ := cone_exprRule?_eq_some hrule
        exact c.apply_inVocab hargs h
      · rename_i hrule
        simp only [run_monadLift_bind, traceNote_run] at h
        obtain ⟨r', w₁, h₁, h₂⟩ := bind_eq_ok h
        simp only [run_pure] at h₂
        cases h₂
        -- not constant and no variable: the node is copied over its operands
        cases e <;> simp [Expr.isConst, Expr.isVariable] at hc hv
        case node i op old s c p =>
          rw [Expr.withArgs_node h₁]
          exact ⟨Expr.inVocab_node.2 ⟨cone_exprRule?_eq_none hrule, hargs⟩, by simp⟩

lemma cone_canonTree_inVocab :
    (∀ e acc {w w' r acc'}, (cone.canonTree e acc).run.run w = (.ok (r, acc'), w') →
      (∀ c ∈ acc, c.InVocab) → r.InVocab ∧ ∀ c ∈ acc', c.InVocab) ∧
    (∀ es acc {w w' rs acc'}, (cone.canonList es acc).run.run w = (.ok (rs, acc'), w') →
      (∀ c ∈ acc, c.InVocab) → (∀ r ∈ rs, r.InVocab) ∧ ∀ c ∈ acc', c.InVocab) := by
  refine canonTree.mutual_induct
    (fun e acc => ∀ {w w' r acc'}, (cone.canonTree e acc).run.run w = (.ok (r, acc'), w') →
      (∀ c ∈ acc, c.InVocab) → r.InVocab ∧ ∀ c ∈ acc', c.InVocab)
    (fun es acc => ∀ {w w' rs acc'}, (cone.canonList es acc).run.run w = (.ok (rs, acc'), w') →
      (∀ c ∈ acc, c.InVocab) → (∀ r ∈ rs, r.InVocab) ∧ ∀ c ∈ acc', c.InVocab)
    ?_ ?_ ?_ ?_ ?_
  · intro i op args s c hp acc
    dsimp only
    intro hent ih w w' r acc' h hacc
    rw [canonTree, if_pos hent] at h
    obtain ⟨⟨args', acc₁⟩, w₁, h₁, hnode⟩ := bind_eq_ok h
    obtain ⟨more, h₂, rfl⟩ := canonNode_append_ok hnode
    obtain ⟨hargs, hacc₁⟩ := ih h₁ hacc
    obtain ⟨hr, hmore⟩ := cone_canonNode_inVocab hargs h₂
    exact ⟨hr, by simpa [or_imp, forall_and] using ⟨hacc₁, hmore⟩⟩
  · intro i op args s c hp acc
    dsimp only
    intro hent w w' r acc' h hacc
    rw [canonTree, if_neg hent] at h
    obtain ⟨more, h₂, rfl⟩ := canonNode_append_ok h
    obtain ⟨hr, hmore⟩ := cone_canonNode_inVocab (by simp) h₂
    exact ⟨hr, by simpa [or_imp, forall_and] using ⟨hacc, hmore⟩⟩
  · intro e acc hleaf w w' r acc' h hacc
    rw [canonTree] at h
    · obtain ⟨more, h₂, rfl⟩ := canonNode_append_ok h
      obtain ⟨hr, hmore⟩ := cone_canonNode_inVocab (by simp) h₂
      exact ⟨hr, by simpa [or_imp, forall_and] using ⟨hacc, hmore⟩⟩
    · exact hleaf
  · intro acc w w' rs acc' h hacc
    simp only [canonList, run_pure] at h
    cases h
    exact ⟨by simp, hacc⟩
  · intro e es acc ihe ihes w w' rs acc' h hacc
    obtain ⟨r, rs', acc₁, w₁, h₁, h₂, rfl⟩ := canonList_cons_ok h
    obtain ⟨hr, hacc₁⟩ := ihe h₁ hacc
    obtain ⟨hrs, hacc₂⟩ := ihes acc₁ h₂ hacc₁
    exact ⟨by simpa [hr] using hrs, hacc₂⟩

lemma cone_canonConsNode_inVocab {c top : Constraint} {args : List Expr} {more : List Constraint}
    (hargs : ∀ a ∈ args, a.InVocab)
    (h : (cone.canonConsNode c args).run.run w = (.ok (top, more), w')) :
    top.InVocab ∧ ∀ x ∈ more, x.InVocab := by
  unfold canonConsNode at h
  split at h
  · rename_i rule hrule
    simp only [run_monadLift_bind, traceNote_run] at h
    obtain ⟨r, rfl⟩ := cone_consRule?_eq_some hrule
    exact r.apply_inVocab hargs h
  · rename_i hrule
    simp only [run_monadLift_bind, traceNote_run] at h
    obtain ⟨top', w₁, h₁, hdone⟩ := bind_eq_ok h
    simp only [run_pure] at hdone
    cases hdone
    -- the copy keeps the kind, which has no rule, and takes the canonical operands
    obtain ⟨hkind, hargs'⟩ := Constraint.withArgs_rel h₁
    refine ⟨⟨?_, ?_⟩, by simp⟩
    · rw [hkind]
      exact cone_consRule?_eq_none hrule
    · rw [hargs']
      exact hargs

lemma cone_canonConstraint_inVocab {c k : Constraint} {aux : List Constraint}
    (h : (cone.canonConstraint c).run.run w = (.ok (k, aux), w')) :
    k.InVocab ∧ ∀ x ∈ aux, x.InVocab := by
  obtain ⟨args, acc, more, w₁, h₁, h₂, rfl⟩ := canonConstraint_steps h
  obtain ⟨hargs, hacc⟩ := cone_canonTree_inVocab.2 _ _ h₁ (by simp)
  obtain ⟨htop, hmore⟩ := cone_canonConsNode_inVocab hargs h₂
  exact ⟨htop, by simpa [or_imp, forall_and] using ⟨hacc, hmore⟩⟩

lemma cone_canonExpr_inVocab {e r : Expr} {aux : List Constraint}
    (h : (cone.canonExpr e).run.run w = (.ok (r, aux), w')) :
    r.InVocab ∧ ∀ x ∈ aux, x.InVocab := by
  obtain ⟨acc, h₁, rfl⟩ := canonExpr_ok h
  obtain ⟨hr, hacc⟩ := cone_canonTree_inVocab.1 _ _ h₁ (by simp)
  exact ⟨hr, by simpa using hacc⟩

/-- **The vocabulary of the standard table.** A problem canonicalized with the standard table
has only cone constraints, and every node of its objective and of its constraints' operands is
a variable, a constant, a deferred leaf, an affine node, a quadratic form or a custom node: no
other nonlinear atom and no parameter is left. -/
theorem cone_apply_vocabulary {P Q : Problem} {D : InverseData}
    (h : (cone.apply P).run.run w = (.ok (Q, D), w')) :
    (∀ c ∈ Q.constraints, c.kind.isCone = true) ∧
    ∀ n ∈ Q.roots.flatMap Expr.preorder, n.kind.isLeftByCone = true := by
  obtain ⟨obj, objAux, w₀, rs, w₁, h₀, h₁, hQ, -, -⟩ := apply_ok h
  obtain ⟨hobj, hobjAux⟩ := cone_canonExpr_inVocab h₀
  have hrs : ∀ r ∈ rs, r.1.InVocab ∧ ∀ x ∈ r.2, x.InVocab :=
    mapM_forall P.constraints (fun _ _ _ _ _ hr => cone_canonConstraint_inVocab hr) h₁
  have hexpr : Q.objective.expr.InVocab := by
    rw [hQ]
    exact hobj
  have hall : ∀ c ∈ Q.constraints, c.InVocab := by
    rw [hQ]
    simp only [List.mem_append, List.mem_flatMap, List.mem_singleton]
    rintro c (hc | ⟨r, hr, hc | rfl⟩)
    · exact hobjAux c hc
    · exact (hrs r hr).2 c hc
    · exact (hrs r hr).1
  refine ⟨fun c hc => (hall c hc).1, ?_⟩
  simp only [Problem.roots, List.flatMap_cons, List.mem_append, List.mem_flatMap]
  rintro n (hn | ⟨a, ⟨c, hc, ha⟩, hn⟩)
  · exact hexpr n hn
  · exact (hall c hc).2 a ha n hn

/-! ### What the standard table leaves besides affine nodes -/

/-- The problem of minimizing the quadratic form `x · 1 · x` subject to `|x| ≥ 0`. -/
def quadFormProblem : Problem :=
  let x : Expr := .var 0 ⟨.scalar, none, false, false⟩
  let one : Expr := .const 1 (.scalar 1) .scalar
  ⟨⟨.minimize, .node 2 .quadForm [x, one] .scalar false false⟩,
    [⟨4, .nonneg (.node 3 .abs [x] .scalar false false)⟩]⟩

/-- The standard table canonicalizes the problem, and the quadratic form is among the nodes of
the result. -/
lemma cone_apply_quadFormProblem :
    ∃ Q D w', (cone.apply quadFormProblem).run.run { next := 5 } = (.ok (Q, D), w') ∧
      ∃ n ∈ Q.roots.flatMap Expr.preorder, n.kind = .quadForm := by
  have hok : (match (cone.apply quadFormProblem).run.run { next := 5 } with
      | (.ok (Q, _), _) => (Q.roots.flatMap Expr.preorder).any (·.kind == .quadForm)
      | (.error _, _) => false) = true := by decide +kernel
  rcases hr : (cone.apply quadFormProblem).run.run { next := 5 } with ⟨_ | ⟨Q, D⟩, w'⟩ <;>
    rw [hr] at hok
  · cases hok
  · obtain ⟨n, hn, hkind⟩ := List.any_eq_true.1 hok
    exact ⟨Q, D, w', rfl, n, hn, beq_iff_eq.1 hkind⟩

theorem cone_apply_vocabulary_quadForm :
    ∃ Q D w', (cone.apply quadFormProblem).run.run { next := 5 } = (.ok (Q, D), w') ∧
      (∀ c ∈ Q.constraints, c.kind.isCone = true) ∧
      ∀ n ∈ Q.roots.flatMap Expr.preorder, n.kind.isLeftByCone = true := by
  obtain ⟨Q, D, w', hr, -⟩ := cone_apply_quadFormProblem
  exact ⟨Q, D, w', hr, cone_apply_vocabulary hr⟩

/-- A quadratic form is no affine node, and the standard table has no rule for it: it is
copied into the canonical problem. -/
theorem cone_apply_keeps_quadForm :
    ∃ Q D w', (cone.apply quadFormProblem).run.run { next := 5 } = (.ok (Q, D), w') ∧
      ∃ n ∈ Q.roots.flatMap Expr.preorder, n.kind = .quadForm ∧ n.kind.isAffine = false := by
  obtain ⟨Q, D, w', hr, n, hn, hkind⟩ := cone_apply_quadFormProblem
  exact ⟨Q, D, w', hr, n, hn, hkind, by rw [hkind]; rfl⟩

/-- A custom operator `Blend` that passes its first operand on. -/
def blend : CustomOp where
  name := "Blend"
  shape args := args.headD .scalar
  eval
    | v :: _ => .ok v
    | [] => .error (.noNumericMeaning "Blend")
  eval_not_abandoned vals e h := by
    cases vals with
    | nil => cases h; simp [Error.category]
    | cons v vs => cases h
  rebuildable := true

def customProblem : Problem :=
  let x : Expr := .var 0 ⟨.scalar, none, false, false⟩
  ⟨⟨.minimize, .node 1 (.custom blend) [x] .scalar false false⟩, []⟩

/-- The standard table has no rule for a custom operator either: it is copied into the
canonical problem. -/
theorem cone_apply_keeps_custom :
    ∃ Q D w', (cone.apply customProblem).run.run { next := 2 } = (.ok (Q, D), w') ∧
      ∃ n ∈ Q.roots.flatMap Expr.preorder, n.kind = .custom "Blend" := by
  have hok : (match (cone.apply customProblem).run.run { next := 2 } with
      | (.ok (Q, _), _) => (Q.roots.flatMap Expr.preorder).any (·.kind == .custom "Blend")
      | (.error _, _) => false) = true := by decide +kernel
  rcases hr : (cone.apply customProblem).run.run { next := 2 } with ⟨_ | ⟨Q, D⟩, w'⟩ <;>
    rw [hr] at hok
  · cases hok
  · obtain ⟨n, hn, hkind⟩ := List.any_eq_true.1 hok
    exact ⟨Q, D, w', rfl, n, hn, beq_iff_eq.1 hkind⟩

end Table

end ConicForm
