import Mathlib.Data.List.Forall2
import ConicForm.Proofs.Vocabulary
/-!
Canonicalization with no node rules keeps the meaning of a tree: folding, deferring and copying
each keep the tree's evaluation whole, under every assignment and from every world, with the
same value or error and the same reads of parameters and sources (`canonTree_sameMeaning`,
`canonExpr_preserves_evalAt`).
-/

namespace ConicForm

namespace Expr

mutual
/-- The stored shape of every node is the shape its operator gives its operands' shapes. -/
def shapeExact : Expr → Bool
  | .node _ op args s _ _ => s == op.inferShape (args.map (·.shape)) && shapeExactList args
  | _ => true

def shapeExactList : List Expr → Bool
  | [] => true
  | e :: es => e.shapeExact && shapeExactList es
end

@[simp] lemma shapeExactList_eq_all (es : List Expr) : shapeExactList es = es.all shapeExact := by
  induction es with
  | nil => rfl
  | cons e es ih => simp [shapeExactList, ih]

lemma shapeExact_node {i : Nat} {op : Op} {args : List Expr} {s : Shape} {c h : Bool} :
    (node i op args s c h).shapeExact = true ↔
      s = op.inferShape (args.map (·.shape)) ∧ args.all shapeExact = true := by
  simp [shapeExact]

lemma args_eq_nil {e : Expr} (he : ∀ i op args s c h, e ≠ .node i op args s c h) : e.args = [] := by
  cases e
  case node i op args s c h => exact absurd rfl (he i op args s c h)
  all_goals rfl

def varNodes (e : Expr) : List Expr := e.preorder.filter (·.isVariable)

@[simp] lemma varNodes_node (i : Nat) (op : Op) (args : List Expr) (s : Shape) (c h : Bool) :
    (node i op args s c h).varNodes = args.flatMap varNodes := by
  rw [varNodes, preorder_node, List.filter_cons_of_neg (by simp [isVariable]), List.filter_flatMap]
  rfl

lemma varNodes_eq_nil_of_isConst :
    ∀ e : Expr, e.flagsExact = true → e.isConst = true → e.varNodes = [] := by
  refine (flagsExact.mutual_induct (fun e => e.flagsExact = true → e.isConst = true →
    e.varNodes = []) (fun es => es.all flagsExact = true → es.all isConst = true →
    es.flatMap varNodes = []) ?_ ?_ ?_ ?_).1
  · intro i op args s c h ih hf hc
    obtain ⟨rfl, -, hargs⟩ := flagsExact_node.1 hf
    simpa using ih hargs hc
  · intro e hleaf _ hc
    -- a constant leaf is no variable
    rw [varNodes, preorder_of_not_node hleaf]
    cases e
    case node => exact (hleaf _ _ _ _ _ _ rfl).elim
    all_goals simp_all [isConst, isVariable]
  · simp
  · intro e es ihe ihes hf hc
    simp only [List.all_cons, Bool.and_eq_true] at hf hc
    simp [ihe hf.1 hc.1, ihes hf.2 hc.2]

/-- `r` stands for `e`: it has its shape, evaluates as it does under every assignment and from
every world, and has its variables in the same order. -/
structure SameMeaning (r e : Expr) : Prop where
  shape : r.shape = e.shape
  evalAt : ∀ σ, r.evalAt σ = e.evalAt σ
  varNodes : r.varNodes = e.varNodes

lemma SameMeaning.refl (e : Expr) : SameMeaning e e := ⟨rfl, fun _ => rfl, rfl⟩

lemma SameMeaning.list {rs es : List Expr} (h : List.Forall₂ SameMeaning rs es) :
    rs.map (·.shape) = es.map (·.shape) ∧ (∀ σ, Expr.evalAtList σ rs = Expr.evalAtList σ es) ∧
      rs.flatMap Expr.varNodes = es.flatMap Expr.varNodes := by
  induction h with
  | nil => exact ⟨rfl, fun _ => rfl, rfl⟩
  | cons hr _ ih =>
    refine ⟨by simp [hr.shape, ih.1], fun σ => ?_, by simp [hr.varNodes, ih.2.2]⟩
    simp only [Expr.evalAtList, hr.evalAt σ, ih.2.1 σ]

end Expr

namespace Table

variable {T : Table} {w w' : World}

lemma canonNode_meaning {e r : Expr} {args : List Expr} {more : List Constraint}
    (hnone : T.exprRule? e.kind = none) (hf : e.flagsExact = true) (hs : e.shapeExact = true)
    (hargs : e.isConst = false → List.Forall₂ Expr.SameMeaning args e.args)
    (h : (T.canonNode e args).run.run w = (.ok (r, more), w')) :
    more = [] ∧ r.SameMeaning e := by
  unfold canonNode at h
  split at h
  · rename_i hc
    -- a constant subtree has no variable, and neither has the leaf it becomes
    have hvars := Expr.varNodes_eq_nil_of_isConst e hf hc
    split at h
    · -- a deferred leaf evaluates the subtree itself on every read
      simp only [traceNote_run, run_bind, run_monadLift, Expr.deferredOf_run, run_pure] at h
      cases h
      exact ⟨rfl, rfl, fun _ => rfl, by rw [hvars]; simp [Expr.varNodes, Expr.isVariable]⟩
    · rename_i hp
      simp only [run_monadLift_bind, traceNote_run] at h
      obtain ⟨v, w₁, h₁, h₂⟩ := bind_eq_ok h
      simp only [run_bind, run_monadLift, Expr.constant_run, run_pure] at h₂
      cases h₂
      -- the folded value is the value of the subtree under every assignment
      have hv := Expr.evalAt_eq_pure_of_eval hc (Bool.eq_false_iff.2 hp) hf h₁
      exact ⟨rfl, rfl, fun σ => (hv σ).symm, by rw [hvars]; simp [Expr.varNodes, Expr.isVariable]⟩
  · rename_i hc
    split at h
    · simp only [run_pure] at h
      cases h
      exact ⟨rfl, Expr.SameMeaning.refl _⟩
    · rename_i hv
      split at h
      · rename_i rule hrule
        rw [hnone] at hrule
        cases hrule
      · simp only [run_monadLift_bind, traceNote_run] at h
        obtain ⟨r', w₁, h₁, h₂⟩ := bind_eq_ok h
        simp only [run_pure] at h₂
        cases h₂
        obtain ⟨hshape, heval, hvars⟩ := Expr.SameMeaning.list (hargs (Bool.eq_false_iff.2 hc))
        -- not constant and no variable: the node is copied over its operands
        cases e with
        | node i op old s c p =>
          replace hs := Expr.shapeExact_node.1 hs
          simp only [Expr.args] at hshape heval hvars
          rw [Expr.withArgs_node h₁]
          have hs' : op.inferShape (args.map (·.shape)) = s := by rw [hshape, hs.1]
          refine ⟨rfl, hs', fun σ => ?_, by simp [hvars]⟩
          simp only [Expr.evalAt, heval σ, hs']
        | _ => simp [Expr.isConst, Expr.isVariable] at hc hv

/-- The walk with a table that has no rule for the nodes of a tree appends no constraint, and
the canonical tree stands for the tree; over a list, tree by tree. -/
lemma canonTree_sameMeaning :
    (∀ e acc {w w' r acc'}, e.flagsExact = true → e.shapeExact = true →
      (∀ n ∈ e.preorder, T.exprRule? n.kind = none) →
      (T.canonTree e acc).run.run w = (.ok (r, acc'), w') → acc' = acc ∧ r.SameMeaning e) ∧
    (∀ es acc {w w' rs acc'}, es.all Expr.flagsExact = true → es.all Expr.shapeExact = true →
      (∀ e ∈ es, ∀ n ∈ e.preorder, T.exprRule? n.kind = none) →
      (T.canonList es acc).run.run w = (.ok (rs, acc'), w') →
      acc' = acc ∧ List.Forall₂ Expr.SameMeaning rs es) := by
  refine canonTree.mutual_induct
    (fun e acc => ∀ {w w' r acc'}, e.flagsExact = true → e.shapeExact = true →
      (∀ n ∈ e.preorder, T.exprRule? n.kind = none) →
      (T.canonTree e acc).run.run w = (.ok (r, acc'), w') → acc' = acc ∧ r.SameMeaning e)
    (fun es acc => ∀ {w w' rs acc'}, es.all Expr.flagsExact = true →
      es.all Expr.shapeExact = true → (∀ e ∈ es, ∀ n ∈ e.preorder, T.exprRule? n.kind = none) →
      (T.canonList es acc).run.run w = (.ok (rs, acc'), w') →
      acc' = acc ∧ List.Forall₂ Expr.SameMeaning rs es) ?_ ?_ ?_ ?_ ?_
  · intro i op args s c hp acc
    dsimp only
    intro hent ih w w' r acc' hf hs hnone h
    rw [canonTree, if_pos hent] at h
    obtain ⟨⟨args', acc₁⟩, w₁, h₁, hrest⟩ := bind_eq_ok h
    obtain ⟨more, h₂, rfl⟩ := canonNode_append_ok hrest
    have hnone' : ∀ a ∈ args, ∀ n ∈ a.preorder, T.exprRule? n.kind = none :=
      fun a ha n hn => hnone n (by simpa using Or.inr ⟨a, ha, hn⟩)
    obtain ⟨rfl, hargs⟩ :=
      ih (Expr.flagsExact_node.1 hf).2.2 (Expr.shapeExact_node.1 hs).2 hnone' h₁
    obtain ⟨rfl, hr⟩ :=
      canonNode_meaning (hnone _ (by simp)) hf hs (fun _ => hargs) h₂
    exact ⟨by simp, hr⟩
  · intro i op args s c hp acc
    dsimp only
    intro hent w w' r acc' hf hs hnone h
    rw [canonTree, if_neg hent] at h
    obtain ⟨more, h₂, rfl⟩ := canonNode_append_ok h
    -- a node the walk does not enter is constant, so it is never copied
    have hc : c = true := by
      simp only [enters, Expr.isConst, Bool.or_eq_true, Bool.not_eq_true', not_or] at hent
      simpa using hent.1
    obtain ⟨rfl, hr⟩ := canonNode_meaning (hnone _ (by simp)) hf hs
      (fun hc' => by simp [Expr.isConst, hc] at hc') h₂
    exact ⟨by simp, hr⟩
  · intro e acc hleaf w w' r acc' hf hs hnone h
    rw [canonTree] at h
    · obtain ⟨more, h₂, rfl⟩ := canonNode_append_ok h
      have hnil := Expr.args_eq_nil hleaf
      obtain ⟨rfl, hr⟩ := canonNode_meaning (hnone e e.mem_preorder_self) hf hs
        (fun _ => by simp [hnil]) h₂
      exact ⟨by simp, hr⟩
    · exact hleaf
  · intro acc w w' rs acc' _ _ _ h
    simp only [canonList, run_pure] at h
    cases h
    exact ⟨rfl, .nil⟩
  · intro e es acc ihe ihes w w' rs acc' hf hs hnone h
    simp only [List.all_cons, Bool.and_eq_true] at hf hs
    obtain ⟨r, rs', acc₁, w₁, h₁, h₂, rfl⟩ := canonList_cons_ok h
    obtain ⟨rfl, hr⟩ := ihe hf.1 hs.1 (hnone e (by simp)) h₁
    obtain ⟨rfl, hrs⟩ := ihes acc₁ hf.2 hs.2 (fun a ha => hnone a (by simp [ha])) h₂
    exact ⟨rfl, .cons hr hrs⟩

lemma canonTree_meaning (hT : T.exprs = []) :
    (∀ e acc {w w' r acc'}, e.flagsExact = true → e.shapeExact = true →
      (T.canonTree e acc).run.run w = (.ok (r, acc'), w') →
      acc' = acc ∧ r.shape = e.shape ∧ ∀ σ, r.evalAt σ = e.evalAt σ) ∧
    (∀ es acc {w w' rs acc'}, es.all Expr.flagsExact = true → es.all Expr.shapeExact = true →
      (T.canonList es acc).run.run w = (.ok (rs, acc'), w') →
      acc' = acc ∧ rs.map (·.shape) = es.map (·.shape) ∧
        ∀ σ, Expr.evalAtList σ rs = Expr.evalAtList σ es) := by
  -- a table without node rules has no rule for any node
  have hnone : ∀ k, T.exprRule? k = none := fun k => by simp [exprRule?, hT]
  refine ⟨fun e acc w w' r acc' hf hs h => ?_, fun es acc w w' rs acc' hf hs h => ?_⟩
  · obtain ⟨rfl, hr⟩ := canonTree_sameMeaning.1 e acc hf hs (fun n _ => hnone _) h
    exact ⟨rfl, hr.shape, hr.evalAt⟩
  · obtain ⟨rfl, hrs⟩ := canonTree_sameMeaning.2 es acc hf hs (fun _ _ n _ => hnone _) h
    obtain ⟨hshape, heval, -⟩ := Expr.SameMeaning.list hrs
    exact ⟨rfl, hshape, heval⟩

/-- **Canonicalization with no node rules keeps meaning.** For a table without node rules and a
tree whose flags and shapes are exact, a successful canonicalization makes no auxiliary
constraint, and the canonical tree has the tree's shape and evaluates exactly as the tree: under
every assignment of the variables and from every world it gives the same value or the same error
and leaves the same world, parameter and source reads included. -/
theorem canonExpr_preserves_evalAt (hT : T.exprs = []) {e c : Expr} {aux : List Constraint}
    (hf : e.flagsExact = true) (hs : e.shapeExact = true)
    (h : (T.canonExpr e).run.run w = (.ok (c, aux), w')) :
    aux = [] ∧ c.shape = e.shape ∧ ∀ σ, c.evalAt σ = e.evalAt σ := by
  obtain ⟨acc, h₁, rfl⟩ := canonExpr_ok h
  obtain ⟨rfl, hr, hev⟩ := (canonTree_meaning hT).1 e #[] hf hs h₁
  exact ⟨rfl, hr, hev⟩

/-- The tree `x + p · (2 · 3)`: a variable, a constant subtree with a parameter, and under it a
constant subtree without one. -/
def scaledSum : Expr :=
  let x : Expr := .var 0 ⟨.scalar, none, false, false⟩
  let p : Expr := .param 1 ⟨.scalar, some "p", 0⟩
  let six : Expr := .node 4 .mul [.const 2 (.scalar 2) .scalar, .const 3 (.scalar 3) .scalar]
    .scalar true false
  .node 6 .add [x, .node 5 .mul [p, six] .scalar true true] .scalar false true

theorem canonExpr_preserves_evalAt_scaledSum :
    Table.empty.exprs = [] ∧ scaledSum.flagsExact = true ∧ scaledSum.shapeExact = true ∧
    ∃ c aux w', (Table.empty.canonExpr scaledSum).run.run { next := 7 } = (.ok (c, aux), w') ∧
      aux = [] ∧ c.shape = scaledSum.shape ∧ ∀ σ, c.evalAt σ = scaledSum.evalAt σ := by
  have hf : scaledSum.flagsExact = true := by decide
  have hs : scaledSum.shapeExact = true := by decide
  have hok : (match (Table.empty.canonExpr scaledSum).run.run { next := 7 } with
      | (.ok _, _) => true
      | (.error _, _) => false) = true := by decide +kernel
  rcases hr : (Table.empty.canonExpr scaledSum).run.run { next := 7 } with ⟨_ | ⟨c, aux⟩, w'⟩
  · rw [hr] at hok
    cases hok
  · exact ⟨rfl, hf, hs, c, aux, w', rfl, canonExpr_preserves_evalAt rfl hf hs hr⟩

end Table

end ConicForm
