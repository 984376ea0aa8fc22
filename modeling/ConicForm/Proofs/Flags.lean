import ConicForm.Proofs.Rebuild
/-!
The flags of a node say what occurs below it. Where every node's flags were computed from its
operands' (`flagsExact`), a tree is constant exactly when no variable occurs in it, and has
parameters exactly when a parameter, source or deferred leaf does; every way of making a tree
keeps its flags exact (`flags_exact_by_construction`).
-/

namespace ConicForm

lemma Op.kind_not_leaf (op : Op) :
    op.kind ≠ .variable ∧ op.kind ≠ .parameter ∧ op.kind ≠ .callback := by
  cases op <;> simp [Op.kind]

namespace Expr

@[simp] lemma kind_node (i : Nat) (op : Op) (args : List Expr) (s : Shape) (c h : Bool) :
    (node i op args s c h).kind = op.kind := rfl

lemma flags_leaf {e : Expr} (hleaf : ∀ i op args s c h, e = .node i op args s c h → False) :
    (e.isConst = true ↔ e.kind ≠ .variable) ∧
      (e.hasParams = true ↔ e.kind = .parameter ∨ e.kind = .callback) := by
  cases e
  case node i op args s c h => exact (hleaf i op args s c h rfl).elim
  all_goals simp [isConst, hasParams, kind]

/-- Exact flags are the truth about the nodes below: constant when no variable occurs, with
parameters when a parameter or callback leaf does. The induction is the one of `flagsExact`,
through each node's operands. -/
lemma flags_iff_preorder :
    (∀ e : Expr, e.flagsExact = true →
      (e.isConst = true ↔ ∀ m ∈ e.preorder, m.kind ≠ .variable) ∧
      (e.hasParams = true ↔ ∃ m ∈ e.preorder, m.kind = .parameter ∨ m.kind = .callback)) ∧
    (∀ es : List Expr, es.all flagsExact = true →
      (es.all isConst = true ↔ ∀ m ∈ es.flatMap preorder, m.kind ≠ .variable) ∧
      (es.any hasParams = true ↔
        ∃ m ∈ es.flatMap preorder, m.kind = .parameter ∨ m.kind = .callback)) := by
  refine flagsExact.mutual_induct
    (fun e => e.flagsExact = true →
      (e.isConst = true ↔ ∀ m ∈ e.preorder, m.kind ≠ .variable) ∧
      (e.hasParams = true ↔ ∃ m ∈ e.preorder, m.kind = .parameter ∨ m.kind = .callback))
    (fun es => es.all flagsExact = true →
      (es.all isConst = true ↔ ∀ m ∈ es.flatMap preorder, m.kind ≠ .variable) ∧
      (es.any hasParams = true ↔
        ∃ m ∈ es.flatMap preorder, m.kind = .parameter ∨ m.kind = .callback))
    ?node ?leaf ?nil ?cons
  case node =>
    -- the node itself is of an operator kind, so only its operands' nodes count
    intro i op args s c h ih hf
    obtain ⟨rfl, rfl, hargs⟩ := flagsExact_node.1 hf
    obtain ⟨hc, hp⟩ := ih hargs
    have hop := op.kind_not_leaf
    simp only [isConst, hasParams, preorder_node, List.forall_mem_cons, kind_node, hc, hp]
    simp [hop]
  case leaf =>
    intro e hleaf _
    rw [preorder_of_not_node hleaf]
    simpa using flags_leaf hleaf
  case nil =>
    intro _
    simp
  case cons =>
    intro e es ihe ihes hf
    simp only [List.all_cons, Bool.and_eq_true] at hf
    obtain ⟨hc, hp⟩ := ihe hf.1
    obtain ⟨hcs, hps⟩ := ihes hf.2
    simp only [List.all_cons, List.any_cons, Bool.and_eq_true, Bool.or_eq_true,
      List.flatMap_cons, List.mem_append, or_imp, forall_and, or_and_right, exists_or,
      hc, hp, hcs, hps, and_self]

lemma flagsExact_build {op : Op} {args : List Expr} (hargs : args.all flagsExact = true)
    (w : World) : ((build op args).run w).1.flagsExact = true := by
  rw [build_run]
  exact flagsExact_node.2 ⟨rfl, rfl, hargs⟩

/-- A copy over operands with exact flags has exact flags: a node's copy takes its flags from
them, and a leaf's copy is a leaf. -/
lemma flagsExact_copyOver (e : Expr) {args : List Expr} (hargs : args.all flagsExact = true)
    (id : Nat) : (e.copyOver args id).flagsExact = true := by
  cases e
  case node i op old s c h => exact flagsExact_node.2 ⟨rfl, rfl, hargs⟩
  all_goals rfl

lemma flagsExact_withArgs {e r : Expr} {args : List Expr} (hargs : args.all flagsExact = true)
    {w w' : World} (h : (e.withArgs args).run.run w = (.ok r, w')) : r.flagsExact = true := by
  rcases withArgs_outcome e args w with ⟨-, hok⟩ | ⟨-, err, herr, -⟩
  · rw [hok] at h
    cases (Prod.mk.inj h).1
    exact flagsExact_copyOver e hargs w.next
  · rw [herr] at h
    cases h

lemma mapVariable_keeps (f : VarInfo → VarInfo) (e : Expr) :
    (e.mapVariable f).id = e.id ∧ (e.mapVariable f).kind = e.kind ∧
      (e.mapVariable f).isConst = e.isConst ∧ (e.mapVariable f).hasParams = e.hasParams ∧
      (e.mapVariable f).flagsExact = e.flagsExact := by
  cases e <;> exact ⟨rfl, rfl, rfl, rfl, rfl⟩

end Expr

/-- **The flags are exact by construction.** Where each node's flags were computed from its
operands', a tree is constant exactly when no variable occurs in it, and has parameters exactly
when a parameter or callback leaf does; so a constant tree without parameters has no variable,
parameter or callback leaf at all. Building a node over such trees, copying a node over them,
and giving a variable a new declaration (which keeps its id) all keep the flags exact. -/
theorem flags_exact_by_construction :
    (∀ e : Expr, e.flagsExact = true →
      (e.isConst = true ↔ ∀ m ∈ e.preorder, m.kind ≠ .variable) ∧
      (e.hasParams = true ↔ ∃ m ∈ e.preorder, m.kind = .parameter ∨ m.kind = .callback) ∧
      (e.isConst = true → e.hasParams = false →
        ∀ m ∈ e.preorder, m.kind ≠ .variable ∧ m.kind ≠ .parameter ∧ m.kind ≠ .callback)) ∧
    (∀ (op : Op) (args : List Expr) (w : World), args.all Expr.flagsExact = true →
      ((Expr.build op args).run w).1.flagsExact = true) ∧
    (∀ (e r : Expr) (args : List Expr) (w w' : World), args.all Expr.flagsExact = true →
      (e.withArgs args).run.run w = (.ok r, w') → r.flagsExact = true) ∧
    ∀ (f : VarInfo → VarInfo) (e : Expr),
      (e.mapVariable f).id = e.id ∧ (e.mapVariable f).flagsExact = e.flagsExact ∧
      (e.mapVariable f).isConst = e.isConst ∧ (e.mapVariable f).hasParams = e.hasParams := by
  refine ⟨fun e hf => ?_, fun op args w hargs => Expr.flagsExact_build hargs w,
    fun e r args w w' hargs h => Expr.flagsExact_withArgs hargs h, fun f e => ?_⟩
  · obtain ⟨hc, hp⟩ := Expr.flags_iff_preorder.1 e hf
    refine ⟨hc, hp, fun hconst hfree m hm => ⟨hc.1 hconst m hm, ?_⟩⟩
    -- a parameter or callback leaf below would make the tree have parameters
    have hnone : ¬ ∃ m ∈ e.preorder, m.kind = .parameter ∨ m.kind = .callback := by
      rw [← hp, hfree]
      exact Bool.false_ne_true
    exact not_or.1 fun hk => hnone ⟨m, hm, hk⟩
  · obtain ⟨hid, -, hc, hp, hf⟩ := Expr.mapVariable_keeps f e
    exact ⟨hid, hf, hc, hp⟩

def scaledParam : Expr :=
  .node 3 .add [.var 0 ⟨.scalar, none, false, false⟩,
    .node 2 .mul [.const 1 (.scalar 2) .scalar, .param 4 ⟨.scalar, none, 4⟩] .scalar true true]
    .scalar false true

/-- The flags of `x + 2·p` are exact: it has parameters, since a parameter occurs in it; and
its negation, and its copy over its own operands, have exact flags too. -/
theorem flags_exact_by_construction_scaledParam :
    scaledParam.flagsExact = true ∧
      (∃ m ∈ scaledParam.preorder, m.kind = .parameter ∨ m.kind = .callback) ∧
      ((Expr.build .neg [scaledParam]).run {}).1.flagsExact = true ∧
      ∃ r w', (scaledParam.withArgs scaledParam.args).run.run {} = (.ok r, w') ∧
        r.flagsExact = true := by
  have hf : scaledParam.flagsExact = true := rfl
  have hargs : scaledParam.args.all Expr.flagsExact = true := rfl
  refine ⟨hf, (flags_exact_by_construction.1 scaledParam hf).2.1.1 rfl,
    flags_exact_by_construction.2.1 .neg [scaledParam] {} (by simp [hf]), _, _, rfl,
    flags_exact_by_construction.2.2.1 scaledParam _ scaledParam.args {} _ hargs rfl⟩

end ConicForm
