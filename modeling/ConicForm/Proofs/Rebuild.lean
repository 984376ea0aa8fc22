import ConicForm.Proofs.Ledger
/-!
Copying a node, or a constraint, over new operands. A copy of a node succeeds exactly when the
node is not a variable and the operands are as many as it takes (`Expr.takesCopy`), and is then
the node's own data over the new operands with one fresh id (`copyOver`); otherwise it fails for
a reason of the family that cannot be rebuilt. A constraint is copied exactly when the operands
are as many as its relation takes. The main statement is `withArgs_rebuild_law`.
-/

namespace ConicForm

def Op.copyTakes : Op → Nat → Nat → Bool
  | .add, _, k | .mul, _, k | .matmul, _, k | .quadForm, _, k | .quadOverLin, _, k => k == 2
  | .vstack, _, _ | .hstack, _, _ => true
  | .maximum, _, k | .minimum, _, k => k != 0
  | .custom c, old, k => c.rebuildable && k == old
  | _, _, k => k == 1

lemma Op.copyTakes_eq_takes {op : Op} (h : ∀ c, op = .custom c → False) (old k : Nat) :
    op.copyTakes old k = op.takes k := by
  cases op
  case custom c => exact (h c rfl).elim
  all_goals simp only [Op.copyTakes, Op.takes, Op.arity, BEq.comm]

namespace Expr

def takesCopy : Expr → Nat → Bool
  | .var .., _ => false
  | .node _ op old _ _ _, k => op.copyTakes old.length k
  | _, k => k == 0

/-- The copy of a node over `args` with id `id`: a leaf keeps its own data, and an operator node
keeps its operator, with the shape and flags the new operands give. -/
def copyOver (e : Expr) (args : List Expr) (id : Nat) : Expr :=
  match e with
  | .node _ op _ _ _ _ =>
    .node id op args (op.inferShape (args.map (·.shape))) (args.all (·.isConst))
      (args.any (·.hasParams))
  | leaf => leaf.copyLeaf id

lemma withArgs_leaf_outcome {e : Expr}
    (hw : ∀ args : List Expr, e.withArgs args = if args.length ≠ 0 then
      throw (.arity e.kind.name 0 args.length) else do return e.copyLeaf (← fresh))
    (ht : ∀ k, e.takesCopy k = (k == 0)) (hc : ∀ args id, e.copyOver args id = e.copyLeaf id)
    (args : List Expr) (w : World) :
    (e.takesCopy args.length = true ∧
      (e.withArgs args).run.run w = (.ok (e.copyOver args w.next), { w with next := w.next + 1 })) ∨
    (e.takesCopy args.length = false ∧ ∃ err, (e.withArgs args).run.run w = (.error err, w) ∧
      err.category = .notReconstructible) := by
  rw [hw, ht, hc]
  by_cases hn : args.length = 0
  · refine .inl ⟨by simp [hn], ?_⟩
    rw [if_neg (by simp [hn])]
    rfl
  · refine .inr ⟨by simp [hn], .arity e.kind.name 0 args.length, ?_, rfl⟩
    rw [if_pos hn]
    rfl

/-- A copy succeeds, with the copy and one fresh id, exactly when the node takes the operands;
else it fails as not rebuildable and leaves the world as it was. -/
lemma withArgs_outcome (e : Expr) (args : List Expr) (w : World) :
    (e.takesCopy args.length = true ∧
      (e.withArgs args).run.run w = (.ok (e.copyOver args w.next), { w with next := w.next + 1 })) ∨
    (e.takesCopy args.length = false ∧ ∃ err, (e.withArgs args).run.run w = (.error err, w) ∧
      err.category = .notReconstructible) := by
  cases e
  case var i v => exact .inr ⟨rfl, _, rfl, rfl⟩
  case node i op old s c h =>
    by_cases hcu : ∃ cu, op = .custom cu
    · -- a custom operator is rebuilt only when it allows it, over as many operands as before
      obtain ⟨cu, rfl⟩ := hcu
      have htakes : (node i (.custom cu) old s c h).takesCopy args.length =
          (cu.rebuildable && args.length == old.length) := rfl
      by_cases hr : cu.rebuildable = true
      · by_cases hl : old.length = args.length
        · refine .inl ⟨by simp [htakes, hr, hl], ?_⟩
          simp only [withArgs, hr, hl, Bool.not_true, Bool.false_eq_true, if_false, ne_eq,
            not_true_eq_false]
          rfl
        · refine .inr ⟨by simp [htakes, Ne.symm hl], .arity cu.name old.length args.length, ?_, rfl⟩
          · simp only [withArgs, hr, hl, Bool.not_true, Bool.false_eq_true, if_false, ne_eq,
              not_false_eq_true, if_true]
            rfl
      · refine .inr ⟨by simp [htakes, hr], .customFixed cu.name, ?_, rfl⟩
        simp only [withArgs, hr, Bool.not_false, if_true]
        rfl
    · -- any other operator takes the operand counts its arity allows, whatever the old count
      have hnc : ∀ cu, op = .custom cu → False := fun cu h => hcu ⟨cu, h⟩
      have htakes : (node i op old s c h).takesCopy args.length = op.takes args.length :=
        Op.copyTakes_eq_takes hnc old.length args.length
      rw [Op.takes_of_not_custom hnc, ← Op.arity_of_not_custom hnc old.length] at htakes
      simp only [withArgs]
      split <;> rename_i harity <;> simp only [harity] at htakes
      · rename_i j
        by_cases hj : j = args.length
        · refine .inl ⟨by rw [htakes, beq_iff_eq]; exact hj, ?_⟩
          rw [if_neg (by simp [hj])]
          rfl
        · refine .inr ⟨by rw [htakes, beq_eq_false_iff_ne]; exact hj,
            .arity op.kind.name j args.length, ?_, rfl⟩
          rw [if_pos hj]
          rfl
      · exact .inl ⟨htakes, rfl⟩
      · by_cases hn : args.length = 0
        · refine .inr ⟨by rw [htakes, hn]; rfl, .noOperands op.kind.name, ?_, rfl⟩
          rw [if_pos hn]
          rfl
        · refine .inl ⟨by rw [htakes, bne_iff_ne]; exact hn, ?_⟩
          rw [if_neg hn]
          rfl
  -- a leaf other than a variable is copied from no operands, with a fresh id
  all_goals exact withArgs_leaf_outcome (fun _ => rfl) (fun _ => rfl) (fun _ _ => rfl) args w

lemma copyOver_spec {e : Expr} {args : List Expr} (h : e.takesCopy args.length = true)
    (id : Nat) :
    (e.copyOver args id).id = id ∧ (e.copyOver args id).kind = e.kind ∧
      (e.copyOver args id).args = args ∧ (e.copyOver args id).Built := by
  cases e
  case var i v => cases h
  case node i op old s c p =>
    refine ⟨rfl, rfl, rfl, rfl, rfl, rfl, ?_⟩
    -- the operator takes the count: a custom one is rebuildable, any other by its arity
    by_cases hcu : ∃ cu, op = .custom cu
    · obtain ⟨cu, rfl⟩ := hcu
      simp only [takesCopy, Op.copyTakes, Bool.and_eq_true] at h
      exact h.1
    · have hnc : ∀ cu, op = .custom cu → False := fun cu h => hcu ⟨cu, h⟩
      simpa only [takesCopy, Op.copyTakes_eq_takes hnc] using h
  all_goals
    simp only [takesCopy, beq_iff_eq, List.length_eq_zero_iff] at h
    subst h
    exact ⟨rfl, rfl, rfl, trivial⟩

/-- A node built as the builders build, not a variable, takes its own operands back, and the
copy is the node under the new id. -/
lemma withArgs_args_of_built {x : Expr} (hb : x.Built) (hv : x.isVariable = false) (w : World) :
    (x.withArgs x.args).run.run w = (.ok (x.copyLeaf w.next), { w with next := w.next + 1 }) := by
  have htakes : x.takesCopy x.args.length = true := by
    cases x
    case var i v => cases hv
    case node i op old s c p =>
      obtain ⟨-, -, -, hop⟩ := hb
      by_cases hcu : ∃ cu, op = .custom cu
      · obtain ⟨cu, rfl⟩ := hcu
        simpa [takesCopy, args, Op.copyTakes, Op.takes] using hop
      · have hnc : ∀ cu, op = .custom cu → False := fun cu h => hcu ⟨cu, h⟩
        simpa only [takesCopy, args, Op.copyTakes_eq_takes hnc] using hop
    all_goals rfl
  have hcopy : x.copyOver x.args w.next = x.copyLeaf w.next := by
    cases x
    case node i op old s c p =>
      obtain ⟨hs, hc, hp, -⟩ := hb
      simp [copyOver, copyLeaf, args, hs, hc, hp]
    all_goals rfl
  rcases withArgs_outcome x x.args w with ⟨-, h⟩ | ⟨hf, -⟩
  · rw [h, hcopy]
  · rw [htakes] at hf
    cases hf

end Expr

namespace Relation

lemma withArgs_outcome (r : Relation) (args : List Expr) :
    (args.length = r.kind.arity ∧ ∃ r', r.withArgs args = .ok r' ∧ r'.kind = r.kind ∧
      r'.args = args ∧ r'.withArgs r.args = .ok r) ∨
    (args.length ≠ r.kind.arity ∧ ∃ err, r.withArgs args = .error err ∧
      err.category = .notReconstructible) := by
  rcases r with e | e | ⟨a, b⟩ | ⟨a, b⟩ | ⟨a, b⟩ | ⟨x, y, z⟩ | ⟨x, y, z, al⟩ <;>
    rcases args with _ | ⟨a₁, _ | ⟨a₂, _ | ⟨a₃, _ | ⟨a₄, rest⟩⟩⟩⟩ <;>
    simp [withArgs, kind, ConeKind.arity, Relation.args, Error.category]

lemma args_length (r : Relation) : r.args.length = r.kind.arity := by
  cases r <;> rfl

lemma withArgs_args (r : Relation) : r.withArgs r.args = .ok r := by
  cases r <;> rfl

end Relation

lemma Constraint.withArgs_outcome (c : Constraint) (args : List Expr) (w : World) :
    (args.length = c.kind.arity ∧ ∃ r, (c.withArgs args).run.run w =
        (.ok ⟨w.next, r⟩, { w with next := w.next + 1 }) ∧
      r.kind = c.kind ∧ r.args = args ∧ r.withArgs c.args = .ok c.rel) ∨
    (args.length ≠ c.kind.arity ∧ ∃ err, (c.withArgs args).run.run w = (.error err, w) ∧
      err.category = .notReconstructible) := by
  rcases c.rel.withArgs_outcome args with ⟨hlen, r, hr, hk, ha, hback⟩ | ⟨hlen, err, herr, hcat⟩
  · refine .inl ⟨hlen, r, ?_, hk, ha, hback⟩
    unfold Constraint.withArgs
    rw [hr]
    rfl
  · refine .inr ⟨hlen, err, ?_, hcat⟩
    unfold Constraint.withArgs
    rw [herr]
    rfl

/-- **Copies over new operands.** A node is copied exactly when it takes the operands, and the copy
is then the node's own data over them, with a fresh id, its kind, the operands in order, and the
shape and flags they give; else the copy fails as not rebuildable and takes no id. A node built
as the builders build, not a variable, copied over its own operands is itself under a new id.
A constraint is copied exactly when its relation takes the operands, into a relation of its kind
over them in order that gives back the original over the original operands, with a fresh id;
over its own operands it is itself under a new id. -/
theorem withArgs_rebuild_law :
    (∀ (e : Expr) (args : List Expr) (w : World),
      (e.takesCopy args.length = true ∧
        (e.withArgs args).run.run w = (.ok (e.copyOver args w.next), { w with next := w.next + 1 })) ∨
      (e.takesCopy args.length = false ∧ ∃ err, (e.withArgs args).run.run w = (.error err, w) ∧
        err.category = .notReconstructible)) ∧
    (∀ (e : Expr) (args : List Expr) (id : Nat), e.takesCopy args.length = true →
      (e.copyOver args id).id = id ∧ (e.copyOver args id).kind = e.kind ∧
        (e.copyOver args id).args = args ∧ (e.copyOver args id).Built) ∧
    (∀ (x : Expr) (w : World), x.Built → x.isVariable = false →
      (x.withArgs x.args).run.run w = (.ok (x.copyLeaf w.next), { w with next := w.next + 1 })) ∧
    (∀ (c : Constraint) (args : List Expr) (w : World),
      (args.length = c.kind.arity ∧ ∃ r, (c.withArgs args).run.run w =
          (.ok ⟨w.next, r⟩, { w with next := w.next + 1 }) ∧
        r.kind = c.kind ∧ r.args = args ∧ r.withArgs c.args = .ok c.rel) ∨
      (args.length ≠ c.kind.arity ∧ ∃ err, (c.withArgs args).run.run w = (.error err, w) ∧
        err.category = .notReconstructible)) ∧
    ∀ (c : Constraint) (w : World),
      (c.withArgs c.args).run.run w = (.ok ⟨w.next, c.rel⟩, { w with next := w.next + 1 }) := by
  refine ⟨Expr.withArgs_outcome, fun e args id h => Expr.copyOver_spec h id,
    fun x w hb hv => Expr.withArgs_args_of_built hb hv w, Constraint.withArgs_outcome,
    fun c w => ?_⟩
  rcases c.withArgs_outcome c.args w with ⟨-, r, hr, -, ha, hback⟩ | ⟨hlen, -⟩
  · -- the copy over the same operands gives back both itself and the original
    have hself := r.withArgs_args
    rw [ha, hback] at hself
    cases hself
    exact hr
  · exact absurd c.rel.args_length hlen

def columnSums : Expr :=
  .node 1 (.sum (some 0)) [.var 0 ⟨.matrix 2 3, none, false, false⟩] (.vector 3) false false

/-- The column sums of a variable are copied over their operand into themselves under the next
id, and the copy has the kind, operand and id it should. -/
theorem withArgs_rebuild_law_columnSums :
    columnSums.Built ∧ columnSums.isVariable = false ∧
      (columnSums.withArgs columnSums.args).run.run { next := 2 } =
        (.ok (columnSums.copyLeaf 2), { next := 3 }) ∧
      columnSums.takesCopy columnSums.args.length = true ∧
      (columnSums.copyOver columnSums.args 2).id = 2 ∧
      (columnSums.copyOver columnSums.args 2).kind = columnSums.kind ∧
      (columnSums.copyOver columnSums.args 2).args = columnSums.args ∧
      (columnSums.copyOver columnSums.args 2).Built := by
  have hb : columnSums.Built := ⟨rfl, rfl, rfl, rfl⟩
  have ht : columnSums.takesCopy columnSums.args.length = true := rfl
  exact ⟨hb, rfl, withArgs_rebuild_law.2.2.1 columnSums { next := 2 } hb rfl, ht,
    withArgs_rebuild_law.2.1 columnSums columnSums.args 2 ht⟩

end ConicForm
