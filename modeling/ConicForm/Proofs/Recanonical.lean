import ConicForm.Proofs.Identity
import ConicForm.Proofs.Meaning
import ConicForm.Proofs.Folding
/-!
Canonicalizing a canonical problem again. With the standard table or the table without rules no
rule applies to the output of the standard table, so a second canonicalization only folds,
defers, keeps variables and copies. It fails only where a folded constant subtree does not
evaluate (`recanonicalize_fails_mismatch`), and otherwise changes nothing but ids
(`recanonicalize_copies`).
-/

namespace ConicForm

/-! ### Trees the builders made -/

namespace Expr

lemma exact_of_built :
    ∀ e : Expr, (∀ n ∈ e.preorder, n.Built) → e.flagsExact = true ∧ e.shapeExact = true := by
  refine (flagsExact.mutual_induct (fun e => (∀ n ∈ e.preorder, n.Built) →
    e.flagsExact = true ∧ e.shapeExact = true) (fun es => (∀ e ∈ es, ∀ n ∈ e.preorder, n.Built) →
    es.all flagsExact = true ∧ es.all shapeExact = true) ?_ ?_ ?_ ?_).1
  · intro i op args s c h ih hb
    obtain ⟨hs, hc, hh, -⟩ : (node i op args s c h).Built := hb _ (by simp)
    obtain ⟨hf, hs'⟩ := ih fun a ha n hn => hb n (by simpa using Or.inr ⟨a, ha, hn⟩)
    exact ⟨flagsExact_node.2 ⟨hc, hh, hf⟩, shapeExact_node.2 ⟨hs, hs'⟩⟩
  · intro e hleaf _
    cases e
    case node => exact (hleaf _ _ _ _ _ _ rfl).elim
    all_goals exact ⟨rfl, rfl⟩
  · intro _
    exact ⟨rfl, rfl⟩
  · intro e es ihe ihes hb
    obtain ⟨hf, hs⟩ := ihe (hb e (by simp))
    obtain ⟨hfs, hss⟩ := ihes fun a ha => hb a (by simp [ha])
    simp [hf, hs, hfs, hss]

/-- The tree evaluates, read from the empty world. A constant tree without parameters reads
nothing of the world, so this is its evaluation anywhere (`eval_of_evaluates`). -/
def evaluates (e : Expr) : Bool :=
  match e.eval.run.run {} with
  | (.ok _, _) => true
  | (.error _, _) => false

section Evaluates

variable {e : Expr} (hc : e.isConst = true) (hp : e.hasParams = false) (hf : e.flagsExact = true)
include hc hp hf

lemma eval_of_evaluates (he : e.evaluates = true) (w : World) :
    ∃ v, e.eval.run.run w = (.ok v, w) := by
  obtain ⟨r, -, hr⟩ := (evalAt_settled fun _ => none).1 e hc hp hf
  unfold evaluates eval at he
  rw [hr] at he
  cases r with
  | error _ => cases he
  | ok v => exact ⟨v, hr w⟩

lemma evaluates_of_eval {w w' : World} {v : Value} (h : e.eval.run.run w = (.ok v, w')) :
    e.evaluates = true := by
  obtain ⟨r, -, hr⟩ := (evalAt_settled fun _ => none).1 e hc hp hf
  unfold eval at h
  rw [hr] at h
  unfold evaluates eval
  rw [hr, (Prod.mk.inj h).1]

end Evaluates

lemma withArgs_ok_of_built {i : Nat} {op : Op} {old args : List Expr} {s : Shape} {c h : Bool}
    (hb : (node i op old s c h).Built) (hlen : args.length = old.length) (w : World) :
    ∃ r, ((node i op old s c h).withArgs args).run.run w =
      (.ok r, { w with next := w.next + 1 }) := by
  have htakes := hb.2.2.2
  unfold withArgs
  dsimp only
  split
  · -- a custom operator that was built is rebuildable
    simp only [Op.takes] at htakes
    rw [if_neg (by simp [htakes]), if_neg (by simp [hlen])]
    exact ⟨_, rfl⟩
  · rename_i hnc
    rw [Op.takes_of_not_custom hnc] at htakes
    split <;> rename_i harity <;> simp only [harity] at htakes
    · rw [if_neg (by simp_all)]
      exact ⟨_, rfl⟩
    · exact ⟨_, rfl⟩
    · rw [if_neg (by simp_all)]
      exact ⟨_, rfl⟩

end Expr

/-! ### The walk over a tree that no rule applies to -/

namespace Table

variable {T : Table}

/-- The canonical form of a node the builders made, which has no rule, succeeds without
constraints where the node is folded and evaluates, and wherever it is copied over as many
operands as it has. -/
lemma canonNode_ok {e : Expr} {args : List Expr} (hb : e.Built)
    (hnone : T.exprRule? e.kind = none)
    (hfold : e.isConst = true → e.hasParams = false → ∀ w, ∃ v, e.eval.run.run w = (.ok v, w))
    (hlen : e.isConst = false → args.length = e.args.length) (w : World) :
    ∃ r w', (T.canonNode e args).run.run w = (.ok (r, []), w') := by
  unfold canonNode
  split
  · rename_i hc
    split
    · exact ⟨_, _, rfl⟩
    · rename_i hp
      simp only [run_monadLift_bind, traceNote_run]
      obtain ⟨v, hv⟩ := hfold hc (Bool.eq_false_iff.2 hp) _
      rw [run_bind_of_ok hv]
      exact ⟨_, _, rfl⟩
  · rename_i hc
    split
    · exact ⟨_, _, rfl⟩
    · rename_i hv
      split
      · rename_i r hr
        rw [hnone] at hr
        cases hr
      · -- neither constant nor a variable: a node, copied
        cases e with
        | node i op old s c p =>
          simp only [run_monadLift_bind, traceNote_run]
          obtain ⟨r, hr⟩ := Expr.withArgs_ok_of_built hb (hlen (Bool.eq_false_iff.2 hc)) _
          rw [run_bind_of_ok hr]
          exact ⟨_, _, rfl⟩
        | _ => simp [Expr.isConst, Expr.isVariable] at hc hv

lemma canonNode_eval_ok {e r : Expr} {args : List Expr} {more : List Constraint} {w w' : World}
    (hc : e.isConst = true) (hp : e.hasParams = false)
    (h : (T.canonNode e args).run.run w = (.ok (r, more), w')) :
    ∃ w₁ v w₂, e.eval.run.run w₁ = (.ok v, w₂) := by
  unfold canonNode at h
  rw [if_pos hc, if_neg (by simp [hp])] at h
  simp only [run_monadLift_bind, traceNote_run] at h
  obtain ⟨v, w₂, h₁, -⟩ := bind_eq_ok h
  exact ⟨_, v, w₂, h₁⟩

lemma foldTargets_of_not_enters {e : Expr} (h : enters e = false) : e.foldTargets = [e] := by
  cases e <;> simp_all [enters, Expr.foldTargets, Expr.isConst, Expr.hasParams]

lemma foldTargets_leaf_of_enters {e : Expr}
    (hleaf : ∀ i op args s c p, e = .node i op args s c p → False) (h : enters e = true) :
    e.foldTargets = [] := by
  cases e
  case node => exact (hleaf _ _ _ _ _ _ rfl).elim
  all_goals simp_all [enters, Expr.foldTargets, Expr.isConst, Expr.hasParams]

lemma foldTargets_of_enters {i : Nat} {op : Op} {args : List Expr} {s : Shape} {c h : Bool}
    (hent : enters (.node i op args s c h) = true) :
    (Expr.node i op args s c h).foldTargets = args.flatMap Expr.foldTargets := by
  simp only [enters, Expr.isConst, Expr.hasParams, Bool.or_eq_true, Bool.not_eq_true'] at hent
  rcases hent with rfl | rfl <;> simp [Expr.foldTargets]

/-- The walk over trees whose nodes the builders made and no rule applies to succeeds, without
constraints, exactly where every fold evaluates; over a list it keeps the count. -/
lemma canonTree_ok :
    (∀ e acc, (∀ n ∈ e.preorder, n.Built ∧ T.exprRule? n.kind = none) →
      e.foldTargets.all Expr.evaluates = true →
      ∀ w, ∃ r w', (T.canonTree e acc).run.run w = (.ok (r, acc), w')) ∧
    (∀ es acc, (∀ e ∈ es, ∀ n ∈ e.preorder, n.Built ∧ T.exprRule? n.kind = none) →
      (es.flatMap Expr.foldTargets).all Expr.evaluates = true →
      ∀ w, ∃ rs w', (T.canonList es acc).run.run w = (.ok (rs, acc), w') ∧
        rs.length = es.length) := by
  refine canonTree.mutual_induct
    (fun e acc => (∀ n ∈ e.preorder, n.Built ∧ T.exprRule? n.kind = none) →
      e.foldTargets.all Expr.evaluates = true →
      ∀ w, ∃ r w', (T.canonTree e acc).run.run w = (.ok (r, acc), w'))
    (fun es acc => (∀ e ∈ es, ∀ n ∈ e.preorder, n.Built ∧ T.exprRule? n.kind = none) →
      (es.flatMap Expr.foldTargets).all Expr.evaluates = true →
      ∀ w, ∃ rs w', (T.canonList es acc).run.run w = (.ok (rs, acc), w') ∧
        rs.length = es.length) ?_ ?_ ?_ ?_ ?_
  · intro i op args s c p acc
    dsimp only
    intro hent ih hnodes hfolds w
    rw [foldTargets_of_enters hent] at hfolds
    obtain ⟨rs, w₁, h₁, hlen⟩ :=
      ih (fun a ha n hn => hnodes n (by simpa using Or.inr ⟨a, ha, hn⟩)) hfolds w
    obtain ⟨hb, hnone⟩ := hnodes _ (Expr.mem_preorder_self _)
    -- an entered node is not folded: it is deferred or copied
    have hnofold : ∀ hc : (Expr.node i op args s c p).isConst = true,
        (Expr.node i op args s c p).hasParams = false → False := fun hc hp => by
      simp [enters, hc, hp] at hent
    obtain ⟨r, w₂, h₂⟩ := canonNode_ok hb hnone (fun hc hp => (hnofold hc hp).elim)
      (fun _ => hlen) w₁
    rw [canonTree, if_pos hent, run_bind_of_ok h₁]
    dsimp only
    rw [run_bind_of_ok h₂]
    exact ⟨r, w₂, by rw [run_pure]; simp⟩
  · intro i op args s c p acc
    dsimp only
    intro hent hnodes hfolds w
    rw [foldTargets_of_not_enters (Bool.eq_false_iff.2 hent)] at hfolds
    obtain ⟨hb, hnone⟩ := hnodes _ (Expr.mem_preorder_self _)
    have hf := (Expr.exact_of_built _ fun n hn => (hnodes n hn).1).1
    obtain ⟨r, w₂, h₂⟩ := canonNode_ok hb hnone
      (fun hc hp => Expr.eval_of_evaluates hc hp hf (by simpa using hfolds))
      (fun hc => by simp [enters, hc] at hent) w
    rw [canonTree, if_neg hent, run_bind_of_ok h₂]
    exact ⟨r, w₂, by rw [run_pure]; simp⟩
  · intro e acc hleaf hnodes hfolds w
    obtain ⟨hb, hnone⟩ := hnodes e e.mem_preorder_self
    have hf := (Expr.exact_of_built _ fun n hn => (hnodes n hn).1).1
    -- a leaf is folded when it is constant without parameters, and then it is its own fold
    have hfold : e.isConst = true → e.hasParams = false →
        ∀ w, ∃ v, e.eval.run.run w = (.ok v, w) := fun hc hp => by
      rw [foldTargets_of_not_enters (by simp [enters, hc, hp])] at hfolds
      exact Expr.eval_of_evaluates hc hp hf (by simpa using hfolds)
    have hlen : e.isConst = false → ([] : List Expr).length = e.args.length := fun _ => by
      simp [Expr.args_eq_nil hleaf]
    obtain ⟨r, w₂, h₂⟩ := canonNode_ok hb hnone hfold hlen w
    rw [canonTree, run_bind_of_ok h₂]
    · exact ⟨r, w₂, by rw [run_pure]; simp⟩
    · exact hleaf
  · intro acc _ _ w
    exact ⟨[], w, rfl, rfl⟩
  · intro e es acc ihe ihes hnodes hfolds w
    simp only [List.flatMap_cons, List.all_append, Bool.and_eq_true] at hfolds
    obtain ⟨r, w₁, h₁⟩ := ihe (hnodes e (by simp)) hfolds.1 w
    obtain ⟨rs, w₂, h₂, hlen⟩ := ihes acc (fun a ha => hnodes a (by simp [ha])) hfolds.2 w₁
    rw [canonList, run_bind_of_ok h₁]
    dsimp only
    rw [run_bind_of_ok h₂]
    exact ⟨r :: rs, w₂, rfl, by simp [hlen]⟩

lemma evaluates_of_canonTree :
    (∀ e acc {w r acc' w'}, e.flagsExact = true →
      (T.canonTree e acc).run.run w = (.ok (r, acc'), w') →
      e.foldTargets.all Expr.evaluates = true) ∧
    (∀ es acc {w rs acc' w'}, es.all Expr.flagsExact = true →
      (T.canonList es acc).run.run w = (.ok (rs, acc'), w') →
      (es.flatMap Expr.foldTargets).all Expr.evaluates = true) := by
  refine canonTree.mutual_induct
    (fun e acc => ∀ {w r acc' w'}, e.flagsExact = true →
      (T.canonTree e acc).run.run w = (.ok (r, acc'), w') →
      e.foldTargets.all Expr.evaluates = true)
    (fun es acc => ∀ {w rs acc' w'}, es.all Expr.flagsExact = true →
      (T.canonList es acc).run.run w = (.ok (rs, acc'), w') →
      (es.flatMap Expr.foldTargets).all Expr.evaluates = true) ?_ ?_ ?_ ?_ ?_
  · intro i op args s c p acc
    dsimp only
    intro hent ih w r acc' w' hf h
    rw [canonTree, if_pos hent] at h
    obtain ⟨⟨args', acc₁⟩, w₁, h₁, -⟩ := bind_eq_ok h
    rw [foldTargets_of_enters hent]
    exact ih (Expr.flagsExact_node.1 hf).2.2 h₁
  · intro i op args s c p acc
    dsimp only
    intro hent w r acc' w' hf h
    rw [canonTree, if_neg hent] at h
    obtain ⟨more, h₂, -⟩ := canonNode_append_ok h
    have hc : (Expr.node i op args s c p).isConst = true := by simp_all [enters]
    have hp : (Expr.node i op args s c p).hasParams = false := by simp_all [enters]
    obtain ⟨v₁, v, v₂, hv⟩ := canonNode_eval_ok hc hp h₂
    rw [foldTargets_of_not_enters (Bool.eq_false_iff.2 hent)]
    simpa using Expr.evaluates_of_eval hc hp hf hv
  · intro e acc hleaf w r acc' w' hf h
    rw [canonTree] at h
    · obtain ⟨more, h₂, -⟩ := canonNode_append_ok h
      -- a leaf has a fold only when it is constant without parameters, and then it is folded
      cases hent : enters e
      · simp only [enters, Bool.or_eq_false_iff, Bool.not_eq_false'] at hent
        obtain ⟨v₁, v, v₂, hv⟩ := canonNode_eval_ok hent.1 hent.2 h₂
        rw [foldTargets_of_not_enters (by simp [enters, hent.1, hent.2])]
        simpa using Expr.evaluates_of_eval hent.1 hent.2 hf hv
      · rw [foldTargets_leaf_of_enters hleaf hent]
        rfl
    · exact hleaf
  · intro acc w rs acc' w' _ _
    rfl
  · intro e es acc ihe ihes w rs acc' w' hf h
    simp only [List.all_cons, Bool.and_eq_true] at hf
    obtain ⟨r, rs', acc₁, w₁, h₁, h₂, -⟩ := canonList_cons_ok h
    simp [ihe hf.1 h₁, ihes acc₁ hf.2 h₂]

end Table

/-! ### Runs of a list -/

section MapM

variable {α β : Type} {f : α → Run β}

lemma mapM_ok : ∀ (xs : List α), (∀ a ∈ xs, ∀ w, ∃ b w', (f a).run.run w = (.ok b, w')) →
    ∀ w, ∃ bs w', (xs.mapM f).run.run w = (.ok bs, w')
  | [], _, w => ⟨[], w, rfl⟩
  | x :: xs, hf, w => by
    obtain ⟨b, w₁, h₁⟩ := hf x (by simp) w
    obtain ⟨bs, w₂, h₂⟩ := mapM_ok xs (fun a ha => hf a (by simp [ha])) w₁
    rw [List.mapM_cons, run_bind_of_ok h₁, run_bind_of_ok h₂]
    exact ⟨b :: bs, w₂, rfl⟩

lemma mapM_forall₂ {P : α → β → Prop} :
    ∀ (xs : List α), (∀ a ∈ xs, ∀ w b w', (f a).run.run w = (.ok b, w') → P a b) →
      ∀ {w w' : World} {bs : List β}, (xs.mapM f).run.run w = (.ok bs, w') →
        List.Forall₂ P xs bs
  | [], _, w, w', bs, h => by
    rw [List.mapM_nil, run_pure] at h
    cases h
    exact .nil
  | x :: xs, hf, w, w', bs, h => by
    rw [List.mapM_cons] at h
    obtain ⟨b, w₁, h₁, hrest⟩ := bind_eq_ok h
    obtain ⟨bs', w₂, h₂, hbs⟩ := bind_eq_ok hrest
    cases hbs
    exact .cons (hf x (by simp) _ _ _ h₁) (mapM_forall₂ xs (fun a ha => hf a (by simp [ha])) h₂)

lemma ok_of_mem_mapM :
    ∀ (xs : List α) {w w' : World} {bs : List β}, (xs.mapM f).run.run w = (.ok bs, w') →
      ∀ a ∈ xs, ∃ w₁ b w₂, (f a).run.run w₁ = (.ok b, w₂)
  | [], _, _, _, _ => by simp
  | x :: xs, w, w', bs, h => by
    rw [List.mapM_cons] at h
    obtain ⟨b, w₁, h₁, hrest⟩ := bind_eq_ok h
    obtain ⟨bs', w₂, h₂, -⟩ := bind_eq_ok hrest
    intro a ha
    rcases List.mem_cons.1 ha with rfl | ha
    · exact ⟨w, b, w₁, h₁⟩
    · exact ok_of_mem_mapM xs h₂ a ha

end MapM

/-! ### Constraints and problems that no rule applies to -/

lemma Relation.withArgs_ok_of_length (r : Relation) {args : List Expr}
    (h : args.length = r.args.length) : ∃ r', r.withArgs args = .ok r' := by
  cases r <;> rcases args with _ | ⟨a, _ | ⟨b, _ | ⟨c, _ | ⟨d, rest⟩⟩⟩⟩ <;>
    simp_all [Relation.args, Relation.withArgs]

namespace Table

variable {T : Table}

lemma canonConsNode_ok {c : Constraint} {args : List Expr} (hrule : T.consRule? c.kind = none)
    (hlen : args.length = c.args.length) (w : World) :
    ∃ k w', (T.canonConsNode c args).run.run w = (.ok (k, []), w') := by
  obtain ⟨r, hr⟩ := c.rel.withArgs_ok_of_length hlen
  have hcopy : ∀ w : World, (c.withArgs args).run.run w =
      (.ok ⟨w.next, r⟩, { w with next := w.next + 1 }) := fun w => by
    unfold Constraint.withArgs
    rw [hr]
    rfl
  unfold canonConsNode
  rw [hrule]
  simp only [run_monadLift_bind, traceNote_run]
  rw [run_bind_of_ok (hcopy _)]
  exact ⟨_, _, rfl⟩

lemma canonConstraint_ok {c : Constraint}
    (hnodes : ∀ a ∈ c.args, ∀ n ∈ a.preorder, n.Built ∧ T.exprRule? n.kind = none)
    (hrule : T.consRule? c.kind = none)
    (hfolds : (c.args.flatMap Expr.foldTargets).all Expr.evaluates = true) (w : World) :
    ∃ k w', (T.canonConstraint c).run.run w = (.ok (k, []), w') := by
  obtain ⟨rs, w₁, h₁, hlen⟩ := canonTree_ok.2 c.args #[] hnodes hfolds w
  obtain ⟨k, w₂, h₂⟩ := canonConsNode_ok hrule hlen w₁
  rw [canonConstraint, run_bind_of_ok h₁]
  dsimp only
  rw [run_bind_of_ok h₂]
  exact ⟨k, w₂, by rw [run_pure]; simp⟩

lemma canonConstraint_copies {c k : Constraint} {aux : List Constraint} {w w' : World}
    (hf : c.args.all Expr.flagsExact = true) (hs : c.args.all Expr.shapeExact = true)
    (hnone : ∀ a ∈ c.args, ∀ n ∈ a.preorder, T.exprRule? n.kind = none)
    (hrule : T.consRule? c.kind = none)
    (h : (T.canonConstraint c).run.run w = (.ok (k, aux), w')) :
    aux = [] ∧ k.kind = c.kind ∧ List.Forall₂ Expr.SameMeaning k.args c.args := by
  obtain ⟨args, acc, more, w₁, h₁, h₂, rfl⟩ := canonConstraint_steps h
  obtain ⟨rfl, hargs⟩ := canonTree_sameMeaning.2 c.args #[] hf hs hnone h₁
  unfold canonConsNode at h₂
  rw [hrule] at h₂
  simp only [run_monadLift_bind, traceNote_run] at h₂
  obtain ⟨top', w₃, h₃, hdone⟩ := bind_eq_ok h₂
  simp only [run_pure] at hdone
  cases hdone
  obtain ⟨hkind, hargs'⟩ := Constraint.withArgs_rel h₃
  exact ⟨by simp, hkind, hargs' ▸ hargs⟩

lemma find?_pairs {R : Constraint → Constraint × List Constraint → Prop} {cs : List Constraint}
    {rs : List (Constraint × List Constraint)} (hids : (cs.map (·.id)).Nodup)
    (h : List.Forall₂ R cs rs) :
    List.Forall₂ (fun c r => R c r ∧
      (IdMap.ofList ((cs.zip rs).map fun p => (p.1.id, p.2.1.id))).find? c.id = some r.1.id)
      cs rs := by
  obtain ⟨hlen, hR⟩ := List.forall₂_iff_zip.1 h
  have hkeys := (pairs_keys hlen.symm).symm ▸ hids
  refine List.forall₂_iff_zip.2 ⟨hlen, fun {c r} hcr => ⟨hR hcr, ?_⟩⟩
  rw [IdMap.find?_ofList hkeys, lookup_eq_some_iff_mem hkeys]
  exact List.mem_map_of_mem hcr

lemma varNodes_of_copies {cs cs' : List Constraint}
    (h : List.Forall₂ (fun c c' => List.Forall₂ Expr.SameMeaning c'.args c.args) cs cs') :
    (cs'.flatMap (·.args)).flatMap Expr.varNodes = (cs.flatMap (·.args)).flatMap Expr.varNodes := by
  induction h with
  | nil => rfl
  | cons hc _ ih => simp [List.flatMap_append, (Expr.SameMeaning.list hc).2.2, ih]

lemma Problem.variableShapes_eq (P : Problem) :
    P.variableShapes = IdMap.ofList ((P.objective.expr.varNodes ++
      (P.constraints.flatMap (·.args)).flatMap Expr.varNodes).map fun e => (e.id, e.shape)) := by
  simp only [Problem.variableShapes, Problem.roots, List.flatMap_cons, List.filter_append,
    List.filter_flatMap, Expr.varNodes]
  rfl

lemma apply_ok_of_copies {Q : Problem}
    (hnodes : ∀ n ∈ Q.roots.flatMap Expr.preorder, n.Built ∧ T.exprRule? n.kind = none)
    (hrules : ∀ c ∈ Q.constraints, T.consRule? c.kind = none)
    (hfolds : (Q.roots.flatMap Expr.foldTargets).all Expr.evaluates = true) (v : World) :
    ∃ Q' D' v', (T.apply Q).run.run v = (.ok (Q', D'), v') := by
  rw [Problem.forall_mem_roots_flatMap] at hnodes
  rw [Problem.all_roots_flatMap] at hfolds
  obtain ⟨r, w₀, h₀⟩ := canonTree_ok.1 Q.objective.expr #[] hnodes.1 hfolds.1 v
  have hobj : (T.canonExpr Q.objective.expr).run.run v = (.ok (r, []), w₀) := by
    rw [canonExpr, run_bind_of_ok h₀]
    rfl
  -- each constraint is copied, from whatever world the ones before it leave
  have hcons : ∀ c ∈ Q.constraints, ∀ w, ∃ b w', (T.canonConstraint c).run.run w = (.ok b, w') :=
    fun c hc w => by
      obtain ⟨k, w', hk⟩ := canonConstraint_ok (hnodes.2 c hc) (hrules c hc) (hfolds.2 c hc) w
      exact ⟨_, _, hk⟩
  obtain ⟨rs, w₁, h₁⟩ := mapM_ok Q.constraints hcons w₀
  have hall := canonAll_run T Q.constraints w₀
  rw [h₁] at hall
  rw [apply, run_bind_of_ok hobj]
  dsimp only
  rw [run_bind_of_ok hall]
  simp only [run_monadLift_bind, note_run, run_pure]
  exact ⟨_, _, _, rfl⟩

lemma evaluates_of_apply {Q Q' : Problem} {D' : InverseData} {v v' : World}
    (hf : Q.roots.all Expr.flagsExact = true) (h : (T.apply Q).run.run v = (.ok (Q', D'), v')) :
    (Q.roots.flatMap Expr.foldTargets).all Expr.evaluates = true := by
  obtain ⟨obj, objAux, w₀, rs, w₁, h₀, h₁, -, -, -⟩ := apply_ok h
  obtain ⟨acc, h₀', -⟩ := canonExpr_ok h₀
  simp only [Problem.roots, List.all_cons, Bool.and_eq_true, List.all_eq_true,
    List.mem_flatMap] at hf
  have hobj := evaluates_of_canonTree.1 _ _ hf.1 h₀'
  -- each constraint was canonicalized, so its operands' folds evaluated
  have hcons : ∀ c ∈ Q.constraints, (c.args.flatMap Expr.foldTargets).all Expr.evaluates = true :=
    fun c hc => by
      obtain ⟨w₂, ⟨k, aux⟩, w₃, hk⟩ := ok_of_mem_mapM Q.constraints h₁ c hc
      obtain ⟨args, acc, _, _, h₄, -⟩ := canonConstraint_steps hk
      exact evaluates_of_canonTree.2 _ _
        (List.all_eq_true.2 fun a ha => hf.2 a ⟨c, hc, ha⟩) h₄
  exact Problem.all_roots_flatMap.2 ⟨hobj, hcons⟩

/-- With a table that has no rule for a problem's nodes or constraints, a successful
canonicalization of a problem with exact flags and shapes and distinct constraint ids copies it:
the sense is kept, the objective stands for the old one, each constraint is followed by a copy
of its kind, mapped to it, over operands that stand for its own, and no other, and the variables
are the same. -/
lemma apply_copies {Q Q' : Problem} {D' : InverseData} {v v' : World}
    (hexact : ∀ r ∈ Q.roots, r.flagsExact = true ∧ r.shapeExact = true)
    (hnone : ∀ n ∈ Q.roots.flatMap Expr.preorder, T.exprRule? n.kind = none)
    (hrules : ∀ c ∈ Q.constraints, T.consRule? c.kind = none)
    (hids : (Q.constraints.map (·.id)).Nodup)
    (h : (T.apply Q).run.run v = (.ok (Q', D'), v')) :
    Q'.objective.sense = Q.objective.sense ∧ Q'.objective.expr.SameMeaning Q.objective.expr ∧
    List.Forall₂ (fun c c' => c'.kind = c.kind ∧ D'.consIdMap.find? c.id = some c'.id ∧
      List.Forall₂ Expr.SameMeaning c'.args c.args) Q.constraints Q'.constraints ∧
    Q'.variableShapes = Q.variableShapes := by
  obtain ⟨obj, objAux, w₀, rs, w₁, h₀, h₁, rfl, rfl, -⟩ := apply_ok h
  simp only [Problem.roots, List.mem_cons, List.mem_flatMap, forall_eq_or_imp] at hexact
  rw [Problem.forall_mem_roots_flatMap] at hnone
  -- the objective
  obtain ⟨acc, h₀', rfl⟩ := canonExpr_ok h₀
  obtain ⟨rfl, hobj⟩ := canonTree_sameMeaning.1 _ _ hexact.1.1 hexact.1.2 hnone.1 h₀'
  -- each constraint is copied
  have hcopy : ∀ c ∈ Q.constraints, ∀ w k aux w', (T.canonConstraint c).run.run w =
      (.ok (k, aux), w') → aux = [] ∧ k.kind = c.kind ∧ List.Forall₂ Expr.SameMeaning k.args c.args :=
    fun c hc w k aux w' hk => canonConstraint_copies
      (List.all_eq_true.2 fun a ha => (hexact.2 a ⟨c, hc, ha⟩).1)
      (List.all_eq_true.2 fun a ha => (hexact.2 a ⟨c, hc, ha⟩).2)
      (hnone.2 c hc) (hrules c hc) hk
  have hrs : List.Forall₂ (fun c r => r.1.kind = c.kind ∧
      List.Forall₂ Expr.SameMeaning r.1.args c.args) Q.constraints rs :=
    mapM_forall₂ Q.constraints (fun c hc w r w' hr => (hcopy c hc w r.1 r.2 w' hr).2) h₁
  have hnil : ∀ r ∈ rs, r.2 = [] :=
    mapM_forall Q.constraints (fun c hc w r w' hr => (hcopy c hc w r.1 r.2 w' hr).1) h₁
  have hlayout : rs.flatMap (fun r => r.2 ++ [r.1]) = rs.map (·.1) := by
    rw [List.map_eq_flatMap]
    exact List.flatMap_congr fun r hr => by simp [hnil r hr]
  have hmap : List.Forall₂ (fun c c' => c'.kind = c.kind ∧
      (IdMap.ofList ((Q.constraints.zip rs).map fun p => (p.1.id, p.2.1.id))).find? c.id =
        some c'.id ∧ List.Forall₂ Expr.SameMeaning c'.args c.args)
      Q.constraints (rs.map (·.1)) := by
    rw [List.forall₂_map_right_iff]
    exact (find?_pairs hids hrs).imp fun _ _ h => ⟨h.1.1, h.2, h.1.2⟩
  refine ⟨rfl, hobj, by simpa only [List.nil_append, hlayout] using hmap, ?_⟩
  -- the variables: those of the objective, then those of the constraints' operands
  have hvars := varNodes_of_copies (hmap.imp fun _ _ h => h.2.2)
  simp only [Problem.variableShapes_eq, List.nil_append, hlayout, hobj.varNodes, hvars]

/-! ### A second pass over the standard table's output -/

lemma cone_exprRule?_of_isLeftByCone {k : Kind} (h : k.isLeftByCone = true) :
    cone.exprRule? k = none := by
  cases k <;> first | rfl | simp [Kind.isLeftByCone, Kind.isAffine] at h

lemma cone_consRule?_of_isCone {k : ConeKind} (h : k.isCone = true) : cone.consRule? k = none := by
  cases k <;> first | rfl | simp [ConeKind.isCone] at h

lemma rules_none_of_left {T : Table} (hT : T = cone ∨ T = empty) :
    (∀ k : Kind, k.isLeftByCone = true → T.exprRule? k = none) ∧
    ∀ k : ConeKind, k.isCone = true → T.consRule? k = none := by
  rcases hT with rfl | rfl
  · exact ⟨fun _ => cone_exprRule?_of_isLeftByCone, fun _ => cone_consRule?_of_isCone⟩
  · exact ⟨fun _ _ => rfl, fun _ _ => rfl⟩

/-- A problem canonicalized with the standard table has its objective and its constraints in
the vocabulary. -/
lemma cone_apply_inVocab {P Q : Problem} {D : InverseData} {w w' : World}
    (h : (cone.apply P).run.run w = (.ok (Q, D), w')) :
    Q.objective.expr.InVocab ∧ ∀ c ∈ Q.constraints, c.InVocab := by
  obtain ⟨obj, objAux, w₀, rs, w₁, h₀, h₁, rfl, -, -⟩ := apply_ok h
  obtain ⟨hobj, hobjAux⟩ := cone_canonExpr_inVocab h₀
  have hrs : ∀ r ∈ rs, r.1.InVocab ∧ ∀ x ∈ r.2, x.InVocab :=
    mapM_forall P.constraints (fun _ _ _ _ _ hr => cone_canonConstraint_inVocab hr) h₁
  refine ⟨hobj, ?_⟩
  simp only [List.mem_append, List.mem_flatMap, List.mem_singleton]
  rintro c (hc | ⟨r, hr, hc | rfl⟩)
  · exact hobjAux c hc
  · exact (hrs r hr).2 c hc
  · exact (hrs r hr).1

/-- What a second pass meets in the standard table's output: every node was made by the
builders and has no rule, and no constraint has a rule. -/
lemma cone_apply_ruleFree {P Q : Problem} {D : InverseData} {w w' : World}
    (h : (cone.apply P).run.run w = (.ok (Q, D), w')) {T : Table} (hT : T = cone ∨ T = empty) :
    (∀ n ∈ Q.roots.flatMap Expr.preorder, n.Built ∧ T.exprRule? n.kind = none) ∧
    ∀ c ∈ Q.constraints, T.consRule? c.kind = none := by
  obtain ⟨L, -, hshows, -⟩ := apply_shows cone h
  obtain ⟨hobj, hcons⟩ := cone_apply_inVocab h
  obtain ⟨hexprs, hconsRules⟩ := rules_none_of_left hT
  have hleft : ∀ n ∈ Q.roots.flatMap Expr.preorder, n.kind.isLeftByCone = true :=
    Problem.forall_mem_roots_flatMap.2 ⟨hobj, fun c hc => (hcons c hc).2⟩
  exact ⟨fun n hn => ⟨(hshows n hn).built, hexprs _ (hleft n hn)⟩,
    fun c hc => hconsRules _ (hcons c hc).1⟩

/-- **Canonicalizing again.** Take the output `Q` of the standard table and canonicalize it once
more, with the standard table or with the empty one. That second pass succeeds exactly when
every constant subtree of `Q` it folds evaluates; this is not always so, since the rules build
constant trees (the difference of the two sides of an equality, say) without evaluating them,
and these may fail to evaluate. When it succeeds it only copies: the sense is kept, the
objective stands for the old one, each constraint is followed by one copy of its kind, which
the constraint map sends it to, over operands that stand for its own, with no auxiliary
constraint, and the variables are the same. -/
theorem recanonicalize_copies {P Q : Problem} {D : InverseData} {w w' : World}
    (h : (cone.apply P).run.run w = (.ok (Q, D), w')) {T : Table} (hT : T = cone ∨ T = empty)
    (v : World) :
    ((∃ Q' D' v', (T.apply Q).run.run v = (.ok (Q', D'), v')) ↔
      (Q.roots.flatMap Expr.foldTargets).all Expr.evaluates = true) ∧
    ∀ {Q' D' v'}, (T.apply Q).run.run v = (.ok (Q', D'), v') →
      Q'.objective.sense = Q.objective.sense ∧ Q'.objective.expr.SameMeaning Q.objective.expr ∧
      List.Forall₂ (fun c c' => c'.kind = c.kind ∧ D'.consIdMap.find? c.id = some c'.id ∧
        List.Forall₂ Expr.SameMeaning c'.args c.args) Q.constraints Q'.constraints ∧
      Q'.variableShapes = Q.variableShapes := by
  obtain ⟨hnodes, hrules⟩ := cone_apply_ruleFree h hT
  -- the builders made every node, so the stored flags and shapes are exact
  have hexact : ∀ r ∈ Q.roots, r.flagsExact = true ∧ r.shapeExact = true := fun r hr =>
    Expr.exact_of_built r fun n hn => (hnodes n (List.mem_flatMap.2 ⟨r, hr, hn⟩)).1
  refine ⟨⟨?_, fun hf => apply_ok_of_copies hnodes hrules hf v⟩, fun h' =>
    apply_copies hexact (fun n hn => (hnodes n hn).2) hrules (apply_constraints_fresh h).nodup h'⟩
  rintro ⟨Q', D', v', h'⟩
  exact evaluates_of_apply (List.all_eq_true.2 fun r hr => (hexact r hr).1) h'

/-- Minimize `|x| + p · y` subject to `x ≤ y`, canonicalized with the standard table and then
again: the second pass succeeds and copies. -/
theorem recanonicalize_copies_absParam :
    ∃ Q D w Q' D' v, (cone.apply absParamProblem).run.run { next := 7 } = (.ok (Q, D), w) ∧
      (cone.apply Q).run.run w = (.ok (Q', D'), v) ∧
      Q'.constraints.length = Q.constraints.length ∧ Q'.variableShapes = Q.variableShapes := by
  have hfold : (match (cone.apply absParamProblem).run.run { next := 7 } with
      | (.ok (Q, _), _) => (Q.roots.flatMap Expr.foldTargets).all Expr.evaluates
      | (.error _, _) => false) = true := by decide +kernel
  rcases h : (cone.apply absParamProblem).run.run { next := 7 } with ⟨_ | ⟨Q, D⟩, w⟩ <;>
    rw [h] at hfold
  · cases hfold
  obtain ⟨hok, hcopies⟩ := recanonicalize_copies h (Or.inl rfl) w
  obtain ⟨Q', D', v, h'⟩ := hok.2 hfold
  obtain ⟨-, -, hcons, hvars⟩ := hcopies h'
  exact ⟨Q, D, w, Q', D', v, rfl, h', hcons.length_eq.symm, hvars⟩

/-- Minimize `0` subject to the vectors `(1, 2)` and `(1, 2, 3)` being equal. -/
def mismatchProblem : Problem :=
  let a : Expr := .const 0 (Value.ofList [1, 2]) (Shape.vector 2)
  let b : Expr := .const 1 (Value.ofList [1, 2, 3]) (Shape.vector 3)
  ⟨⟨.minimize, .const 2 (.scalar 0) .scalar⟩, [⟨3, .equality a b⟩]⟩

/-- The standard table turns an equality of two constant vectors of different lengths into the
zero cone over their difference, which it builds and does not evaluate. A second pass, with
either table, folds that difference and fails on the shapes. -/
theorem recanonicalize_fails_mismatch :
    ∃ Q D w, (cone.apply mismatchProblem).run.run { next := 4 } = (.ok (Q, D), w) ∧
      ∀ T ∈ [cone, empty],
        ∃ e v, (T.apply Q).run.run w = (.error e, v) ∧ e.category = .shapeMismatch := by
  have hfail : (match (cone.apply mismatchProblem).run.run { next := 4 } with
      | (.ok (Q, _), w) => [cone, empty].all fun T => match (T.apply Q).run.run w with
        | (.error e, _) => e.category == .shapeMismatch
        | (.ok _, _) => false
      | (.error _, _) => false) = true := by decide +kernel
  rcases h : (cone.apply mismatchProblem).run.run { next := 4 } with ⟨_ | ⟨Q, D⟩, w⟩ <;>
    rw [h] at hfail
  · cases hfail
  refine ⟨Q, D, w, rfl, fun T hT => ?_⟩
  have hT := List.all_eq_true.1 hfail T hT
  rcases hr : (T.apply Q).run.run w with ⟨e | _, v⟩ <;> rw [hr] at hT
  · exact ⟨e, v, rfl, by simpa using hT⟩
  · cases hT

end Table

end ConicForm
