import ConicForm.Proofs.Rules
import ConicForm.Proofs.Eval
/-!
What canonicalization does to the list of constraints.

The walk over a tree appends to the list it is given, and everything it appends takes fresh
ids: rules take them, copies and folds take none for constraints, and evaluation keeps the
counter. Canonicalizing the constraints of a problem is canonicalizing each of them in order
(`canonAll_run`), so a successful run of `apply` splits into the walk over the objective and one
run per constraint (`apply_ok`), and all the constraints it makes take distinct fresh ids.
-/

namespace ConicForm

namespace Table

variable {T : Table} {w w' : World}

/-! ### One node -/

lemma canonNode_fresh {e : Expr} {args : List Expr} {r : Expr} {more : List Constraint}
    (h : (T.canonNode e args).run.run w = (.ok (r, more), w')) :
    FreshIds w.next w'.next (more.map (·.id)) := by
  unfold canonNode at h
  split at h
  · split at h
    · -- a deferred leaf
      simp only [run_bind, run_monadLift, traceNote_run, Expr.deferredOf_run,
        run_pure] at h
      cases h
      exact FreshIds.nil (by simp)
    · -- a folded constant: the evaluation keeps the counter
      simp only [run_monadLift_bind, traceNote_run] at h
      obtain ⟨v, w₁, h₁, h₂⟩ := bind_eq_ok h
      simp only [run_bind, run_monadLift, Expr.constant_run, run_pure] at h₂
      cases h₂
      exact FreshIds.nil (by simp [(Expr.evalAt_keeps h₁).1])
  · split at h
    · simp only [run_pure] at h
      cases h
      exact FreshIds.nil (Nat.le_refl _)
    · split at h
      · simp only [run_monadLift_bind, traceNote_run] at h
        -- the rule runs from the world with the note, which has the same counter
        have hfresh := ExprRule.apply_fresh _ h
        exact hfresh
      · simp only [run_monadLift_bind, traceNote_run] at h
        obtain ⟨r', w₁, h₁, h₂⟩ := bind_eq_ok h
        simp only [run_pure] at h₂
        cases h₂
        exact FreshIds.nil (by have := Expr.withArgs_next h₁; simp at this; omega)

/-! ### Successful steps of the walk -/

lemma canonNode_append_ok {e r : Expr} {args : List Expr} {acc acc' : Array Constraint}
    (h : (do
      let (r, more) ← T.canonNode e args
      pure (r, acc ++ more.toArray) : Run _).run.run w = (.ok (r, acc'), w')) :
    ∃ more, (T.canonNode e args).run.run w = (.ok (r, more), w') ∧
      acc' = acc ++ more.toArray := by
  obtain ⟨⟨r', more⟩, w₁, h₁, h₂⟩ := bind_eq_ok h
  simp only [run_pure] at h₂
  cases h₂
  exact ⟨more, h₁, rfl⟩

lemma canonList_cons_ok {e : Expr} {es rs : List Expr} {acc acc' : Array Constraint}
    (h : (T.canonList (e :: es) acc).run.run w = (.ok (rs, acc'), w')) :
    ∃ r rs' acc₁ w₁, (T.canonTree e acc).run.run w = (.ok (r, acc₁), w₁) ∧
      (T.canonList es acc₁).run.run w₁ = (.ok (rs', acc'), w') ∧ rs = r :: rs' := by
  rw [canonList] at h
  obtain ⟨⟨r, acc₁⟩, w₁, h₁, hrest⟩ := bind_eq_ok h
  obtain ⟨⟨rs', acc₂⟩, w₂, h₂, hdone⟩ := bind_eq_ok hrest
  simp only [run_pure] at hdone
  cases hdone
  exact ⟨r, rs', acc₁, w₁, h₁, h₂, rfl⟩

lemma canonExpr_ok {e r : Expr} {aux : List Constraint}
    (h : (T.canonExpr e).run.run w = (.ok (r, aux), w')) :
    ∃ acc, (T.canonTree e #[]).run.run w = (.ok (r, acc), w') ∧ aux = acc.toList := by
  obtain ⟨⟨r', acc⟩, w₁, h₁, hdone⟩ := bind_eq_ok h
  simp only [run_pure] at hdone
  cases hdone
  exact ⟨acc, h₁, rfl⟩

lemma canonConstraint_steps {c k : Constraint} {aux : List Constraint}
    (h : (T.canonConstraint c).run.run w = (.ok (k, aux), w')) :
    ∃ args acc more w₁, (T.canonList c.args #[]).run.run w = (.ok (args, acc), w₁) ∧
      (T.canonConsNode c args).run.run w₁ = (.ok (k, more), w') ∧ aux = acc.toList ++ more := by
  obtain ⟨⟨args, acc⟩, w₁, h₁, hrest⟩ := bind_eq_ok h
  obtain ⟨⟨top, more⟩, w₂, h₂, hdone⟩ := bind_eq_ok hrest
  simp only [run_pure] at hdone
  cases hdone
  exact ⟨args, acc, more, w₁, h₁, h₂, rfl⟩

/-! ### The walk over trees -/

/-- From `w` to `w'`, the walk turned `acc` into `acc'` by appending constraints with fresh ids. -/
def Appends (w w' : World) (acc acc' : Array Constraint) : Prop :=
  ∃ new : List Constraint,
    acc'.toList = acc.toList ++ new ∧ FreshIds w.next w'.next (new.map (·.id))

namespace Appends

variable {w₁ : World} {acc acc₁ acc' : Array Constraint}

lemma refl (w : World) (acc : Array Constraint) : Appends w w acc acc :=
  ⟨[], by simp, FreshIds.nil (Nat.le_refl _)⟩

lemma trans (h₁ : Appends w w₁ acc acc₁) (h₂ : Appends w₁ w' acc₁ acc') :
    Appends w w' acc acc' := by
  obtain ⟨new₁, h₁, f₁⟩ := h₁
  obtain ⟨new₂, h₂, f₂⟩ := h₂
  exact ⟨new₁ ++ new₂, by simp [h₂, h₁], by simpa using f₁.append f₂⟩

lemma append {more : List Constraint} (h : FreshIds w.next w'.next (more.map (·.id))) :
    Appends w w' acc (acc ++ more.toArray) :=
  ⟨more, by simp, h⟩

end Appends

lemma canonNode_appends {e : Expr} {args : List Expr} {acc : Array Constraint} {r : Expr}
    {acc' : Array Constraint} (h : (do
      let (r, more) ← T.canonNode e args
      pure (r, acc ++ more.toArray) : Run _).run.run w = (.ok (r, acc'), w')) :
    Appends w w' acc acc' := by
  obtain ⟨more, h₁, rfl⟩ := canonNode_append_ok h
  exact Appends.append (canonNode_fresh h₁)

lemma canonTree_appends (T : Table) :
    (∀ e acc {w w' r acc'}, (T.canonTree e acc).run.run w = (.ok (r, acc'), w') →
      Appends w w' acc acc') ∧
    (∀ es acc {w w' rs acc'}, (T.canonList es acc).run.run w = (.ok (rs, acc'), w') →
      Appends w w' acc acc') := by
  refine canonTree.mutual_induct
    (fun e acc => ∀ {w w' r acc'}, (T.canonTree e acc).run.run w = (.ok (r, acc'), w') →
      Appends w w' acc acc')
    (fun es acc => ∀ {w w' rs acc'}, (T.canonList es acc).run.run w = (.ok (rs, acc'), w') →
      Appends w w' acc acc') ?_ ?_ ?_ ?_ ?_
  · intro i op args s c hp acc
    dsimp only
    intro hent ih w w' r acc' h
    rw [canonTree, if_pos hent] at h
    obtain ⟨⟨args', acc₁⟩, w₁, h₁, hnode⟩ := bind_eq_ok h
    exact (ih h₁).trans (canonNode_appends hnode)
  · intro i op args s c hp acc
    dsimp only
    intro hent w w' r acc' h
    rw [canonTree, if_neg hent] at h
    exact canonNode_appends h
  · intro e acc hleaf w w' r acc' h
    -- a leaf: the equation of the catch-all case asks that it is no node
    rw [canonTree] at h
    · exact canonNode_appends h
    · exact hleaf
  · intro acc w w' rs acc' h
    simp only [canonList, run_pure] at h
    cases h
    exact Appends.refl _ _
  · intro e es acc ihe ihes w w' rs acc' h
    obtain ⟨r, rs', acc₁, w₁, h₁, h₂, -⟩ := canonList_cons_ok h
    exact (ihe h₁).trans (ihes acc₁ h₂)

/-! ### Trees, constraints and problems -/

lemma canonExpr_fresh {e r : Expr} {aux : List Constraint}
    (h : (T.canonExpr e).run.run w = (.ok (r, aux), w')) :
    FreshIds w.next w'.next (aux.map (·.id)) := by
  obtain ⟨acc, h₁, rfl⟩ := canonExpr_ok h
  obtain ⟨new, hnew, hfresh⟩ := (canonTree_appends T).1 _ _ h₁
  simpa [hnew] using hfresh

lemma canonConsNode_fresh {c top : Constraint} {args : List Expr} {more : List Constraint}
    (h : (T.canonConsNode c args).run.run w = (.ok (top, more), w')) :
    FreshIds w.next w'.next ((more ++ [top]).map (·.id)) := by
  unfold canonConsNode at h
  split at h
  · simp only [run_monadLift_bind, traceNote_run] at h
    have hfresh := ConsRule.apply_fresh _ h
    exact hfresh.perm (by simpa using (List.perm_append_singleton _ _).symm)
  · simp only [run_monadLift_bind, traceNote_run] at h
    obtain ⟨top', w₁, h₁, hdone⟩ := bind_eq_ok h
    simp only [run_pure] at hdone
    cases hdone
    obtain ⟨hid, hnext⟩ := Constraint.withArgs_ok h₁
    refine ⟨?_, ?_, ?_⟩ <;> simp_all

lemma canonConstraint_fresh {c k : Constraint} {aux : List Constraint}
    (h : (T.canonConstraint c).run.run w = (.ok (k, aux), w')) :
    FreshIds w.next w'.next ((aux ++ [k]).map (·.id)) := by
  obtain ⟨args, acc, more, w₁, h₁, h₂, rfl⟩ := canonConstraint_steps h
  obtain ⟨new, hnew, hfresh⟩ := (canonTree_appends T).2 _ _ h₁
  simpa [hnew] using hfresh.append (canonConsNode_fresh h₂)

/-- Canonicalizing the constraints is canonicalizing each one in order: out come each one's
auxiliary constraints followed by its replacement, and each constraint's id paired with its
replacement's. -/
lemma canonAll_run (T : Table) (cs : List Constraint) (w : World) :
    (T.canonAll cs).run.run w = match (cs.mapM T.canonConstraint).run.run w with
      | (.ok rs, w') =>
        (.ok (rs.flatMap (fun r => r.2 ++ [r.1]), (cs.zip rs).map fun p => (p.1.id, p.2.1.id)), w')
      | (.error e, w') => (.error e, w') := by
  induction cs generalizing w with
  | nil => rfl
  | cons c cs ih =>
    rw [canonAll, List.mapM_cons, run_bind, run_bind]
    rcases T.canonConstraint c |>.run.run w with ⟨e | ⟨top, aux⟩, w₁⟩
    · rfl
    · simp only
      rw [run_bind, run_bind, ih]
      rcases (cs.mapM T.canonConstraint).run.run w₁ with ⟨e | rs, w₂⟩
      · rfl
      · show (Except.ok (_, _), w₂) = (Except.ok (_, _), w₂)
        simp

/-- A successful canonicalization of a problem canonicalized the objective, then each constraint
in order, and wrote its debug note. -/
lemma apply_ok {P Q : Problem} {D : InverseData} (h : (T.apply P).run.run w = (.ok (Q, D), w')) :
    ∃ obj objAux w₀ rs w₁,
      (T.canonExpr P.objective.expr).run.run w = (.ok (obj, objAux), w₀) ∧
      (P.constraints.mapM T.canonConstraint).run.run w₀ = (.ok rs, w₁) ∧
      Q = ⟨⟨P.objective.sense, obj⟩, objAux ++ rs.flatMap (fun r => r.2 ++ [r.1])⟩ ∧
      D = { InverseData.ofProblem P with
        consIdMap := IdMap.ofList ((P.constraints.zip rs).map fun p => (p.1.id, p.2.1.id)) } ∧
      w' = { w₁ with notes := w₁.notes.push ⟨.debug, applyNote P.constraints.length
        (objAux ++ rs.flatMap (fun r => r.2 ++ [r.1])).length objAux.length T.size⟩ } := by
  obtain ⟨⟨obj, objAux⟩, w₀, h₀, hrest⟩ := bind_eq_ok h
  obtain ⟨⟨cons, pairs⟩, w₁, h₁, hdone⟩ := bind_eq_ok hrest
  rw [canonAll_run] at h₁
  rcases hcs : (P.constraints.mapM T.canonConstraint).run.run w₀ with ⟨e | rs, w₂⟩ <;>
    rw [hcs] at h₁
  · cases h₁
  · cases h₁
    simp only [run_monadLift_bind, note_run, run_pure] at hdone
    cases hdone
    exact ⟨obj, objAux, w₀, rs, w₁, h₀, hcs, rfl, rfl, rfl⟩

end Table

end ConicForm
