import ConicForm.Proofs.Walk
import ConicForm.Proofs.IdMap
/-!
The constraints of a canonical problem, and the map from each constraint to its replacement.

The canonical problem lists the auxiliary constraints of the objective, then for each constraint
its auxiliary constraints followed by its replacement. All of them take fresh ids, so when the
constraints of the problem have distinct ids, the map of the inverse record pairs each of them
with its replacement and with nothing else: its values are the ids of the replacements, each
once, and no auxiliary constraint is a value.
-/

namespace ConicForm

def Problem.ids (P : Problem) : List Nat :=
  P.constraints.map (·.id) ++ (P.roots.flatMap Expr.preorder).map (·.id)

namespace Table

/-! ### The layout of the constraints -/

/-- Each constraint's auxiliary constraints followed by its replacement, for a list of results:
the auxiliary constraints and the replacements, reordered. -/
lemma layout_perm (rs : List (Constraint × List Constraint)) :
    (rs.flatMap fun r => r.2 ++ [r.1]).Perm (rs.flatMap (·.2) ++ rs.map (·.1)) := by
  induction rs with
  | nil => simp
  | cons r rs ih =>
    obtain ⟨top, aux⟩ := r
    simp only [List.flatMap_cons, List.map_cons, List.append_assoc]
    -- the replacement moves past the auxiliary constraints of the later results
    refine ((ih.append_left _).append_left aux).trans (List.Perm.append_left aux ?_)
    rw [List.singleton_append]
    exact List.perm_middle.symm

lemma pairs_keys {cs : List Constraint} {rs : List (Constraint × List Constraint)}
    (hlen : rs.length = cs.length) :
    ((cs.zip rs).map fun p => (p.1.id, p.2.1.id)).map (·.1) = cs.map (·.id) := by
  have hfst : (cs.zip rs).map Prod.fst = cs := List.map_fst_zip (by omega)
  calc _ = ((cs.zip rs).map Prod.fst).map (·.id) := by simp only [List.map_map]; rfl
    _ = cs.map (·.id) := by rw [hfst]

lemma pairs_values {cs : List Constraint} {rs : List (Constraint × List Constraint)}
    (hlen : rs.length = cs.length) :
    ((cs.zip rs).map fun p => (p.1.id, p.2.1.id)).map (·.2) = rs.map (·.1.id) := by
  have hsnd : (cs.zip rs).map Prod.snd = rs := List.map_snd_zip (by omega)
  calc _ = ((cs.zip rs).map Prod.snd).map (·.1.id) := by simp only [List.map_map]; rfl
    _ = rs.map (·.1.id) := by rw [hsnd]

/-! ### The canonical problem -/

variable {T : Table} {w w' : World}

lemma apply_constraints_fresh {P Q : Problem} {D : InverseData}
    (h : (T.apply P).run.run w = (.ok (Q, D), w')) :
    FreshIds w.next w'.next (Q.constraints.map (·.id)) := by
  obtain ⟨obj, objAux, w₀, rs, w₁, h₀, h₁, rfl, -, rfl⟩ := apply_ok h
  have hobj := canonExpr_fresh h₀
  have hcons := mapM_fresh (fun r => (r.2 ++ [r.1]).map (·.id))
    (fun _ _ _ _ hc => canonConstraint_fresh hc) _ h₁
  simpa [List.map_flatMap] using hobj.append hcons

/-- **The constraint map.** A successful canonicalization of a problem whose constraints have
distinct ids canonicalizes the objective and then each constraint in order; the canonical
problem keeps the sense and lists the objective's auxiliary constraints, then each constraint's
auxiliary constraints followed by its replacement. Its constraints take distinct ids that no
node or constraint of the problem has, and the constraint map pairs exactly the problem's
constraints with their replacements: it is injective, its values are the replacements' ids, and
no auxiliary constraint is a value. -/
theorem apply_constraint_map {P Q : Problem} {D : InverseData}
    (hids : (P.constraints.map (·.id)).Nodup) (hP : ∀ i ∈ P.ids, i < w.next)
    (h : (T.apply P).run.run w = (.ok (Q, D), w')) :
    ∃ obj objAux w₀ rs w₁,
      (T.canonExpr P.objective.expr).run.run w = (.ok (obj, objAux), w₀) ∧
      (P.constraints.mapM T.canonConstraint).run.run w₀ = (.ok rs, w₁) ∧
      Q.objective = ⟨P.objective.sense, obj⟩ ∧
      Q.constraints = objAux ++ rs.flatMap (fun r => r.2 ++ [r.1]) ∧
      (∀ x y, D.consIdMap.find? x = some y ↔
        ∃ p ∈ P.constraints.zip rs, p.1.id = x ∧ p.2.1.id = y) ∧
      (∀ x, x ∈ D.consIdMap.keys ↔ x ∈ P.constraints.map (·.id)) ∧
      (Q.constraints.map (·.id)).Nodup ∧
      (∀ c ∈ Q.constraints, c.id ∉ P.ids) ∧
      (D.consIdMap.map (·.2)).Nodup ∧
      (D.consIdMap.map (·.2)).Perm (rs.map (·.1.id)) ∧
      ∀ a ∈ objAux ++ rs.flatMap (·.2), a.id ∉ D.consIdMap.map (·.2) := by
  have hfresh := apply_constraints_fresh h
  obtain ⟨obj, objAux, w₀, rs, w₁, h₀, h₁, rfl, rfl, rfl⟩ := apply_ok h
  have hlen := mapM_length _ h₁
  have hkeys := pairs_keys hlen
  have hnodup : ((((P.constraints.zip rs).map fun p => (p.1.id, p.2.1.id))).map (·.1)).Nodup := by
    rw [hkeys]
    exact hids
  -- with distinct keys the map holds the pairs, sorted
  have hvals : ((IdMap.ofList ((P.constraints.zip rs).map fun p => (p.1.id, p.2.1.id))).map
      (·.2)).Perm (rs.map (·.1.id)) := by
    rw [IdMap.ofList_of_nodup hnodup, ← pairs_values hlen]
    exact (IdMap.ofList_perm _).map _
  -- the auxiliary constraints and the replacements are apart
  have hsplit : ((objAux ++ rs.flatMap (·.2)).map (·.id) ++ rs.map (·.1.id)).Nodup := by
    have hperm := ((layout_perm rs).append_left objAux).map (·.id)
    simp only [List.map_append, List.append_assoc, List.map_map] at hperm hfresh ⊢
    exact hperm.nodup_iff.1 hfresh.nodup
  obtain ⟨-, htops, hapart⟩ := List.nodup_append.1 hsplit
  refine ⟨obj, objAux, w₀, rs, w₁, h₀, h₁, rfl, rfl, fun x y => ?_, fun x => ?_, hfresh.nodup,
    fun c hc hcP => ?_, hvals.nodup_iff.2 htops, hvals, fun a ha hval => ?_⟩
  · simp only [IdMap.find?_ofList hnodup, lookup_eq_some_iff_mem hnodup, List.mem_map,
      Prod.mk.injEq]
  · rw [IdMap.mem_keys_ofList hnodup, hkeys]
  · -- a new id is at least the counter, which is above every id of the problem
    have hnew := (hfresh.bounds c.id (List.mem_map_of_mem hc)).1
    have hold := hP c.id hcP
    omega
  · exact hapart a.id (List.mem_map_of_mem ha) a.id (hvals.mem_iff.1 hval) rfl

/-- The problem of minimizing `|x|` subject to `y ≥ 0` and `x = y`. -/
def absProblem : Problem :=
  let x : Expr := .var 0 ⟨.scalar, none, false, false⟩
  let y : Expr := .var 1 ⟨.scalar, none, false, false⟩
  ⟨⟨.minimize, .node 2 .abs [x] .scalar false false⟩, [⟨3, .nonneg y⟩, ⟨4, .equality x y⟩]⟩

theorem apply_constraint_map_abs :
    (absProblem.constraints.map (·.id)).Nodup ∧ (∀ i ∈ absProblem.ids, i < 5) ∧
    ∃ Q D w', (Table.cone.apply absProblem).run.run { next := 5 } = (.ok (Q, D), w') ∧
    ∃ obj objAux w₀ rs w₁,
      (Table.cone.canonExpr absProblem.objective.expr).run.run { next := 5 } =
        (.ok (obj, objAux), w₀) ∧
      (absProblem.constraints.mapM Table.cone.canonConstraint).run.run w₀ = (.ok rs, w₁) ∧
      Q.objective = ⟨absProblem.objective.sense, obj⟩ ∧
      Q.constraints = objAux ++ rs.flatMap (fun r => r.2 ++ [r.1]) ∧
      (∀ x y, D.consIdMap.find? x = some y ↔
        ∃ p ∈ absProblem.constraints.zip rs, p.1.id = x ∧ p.2.1.id = y) ∧
      (∀ x, x ∈ D.consIdMap.keys ↔ x ∈ absProblem.constraints.map (·.id)) ∧
      (Q.constraints.map (·.id)).Nodup ∧
      (∀ c ∈ Q.constraints, c.id ∉ absProblem.ids) ∧
      (D.consIdMap.map (·.2)).Nodup ∧
      (D.consIdMap.map (·.2)).Perm (rs.map (·.1.id)) ∧
      ∀ a ∈ objAux ++ rs.flatMap (·.2), a.id ∉ D.consIdMap.map (·.2) := by
  have hids : (absProblem.constraints.map (·.id)).Nodup := by decide
  have hP : ∀ i ∈ absProblem.ids, i < 5 := by decide +kernel
  have hok : (match (Table.cone.apply absProblem).run.run { next := 5 } with
      | (.ok _, _) => true
      | (.error _, _) => false) = true := by decide +kernel
  rcases hr : (Table.cone.apply absProblem).run.run { next := 5 } with ⟨_ | ⟨Q, D⟩, w'⟩
  · rw [hr] at hok
    cases hok
  · exact ⟨hids, hP, Q, D, w', rfl, apply_constraint_map hids hP hr⟩

end Table

end ConicForm
