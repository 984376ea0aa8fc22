import Mathlib.Data.List.Forall2
import ConicForm.Canon.Chain
import ConicForm.Proofs.Walk
import ConicForm.Proofs.IdMap
/-!
Solutions mapped back through a chain of canonicalizations. Each stage keeps the ids of its
problem's variables and the map from each constraint to its replacement; a chain undoes its
stages last first, so a constraint takes the dual of what it becomes in the last problem and a
variable keeps its value exactly when every problem of the chain has it (`invert_apply`).
-/

namespace ConicForm

variable {α β : Type}

lemma lookup_eq_none_iff_not_mem {l : List (Nat × α)} {k : Nat} :
    l.lookup k = none ↔ k ∉ l.map (·.1) := by
  rw [List.lookup_eq_none_iff]
  constructor
  · intro h hk
    obtain ⟨p, hp, rfl⟩ := List.mem_map.1 hk
    simp at h
    exact h p.1 p.2 hp rfl
  · intro hk p hp
    exact bne_iff_ne.2 fun h => hk (List.mem_map.2 ⟨p, hp, h.symm⟩)

/-- In pairs with distinct ids, a lookup in the pairs whose values are mapped, those mapped to
nothing dropped, is the lookup followed by the map. -/
lemma lookup_filterMap {l : List (Nat × α)} (hl : (l.map (·.1)).Nodup)
    (g : Nat → α → Option β) (k : Nat) :
    (l.filterMap fun p => (g p.1 p.2).map ((p.1, ·))).lookup k = (l.lookup k).bind (g k) := by
  induction l with
  | nil => rfl
  | cons p l ih =>
    obtain ⟨k', v⟩ := p
    simp only [List.map_cons, List.nodup_cons] at hl
    have hrest := ih hl.2
    by_cases hk : k = k'
    · subst hk
      -- the id is not found further on
      have hnone : l.lookup k = none := lookup_eq_none_iff_not_mem.2 hl.1
      rw [hnone, Option.bind_none] at hrest
      rcases hg : g k v with _ | b <;> simp [hg, hrest]
    · have hne : (k == k') = false := beq_false_of_ne hk
      rcases hg : g k' v with _ | b <;> simp [hg, hrest, List.lookup_cons, hne]

namespace InverseData

variable (D : InverseData) (S : Solution)

@[simp] lemma invert_status : (D.invert S).status = S.status := rfl

@[simp] lemma invert_optVal : (D.invert S).optVal = S.optVal := rfl

@[simp] lemma invert_attr : (D.invert S).attr = S.attr := rfl

lemma invert_dualValue (hD : D.consIdMap.keys.Nodup) (c : Nat) :
    (D.invert S).dualValue? c = (D.consIdMap.find? c).bind S.dualValue? :=
  lookup_filterMap hD (fun _ canon => S.dualValue? canon) c

lemma invert_getValue (hD : D.idMap.keys.Nodup) (v : Nat) :
    (D.invert S).getValue? v = if v ∈ D.idMap.keys then S.getValue? v else none := by
  have h := lookup_filterMap hD (fun id _ => S.getValue? id) v
  simp only [Solution.getValue?, IdMap.find?, invert] at h ⊢
  rw [h]
  by_cases hv : v ∈ D.idMap.keys
  · obtain ⟨x, hx⟩ : ∃ x, D.idMap.lookup v = some x :=
      Option.ne_none_iff_exists'.1 fun h => lookup_eq_none_iff_not_mem.1 h hv
    simp [hx, hv]
  · have hx : D.idMap.lookup v = none := lookup_eq_none_iff_not_mem.2 hv
    simp [hx, hv]

end InverseData

/-- The record a canonicalization keeps holds the variables of the problem it was given, and
its maps have each id once. -/
lemma Table.apply_records {T : Table} {P Q : Problem} {D : InverseData} {w w' : World}
    (h : (T.apply P).run.run w = (.ok (Q, D), w')) :
    D.idMap.keys = P.variableShapes.keys ∧ D.idMap.keys.Nodup ∧ D.consIdMap.keys.Nodup := by
  obtain ⟨-, -, -, -, -, -, -, -, rfl, -⟩ := Table.apply_ok h
  have hkeys : (InverseData.ofProblem P).idMap.keys = P.variableShapes.keys := by
    simp [InverseData.ofProblem, IdMap.keys]
  refine ⟨hkeys, ?_, IdMap.keys_ofList_nodup _⟩
  rw [hkeys, Problem.variableShapes]
  exact IdMap.keys_ofList_nodup _

/-! ### Through a chain -/

namespace Chain

/-- The constraint of the last problem that a constraint of the first one becomes: the
constraint maps of the stages, first stage first. -/
def consMap (ds : List InverseData) (c : Nat) : Option Nat :=
  ds.foldlM (fun c D => D.consIdMap.find? c) c

abbrev undo (ds : List InverseData) (S : Solution) : Solution := ds.foldr (fun D s => D.invert s) S

lemma undo_keeps (ds : List InverseData) (S : Solution) :
    (undo ds S).status = S.status ∧ (undo ds S).optVal = S.optVal ∧ (undo ds S).attr = S.attr := by
  induction ds with
  | nil => exact ⟨rfl, rfl, rfl⟩
  | cons D ds ih => simpa [undo] using ih

lemma undo_dualValue :
    ∀ (ds : List InverseData), (∀ D ∈ ds, D.consIdMap.keys.Nodup) → ∀ (S : Solution) (c : Nat),
      (undo ds S).dualValue? c = (consMap ds c).bind S.dualValue?
  | [], _, S, c => rfl
  | D :: ds, hds, S, c => by
    simp only [undo, List.foldr_cons]
    rw [InverseData.invert_dualValue _ _ (hds D (by simp))]
    -- the first stage maps the constraint, the later stages map what it became
    have ih := undo_dualValue ds (fun D' hD' => hds D' (by simp [hD'])) S
    simp only [undo] at ih
    simp only [consMap, List.foldlM_cons] at ih ⊢
    rcases D.consIdMap.find? c with _ | d
    · rfl
    · simp [ih]

lemma undo_getValue :
    ∀ (ds : List InverseData), (∀ D ∈ ds, D.idMap.keys.Nodup) → ∀ (S : Solution) (v : Nat),
      (undo ds S).getValue? v = if ∀ D ∈ ds, v ∈ D.idMap.keys then S.getValue? v else none
  | [], _, S, v => by simp [undo]
  | D :: ds, hds, S, v => by
    simp only [undo, List.foldr_cons]
    rw [InverseData.invert_getValue _ _ (hds D (by simp))]
    have ih := undo_getValue ds (fun D' hD' => hds D' (by simp [hD'])) S v
    simp only [undo] at ih
    by_cases hv : v ∈ D.idMap.keys <;> simp [hv, ih]

/-- `Runs Ts P w Ps ds Q w'`: from the world `w`, the stages `Ts` take `P` to `Q` through the
problems `Ps`, each stage applied to the next of them, `P` first; `ds` are the records the stages
keep and `w'` the world they leave. -/
inductive Runs : List Table → Problem → World → List Problem → List InverseData → Problem →
    World → Prop where
  | nil (P : Problem) (w : World) : Runs [] P w [] [] P w
  | cons {T : Table} {Ts : List Table} {P P₁ Q : Problem} {D : InverseData} {Ps : List Problem}
      {ds : List InverseData} {w w₁ w' : World} :
      (T.apply P).run.run w = (.ok (P₁, D), w₁) →
      Runs Ts P₁ { w₁ with
        notes := w₁.notes.push ⟨.debug, stageNote P.constraints.length P₁.constraints.length⟩ }
        Ps ds Q w' →
      Runs (T :: Ts) P w (P :: Ps) (D :: ds) Q w'

lemma applyFrom_runs :
    ∀ (Ts : List Table) {P Q : Problem} {ds : List InverseData} {w w' : World},
      (applyFrom Ts P).run.run w = (.ok (Q, ds), w') → ∃ Ps, Runs Ts P w Ps ds Q w'
  | [], P, Q, ds, w, w', h => by
    simp only [applyFrom, run_pure] at h
    cases h
    exact ⟨[], .nil P w⟩
  | T :: Ts, P, Q, ds, w, w', h => by
    rw [applyFrom] at h
    obtain ⟨⟨P₁, D⟩, w₁, h₁, hrest⟩ := bind_eq_ok h
    rw [run_monadLift_bind, note_run] at hrest
    obtain ⟨⟨R, ds'⟩, w₂, h₂, hdone⟩ := bind_eq_ok hrest
    simp only [run_pure] at hdone
    cases hdone
    obtain ⟨Ps, hPs⟩ := applyFrom_runs Ts h₂
    exact ⟨P :: Ps, .cons h₁ hPs⟩

lemma Runs.records {Ts : List Table} {P Q : Problem} {Ps : List Problem} {ds : List InverseData}
    {w w' : World} (h : Runs Ts P w Ps ds Q w') :
    ds.length = Ts.length ∧ List.Forall₂ (fun Pi D => D.idMap.keys = Pi.variableShapes.keys ∧
      D.idMap.keys.Nodup ∧ D.consIdMap.keys.Nodup) Ps ds := by
  induction h with
  | nil => exact ⟨rfl, .nil⟩
  | cons hT _ ih => exact ⟨by simp [ih.1], .cons (Table.apply_records hT) ih.2⟩

/-- **Solutions map back through a chain.** For any stages with any tables, after a successful
run of the chain through the problems `Ps` (the problem each stage was given, the first one
first), every solution of the last problem maps back to one of the first: status, optimal value
and attributes are kept; a constraint has a dual exactly when the constraint it becomes through
the maps of all stages has one in the solution, and takes that dual, so the duals of auxiliary
constraints are never carried back; a variable has a value exactly when the solution gives it
one and it is a variable of every problem of `Ps`, and keeps that value. Records of the wrong
number are refused as an invalid problem. -/
theorem invert_apply {C : Chain} {P Q : Problem} {ds : List InverseData} {w w' : World}
    (h : (C.apply P).run.run w = (.ok (Q, ds), w')) :
    ∃ Ps, Runs C.stages P w Ps ds Q w' ∧ ∀ S : Solution, ∃ S', C.invert S ds = .ok S' ∧
      S'.status = S.status ∧ S'.optVal = S.optVal ∧ S'.attr = S.attr ∧
      (∀ c x, S'.dualValue? c = some x ↔ ∃ d, consMap ds c = some d ∧ S.dualValue? d = some x) ∧
      (∀ v x, S'.getValue? v = some x ↔
        S.getValue? v = some x ∧ ∀ Pi ∈ Ps, v ∈ Pi.variableShapes.keys) ∧
      ∀ ds' : List InverseData, ds'.length ≠ C.stages.length →
        ∃ e, C.invert S ds' = .error e ∧ e.category = .invalidProblem := by
  obtain ⟨Ps, hPs⟩ := applyFrom_runs C.stages h
  obtain ⟨hlen, hrec⟩ := hPs.records
  -- the variables of every record are those of every problem
  have hvars : ∀ v, (∀ D ∈ ds, v ∈ D.idMap.keys) ↔ ∀ Pi ∈ Ps, v ∈ Pi.variableShapes.keys := by
    intro v
    clear hPs hlen h
    induction hrec with
    | nil => simp
    | cons hD _ ih => simp [hD.1, ih]
  have hnodup : (∀ D ∈ ds, D.idMap.keys.Nodup) ∧ ∀ D ∈ ds, D.consIdMap.keys.Nodup := by
    clear hPs hlen h hvars
    induction hrec with
    | nil => simp
    | cons hD _ ih =>
      refine ⟨fun D hD' => ?_, fun D hD' => ?_⟩ <;> rcases List.mem_cons.1 hD' with rfl | hD'
      exacts [hD.2.1, ih.1 D hD', hD.2.2, ih.2 D hD']
  refine ⟨Ps, hPs, fun S => ?_⟩
  obtain ⟨hst, hval, hattr⟩ := undo_keeps ds S
  refine ⟨undo ds S, by simp [invert, hlen], hst, hval, hattr, fun c x => ?_, fun v x => ?_,
    fun ds' hds' => ⟨.inverseCount C.stages.length ds'.length, by simp [invert, hds'], rfl⟩⟩
  · rw [undo_dualValue ds hnodup.2 S c, Option.bind_eq_some_iff]
  · rw [undo_getValue ds hnodup.1 S v, ← hvars v]
    by_cases hv : ∀ D ∈ ds, v ∈ D.idMap.keys
    · rw [if_pos hv]
      exact ⟨fun hx => ⟨hx, hv⟩, fun hx => hx.1⟩
    · rw [if_neg hv]
      simp [hv]

def boundedAbs : Problem :=
  let x : Expr := .var 0 ⟨.scalar, none, false, false⟩
  ⟨⟨.minimize, .node 1 .abs [x] .scalar false false⟩,
    [⟨3, .inequality x (.const 2 (.scalar 1) .scalar)⟩]⟩

def coneThenCopy : Chain := ⟨[Table.cone, Table.empty]⟩

theorem invert_apply_coneThenCopy :
    ∃ Q ds w', (coneThenCopy.apply boundedAbs).run.run { next := 4 } = (.ok (Q, ds), w') ∧
    ∃ Ps, Runs coneThenCopy.stages boundedAbs { next := 4 } Ps ds Q w' ∧
      ∀ S : Solution, ∃ S', coneThenCopy.invert S ds = .ok S' ∧
      S'.status = S.status ∧ S'.optVal = S.optVal ∧ S'.attr = S.attr ∧
      (∀ c x, S'.dualValue? c = some x ↔ ∃ d, consMap ds c = some d ∧ S.dualValue? d = some x) ∧
      (∀ v x, S'.getValue? v = some x ↔
        S.getValue? v = some x ∧ ∀ Pi ∈ Ps, v ∈ Pi.variableShapes.keys) ∧
      ∀ ds' : List InverseData, ds'.length ≠ coneThenCopy.stages.length →
        ∃ e, coneThenCopy.invert S ds' = .error e ∧ e.category = .invalidProblem := by
  have hok : (match (coneThenCopy.apply boundedAbs).run.run { next := 4 } with
      | (.ok _, _) => true
      | (.error _, _) => false) = true := by decide +kernel
  rcases hr : (coneThenCopy.apply boundedAbs).run.run { next := 4 } with ⟨_ | ⟨Q, ds⟩, w'⟩
  · rw [hr] at hok
    cases hok
  · exact ⟨Q, ds, w', rfl, invert_apply hr⟩

end Chain

end ConicForm
