import ConicForm.Proofs.Walk
/-!
What canonicalization evaluates. The walk evaluates a subtree only where it folds it, and such a
tree, with exact flags, has only constant leaves. So canonicalizing touches no parameter value or
source count, misses a value only in a custom operator of a folded subtree, and reports one fold
for each maximal constant subtree without parameters, in walk order (`apply_offline`).
-/

namespace ConicForm

variable {α β : Type}

/-! ### Folds and their reports -/

namespace Expr

mutual
/-- The maximal constant subtrees without parameters, left to right. -/
def foldTargets : Expr → List Expr
  | .node i op args s c h => if c && !h then [.node i op args s c h] else foldTargetsList args
  | e => if e.isConst && !e.hasParams then [e] else []

def foldTargetsList : List Expr → List Expr
  | [] => []
  | e :: es => foldTargets e ++ foldTargetsList es
end

@[simp] lemma foldTargetsList_eq_flatMap (es : List Expr) :
    foldTargetsList es = es.flatMap foldTargets := by
  induction es with
  | nil => rfl
  | cons e es ih => simp [foldTargetsList, ih]

def foldNote (e : Expr) : Note :=
  ⟨.trace, [.text (e.kind.name ++ " "), .node e.id, .text (": " ++ "folded")]⟩

end Expr

def Note.isFold (n : Note) : Bool :=
  n.level == .trace && n.text.getLast? == some (.text (": " ++ "folded"))

/-- From `w` to `w'` notes were only appended, and those that report folds report `folds`. -/
def ReportsFolds (w w' : World) (folds : List Expr) : Prop :=
  ∃ ns : List Note, w'.notes.toList = w.notes.toList ++ ns ∧
    ns.filter Note.isFold = folds.map Expr.foldNote

namespace ReportsFolds

variable {w w₁ w' : World} {f₁ f₂ : List Expr}

lemma of_notes_eq (h : w'.notes = w.notes) : ReportsFolds w w' [] := ⟨[], by simp [h], rfl⟩

lemma trans (h₁ : ReportsFolds w w₁ f₁) (h₂ : ReportsFolds w₁ w' f₂) :
    ReportsFolds w w' (f₁ ++ f₂) := by
  obtain ⟨ns₁, hw₁, hf₁⟩ := h₁
  obtain ⟨ns₂, hw₂, hf₂⟩ := h₂
  exact ⟨ns₁ ++ ns₂, by simp [hw₂, hw₁], by simp [List.filter_append, hf₁, hf₂]⟩

end ReportsFolds

/-! ### Steps that touch no run-time data -/

/-- A step of canonicalization that touches no run-time data and evaluates `folds`: it neither
reads nor writes parameter values and source counts, it fails for a missing value only where a
custom operator of a node of `folds` returns one, and when it succeeds the notes it appends
report exactly the folds of `folds`, in order. -/
structure Offline (x : Run α) (folds : List Expr) : Prop where
  blind : Blind x.run
  notMissing : ∀ w e w', x.run.run w = (.error e, w') → MissingFrom (folds.flatMap Expr.preorder) e
  reports : ∀ w a w', x.run.run w = (.ok a, w') → ReportsFolds w w' folds

namespace Offline

variable {x : Run α} {f₁ f₂ : List Expr}

lemma congr {f f' : List Expr} (h : f = f') (hx : Offline x f) : Offline x f' := h ▸ hx

lemma seq {g : α → Run β} (hx : Offline x f₁) (hg : ∀ a, Offline (g a) f₂) :
    Offline (x >>= g) (f₁ ++ f₂) where
  blind ps ts := Commutes.seq (hx.blind ps ts) fun a => (hg a).blind ps ts
  notMissing w e w' h := by
    rcases bind_eq_error h with h | ⟨a, w₁, -, h⟩
    · exact (hx.notMissing _ _ _ h).mono fun n hn => by simp_all
    · exact ((hg a).notMissing _ _ _ h).mono fun n hn => by simp_all
  reports w b w' h := by
    obtain ⟨a, w₁, h₁, h₂⟩ := bind_eq_ok h
    exact (hx.reports _ _ _ h₁).trans ((hg a).reports _ _ _ h₂)

lemma seqPair {γ δ : Type} {y : Run (γ × δ)} {g : γ × δ → Run β} (hy : Offline y f₁)
    (hg : ∀ a b, Offline (g (a, b)) f₂) : Offline (y >>= g) (f₁ ++ f₂) :=
  seq hy fun p => hg p.1 p.2

lemma ofBuilds (hx : Builds x) : Offline x [] where
  blind := hx.blind
  notMissing w e w' h := MissingFrom.of_ne (hx.notMissing w e w' h)
  reports w a w' h := ReportsFolds.of_notes_eq (by rw [← hx.notes_eq w, h])

lemma ok (a : α) : Offline (pure a : Run α) [] := ofBuilds (Builds.ok a)

lemma note {l : Level} {m : Message} (h : Note.isFold ⟨l, m⟩ = false) :
    Offline (monadLift (note l m) : Run Unit) [] where
  blind _ _ _ := rfl
  notMissing _ _ _ h := by cases h
  reports w a w' hw := by
    cases hw
    exact ⟨[⟨l, m⟩], by simp, by simp [h]⟩

lemma foldNote (e : Expr) :
    Offline (monadLift (Table.traceNote e.kind.name e.id "folded") : Run Unit) [e] where
  blind _ _ _ := rfl
  notMissing _ _ _ h := by cases h
  reports w a w' hw := by
    cases hw
    exact ⟨[e.foldNote], by simp [Expr.foldNote],
      by simp [Note.isFold, Expr.foldNote]⟩

/-- The fold of `e`: the note that reports it, then a settled step, which misses a value only
where a custom operator of `e` returns one, then a step that folds nothing. -/
lemma fold (e : Expr) {x : Run α} {g : α → Run β} (hx : Settled e.preorder x)
    (hg : ∀ a, Offline (g a) []) :
    Offline (monadLift (Table.traceNote e.kind.name e.id "folded") >>= fun _ => x >>= g) [e] where
  blind ps ts := Commutes.seq ((foldNote e).blind ps ts) fun _ =>
    Commutes.seq (hx.blind ps ts) fun a => (hg a).blind ps ts
  notMissing w err w' h := by
    obtain ⟨r, hr, hrun⟩ := hx
    rcases bind_eq_error h with h | ⟨_, w₁, -, h⟩
    · exact (foldNote e).notMissing _ _ _ h
    rcases bind_eq_error h with h | ⟨a, w₂, -, h⟩
    · rw [hrun] at h
      cases h
      exact (hr err rfl).mono fun n hn => by simpa using hn
    · exact ((hg a).notMissing _ _ _ h).mono fun n hn => by simp at hn
  reports w b w' h := by
    obtain ⟨r, -, hrun⟩ := hx
    obtain ⟨_, w₁, h₁, h⟩ := bind_eq_ok h
    obtain ⟨a, w₂, h₂, h₃⟩ := bind_eq_ok h
    -- the settled step keeps the world, so the fold note is the only report
    rw [hrun] at h₂
    cases h₂
    exact ((foldNote e).reports _ _ _ h₁).trans ((hg a).reports _ _ _ h₃)

lemma mapM {f : α → Run β} (folds : α → List Expr) :
    ∀ xs : List α, (∀ a ∈ xs, Offline (f a) (folds a)) → Offline (xs.mapM f) (xs.flatMap folds)
  | [], _ => ok _
  | x :: xs, hf => by
    rw [List.mapM_cons]
    refine congr (by simp) (seq (hf x (by simp)) fun _ =>
      seq (mapM folds xs fun a ha => hf a (by simp [ha])) fun _ => ok _)

end Offline

/-! ### The walk -/

namespace Table

variable {T : Table}

lemma traceNote_offline (k : String) (i : Nat) (what : String)
    (h : (": " ++ what == ": " ++ "folded") = false) :
    Offline (monadLift (traceNote k i what) : Run Unit) [] :=
  Offline.note (by simpa [Note.isFold] using h)

lemma canonNode_offline {e : Expr} (he : e.flagsExact = true) (args : List Expr) :
    Offline (T.canonNode e args) (if e.isConst && !e.hasParams then [e] else []) := by
  unfold canonNode
  by_cases hc : e.isConst = true
  · rw [if_pos hc]
    by_cases hp : e.hasParams = true
    · rw [if_pos hp]
      exact Offline.congr (by simp [hc, hp])
        ((traceNote_offline _ _ "deferred" (by decide)).seq fun _ =>
          (Offline.ofBuilds (Builds.lift (CounterOnly.deferredOf _ _))).seq fun _ => Offline.ok _)
    · -- the fold: its evaluation reads nothing
      have hp' : e.hasParams = false := by simpa using hp
      have hsettled := (Expr.evalAt_settled fun _ => none).1 e hc hp' he
      rw [if_neg hp]
      exact Offline.congr (by simp [hc, hp'])
        (Offline.fold e hsettled fun _ =>
          (Offline.ofBuilds (Builds.lift (CounterOnly.constant _ _))).seq fun _ => Offline.ok _)
  · rw [if_neg hc]
    have hfolds : (if e.isConst && !e.hasParams then [e] else []) = [] := by simp [hc]
    rw [hfolds]
    split
    · exact Offline.ok _
    · split
      · exact Offline.congr (by simp) ((traceNote_offline _ _ "rewritten by rule" (by decide)).seq
          fun _ => Offline.ofBuilds (ExprRule.builds _ _ _))
      · exact Offline.congr (by simp) ((traceNote_offline _ _ "copied" (by decide)).seq fun _ =>
          (Offline.ofBuilds (e.withArgs_builds args)).seq fun _ => Offline.ok _)

/-- The walk over trees with exact flags touches no run-time data, and folds exactly their
maximal constant subtrees without parameters. -/
lemma canonTree_offline (T : Table) :
    (∀ e acc, e.flagsExact = true → Offline (T.canonTree e acc) e.foldTargets) ∧
    (∀ es acc, es.all Expr.flagsExact = true →
      Offline (T.canonList es acc) (es.flatMap Expr.foldTargets)) := by
  refine canonTree.mutual_induct
    (fun e acc => e.flagsExact = true → Offline (T.canonTree e acc) e.foldTargets)
    (fun es acc => es.all Expr.flagsExact = true →
      Offline (T.canonList es acc) (es.flatMap Expr.foldTargets)) ?_ ?_ ?_ ?_ ?_
  · intro i op args s c hp acc
    dsimp only
    intro hent ih he
    have hargs := (Expr.flagsExact_node.1 he).2.2
    rw [canonTree, if_pos hent]
    -- an entered node is no fold: only its operands are
    refine Offline.congr ?_ ((ih hargs).seqPair fun args' acc₁ =>
      (canonNode_offline he args').seqPair fun r more => Offline.ok _)
    simp only [enters, Expr.isConst, Expr.hasParams, Bool.or_eq_true, Bool.not_eq_true'] at hent
    rcases hent with rfl | rfl <;> simp [Expr.foldTargets, Expr.isConst, Expr.hasParams]
  · intro i op args s c hp acc
    dsimp only
    intro hent he
    rw [canonTree, if_neg hent]
    refine Offline.congr ?_ ((canonNode_offline he []).seqPair fun r more => Offline.ok _)
    simp only [enters, Expr.isConst, Expr.hasParams, Bool.or_eq_true, Bool.not_eq_true',
      not_or, Bool.not_eq_false] at hent
    simp [Expr.foldTargets, Expr.isConst, Expr.hasParams, hent.1, hent.2]
  · intro e acc hleaf he
    rw [canonTree]
    · refine Offline.congr ?_ ((canonNode_offline he []).seqPair fun r more => Offline.ok _)
      cases e
      case node i op args s c h => exact absurd rfl (hleaf i op args s c h)
      all_goals simp [Expr.foldTargets]
    · exact hleaf
  · exact fun acc _ => Offline.congr (by simp) (Offline.ok _)
  · intro e es acc ihe ihes hall
    simp only [List.all_cons, Bool.and_eq_true] at hall
    rw [canonList]
    exact Offline.congr (by simp) ((ihe hall.1).seqPair fun r acc₁ =>
      (ihes acc₁ hall.2).seqPair fun rs acc₂ => Offline.ok _)

lemma canonConsNode_offline (c : Constraint) (args : List Expr) :
    Offline (T.canonConsNode c args) [] := by
  unfold canonConsNode
  split
  · exact Offline.congr (by simp) ((traceNote_offline _ _ "rewritten by rule" (by decide)).seq
      fun _ => Offline.ofBuilds (ConsRule.builds _ _ _))
  · exact Offline.congr (by simp) ((traceNote_offline _ _ "copied" (by decide)).seq fun _ =>
      (Offline.ofBuilds (c.withArgs_builds args)).seq fun _ => Offline.ok _)

lemma canonConstraint_offline {c : Constraint} (hc : c.args.all Expr.flagsExact = true) :
    Offline (T.canonConstraint c) (c.args.flatMap Expr.foldTargets) :=
  Offline.congr (by simp) (((canonTree_offline T).2 _ _ hc).seqPair fun args aux =>
    (canonConsNode_offline c args).seqPair fun top more => Offline.ok _)

lemma canonAll_offline :
    ∀ {cs : List Constraint}, (∀ c ∈ cs, c.args.all Expr.flagsExact = true) →
      Offline (T.canonAll cs) (cs.flatMap fun c => c.args.flatMap Expr.foldTargets)
  | [], _ => Offline.ok _
  | c :: cs, hcs => by
    rw [canonAll]
    have hrest : ∀ c' ∈ cs, c'.args.all Expr.flagsExact = true := fun c' hc' =>
      hcs c' (by simp [hc'])
    exact Offline.congr (by simp) ((canonConstraint_offline (hcs c (by simp))).seqPair
      fun top aux => (canonAll_offline hrest).seqPair fun rest pairs => Offline.ok _)

lemma canonExpr_offline {e : Expr} (he : e.flagsExact = true) :
    Offline (T.canonExpr e) e.foldTargets :=
  Offline.congr (by simp) (((canonTree_offline T).1 e _ he).seqPair fun r aux => Offline.ok _)

/-- **Canonicalization touches no run-time data.** With any table, canonicalizing a problem whose
trees have exact flags neither reads nor writes parameter values and source counts, which are
the same after the run as before; it fails for a missing value only where a custom operator in
a folded subtree returns one; and a successful run folds, and so evaluates, exactly the maximal
constant subtrees without parameters of the objective and of the constraints' operands, each
once, in the order of the walk. The same holds of canonicalizing one tree. -/
theorem apply_offline {P : Problem} (hP : P.roots.all Expr.flagsExact = true) :
    Offline (T.apply P) (P.roots.flatMap Expr.foldTargets) ∧
    (∀ w, ((T.apply P).run.run w).2.params = w.params ∧
      ((T.apply P).run.run w).2.ticks = w.ticks) ∧
    ∀ e : Expr, e.flagsExact = true → Offline (T.canonExpr e) e.foldTargets := by
  simp only [Problem.roots, List.all_cons, Bool.and_eq_true, List.all_flatMap,
    List.all_eq_true] at hP
  have hcons : ∀ c ∈ P.constraints, c.args.all Expr.flagsExact = true := fun c hc => by
    simpa using hP.2 c hc
  have hrun : Offline (T.apply P) (P.roots.flatMap Expr.foldTargets) :=
    Offline.congr (by simp [Problem.roots, List.flatMap_assoc])
      ((canonExpr_offline hP.1).seqPair fun obj objAux =>
        (canonAll_offline hcons).seqPair fun cons pairs =>
          (Offline.note (by simp [Note.isFold])).seq fun _ => Offline.ok _)
  exact ⟨hrun, hrun.blind.keeps, fun e he => canonExpr_offline he⟩

/-- The problem of minimizing `x + p * 3` for a parameter `p`, subject to `x ≥ 0`: the walk
enters the product, which has a parameter, and folds the constant `3`. -/
def scaledParamProblem : Problem :=
  let x : Expr := .var 0 ⟨.scalar, none, false, false⟩
  let p : Expr := .param 1 ⟨.scalar, some "p", 0⟩
  let three : Expr := .const 2 (.scalar 3) .scalar
  ⟨⟨.minimize, .node 4 .add [x, .node 3 .mul [p, three] .scalar true true] .scalar false true⟩,
    [⟨5, .nonneg x⟩]⟩

theorem apply_offline_scaledParam :
    scaledParamProblem.roots.all Expr.flagsExact = true ∧
    Offline (Table.cone.apply scaledParamProblem)
      (scaledParamProblem.roots.flatMap Expr.foldTargets) ∧
    (∀ w, ((Table.cone.apply scaledParamProblem).run.run w).2.params = w.params ∧
      ((Table.cone.apply scaledParamProblem).run.run w).2.ticks = w.ticks) ∧
    ∀ e : Expr, e.flagsExact = true → Offline (Table.cone.canonExpr e) e.foldTargets :=
  ⟨by decide, apply_offline (by decide)⟩

end Table

end ConicForm
