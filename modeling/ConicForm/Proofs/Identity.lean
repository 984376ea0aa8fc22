import ConicForm.Proofs.Ledger
import ConicForm.Proofs.ConstraintMap
/-!
Identity and freshness of what canonicalization makes. Every node reachable from the output is
a variable of the input or a node made during the call, with distinct ids for distinct nodes and
for the constraints, and no other node of the input is reachable (`canon_fresh_output`). The
proof carries a ledger of the ids taken through the walk (`canonTree_makes`).
-/

namespace ConicForm

variable {src : List Expr} {L : Ledger} {lo : Nat}

lemma showsTree_of_isVariable {e : Expr} (hv : e.isVariable = true) (he : e ∈ src) :
    ShowsTree src L e := by
  cases e <;> simp only [Expr.isVariable, Bool.false_eq_true] at hv
  exact showsTree_var he

/-! ### The walk -/

namespace Table

lemma traceNote_keeps (k : String) (i : Nat) (what : String) (w : World) (a : Unit) (w' : World)
    (h : (monadLift (traceNote k i what) : Run Unit).run.run w = (.ok a, w')) :
    w'.next = w.next := by
  simp only [run_monadLift, traceNote_run] at h
  cases h
  rfl

lemma canonNode_makes (T : Table) {e : Expr} {args : List Expr}
    (hvar : e.isVariable = true → e ∈ src) (hargs : ∀ a ∈ args, ShowsTree src L a) :
    Makes lo L (T.canonNode e args) (ShowsResult src) := by
  unfold canonNode
  split
  · split
    · refine Makes.bind_keep (traceNote_keeps _ _ _) fun _ => ?_
      exact (Makes.lift (bmakes_deferredOf src _ _)).bind fun L₁ d _ hd =>
        Makes.pure ⟨hd, by simp⟩
    · -- evaluation keeps the counter
      refine Makes.bind_keep (traceNote_keeps _ _ _) fun _ => ?_
      refine Makes.bind_keep (fun w v w' h => (Expr.evalAt_keeps h).1) fun v => ?_
      exact (Makes.lift (bmakes_constant src _ _)).bind fun L₁ c _ hc =>
        Makes.pure ⟨hc, by simp⟩
  · split
    · rename_i hv
      exact Makes.pure ⟨showsTree_of_isVariable hv (hvar hv), by simp⟩
    · split
      · exact Makes.bind_keep (traceNote_keeps _ _ _) fun _ => ExprRule.makes hargs _ e
      · refine Makes.bind_keep (traceNote_keeps _ _ _) fun _ => ?_
        exact (e.makes_withArgs hargs).bind fun L₁ r _ hr => Makes.pure ⟨hr, by simp⟩

/-- The walk over trees whose nodes are among `src` shows its output and every constraint it
appends, given the constraints it starts from. -/
lemma canonTree_makes (T : Table) :
    (∀ e acc L, (∀ n ∈ e.preorder, n ∈ src) → (∀ c ∈ acc, ShowsCons src L c) →
      Makes lo L (T.canonTree e acc) fun L' p =>
        ShowsTree src L' p.1 ∧ ∀ c ∈ p.2, ShowsCons src L' c) ∧
    (∀ es acc L, (∀ e ∈ es, ∀ n ∈ e.preorder, n ∈ src) → (∀ c ∈ acc, ShowsCons src L c) →
      Makes lo L (T.canonList es acc) fun L' p =>
        (∀ r ∈ p.1, ShowsTree src L' r) ∧ ∀ c ∈ p.2, ShowsCons src L' c) := by
  refine canonTree.mutual_induct
    (fun e acc => ∀ L, (∀ n ∈ e.preorder, n ∈ src) → (∀ c ∈ acc, ShowsCons src L c) →
      Makes lo L (T.canonTree e acc) fun L' p =>
        ShowsTree src L' p.1 ∧ ∀ c ∈ p.2, ShowsCons src L' c)
    (fun es acc => ∀ L, (∀ e ∈ es, ∀ n ∈ e.preorder, n ∈ src) →
      (∀ c ∈ acc, ShowsCons src L c) →
      Makes lo L (T.canonList es acc) fun L' p =>
        (∀ r ∈ p.1, ShowsTree src L' r) ∧ ∀ c ∈ p.2, ShowsCons src L' c) ?_ ?_ ?_ ?_ ?_
  · intro i op args s c p acc
    dsimp only
    intro hent ih L hsrc hacc
    rw [canonTree, if_pos hent]
    have hsub : ∀ a ∈ args, ∀ n ∈ a.preorder, n ∈ src := fun a ha n hn =>
      hsrc n (by simpa using Or.inr ⟨a, ha, hn⟩)
    refine (ih L hsub hacc).bind fun L₁ q hL₁ hq => ?_
    obtain ⟨args', acc₁⟩ := q
    refine (canonNode_makes T (by simp [Expr.isVariable]) hq.1).bind fun L₂ q hL₂ hq' => ?_
    obtain ⟨r, more⟩ := q
    exact Makes.pure ⟨hq'.1, by
      simpa [or_imp, forall_and] using ⟨fun c hc => (hq.2 c hc).mono hL₂, hq'.2⟩⟩
  · intro i op args s c p acc
    dsimp only
    intro hent L _ hacc
    rw [canonTree, if_neg hent]
    refine (canonNode_makes T (by simp [Expr.isVariable]) (by simp)).bind
      fun L₁ q hL₁ (hq : ShowsResult src L₁ q) => ?_
    obtain ⟨r, more⟩ := q
    exact Makes.pure ⟨hq.1, by
      simpa [or_imp, forall_and] using ⟨fun c hc => (hacc c hc).mono hL₁, hq.2⟩⟩
  · intro e acc hleaf L hsrc hacc
    rw [canonTree]
    · refine (canonNode_makes T (fun _ => hsrc e e.mem_preorder_self) (by simp)).bind
        fun L₁ q hL₁ hq => ?_
      obtain ⟨r, more⟩ := q
      exact Makes.pure ⟨hq.1, by
        simpa [or_imp, forall_and] using ⟨fun c hc => (hacc c hc).mono hL₁, hq.2⟩⟩
    · exact hleaf
  · intro acc L _ hacc
    exact Makes.pure ⟨by simp, hacc⟩
  · intro e es acc ihe ihes L hsrc hacc
    rw [canonList]
    refine (ihe L (hsrc e (by simp)) hacc).bind fun L₁ q hL₁ hq => ?_
    obtain ⟨r, acc₁⟩ := q
    refine (ihes acc₁ L₁ (fun a ha => hsrc a (by simp [ha])) hq.2).bind fun L₂ q hL₂ hq' => ?_
    obtain ⟨rs, acc₂⟩ := q
    exact Makes.pure ⟨by simpa using ⟨hq.1.mono hL₂, hq'.1⟩, hq'.2⟩

lemma canonExpr_makes (T : Table) {e : Expr} (hsrc : ∀ n ∈ e.preorder, n ∈ src) :
    Makes lo L (T.canonExpr e) (ShowsResult src) := by
  refine ((canonTree_makes T).1 e #[] L hsrc (by simp)).bind fun L₁ q _ hq => ?_
  obtain ⟨r, aux⟩ := q
  exact Makes.pure ⟨hq.1, by simpa using hq.2⟩

lemma canonConsNode_makes (T : Table) (c : Constraint) {args : List Expr}
    (hargs : ∀ a ∈ args, ShowsTree src L a) :
    Makes lo L (T.canonConsNode c args) (ShowsConsResult src) := by
  unfold canonConsNode
  split
  · exact Makes.bind_keep (traceNote_keeps _ _ _) fun _ => ConsRule.makes hargs _ c
  · refine Makes.bind_keep (traceNote_keeps _ _ _) fun _ => ?_
    exact (c.makes_withArgs hargs).bind fun L₁ k _ hk => Makes.pure ⟨hk, by simp⟩

lemma canonConstraint_makes (T : Table) {c : Constraint}
    (hsrc : ∀ a ∈ c.args, ∀ n ∈ a.preorder, n ∈ src) :
    Makes lo L (T.canonConstraint c) (ShowsConsResult src) := by
  refine ((canonTree_makes T).2 c.args #[] L hsrc (by simp)).bind fun L₁ q _ hq => ?_
  obtain ⟨args, aux⟩ := q
  refine (canonConsNode_makes T c hq.1).bind fun L₂ q hL₂ hq' => ?_
  obtain ⟨top, more⟩ := q
  exact Makes.pure ⟨hq'.1, by
    simpa [or_imp, forall_and] using ⟨fun k hk => (hq.2 k hk).mono hL₂, hq'.2⟩⟩

lemma canonAll_makes (T : Table) :
    ∀ {cs : List Constraint} {L : Ledger}, (∀ c ∈ cs, ∀ a ∈ c.args, ∀ n ∈ a.preorder, n ∈ src) →
      Makes lo L (T.canonAll cs) fun L' q => ∀ k ∈ q.1, ShowsCons src L' k
  | [], L, _ => Makes.pure (by simp)
  | c :: cs, L, hsrc => by
    rw [canonAll]
    refine (canonConstraint_makes T (hsrc c (by simp))).bind fun L₁ q hL₁ hq => ?_
    obtain ⟨top, aux⟩ := q
    refine (canonAll_makes T fun c' hc' => hsrc c' (by simp [hc'])).bind
      fun L₂ q hL₂ hq' => ?_
    obtain ⟨rest, pairs⟩ := q
    refine Makes.pure ?_
    simpa [or_imp, forall_and] using
      ⟨fun k hk => (hq.2 k hk).mono hL₂, hq.1.mono hL₂, hq'⟩

/-- Canonicalizing a problem whose nodes are among `src` shows the canonical problem: its
objective and each of its constraints. -/
lemma apply_makes (T : Table) {P : Problem}
    (hsrc : ∀ n ∈ P.roots.flatMap Expr.preorder, n ∈ src) :
    Makes lo L (T.apply P) fun L' q =>
      ShowsTree src L' q.1.objective.expr ∧ ∀ c ∈ q.1.constraints, ShowsCons src L' c := by
  rw [Problem.forall_mem_roots_flatMap] at hsrc
  refine (canonExpr_makes T hsrc.1).bind fun L₁ q hL₁ hq => ?_
  obtain ⟨obj, objAux⟩ := q
  refine (canonAll_makes T hsrc.2).bind fun L₂ q hL₂ hq' => ?_
  obtain ⟨cons, pairs⟩ := q
  -- the debug note keeps the counter
  refine Makes.bind_keep (fun w a w' h => ?_) fun _ => Makes.pure ?_
  · simp only [run_monadLift, note_run] at h
    cases h
    rfl
  · simpa [or_imp, forall_and] using ⟨hq.1.mono hL₂, fun k hk => (hq.2 k hk).mono hL₂, hq'⟩

/-! ### What a successful call shows -/

lemma canonExpr_shows (T : Table) {e r : Expr} {aux : List Constraint} {w w' : World}
    (h : (T.canonExpr e).run.run w = (.ok (r, aux), w')) :
    ∃ L : Ledger, L.Within w.next w'.next ∧
      (∀ n ∈ r.preorder ++ aux.flatMap (fun c => c.args.flatMap Expr.preorder),
        Shows e.preorder L n) ∧ ∀ c ∈ aux, L c.id = some (.inr c) := by
  have hm : Makes w.next (fun _ => none) (T.canonExpr e) (ShowsResult e.preorder) :=
    canonExpr_makes T fun _ hn => hn
  obtain ⟨L, -, hW, hr, haux⟩ := hm w (r, aux) w' (Ledger.within_empty _) h
  refine ⟨L, hW, ?_, fun c hc => (haux c hc).1⟩
  simp only [List.mem_append, List.mem_flatMap]
  rintro n (hn | ⟨c, hc, a, ha, hn⟩)
  · exact hr n hn
  · exact (haux c hc).2 a ha n hn

lemma apply_shows (T : Table) {P Q : Problem} {D : InverseData} {w w' : World}
    (h : (T.apply P).run.run w = (.ok (Q, D), w')) :
    ∃ L : Ledger, L.Within w.next w'.next ∧
      (∀ n ∈ Q.roots.flatMap Expr.preorder, Shows (P.roots.flatMap Expr.preorder) L n) ∧
      ∀ c ∈ Q.constraints, L c.id = some (.inr c) := by
  have hm : Makes w.next (fun _ => none) (T.apply P) fun L' q =>
      ShowsTree (P.roots.flatMap Expr.preorder) L' q.1.objective.expr ∧
        ∀ c ∈ q.1.constraints, ShowsCons (P.roots.flatMap Expr.preorder) L' c :=
    apply_makes T fun _ hn => hn
  obtain ⟨L, -, hW, hobj, hcons⟩ := hm w (Q, D) w' (Ledger.within_empty _) h
  exact ⟨L, hW, Problem.forall_mem_roots_flatMap.2 ⟨hobj, fun c hc => (hcons c hc).2⟩,
    fun c hc => (hcons c hc).1⟩

end Table

/-! ### Identity and freshness -/

/-- What the output of a call is made of, when the call began with the counter at `lo` and left
it at `hi`, its input has the nodes `src`, `nodes` are the nodes reachable from its output and
`cons` its constraints. -/
structure FreshOutput (src : List Expr) (lo hi : Nat) (nodes : List Expr)
    (cons : List Constraint) : Prop where
  /-- Every node is a variable of the input, the very node, or was made during the call. -/
  origin : ∀ n ∈ nodes, (n.isVariable = true ∧ n ∈ src) ∨ (lo ≤ n.id ∧ n.id < hi)
  /-- Nodes made during the call that share an id are one node. -/
  unique : ∀ n ∈ nodes, ∀ m ∈ nodes, lo ≤ n.id → n.id = m.id → n = m
  /-- The constraints took distinct ids during the call. -/
  consFresh : FreshIds lo hi (cons.map (·.id))
  /-- No constraint shares its id with a node. -/
  apart : ∀ c ∈ cons, ∀ n ∈ nodes, c.id ≠ n.id
  /-- Of the input's nodes, only variables are reachable from the output. -/
  onlyVariables : ∀ n ∈ nodes, n ∈ src → n.isVariable = true

lemma FreshOutput.of_ledger {hi : Nat} {nodes : List Expr} {cons : List Constraint}
    (hold : ∀ n ∈ src, n.id < lo) (hW : L.Within lo hi) (hnodes : ∀ n ∈ nodes, Shows src L n)
    (hcons : ∀ c ∈ cons, L c.id = some (.inr c)) (hfresh : FreshIds lo hi (cons.map (·.id))) :
    FreshOutput src lo hi nodes cons where
  origin n hn := (hnodes n hn).imp_right fun h => hW.bounds _ _ h.1
  unique n hn m hm hlo hid := by
    rcases hnodes n hn with ⟨-, hsrc⟩ | ⟨hn', -⟩
    · exact absurd hlo (Nat.not_le.2 (hold n hsrc))
    rcases hnodes m hm with ⟨-, hsrc⟩ | ⟨hm', -⟩
    · exact absurd (hid ▸ hlo) (Nat.not_le.2 (hold m hsrc))
    rw [hid, hm'] at hn'
    simpa using hn'.symm
  consFresh := hfresh
  apart c hc n hn hid := by
    rcases hnodes n hn with ⟨-, hsrc⟩ | ⟨hn', -⟩
    · -- a variable of the input comes before the call, the constraint during it
      have hnew := (hfresh.bounds c.id (List.mem_map_of_mem hc)).1
      have hbefore := hold n hsrc
      omega
    · rw [← hid, hcons c hc] at hn'
      cases hn'
  onlyVariables n hn hsrc := by
    rcases hnodes n hn with ⟨hv, -⟩ | ⟨hn', -⟩
    · exact hv
    · exact absurd (hW.bounds _ _ hn').1 (Nat.not_le.2 (hold n hsrc))

namespace Table

/-- **Identity and freshness.** For every table, a successful canonicalization of a tree or of a
problem whose ids all come before the counter returns the variables of its input as the very
nodes they are, and otherwise only what it made during the call: every node reachable from the
canonical tree, from its auxiliary constraints or from the canonical problem is a variable of
the input or has an id taken during the call; two nodes made during the call with one id are one
node; the constraints took distinct ids during the call, which no node shares; and no node of
the input but a variable, in particular no parameter, is reachable from the output. -/
theorem canon_fresh_output (T : Table) :
    (∀ {e r : Expr} {aux : List Constraint} {w w' : World},
      (∀ n ∈ e.preorder, n.id < w.next) →
      (T.canonExpr e).run.run w = (.ok (r, aux), w') →
      FreshOutput e.preorder w.next w'.next
        (r.preorder ++ aux.flatMap fun c => c.args.flatMap Expr.preorder) aux) ∧
    (∀ {P Q : Problem} {D : InverseData} {w w' : World},
      (∀ n ∈ P.roots.flatMap Expr.preorder, n.id < w.next) →
      (T.apply P).run.run w = (.ok (Q, D), w') →
      FreshOutput (P.roots.flatMap Expr.preorder) w.next w'.next
        (Q.roots.flatMap Expr.preorder) Q.constraints) := by
  constructor
  · intro e r aux w w' hold h
    obtain ⟨L, hW, hnodes, hcons⟩ := canonExpr_shows T h
    exact FreshOutput.of_ledger hold hW hnodes hcons (canonExpr_fresh h)
  · intro P Q D w w' hold h
    obtain ⟨L, hW, hnodes, hcons⟩ := apply_shows T h
    exact FreshOutput.of_ledger hold hW hnodes hcons (apply_constraints_fresh h)

/-- Minimize `|x| + p · y` subject to `x ≤ y`, for variables `x`, `y` and a parameter `p`. -/
def absParamProblem : Problem :=
  let x : Expr := .var 0 ⟨.scalar, none, false, false⟩
  let y : Expr := .var 1 ⟨.scalar, none, false, false⟩
  let p : Expr := .param 2 ⟨.scalar, some "p", 2⟩
  ⟨⟨.minimize, .node 5 .add [.node 3 .abs [x] .scalar false false,
    .node 4 .mul [p, y] .scalar false true] .scalar false true⟩, [⟨6, .inequality x y⟩]⟩

theorem canon_fresh_output_absParam :
    ∃ r aux w₁ Q D w₂,
      (Table.cone.canonExpr absParamProblem.objective.expr).run.run { next := 7 } =
        (.ok (r, aux), w₁) ∧
      FreshOutput absParamProblem.objective.expr.preorder 7 w₁.next
        (r.preorder ++ aux.flatMap fun c => c.args.flatMap Expr.preorder) aux ∧
      (Table.cone.apply absParamProblem).run.run { next := 7 } = (.ok (Q, D), w₂) ∧
      FreshOutput (absParamProblem.roots.flatMap Expr.preorder) 7 w₂.next
        (Q.roots.flatMap Expr.preorder) Q.constraints := by
  have hold : ∀ n ∈ absParamProblem.roots.flatMap Expr.preorder, n.id < 7 := by decide +kernel
  have hexpr : (match (Table.cone.canonExpr absParamProblem.objective.expr).run.run
      { next := 7 } with
      | (.ok _, _) => true
      | (.error _, _) => false) = true := by decide +kernel
  have hok : (match (Table.cone.apply absParamProblem).run.run { next := 7 } with
      | (.ok _, _) => true
      | (.error _, _) => false) = true := by decide +kernel
  rcases he : (Table.cone.canonExpr absParamProblem.objective.expr).run.run { next := 7 } with
    ⟨_ | ⟨r, aux⟩, w₁⟩
  · rw [he] at hexpr
    cases hexpr
  rcases hr : (Table.cone.apply absParamProblem).run.run { next := 7 } with ⟨_ | ⟨Q, D⟩, w₂⟩
  · rw [hr] at hok
    cases hok
  refine ⟨r, aux, w₁, Q, D, w₂, rfl, (canon_fresh_output Table.cone).1 ?_ he, rfl,
    (canon_fresh_output Table.cone).2 hold hr⟩
  intro n hn
  exact hold n (by simp [Problem.roots, hn])

end Table

end ConicForm
