import ConicForm.Proofs.Walk
/-!
Where an operation is abandoned. The layout of an operator's dense result for the node's shape
checks the entry count against the shape's size but reads the first two dimensions only, and
where the two disagree the whole operation is abandoned (`Error.storageMismatch`). No other step
abandons anything, so evaluation and canonicalization of trees whose operator nodes fit their
storage never do (`never_aborts_of_fitsStorage`); within the driver's limits on shapes the
condition is not automatic (`eval_reshape_cube_aborts`).
-/

namespace ConicForm

variable {α β : Type}

def Shape.fitsStorage (s : Shape) : Bool := s.rows * s.cols == s.size

/-! ### Outcomes that do not abandon the operation -/

/-- The outcome is no abandonment. -/
def NoAbort (r : Except Error α) : Prop := ∀ e, r = .error e → e.category ≠ .abandoned

namespace NoAbort

lemma ok (a : α) : NoAbort (.ok a : Except Error α) := fun _ h => by cases h

lemma error {e : Error} (he : e.category ≠ .abandoned) : NoAbort (.error e : Except Error α) :=
  fun _ h => by cases h; exact he

lemma bind {r : Except Error α} {f : α → Except Error β} (hr : NoAbort r)
    (hf : ∀ a, NoAbort (f a)) : NoAbort (r >>= f) := by
  intro e h
  cases r with
  | error e' =>
    cases h
    exact hr _ rfl
  | ok a => exact hf a e h

end NoAbort

namespace Dense

lemma broadcastWith_noAbort (f : Float → Float → Float) (a b : Dense) :
    NoAbort (broadcastWith f a b) := by
  unfold broadcastWith
  repeat' split
  all_goals first | exact NoAbort.ok _ | exact NoAbort.error (by simp [Error.category])

lemma foldlM_broadcastWith_noAbort (f : Float → Float → Float) :
    ∀ (ms : List Dense) (m : Dense), NoAbort (ms.foldlM (broadcastWith f) m)
  | [], m => NoAbort.ok m
  | b :: ms, m => by
    rw [List.foldlM_cons]
    exact (broadcastWith_noAbort f m b).bind fun m' => foldlM_broadcastWith_noAbort f ms m'

lemma matmul_noAbort (a b : Dense) : NoAbort (matmul a b) := by
  unfold matmul
  repeat' split
  all_goals first
    | exact NoAbort.ok _
    | exact NoAbort.error (by simp [Error.category])
    | exact broadcastWith_noAbort _ a b

lemma selectRange_noAbort (r : Option (Nat × Nat × Nat)) (len : Nat) :
    NoAbort (selectRange r len) := by
  unfold selectRange
  repeat' split
  all_goals first | exact NoAbort.ok _ | exact NoAbort.error (by simp [Error.category])

lemma index_noAbort (m : Dense) (ranges : List (Option (Nat × Nat × Nat))) :
    NoAbort (m.index ranges) := by
  unfold index
  split
  · exact (selectRange_noAbort _ _).bind fun _ => NoAbort.ok _
  · exact (selectRange_noAbort _ _).bind fun _ =>
      (selectRange_noAbort _ _).bind fun _ => NoAbort.ok _
  · exact NoAbort.error (by simp [Error.category])

lemma vstack_noAbort (ms : List Dense) : NoAbort (vstack ms) := by
  unfold vstack
  repeat' split
  all_goals first | exact NoAbort.ok _ | exact NoAbort.error (by simp [Error.category])

lemma hstack_noAbort (ms : List Dense) : NoAbort (hstack ms) := by
  unfold hstack
  repeat' split
  all_goals first | exact NoAbort.ok _ | exact NoAbort.error (by simp [Error.category])

end Dense

/-- The arithmetic of an operator never abandons anything: its failures are mismatches of
dimensions and invalid operands. -/
lemma Op.compute_noAbort (op : Op) (ms : List Dense) : NoAbort (op.compute ms) := by
  cases op <;> simp only [Op.compute]
  all_goals repeat' split
  all_goals first
    | exact Dense.broadcastWith_noAbort _ _ _
    | exact Dense.matmul_noAbort _ _
    | exact Dense.index_noAbort _ _
    | exact Dense.vstack_noAbort _
    | exact Dense.hstack_noAbort _
    | exact Dense.foldlM_broadcastWith_noAbort _ _ _
    | exact NoAbort.error (by simp [Error.category])
    | exact NoAbort.ok _

lemma Value.ofDense_noAbort (m : Dense) {s : Shape} (hs : s.fitsStorage = true) :
    NoAbort (Value.ofDense m s) := by
  have hs' : s.rows * s.cols = s.size := by simpa [Shape.fitsStorage] using hs
  unfold Value.ofDense
  split
  · exact NoAbort.error (by simp [Error.category])
  · rename_i hsize
    split
    · exact NoAbort.ok _
    split
    · exact NoAbort.ok _
    split
    · rename_i hstore
      exact absurd (hs'.trans (Decidable.of_not_not hsize).symm) hstore
    · exact NoAbort.ok _

lemma Op.apply_noAbort (op : Op) (vals : List Value) {s : Shape} (hs : s.fitsStorage = true) :
    NoAbort (op.apply vals s) := by
  unfold Op.apply
  split
  next c => exact c.eval_not_abandoned vals
  · exact (op.compute_noAbort _).bind fun m => Value.ofDense_noAbort m hs

/-! ### Steps that never abandon the operation -/

/-- From no world does the step abandon the operation. -/
def NeverAborts (x : Run α) : Prop :=
  ∀ w e w', x.run.run w = (.error e, w') → e.category ≠ .abandoned

namespace NeverAborts

lemma ok (a : α) : NeverAborts (pure a : Run α) := fun _ _ _ h => by cases h

lemma throw {e : Error} (he : e.category ≠ .abandoned) : NeverAborts (throw e : Run α) :=
  fun _ _ _ h => by cases h; exact he

lemma lift (b : Build α) : NeverAborts (monadLift b : Run α) := fun _ _ _ h => by cases h

lemma seq {x : Run α} {f : α → Run β} (hx : NeverAborts x) (hf : ∀ a, NeverAborts (f a)) :
    NeverAborts (x >>= f) := by
  intro w e w' h
  rcases bind_eq_error h with h | ⟨a, w₁, -, h⟩
  · exact hx _ _ _ h
  · exact hf a _ _ _ h

lemma seqPair {γ δ : Type} {y : Run (γ × δ)} {g : γ × δ → Run β} (hy : NeverAborts y)
    (hg : ∀ a b, NeverAborts (g (a, b))) : NeverAborts (y >>= g) :=
  seq hy fun p => hg p.1 p.2

lemma mapM {f : α → Run β} (hf : ∀ a, NeverAborts (f a)) :
    ∀ xs : List α, NeverAborts (xs.mapM f)
  | [] => ok _
  | x :: xs => by
    rw [List.mapM_cons]
    exact seq (hf x) fun _ => seq (mapM hf xs) fun _ => ok _

end NeverAborts

lemma Source.read_neverAborts (src : Source) : NeverAborts src.read := by
  cases src
  case fixed v => exact NeverAborts.ok v
  case failing why => exact NeverAborts.throw (by simp [Error.category])
  case ticker slot => exact NeverAborts.seq (NeverAborts.lift _) fun _ => NeverAborts.ok _

/-! ### Evaluation -/

namespace Expr

mutual
/-- Every operator node that evaluating the tree reaches, under deferred leaves too, has a shape
that its storage holds. -/
def fitsStorage : Expr → Bool
  | .node _ _ args s _ _ => s.fitsStorage && fitsStorageList args
  | .deferred _ _ body => body.fitsStorage
  | _ => true

def fitsStorageList : List Expr → Bool
  | [] => true
  | e :: es => e.fitsStorage && fitsStorageList es
end

@[simp] lemma fitsStorageList_eq_all (es : List Expr) :
    fitsStorageList es = es.all fitsStorage := by
  induction es with
  | nil => rfl
  | cons e es ih => simp [fitsStorageList, ih]

/-- Evaluation of a tree that fits its storage never abandons the operation, under every
assignment and from every world; nor does evaluation of a list of such trees. -/
lemma evalAt_neverAborts (σ : Assignment) :
    (∀ e : Expr, e.fitsStorage = true → NeverAborts (e.evalAt σ)) ∧
    ∀ es : List Expr, es.all fitsStorage = true → NeverAborts (evalAtList σ es) := by
  refine evalAt.mutual_induct σ (fun e => e.fitsStorage = true → NeverAborts (e.evalAt σ))
    (fun es => es.all fitsStorage = true → NeverAborts (evalAtList σ es))
    ?_ ?_ ?_ ?_ ?_ ?_ ?_ ?_ ?_
  · intro id v x hx _
    simp only [evalAt, hx]
    exact NeverAborts.ok x
  · intro id v hx _
    simp only [evalAt, hx]
    exact NeverAborts.throw (by simp [Error.category])
  · exact fun _ v _ _ => NeverAborts.ok v
  · intro id p _ w e w' h
    rw [evalAt_param_run] at h
    split at h <;> cases h
    simp [Error.category]
  · exact fun _ _ src _ => src.read_neverAborts
  · intro id s body ih hfit
    exact ih hfit
  · intro id op args s c h ih hfit
    simp only [fitsStorage, fitsStorageList_eq_all, Bool.and_eq_true] at hfit
    simp only [evalAt]
    refine (ih hfit.2).seq fun vals => ?_
    split
    · exact NeverAborts.ok _
    · rename_i e he
      exact NeverAborts.throw (op.apply_noAbort vals hfit.1 e he)
  · exact fun _ => NeverAborts.ok _
  · intro e es ihe ihes hfit
    simp only [List.all_cons, Bool.and_eq_true] at hfit
    simp only [evalAtList]
    exact (ihe hfit.1).seq fun _ => (ihes hfit.2).seq fun _ => NeverAborts.ok _

end Expr

/-! ### Rules and copies -/

lemma ConeRule.neverAborts (r : ConeRule) (e : Expr) (args : List Expr) :
    NeverAborts (r.apply e args) := by
  cases r <;> simp only [ConeRule.apply, Rules.one, Rules.two, Rules.nonneg, Rules.flattenMatrix,
    Rules.rotatedSoc, Rules.bothSides] <;>
  repeat' first
    | exact NeverAborts.ok _
    | exact NeverAborts.throw (by simp [Error.category])
    | exact NeverAborts.lift _
    | refine NeverAborts.seq ?_ fun _ => ?_
    | refine NeverAborts.mapM (fun _ => ?_) _
    | split

lemma ExprRule.neverAborts (r : ExprRule) (e : Expr) (args : List Expr) :
    NeverAborts (r.apply e args) := by
  cases r
  case cone c => exact c.neverAborts e args
  all_goals simp only [ExprRule.apply, Rules.nonneg]
  all_goals
  repeat' first
    | exact NeverAborts.ok _
    | exact NeverAborts.throw (by simp [Error.category])
    | exact NeverAborts.lift _
    | refine NeverAborts.seq ?_ fun _ => ?_
    | split

lemma Expr.withArgs_neverAborts (e : Expr) (args : List Expr) : NeverAborts (e.withArgs args) := by
  dsimp only [Expr.withArgs]
  repeat' first
    | exact NeverAborts.ok _
    | exact NeverAborts.throw (by simp [Error.category])
    | exact NeverAborts.lift _
    | refine NeverAborts.seq ?_ fun _ => ?_
    | split

lemma Constraint.withArgs_neverAborts (c : Constraint) (args : List Expr) :
    NeverAborts (c.withArgs args) := by
  unfold Constraint.withArgs
  split
  · exact NeverAborts.lift _
  · rename_i e he
    refine NeverAborts.throw ?_
    unfold Relation.withArgs at he
    split at he <;> cases he
    simp [Error.category]

lemma ConsRule.neverAborts (r : ConsRule) (c : Constraint) (args : List Expr) :
    NeverAborts (r.apply c args) := by
  rcases r with (_ | _) | _ | _ | _
  case copyWithNonneg =>
    simp only [ConsRule.apply]
    refine NeverAborts.seq (c.withArgs_neverAborts args) fun _ => ?_
    split
    · exact NeverAborts.seq (NeverAborts.lift _) fun _ => NeverAborts.ok _
    · exact NeverAborts.throw (by simp [Error.category])
  all_goals simp only [ConsRule.apply, Rules.two, Rules.nonneg]
  all_goals
  repeat' first
    | exact NeverAborts.ok _
    | exact NeverAborts.throw (by simp [Error.category])
    | exact NeverAborts.lift _
    | refine NeverAborts.seq ?_ fun _ => ?_
    | split

/-! ### The walk -/

namespace Table

variable {T : Table}

lemma canonNode_neverAborts {e : Expr} (he : e.fitsStorage = true) (args : List Expr) :
    NeverAborts (T.canonNode e args) := by
  unfold canonNode
  split
  · split
    · exact (NeverAborts.lift _).seq fun _ => (NeverAborts.lift _).seq fun _ => NeverAborts.ok _
    · -- the fold evaluates the node's own tree
      exact (NeverAborts.lift _).seq fun _ => ((Expr.evalAt_neverAborts _).1 e he).seq fun _ =>
        (NeverAborts.lift _).seq fun _ => NeverAborts.ok _
  · split
    · exact NeverAborts.ok _
    · split
      · exact (NeverAborts.lift _).seq fun _ => ExprRule.neverAborts _ _ _
      · exact (NeverAborts.lift _).seq fun _ =>
          (e.withArgs_neverAborts args).seq fun _ => NeverAborts.ok _

lemma canonTree_neverAborts (T : Table) :
    (∀ e acc, e.fitsStorage = true → NeverAborts (T.canonTree e acc)) ∧
    (∀ es acc, es.all Expr.fitsStorage = true → NeverAborts (T.canonList es acc)) := by
  refine canonTree.mutual_induct
    (fun e acc => e.fitsStorage = true → NeverAborts (T.canonTree e acc))
    (fun es acc => es.all Expr.fitsStorage = true → NeverAborts (T.canonList es acc))
    ?_ ?_ ?_ ?_ ?_
  · intro i op args s c hp acc
    dsimp only
    intro hent ih he
    have hargs : args.all Expr.fitsStorage = true := by
      simp only [Expr.fitsStorage, Expr.fitsStorageList_eq_all, Bool.and_eq_true] at he
      exact he.2
    rw [canonTree, if_pos hent]
    exact (ih hargs).seqPair fun args' acc₁ =>
      (canonNode_neverAborts he args').seqPair fun r more => NeverAborts.ok _
  · intro i op args s c hp acc
    dsimp only
    intro hent he
    rw [canonTree, if_neg hent]
    exact (canonNode_neverAborts he []).seqPair fun r more => NeverAborts.ok _
  · intro e acc hleaf he
    rw [canonTree]
    · exact (canonNode_neverAborts he []).seqPair fun r more => NeverAborts.ok _
    · exact hleaf
  · exact fun acc _ => NeverAborts.ok _
  · intro e es acc ihe ihes hall
    simp only [List.all_cons, Bool.and_eq_true] at hall
    rw [canonList]
    exact (ihe hall.1).seqPair fun r acc₁ =>
      (ihes acc₁ hall.2).seqPair fun rs acc₂ => NeverAborts.ok _

lemma canonConstraint_neverAborts {c : Constraint} (hc : c.args.all Expr.fitsStorage = true) :
    NeverAborts (T.canonConstraint c) := by
  unfold canonConstraint canonConsNode
  refine ((canonTree_neverAborts T).2 _ _ hc).seqPair fun args aux => ?_
  refine NeverAborts.seqPair ?_ fun top more => NeverAborts.ok _
  split
  · exact (NeverAborts.lift _).seq fun _ => ConsRule.neverAborts _ _ _
  · exact (NeverAborts.lift _).seq fun _ =>
      (c.withArgs_neverAborts args).seq fun _ => NeverAborts.ok _

lemma canonAll_neverAborts :
    ∀ {cs : List Constraint}, (∀ c ∈ cs, c.args.all Expr.fitsStorage = true) →
      NeverAborts (T.canonAll cs)
  | [], _ => NeverAborts.ok _
  | c :: cs, hcs => by
    rw [canonAll]
    exact (canonConstraint_neverAborts (hcs c (by simp))).seqPair fun top aux =>
      (canonAll_neverAborts fun c' hc' => hcs c' (by simp [hc'])).seqPair fun rest pairs =>
        NeverAborts.ok _

lemma canonExpr_neverAborts {e : Expr} (he : e.fitsStorage = true) :
    NeverAborts (T.canonExpr e) :=
  ((canonTree_neverAborts T).1 e _ he).seqPair fun _ _ => NeverAborts.ok _

end Table

/-- **Evaluation and canonicalization are never abandoned on trees that fit their storage.**
Under every assignment and from every world (every parameter value and source count),
evaluating a tree whose operator nodes have shapes that their storage holds gives a value or an
error of the library, never the abandonment of the operation; so does canonicalizing such a
tree, or a problem all of whose trees are such, with any table. -/
theorem never_aborts_of_fitsStorage (σ : Assignment) (T : Table) (e : Expr) (P : Problem) :
    (e.fitsStorage = true → NeverAborts (e.evalAt σ) ∧ NeverAborts (T.canonExpr e)) ∧
    (P.roots.all Expr.fitsStorage = true → NeverAborts (T.apply P)) := by
  refine ⟨fun he => ⟨(Expr.evalAt_neverAborts σ).1 e he, Table.canonExpr_neverAborts he⟩,
    fun hP => ?_⟩
  simp only [Problem.roots, List.all_cons, Bool.and_eq_true, List.all_flatMap,
    List.all_eq_true] at hP
  have hcons : ∀ c ∈ P.constraints, c.args.all Expr.fitsStorage = true := fun c hc => by
    simpa using hP.2 c hc
  unfold Table.apply
  exact (Table.canonExpr_neverAborts hP.1).seqPair fun obj objAux =>
    (Table.canonAll_neverAborts hcons).seqPair fun cons pairs =>
      (NeverAborts.lift _).seq fun _ => NeverAborts.ok _

def squareReshape : Expr :=
  .node 1 (.reshape (.matrix 2 2)) [.const 0 (Value.ofList [1, 2, 3, 4]) (.vector 4)]
    (.matrix 2 2) true false

theorem never_aborts_of_fitsStorage_squareReshape :
    squareReshape.fitsStorage = true ∧ NeverAborts squareReshape.eval ∧
      NeverAborts (Table.cone.canonExpr squareReshape) ∧
      NeverAborts (Table.cone.apply ⟨⟨.minimize, squareReshape⟩, []⟩) := by
  have hfit : squareReshape.fitsStorage = true := by decide
  have hroots : (⟨⟨.minimize, squareReshape⟩, []⟩ : Problem).roots.all Expr.fitsStorage = true :=
    by decide
  have h := never_aborts_of_fitsStorage (fun _ => none) Table.cone squareReshape
    ⟨⟨.minimize, squareReshape⟩, []⟩
  exact ⟨hfit, (h.1 hfit).1, (h.1 hfit).2, h.2 hroots⟩

def cubeReshape : Expr :=
  .node 1 (.reshape ⟨[2, 2, 2]⟩) [.const 0 (Value.ofList [1, 2, 3, 4, 5, 6, 7, 8]) (.vector 8)]
    ⟨[2, 2, 2]⟩ true false

/-- Evaluation is abandoned on a tree within the driver's limits on shapes (at most three
dimensions, each at most `2^20 = 1048576`): the eight entries of the reshape pass the check
against the shape's size, and cannot be laid out in its `2 × 2` storage. -/
theorem eval_reshape_cube_aborts :
    (∀ n ∈ cubeReshape.preorder, n.shape.dims.length ≤ 3 ∧ ∀ d ∈ n.shape.dims, d ≤ 1048576) ∧
    ∃ e w', cubeReshape.eval.run.run {} = (.error e, w') ∧ e.category = .abandoned := by
  have hlim : ∀ n ∈ cubeReshape.preorder,
      n.shape.dims.length ≤ 3 ∧ ∀ d ∈ n.shape.dims, d ≤ 1048576 := by decide +kernel
  have hab : (match cubeReshape.eval.run.run {} with
      | (.error e, _) => e.category == .abandoned
      | (.ok _, _) => false) = true := by decide +kernel
  rcases h : cubeReshape.eval.run.run {} with ⟨e | v, w'⟩ <;> rw [h] at hab
  · exact ⟨hlim, e, w', rfl, by simpa using hab⟩
  · cases hab

end ConicForm
