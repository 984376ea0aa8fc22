import ConicForm.Proofs.Run
/-!
Broadcasting is a partial commutative monoid on shapes: joining dimensions aligned at their ends
is commutative and associative, with one as its unit, so folding `broadcast` over a list of
shapes does not depend on the order of the list. The elementwise maximum and minimum, and the
slack of the rule for `lhs ≤ rhs`, take the same shape in every order
(`broadcast_order_independent`).
-/

namespace ConicForm

namespace Shape

theorem joinDim_comm (a b : Nat) : joinDim a b = joinDim b a := by
  unfold joinDim
  by_cases h1 : a = b
  · subst h1; rfl
  · have h1' : b ≠ a := Ne.symm h1
    by_cases h2 : a = 1 <;> by_cases h3 : b = 1 <;> simp_all

theorem joinDim_assoc (a b c : Nat) :
    (joinDim a b).bind (joinDim · c) = (joinDim b c).bind (joinDim a ·) := by
  unfold joinDim
  by_cases h1 : a = b <;> by_cases h2 : a = 1 <;> by_cases h3 : b = 1 <;> by_cases h4 : b = c <;>
    by_cases h5 : c = 1 <;> by_cases h6 : a = c <;> simp_all

@[simp] theorem joinReversed_nil_left (ys : List Nat) : joinReversed [] ys = some ys := rfl

@[simp] theorem joinReversed_nil_right (xs : List Nat) : joinReversed xs [] = some xs := by
  cases xs <;> rfl

theorem joinReversed_cons (x y : Nat) (xs ys : List Nat) :
    joinReversed (x :: xs) (y :: ys) =
      (joinDim x y).bind fun d => (joinReversed xs ys).map (d :: ·) := by
  simp only [joinReversed]
  cases joinDim x y <;> cases joinReversed xs ys <;> rfl

theorem joinReversed_comm (xs ys : List Nat) : joinReversed xs ys = joinReversed ys xs := by
  induction xs generalizing ys with
  | nil => cases ys <;> rfl
  | cons x xs ih =>
    cases ys with
    | nil => rfl
    | cons y ys => simp only [joinReversed, joinDim_comm x y, ih ys]

theorem joinReversed_cons_bind (x y z : Nat) (xs ys zs : List Nat) :
    (joinReversed (x :: xs) (y :: ys)).bind (joinReversed · (z :: zs)) =
      ((joinDim x y).bind (joinDim · z)).bind fun e =>
        ((joinReversed xs ys).bind (joinReversed · zs)).map (e :: ·) := by
  rw [joinReversed_cons]
  cases joinDim x y <;> cases joinReversed xs ys <;> simp [joinReversed_cons]

theorem bind_joinReversed_cons (x y z : Nat) (xs ys zs : List Nat) :
    (joinReversed (y :: ys) (z :: zs)).bind (joinReversed (x :: xs) ·) =
      ((joinDim y z).bind (joinDim x ·)).bind fun e =>
        ((joinReversed ys zs).bind (joinReversed xs ·)).map (e :: ·) := by
  rw [joinReversed_cons]
  cases joinDim y z <;> cases joinReversed ys zs <;> simp [joinReversed_cons]

theorem joinReversed_assoc (xs ys zs : List Nat) :
    (joinReversed xs ys).bind (joinReversed · zs) =
      (joinReversed ys zs).bind (joinReversed xs ·) := by
  induction xs generalizing ys zs with
  | nil => simp
  | cons x xs ih =>
    cases ys with
    | nil => simp
    | cons y ys =>
      cases zs with
      | nil => simp
      | cons z zs =>
        rw [joinReversed_cons_bind, bind_joinReversed_cons, joinDim_assoc, ih]

/-- Broadcasting is a join of the reversed dimensions, read back in order. -/
theorem broadcast_eq (a b : Shape) :
    a.broadcast b = (joinReversed a.dims.reverse b.dims.reverse).map fun ds => ⟨ds.reverse⟩ :=
  rfl

theorem broadcast_comm (a b : Shape) : a.broadcast b = b.broadcast a := by
  rw [broadcast_eq, broadcast_eq, joinReversed_comm]

@[simp] theorem broadcast_scalar_right (a : Shape) : a.broadcast scalar = some a := by
  simp [broadcast_eq, scalar]

theorem broadcast_assoc (a b c : Shape) :
    (a.broadcast b).bind (·.broadcast c) = (b.broadcast c).bind (a.broadcast ·) := by
  have h := congrArg (Option.map fun ds => (⟨ds.reverse⟩ : Shape))
    (joinReversed_assoc a.dims.reverse b.dims.reverse c.dims.reverse)
  simp only [broadcast_eq, Option.bind_map, Option.map_bind] at h ⊢
  simpa [Function.comp_def] using h

theorem broadcast_right_comm (a b c : Shape) :
    (a.broadcast b).bind (·.broadcast c) = (a.broadcast c).bind (·.broadcast b) := by
  rw [broadcast_assoc, broadcast_comm b c, ← broadcast_assoc]

/-- The shapes broadcast together, folded from the scalar shape: `none` when they do not fit. -/
def broadcastAll (ss : List Shape) : Option Shape := ss.foldlM broadcast scalar

theorem foldlM_broadcast_perm {l l' : List Shape} (h : l.Perm l') (a : Shape) :
    l.foldlM broadcast a = l'.foldlM broadcast a := by
  induction h generalizing a with
  | nil => rfl
  | cons x _ ih => simp only [List.foldlM_cons, ih]
  | swap x y l =>
    -- `y` then `x`, or `x` then `y`, and the rest after both
    have h := congrArg (·.bind (l.foldlM broadcast)) (broadcast_right_comm a y x)
    simpa [List.foldlM_cons, Option.bind_assoc] using h
  | trans _ _ ih₁ ih₂ => exact (ih₁ a).trans (ih₂ a)

theorem broadcastAll_perm {ss ss' : List Shape} (h : ss.Perm ss') :
    broadcastAll ss = broadcastAll ss' :=
  foldlM_broadcast_perm h scalar

theorem foldl_getD_of_foldlM :
    ∀ {l : List Shape} {a s : Shape}, l.foldlM broadcast a = some s →
      l.foldl (fun acc t => (acc.broadcast t).getD acc) a = s
  | [], a, s, h => by simpa using h
  | t :: l, a, s, h => by
    simp only [List.foldlM_cons] at h
    obtain ⟨b, hb, hrest⟩ := Option.bind_eq_some_iff.1 h
    simp only [List.foldl_cons, hb, Option.getD_some]
    exact foldl_getD_of_foldlM hrest

end Shape

theorem Op.inferShape_extremum_of_broadcastAll {ss : List Shape} {s : Shape}
    (h : Shape.broadcastAll ss = some s) :
    Op.maximum.inferShape ss = s ∧ Op.minimum.inferShape ss = s := by
  cases ss with
  | nil =>
    simp only [Shape.broadcastAll, List.foldlM_nil, Option.pure_def, Option.some.injEq] at h
    subst h
    exact ⟨rfl, rfl⟩
  | cons f rest =>
    -- the fold starts from the scalar shape, which the first operand's shape replaces
    simp only [Shape.broadcastAll, List.foldlM_cons, Shape.broadcast_scalar_left] at h
    exact ⟨Shape.foldl_getD_of_foldlM h, Shape.foldl_getD_of_foldlM h⟩

lemma inequality_apply_run (c : Constraint) (lhs rhs : Expr) (w : World) :
    ∃ top w', ((ConsRule.cone .inequality).apply c [lhs, rhs]).run.run w =
      (.ok (top, [⟨w.next + 5, .nonneg (.var w.next
        ⟨(lhs.shape.broadcast rhs.shape).getD lhs.shape, none, true, false⟩)⟩]), w') :=
  ⟨_, _, rfl⟩

/-- Canonicalizing the inequality `c` over the operands `args` from `w` succeeds, and its one
auxiliary constraint is that a fresh non-negative variable of shape `s`, the slack, is
non-negative. -/
def InequalitySlack (c : Constraint) (args : List Expr) (w : World) (s : Shape) : Prop :=
  ∃ top k v w', ((ConsRule.cone .inequality).apply c args).run.run w =
    (.ok (top, [⟨k, .nonneg (.var v ⟨s, none, true, false⟩)⟩]), w')

lemma inequalitySlack_of_broadcast {c : Constraint} {lhs rhs : Expr} {s : Shape} (w : World)
    (h : lhs.shape.broadcast rhs.shape = some s) : InequalitySlack c [lhs, rhs] w s := by
  obtain ⟨top, w', hrun⟩ := inequality_apply_run c lhs rhs w
  rw [h, Option.getD_some] at hrun
  exact ⟨top, _, _, w', hrun⟩

/-- **Broadcasting does not depend on the order of its operands.** Broadcasting is
commutative, has the scalar shape as its unit, and is associative as a partial operation: one
grouping of three shapes is defined exactly when the other is, and then both agree. Hence,
for operands whose shapes broadcast together to `s`, every reordering of them broadcasts
together to `s` too, and an elementwise maximum or minimum over them in any order has shape
`s`; and when the two sides of an inequality broadcast together to `s`, its slack has shape
`s` whichever side is written first. -/
theorem broadcast_order_independent :
    (∀ a b : Shape, a.broadcast b = b.broadcast a) ∧
    (∀ a : Shape, a.broadcast Shape.scalar = some a) ∧
    (∀ a b c : Shape,
      (a.broadcast b).bind (·.broadcast c) = (b.broadcast c).bind (a.broadcast ·)) ∧
    (∀ (ss ss' : List Shape) (s : Shape), ss.Perm ss' → Shape.broadcastAll ss = some s →
      Shape.broadcastAll ss' = some s ∧
        Op.maximum.inferShape ss' = s ∧ Op.minimum.inferShape ss' = s) ∧
    ∀ (c : Constraint) (lhs rhs : Expr) (s : Shape) (w : World),
      lhs.shape.broadcast rhs.shape = some s →
        InequalitySlack c [lhs, rhs] w s ∧ InequalitySlack c [rhs, lhs] w s := by
  refine ⟨Shape.broadcast_comm, Shape.broadcast_scalar_right, Shape.broadcast_assoc,
    fun ss ss' s hperm hs => ?_, fun c lhs rhs s w hs => ?_⟩
  · have hs' : Shape.broadcastAll ss' = some s := (Shape.broadcastAll_perm hperm).symm.trans hs
    exact ⟨hs', Op.inferShape_extremum_of_broadcastAll hs'⟩
  · have hswap : rhs.shape.broadcast lhs.shape = some s :=
      (Shape.broadcast_comm rhs.shape lhs.shape).trans hs
    exact ⟨inequalitySlack_of_broadcast w hs, inequalitySlack_of_broadcast w hswap⟩

def matrixVar : Expr := .var 0 ⟨.matrix 2 3, none, false, false⟩

def rowConst : Expr := .const 1 (Value.ofList [1, 2, 3]) (.vector 3)

/-- A `2 × 3` matrix, a vector of three and a scalar broadcast together to `2 × 3`; listed
backwards they still do, and a maximum or minimum over them has that shape. The slack of
`v ≤ x`, for a `2 × 3` variable `x` and a vector `v` of three, is `2 × 3` too. -/
theorem broadcast_order_independent_matrixRow :
    [Shape.matrix 2 3, .vector 3, .scalar].Perm [.scalar, .vector 3, .matrix 2 3] ∧
    Shape.broadcastAll [.matrix 2 3, .vector 3, .scalar] = some (.matrix 2 3) ∧
    Op.maximum.inferShape [.scalar, .vector 3, .matrix 2 3] = .matrix 2 3 ∧
    Op.minimum.inferShape [.scalar, .vector 3, .matrix 2 3] = .matrix 2 3 ∧
    matrixVar.shape.broadcast rowConst.shape = some (.matrix 2 3) ∧
    InequalitySlack ⟨2, .inequality rowConst matrixVar⟩ [rowConst, matrixVar] {} (.matrix 2 3) := by
  have hperm : [Shape.matrix 2 3, .vector 3, .scalar].Perm [.scalar, .vector 3, .matrix 2 3] :=
    (List.reverse_perm _).symm
  have hall : Shape.broadcastAll [.matrix 2 3, .vector 3, .scalar] = some (.matrix 2 3) := by
    decide
  have hfit : matrixVar.shape.broadcast rowConst.shape = some (.matrix 2 3) := by decide
  obtain ⟨-, hmax, hmin⟩ := broadcast_order_independent.2.2.2.1 _ _ _ hperm hall
  exact ⟨hperm, hall, hmax, hmin, hfit,
    (broadcast_order_independent.2.2.2.2 _ matrixVar rowConst _ {} hfit).2⟩

end ConicForm
