import ConicForm.Proofs.Run
/-!
What a rule does to the world.

A rule, and the copy of a node or a constraint over new operands, only builds: it reads and
writes nothing of the world but the id counter, and it fails only by refusing what it was given,
never for a missing value. The constraints it makes take distinct ids, each taken from the
counter while the rule ran.
-/

namespace ConicForm

variable {w w' : World}

namespace Rules

lemma one_ok {k : String} {args : List Expr} {x : Expr}
    (h : (one k args).run.run w = (.ok x, w')) : args = [x] ∧ w' = w := by
  unfold one at h
  split at h <;> cases h
  exact ⟨rfl, rfl⟩

lemma two_ok {k : String} {args : List Expr} {x y : Expr}
    (h : (two k args).run.run w = (.ok (x, y), w')) : args = [x, y] ∧ w' = w := by
  unfold two at h
  split at h <;> cases h
  exact ⟨rfl, rfl⟩

end Rules

/-! ### Rules only build -/

lemma ConeRule.builds (r : ConeRule) (e : Expr) (args : List Expr) : Builds (r.apply e args) := by
  cases r <;> simp only [ConeRule.apply, Rules.one, Rules.two, Rules.nonneg, Rules.flattenMatrix,
    Rules.rotatedSoc, Rules.bothSides] <;>
  repeat' first
    | exact Builds.ok _
    | exact Builds.throw (by simp [Error.category])
    | exact Builds.lift fun _ _ => rfl
    | refine Builds.seq ?_ fun _ => ?_
    | refine Builds.mapM (fun _ => ?_) _
    | split

lemma ExprRule.builds (r : ExprRule) (e : Expr) (args : List Expr) : Builds (r.apply e args) := by
  cases r
  case cone c => exact c.builds e args
  all_goals simp only [ExprRule.apply, Rules.nonneg]
  all_goals
  repeat' first
    | exact Builds.ok _
    | exact Builds.throw (by simp [Error.category])
    | exact Builds.lift fun _ _ => rfl
    | refine Builds.seq ?_ fun _ => ?_
    | split

lemma Expr.withArgs_builds (e : Expr) (args : List Expr) : Builds (e.withArgs args) := by
  dsimp only [Expr.withArgs]
  repeat' first
    | exact Builds.ok _
    | exact Builds.throw (by simp [Error.category])
    | exact Builds.lift fun _ _ => rfl
    | refine Builds.seq ?_ fun _ => ?_
    | split

lemma Constraint.withArgs_builds (c : Constraint) (args : List Expr) :
    Builds (c.withArgs args) := by
  unfold Constraint.withArgs
  split
  · exact Builds.lift fun _ _ => rfl
  · rename_i e he
    refine Builds.throw ?_
    unfold Relation.withArgs at he
    split at he <;> cases he
    simp [Error.category]

lemma ConsRule.builds (r : ConsRule) (c : Constraint) (args : List Expr) :
    Builds (r.apply c args) := by
  rcases r with (_ | _) | _ | _ | _
  case copyWithNonneg =>
    simp only [ConsRule.apply]
    refine Builds.seq (c.withArgs_builds args) fun _ => ?_
    split
    · exact Builds.seq (Builds.lift fun _ _ => rfl) fun _ => Builds.ok _
    · exact Builds.throw (by simp [Error.category])
  all_goals simp only [ConsRule.apply, Rules.two, Rules.nonneg]
  all_goals
  repeat' first
    | exact Builds.ok _
    | exact Builds.throw (by simp [Error.category])
    | exact Builds.lift fun _ _ => rfl
    | refine Builds.seq ?_ fun _ => ?_
    | split

/-! ### The constraints a rule makes are fresh -/

lemma Expr.withArgs_next {e : Expr} {args : List Expr} {r : Expr}
    (h : (e.withArgs args).run.run w = (.ok r, w')) : w'.next = w.next + 1 := by
  dsimp only [Expr.withArgs] at h
  repeat' split at h
  all_goals
    simp only [run_bind, run_monadLift, run_pure, run_throw, Expr.build_run, fresh_run] at h
    cases h
  all_goals rfl

lemma Expr.withArgs_node {i : Nat} {op : Op} {old args : List Expr} {s : Shape} {c h : Bool}
    {r : Expr} (hr : ((Expr.node i op old s c h).withArgs args).run.run w = (.ok r, w')) :
    r = .node w.next op args (op.inferShape (args.map (·.shape))) (args.all (·.isConst))
      (args.any (·.hasParams)) := by
  dsimp only [Expr.withArgs] at hr
  repeat' split at hr
  all_goals
    simp only [run_monadLift, run_throw, Expr.build_run] at hr
    cases hr
  all_goals rfl

lemma Constraint.withArgs_ok {c : Constraint} {args : List Expr} {top : Constraint}
    (h : (c.withArgs args).run.run w = (.ok top, w')) :
    top.id = w.next ∧ w'.next = w.next + 1 := by
  unfold Constraint.withArgs at h
  split at h
  · simp only [run_monadLift, Constraint.make_run] at h
    cases h
    exact ⟨rfl, rfl⟩
  · cases h

lemma Rules.rotatedSoc_fresh {x t y : Expr} {c : Constraint}
    (h : (rotatedSoc x t y).run.run w = (.ok c, w')) : FreshIds w.next w'.next [c.id] := by
  by_cases hx : x.shape.ndim ≤ 1 <;>
    simp only [rotatedSoc, flattenMatrix, hx, ↓reduceIte, Expr.flatten, Expr.sub, Expr.scale,
      Expr.scalar, run_bind, run_monadLift, run_pure, build_bind_run, Expr.build_run,
      Expr.constant_run, Constraint.make_run, Expr.unary_eq, Expr.binary_eq] at h <;>
    cases h <;> refine ⟨?_, ?_, ?_⟩ <;> (try simp) <;> omega

/-- The auxiliary constraints of a standard rule take distinct fresh ids. -/
lemma ConeRule.apply_fresh (r : ConeRule) {e : Expr} {args : List Expr} {t : Expr}
    {aux : List Constraint} (h : (r.apply e args).run.run w = (.ok (t, aux), w')) :
    FreshIds w.next w'.next (aux.map (·.id)) := by
  cases r
  case maximum | minimum =>
    -- one fresh `t`, then one constraint for each operand
    simp only [ConeRule.apply] at h
    obtain ⟨t, w₁, h₁, ht⟩ := bind_eq_ok h
    obtain ⟨cs, w₂, h₂, hcs⟩ := bind_eq_ok ht
    cases hcs
    simp only [Expr.plainVar, run_monadLift, Expr.newVar_run] at h₁
    cases h₁
    have hcs := mapM_fresh (fun c => [c.id]) (fun a w c w' hc => ?_) args h₂
    · rw [← List.map_eq_flatMap] at hcs
      exact hcs.widen (by simp) (Nat.le_refl _)
    simp only [Rules.nonneg, Expr.sub, run_bind, run_monadLift, build_bind_run, Expr.build_run,
      Expr.unary_eq, Expr.binary_eq, Constraint.make_run] at hc
    cases hc
    refine ⟨?_, ?_, ?_⟩ <;> (try simp) <;> omega
  case power =>
    simp only [ConeRule.apply] at h
    split at h
    · rename_i p _ _ _ _
      rw [run_bind_of_ok (run_pure p w)] at h
      obtain ⟨x, w₂, h₂, hrest⟩ := bind_eq_ok h
      obtain ⟨-, rfl⟩ := Rules.one_ok h₂
      -- the exponent decides between the operand itself, a constant, and a power cone
      by_cases hp1 : (p - 1).abs < 1e-10
      · rw [if_pos hp1, run_pure] at hrest
        cases hrest
        exact FreshIds.nil (Nat.le_refl _)
      rw [if_neg hp1] at hrest
      by_cases hp0 : p.abs < 1e-10 <;>
        simp only [hp0, ↓reduceIte, Expr.filled, Expr.plainVar, run_bind, run_monadLift, run_pure,
          Expr.newVar_run, Expr.constant_run, Constraint.make_run] at hrest <;>
        cases hrest <;> refine ⟨?_, ?_, ?_⟩ <;> (try simp) <;> omega
    · simp only [run_bind, run_throw] at h
      cases h
  case sumSquares =>
    simp only [ConeRule.apply] at h
    obtain ⟨x, w₁, h₁, hx⟩ := bind_eq_ok h
    obtain ⟨-, rfl⟩ := Rules.one_ok h₁
    obtain ⟨t, w₂, h₂, ht⟩ := bind_eq_ok hx
    obtain ⟨y, w₃, h₃, hy⟩ := bind_eq_ok ht
    obtain ⟨c, w₄, h₄, hc⟩ := bind_eq_ok hy
    cases hc
    simp only [Expr.plainVar, Expr.scalar, run_monadLift, Expr.newVar_run,
      Expr.constant_run] at h₂ h₃
    cases h₂
    cases h₃
    exact (Rules.rotatedSoc_fresh h₄).widen (by simp only; omega) (Nat.le_refl _)
  case quadOverLin =>
    simp only [ConeRule.apply] at h
    obtain ⟨⟨x, y⟩, w₁, h₁, hxy⟩ := bind_eq_ok h
    obtain ⟨-, rfl⟩ := Rules.two_ok h₁
    obtain ⟨t, w₂, h₂, ht⟩ := bind_eq_ok hxy
    obtain ⟨c, w₃, h₃, hc⟩ := bind_eq_ok ht
    cases hc
    simp only [Expr.plainVar, run_monadLift, Expr.newVar_run] at h₂
    cases h₂
    exact (Rules.rotatedSoc_fresh h₃).widen (by simp only; omega) (Nat.le_refl _)
  -- the rules of one operand with a fixed list of constraints, run through symbolically
  all_goals
    rcases args with _ | ⟨x, _ | ⟨y, rest⟩⟩ <;>
      simp only [ConeRule.apply, Rules.one, Rules.bothSides, Rules.nonneg, Expr.plainVar,
        Expr.sub, Expr.filled, run_bind, run_monadLift, run_pure, run_throw, build_bind_run,
        Expr.build_run, Expr.newVar_run, Expr.constant_run, Constraint.make_run, Expr.unary_eq,
        Expr.binary_eq] at h <;>
      cases h
    refine ⟨?_, ?_, ?_⟩ <;> (try simp) <;> omega

lemma ExprRule.apply_fresh (r : ExprRule) {e : Expr} {args : List Expr} {t : Expr}
    {aux : List Constraint} (h : (r.apply e args).run.run w = (.ok (t, aux), w')) :
    FreshIds w.next w'.next (aux.map (·.id)) := by
  cases r
  case cone c => exact c.apply_fresh h
  all_goals
    simp only [ExprRule.apply, Rules.nonneg, Expr.plainVar] at h
    repeat' split at h
    all_goals
      simp only [run_bind, run_monadLift, run_pure, run_throw, Expr.newVar_run,
        Constraint.make_run] at h
      cases h
  all_goals refine ⟨?_, ?_, ?_⟩ <;> (try simp) <;> omega

/-- A constraint rule takes distinct fresh ids for its replacement and its auxiliary
constraints. -/
lemma ConsRule.apply_fresh (r : ConsRule) {c : Constraint} {args : List Expr} {top : Constraint}
    {aux : List Constraint} (h : (r.apply c args).run.run w = (.ok (top, aux), w')) :
    FreshIds w.next w'.next ((top :: aux).map (·.id)) := by
  rcases r with (_ | _) | _ | _ | _
  case copyWithNonneg =>
    simp only [ConsRule.apply] at h
    obtain ⟨top', w₁, h₁, hrest⟩ := bind_eq_ok h
    obtain ⟨hid, hw₁⟩ := Constraint.withArgs_ok h₁
    split at hrest
    · simp only [Rules.nonneg, run_bind, run_monadLift, run_pure, Constraint.make_run] at hrest
      cases hrest
      -- the copy takes the id before the counter moves, its non-negativity constraint the next
      refine ⟨by simp only; omega, by simp [hid, hw₁], fun i hi => ?_⟩
      simp only [List.map_cons, List.map_nil, List.mem_cons, List.not_mem_nil, or_false] at hi
      rcases hi with rfl | rfl <;> simp only [hid] <;> omega
    · cases hrest
  all_goals
    rcases args with _ | ⟨x, _ | ⟨y, _ | ⟨z, rest⟩⟩⟩ <;>
      simp only [ConsRule.apply, Rules.two, Rules.nonneg, Expr.nonnegVar, Expr.sub, run_bind,
        run_monadLift, run_pure, run_throw, build_bind_run, Expr.build_run, Expr.newVar_run,
        Constraint.make_run, Expr.unary_eq, Expr.binary_eq] at h <;>
      cases h
  all_goals refine ⟨?_, ?_, ?_⟩ <;> (try simp) <;> omega

end ConicForm
