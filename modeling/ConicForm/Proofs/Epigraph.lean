import Mathlib
import ConicForm.Proofs.RealReading
import ConicForm.Proofs.Rules
import ConicForm.Proofs.Recanonical
/-!
What the constraints of each standard rule say over the reals.

A rule replaces an atom over canonical operands by a fresh variable `t` (for the 1-norm, the sum
of one) bounded by cone constraints. Each reading lemma runs one rule symbolically and reads its
constraints, under any valuation, as one condition between the operand's entries and `t`'s
(`ConeRule.abs_reading` … `ConeRule.power_reading`); the rotated cone of the quadratic atoms is
read once (`Rules.rotatedSoc_reading`). The optimum over the fresh variable is set up once, over
the valuations that keep the operands (`Feasible`, `Curvature.optimum_of_fresh`).
-/

namespace ConicForm

variable {w w' : World}

/-! ### Reading the runs of builders -/

@[simp] lemma Expr.shape_var (i : Nat) (v : VarInfo) : (Expr.var i v).shape = v.shape := rfl

@[simp] lemma Expr.shape_const (i : Nat) (v : Value) (s : Shape) :
    (Expr.const i v s).shape = s := rfl

@[simp] lemma Expr.shape_node (i : Nat) (op : Op) (args : List Expr) (s : Shape) (c h : Bool) :
    (Expr.node i op args s c h).shape = s := rfl

lemma Value.real_filled {s : Shape} {x : Float} {idx : List Nat} (h : idx ∈ s.indices) :
    (if s.isScalar = true then Value.scalar x else .dense (Dense.fill s.rows s.cols x)).real idx =
      Binary64.toReal x := by
  have h₂ := Shape.mem_indices.1 h
  split
  · -- the only tuple of the scalar shape is the empty one
    rename_i hs
    rw [show s.dims = [] by simpa [Shape.isScalar] using hs] at h₂
    cases h₂
    rfl
  · -- a tuple below the dimensions lies inside the stored `rows × cols` block
    have hpos : idx.getD 1 0 * s.rows + idx.getD 0 0 < s.rows * s.cols := by
      obtain ⟨ds⟩ := s
      cases h₂ with
      | nil => simp_all [Shape.isScalar]
      | cons hi₀ rest =>
        cases rest with
        | nil => simpa [Shape.rows, Shape.cols] using hi₀
        | cons hi₁ _ =>
          simp only [Shape.rows, Shape.cols, List.headD_cons, List.drop_succ_cons, List.drop_zero,
            List.getD_cons_zero, List.getD_cons_succ]
          nlinarith
    simp only [Value.real, Value.toDense, Dense.get, Dense.fill, Array.getD_eq_getD_getElem?,
      Array.getElem?_replicate, hpos, if_true, Option.getD_some]

lemma Rules.one_bind_ok {β : Type} {k : String} {args : List Expr} {f : Expr → Run β} {b : β}
    (h : (Rules.one k args >>= f).run.run w = (.ok b, w')) :
    ∃ x, args = [x] ∧ (f x).run.run w = (.ok b, w') := by
  obtain ⟨x, w₁, h₁, h₂⟩ := bind_eq_ok h
  obtain ⟨rfl, rfl⟩ := Rules.one_ok h₁
  exact ⟨x, rfl, h₂⟩

/-! ### Optima over one fresh variable -/

/-- The valuations a rule's replacement is optimized over: those that keep `ρ` on the ids below
`n`, where the rewritten tree lives, and satisfy the rule's constraints `aux`. -/
def Feasible (n : Nat) (ρ : Valuation) (aux : List Constraint) (ρ' : Valuation) : Prop :=
  (∀ j < n, ρ' j = ρ j) ∧ ∀ k ∈ aux, k.rel.Holds ρ'

namespace Curvature

variable {c : Curvature} {s : Shape} {n : Nat} {ρ : Valuation} {out : Expr}
  {aux : List Constraint} {v : RArr}

lemma bounds_refl (c : Curvature) (a : ℝ) : c.Bounds a a := by
  cases c <;> exact le_refl a

/-- The optimum over one fresh variable `n`: when the replacement reads `G` of the variable's
array and the constraints say `C` of it, for every valuation that keeps `ρ` below `n`, an
optimum of `G` over `C` is the optimum of the replacement. -/
lemma optimum_of_fresh (G : RArr → RArr) (C : RArr → Prop)
    (hout : ∀ ρ', (∀ j < n, ρ' j = ρ j) → out.real ρ' = G (ρ' n))
    (haux : ∀ ρ', (∀ j < n, ρ' j = ρ j) → ((∀ k ∈ aux, k.rel.Holds ρ') ↔ C (ρ' n)))
    (hbound : ∀ τ, C τ → ∀ idx ∈ s.indices, c.Bounds (v idx) (G τ idx))
    (hattain : ∃ τ, C τ ∧ ∀ idx ∈ s.indices, G τ idx = v idx) :
    c.Optimum s (fun ρ' => out.real ρ') (Feasible n ρ aux) v := by
  constructor
  · rintro ρ' ⟨hkeep, hk⟩ idx hidx
    rw [hout ρ' hkeep]
    exact hbound _ ((haux ρ' hkeep).1 hk) idx hidx
  · obtain ⟨τ, hτ, hGτ⟩ := hattain
    -- the valuation that keeps `ρ` and gives the fresh variable the optimal array
    have hkeep : ∀ j < n, Function.update ρ n τ j = ρ j := fun j hj =>
      Function.update_of_ne (Nat.ne_of_lt hj) τ ρ
    refine ⟨Function.update ρ n τ, ⟨hkeep, (haux _ hkeep).2 (by simpa using hτ)⟩, ?_⟩
    intro idx hidx
    rw [hout _ hkeep, Function.update_self]
    exact hGτ idx hidx

/-- The optimum of a fresh variable constrained entry by entry: at each entry the condition
bounds the variable by `v` and `v` meets it. -/
lemma optimum_entrywise {R : List Nat → ℝ → Prop}
    (hout : ∀ ρ', (∀ j < n, ρ' j = ρ j) → out.real ρ' = ρ' n)
    (haux : ∀ ρ', (∀ j < n, ρ' j = ρ j) →
      ((∀ k ∈ aux, k.rel.Holds ρ') ↔ ∀ idx ∈ s.indices, R idx (ρ' n idx)))
    (hbound : ∀ idx ∈ s.indices, ∀ y, R idx y → c.Bounds (v idx) y)
    (hattain : ∀ idx ∈ s.indices, R idx (v idx)) :
    c.Optimum s (fun ρ' => out.real ρ') (Feasible n ρ aux) v :=
  optimum_of_fresh id (fun τ => ∀ idx ∈ s.indices, R idx (τ idx)) hout haux
    (fun _ hτ idx hidx => hbound idx hidx _ (hτ idx hidx)) ⟨v, hattain, fun _ _ => rfl⟩

lemma optimum_entrywise_iff {R : List Nat → ℝ → Prop}
    (hout : ∀ ρ', (∀ j < n, ρ' j = ρ j) → out.real ρ' = ρ' n)
    (haux : ∀ ρ', (∀ j < n, ρ' j = ρ j) →
      ((∀ k ∈ aux, k.rel.Holds ρ') ↔ ∀ idx ∈ s.indices, R idx (ρ' n idx)))
    (hR : ∀ idx ∈ s.indices, ∀ y, R idx y ↔ c.Bounds (v idx) y) :
    c.Optimum s (fun ρ' => out.real ρ') (Feasible n ρ aux) v :=
  optimum_entrywise hout haux (fun idx hidx y => (hR idx hidx y).1)
    (fun idx hidx => (hR idx hidx _).2 (bounds_refl c _))

end Curvature

/-! ### What each rule's constraints say -/

lemma abs_le_iff_sides {x t : ℝ} : |x| ≤ t ↔ 0 ≤ t + -x ∧ 0 ≤ t + x := by
  rw [abs_le]
  constructor <;> rintro ⟨h₁, h₂⟩ <;> constructor <;> linarith

lemma Rules.bothSides_reading {t x : Expr} {cs : List Constraint}
    (h : (Rules.bothSides t x).run.run w = (.ok cs, w')) (ρ : Valuation) :
    (∀ k ∈ cs, k.rel.Holds ρ) ↔ ∀ idx ∈ ((t.shape.broadcast x.shape).getD .scalar).indices,
      |x.real ρ (x.shape.project idx)| ≤ t.real ρ (t.shape.project idx) := by
  simp [Rules.bothSides, Rules.nonneg, Expr.sub] at h
  obtain ⟨rfl, -⟩ := h
  simp only [List.mem_cons, List.not_mem_nil, or_false, forall_eq_or_imp, forall_eq,
    Relation.Holds, Expr.shape_node, Op.inferShape, List.headD_cons, List.drop_succ_cons,
    List.drop_zero, Expr.real_node, Expr.realList_cons, Expr.realList_nil, Op.real?,
    Option.getD_some, abs_le_iff_sides, forall₂_and]

lemma Rules.nonneg_sub_reading {t a : Expr} {k : Constraint}
    (h : (do Rules.nonneg (← Expr.sub t a) : Run Constraint).run.run w = (.ok k, w'))
    (ρ : Valuation) :
    k.rel.Holds ρ ↔ ∀ idx ∈ ((t.shape.broadcast a.shape).getD .scalar).indices,
      a.real ρ (a.shape.project idx) ≤ t.real ρ (t.shape.project idx) := by
  simp [Rules.nonneg, Expr.sub] at h
  obtain ⟨rfl, -⟩ := h
  simp only [Relation.Holds, Expr.shape_node, Op.inferShape, List.headD_cons, List.drop_succ_cons,
    List.drop_zero, Expr.real_node, Expr.realList_cons, Expr.realList_nil, Op.real?,
    Option.getD_some, ← sub_eq_add_neg, sub_nonneg]

lemma forall_mem_iff_of_forall₂ {α β : Type} {P : α → Prop} {Q : β → Prop} {xs : List α}
    {ys : List β} (h : List.Forall₂ (fun a b => Q b ↔ P a) xs ys) :
    (∀ b ∈ ys, Q b) ↔ ∀ a ∈ xs, P a := by
  induction h with
  | nil => simp
  | cons hab _ ih => simp [hab, ih]

@[simp] lemma Value.real_scalar (x : Float) : (Value.scalar x).real [] = Binary64.toReal x := rfl

lemma Shape.rows_eq_prod_of_ndim_le_one {c : Shape} (hc : c.ndim ≤ 1) : c.rows = c.dims.prod := by
  obtain ⟨ds⟩ := c
  match ds, hc with
  | [], _ => rfl
  | [n], _ => simp [Shape.rows]

lemma Shape.cell_mem_indices {c : Shape} (hc : c.ndim ≤ 1) {k : Nat} (hk : k < c.rows) :
    c.cell k 0 ∈ c.indices := by
  obtain ⟨ds⟩ := c
  match ds, hc with
  | [], _ => exact List.mem_singleton_self _
  | [n], _ => simpa [Shape.cell, Shape.mem_indices, Shape.rows] using hk

lemma sumSq_column {c : Shape} (hc : c.ndim ≤ 1) (a : RArr) :
    ((List.range c.rows).map fun k => a (c.cell k 0) ^ 2).sum = sumSq a c := by
  obtain ⟨ds⟩ := c
  match ds, hc with
  | [], _ => rfl
  | [n], _ =>
    rw [sumSq, show (⟨[n]⟩ : Shape) = Shape.vector n from rfl, Shape.indices_vector, List.map_map]
    rfl

lemma Rules.flattenMatrix_column {x fx : Expr} (hpos : 0 < x.shape.dims.prod)
    (hfit : x.shape.dims.prod < Shape.wordModulus)
    (h : (Rules.flattenMatrix x).run.run w = (.ok fx, w')) :
    fx.shape.ndim ≤ 1 ∧ fx.shape.rows = x.shape.dims.prod ∧
      ∀ ρ, ((List.range fx.shape.rows).map fun k => fx.real ρ (fx.shape.cell k 0) ^ 2).sum =
        sumSq (x.real ρ) x.shape := by
  by_cases hx : x.shape.ndim ≤ 1
  · -- a scalar or a vector is its own column
    simp only [Rules.flattenMatrix, hx, if_true, run_pure] at h
    obtain ⟨rfl, -⟩ := h
    exact ⟨hx, Shape.rows_eq_prod_of_ndim_le_one hx, fun ρ => sumSq_column hx _⟩
  · -- a matrix is reshaped into the vector of its entries in storage order
    simp [Rules.flattenMatrix, hx, Expr.flatten] at h
    obtain ⟨rfl, -⟩ := h
    have hsize := Shape.size_eq_prod hpos hfit
    refine ⟨by simp [Op.inferShape, Shape.ndim, Shape.vector],
      by simp [Op.inferShape, Shape.vector, Shape.rows, hsize], fun ρ => ?_⟩
    simp [Op.inferShape, Shape.vector, Shape.rows, Shape.cell, Op.real?, Shape.ravel, hsize, sumSq,
      Shape.indices, List.map_map, Function.comp_def]

lemma sumSq_stack (A B : RArr) (c : Shape) :
    sumSq (fun idx => stackRows [(A, c), (B, .scalar)] (idx.getD 0 0) (idx.getD 1 0))
        (.vector (c.rows + 1)) =
      ((List.range c.rows).map fun k => A (c.cell k 0) ^ 2).sum + B [] ^ 2 := by
  rw [sumSq, Shape.indices_vector, List.map_map, List.range_succ, List.map_append, List.sum_append]
  congr 1
  · refine congrArg List.sum (List.map_congr_left fun k hk => ?_)
    simp [stackRows, List.mem_range.1 hk]
  · simp [stackRows]

/-- The rotated cone `‖(2x, t - y)‖₂ ≤ t + y` over scalars `t` and `y`. -/
lemma Rules.rotatedSoc_reading {x t y : Expr} {k : Constraint} (ht : t.shape = .scalar)
    (hy : y.shape = .scalar) (hpos : 0 < x.shape.dims.prod)
    (hfit : x.shape.dims.prod + 1 < Shape.wordModulus)
    (h : (Rules.rotatedSoc x t y).run.run w = (.ok k, w')) (ρ : Valuation) :
    k.rel.Holds ρ ↔ √(4 * sumSq (x.real ρ) x.shape + (t.real ρ [] - y.real ρ []) ^ 2) ≤
      t.real ρ [] + y.real ρ [] := by
  rw [Rules.rotatedSoc] at h
  obtain ⟨fx, w₁, hfx, hrun⟩ := bind_eq_ok h
  obtain ⟨hcol, hrows, hsum⟩ := Rules.flattenMatrix_column hpos (by omega) hfx
  simp [Expr.scale, Expr.scalar, Expr.sub] at hrun
  obtain ⟨rfl, -⟩ := hrun
  simp [Relation.Holds, Op.inferShape, ht, hy, hcol, Op.real?]
  -- the stacked vector holds `2x` down its first rows and `t - y` in its last
  have hword : Shape.wordSum [fx.shape.rows, 1] = fx.shape.rows + 1 := by
    rw [Shape.wordSum_eq_sum (by simp; omega)]
    simp
  have hstack := sumSq_stack (fun idx => 2 * fx.real ρ (fx.shape.project idx))
    (fun _ => t.real ρ [] + -y.real ρ []) fx.shape
  simp only [List.getD_eq_getElem?_getD] at hstack
  have htwice : ((List.range fx.shape.rows).map fun k =>
      (2 * fx.real ρ (fx.shape.project (fx.shape.cell k 0))) ^ 2).sum = 4 * sumSq (x.real ρ) x.shape := by
    rw [← hsum ρ, ← List.sum_map_mul_left]
    refine congrArg List.sum (List.map_congr_left fun k hk => ?_)
    rw [Shape.project_of_mem (Shape.cell_mem_indices hcol (List.mem_range.1 hk))]
    ring
  rw [hword, hstack, htwice, ← sub_eq_add_neg]

namespace ConeRule

variable {e : Expr} {args : List Expr} {out : Expr} {aux : List Constraint}

abbrev freshVar (w : World) (s : Shape) : Expr := .var w.next ⟨s, none, false, false⟩

lemma abs_reading (h : (ConeRule.abs.apply e args).run.run w = (.ok (out, aux), w')) :
    ∃ x, args = [x] ∧ out = freshVar w x.shape ∧
      ∀ ρ, (∀ k ∈ aux, k.rel.Holds ρ) ↔ ∀ idx ∈ x.shape.indices, |x.real ρ idx| ≤ ρ w.next idx := by
  obtain ⟨x, rfl, hrun⟩ := Rules.one_bind_ok h
  simp only [Expr.plainVar, run_monadLift_bind, Expr.newVar_run] at hrun
  obtain ⟨cs, w₁, hcs, hrun⟩ := bind_eq_ok hrun
  simp at hrun
  obtain ⟨⟨rfl, rfl⟩, -⟩ := hrun
  refine ⟨x, rfl, rfl, fun ρ => ?_⟩
  rw [Rules.bothSides_reading hcs ρ]
  simp +contextual [Shape.project_of_mem]

lemma pos_reading (h : (ConeRule.pos.apply e args).run.run w = (.ok (out, aux), w')) :
    ∃ x, args = [x] ∧ out = freshVar w x.shape ∧
      ∀ ρ, (∀ k ∈ aux, k.rel.Holds ρ) ↔ ∀ idx ∈ x.shape.indices, max (x.real ρ idx) 0 ≤ ρ w.next idx := by
  obtain ⟨x, rfl, hrun⟩ := Rules.one_bind_ok h
  simp [Expr.plainVar, Rules.nonneg, Expr.sub] at hrun
  obtain ⟨⟨rfl, rfl⟩, -⟩ := hrun
  refine ⟨x, rfl, rfl, fun ρ => ?_⟩
  simp +contextual only [List.mem_cons, List.not_mem_nil, or_false, forall_eq_or_imp, forall_eq,
    Relation.Holds, Expr.shape_node, Expr.shape_var, Op.inferShape, Shape.broadcast_self,
    List.headD_cons, List.drop_succ_cons, List.drop_zero, Expr.real_node, Expr.realList_cons,
    Expr.realList_nil, Op.real?, Expr.real_var, Option.getD_some, Shape.project_of_mem]
  simp only [max_le_iff, ← sub_eq_add_neg, sub_nonneg, forall₂_and]

lemma exp_reading (h : (ConeRule.exp.apply e args).run.run w = (.ok (out, aux), w')) :
    ∃ x, args = [x] ∧ out = freshVar w x.shape ∧
      ∀ ρ, (∀ k ∈ aux, k.rel.Holds ρ) ↔ ∀ idx ∈ x.shape.indices, Real.exp (x.real ρ idx) ≤ ρ w.next idx := by
  obtain ⟨x, rfl, hrun⟩ := Rules.one_bind_ok h
  simp [Expr.plainVar, Expr.filled] at hrun
  obtain ⟨⟨rfl, rfl⟩, -⟩ := hrun
  refine ⟨x, rfl, rfl, fun ρ => ?_⟩
  simp +contextual only [List.mem_cons, List.not_mem_nil, or_false, forall_eq, Relation.Holds,
    Expr.shape_var, Expr.shape_const, Shape.common_self_three, Expr.real_var, Expr.real_const,
    Shape.project_of_mem, Value.real_filled, Binary64.toReal_one, zero_lt_one, true_and, one_mul,
    div_one]

lemma negPart_reading (h : (ConeRule.negPart.apply e args).run.run w = (.ok (out, aux), w')) :
    ∃ x, args = [x] ∧ out = freshVar w x.shape ∧
      ∀ ρ, (∀ k ∈ aux, k.rel.Holds ρ) ↔ ∀ idx ∈ x.shape.indices, max (-x.real ρ idx) 0 ≤ ρ w.next idx := by
  obtain ⟨x, rfl, hrun⟩ := Rules.one_bind_ok h
  simp [Expr.plainVar, Rules.nonneg] at hrun
  obtain ⟨⟨rfl, rfl⟩, -⟩ := hrun
  refine ⟨x, rfl, rfl, fun ρ => ?_⟩
  simp +contextual only [List.mem_cons, List.not_mem_nil, or_false, forall_eq_or_imp, forall_eq,
    Relation.Holds, Expr.shape_node, Expr.shape_var, Op.inferShape, Shape.broadcast_self,
    List.headD_cons, List.drop_succ_cons, List.drop_zero, Expr.real_node, Expr.realList_cons,
    Expr.realList_nil, Op.real?, Expr.real_var, Option.getD_some, Shape.project_of_mem]
  simp only [max_le_iff, neg_le_iff_add_nonneg, forall₂_and]

lemma log_reading (h : (ConeRule.log.apply e args).run.run w = (.ok (out, aux), w')) :
    ∃ x, args = [x] ∧ out = freshVar w x.shape ∧
      ∀ ρ, (∀ k ∈ aux, k.rel.Holds ρ) ↔ ∀ idx ∈ x.shape.indices, Real.exp (ρ w.next idx) ≤ x.real ρ idx := by
  obtain ⟨x, rfl, hrun⟩ := Rules.one_bind_ok h
  simp [Expr.plainVar, Expr.filled] at hrun
  obtain ⟨⟨rfl, rfl⟩, -⟩ := hrun
  refine ⟨x, rfl, rfl, fun ρ => ?_⟩
  simp +contextual only [List.mem_cons, List.not_mem_nil, or_false, forall_eq, Relation.Holds,
    Expr.shape_var, Expr.shape_const, Shape.common_self_three, Expr.real_var, Expr.real_const,
    Shape.project_of_mem, Value.real_filled, Binary64.toReal_one, zero_lt_one, true_and, one_mul,
    div_one]

lemma entropy_reading (h : (ConeRule.entropy.apply e args).run.run w = (.ok (out, aux), w')) :
    ∃ x, args = [x] ∧ out = freshVar w x.shape ∧
      ∀ ρ, (∀ k ∈ aux, k.rel.Holds ρ) ↔ ∀ idx ∈ x.shape.indices,
        0 < x.real ρ idx ∧ x.real ρ idx * Real.exp (ρ w.next idx / x.real ρ idx) ≤ 1 := by
  obtain ⟨x, rfl, hrun⟩ := Rules.one_bind_ok h
  simp [Expr.plainVar, Expr.filled] at hrun
  obtain ⟨⟨rfl, rfl⟩, -⟩ := hrun
  refine ⟨x, rfl, rfl, fun ρ => ?_⟩
  simp +contextual only [List.mem_cons, List.not_mem_nil, or_false, forall_eq, Relation.Holds,
    Expr.shape_var, Expr.shape_const, Shape.common_self_three, Expr.real_var, Expr.real_const,
    Shape.project_of_mem, Value.real_filled, Binary64.toReal_one]

lemma norm1_reading (h : (ConeRule.norm1.apply e args).run.run w = (.ok (out, aux), w')) :
    ∃ x, args = [x] ∧ (∀ ρ, out.real ρ = fun _ => (x.shape.indices.map (ρ w.next)).sum) ∧
      ∀ ρ, (∀ k ∈ aux, k.rel.Holds ρ) ↔ ∀ idx ∈ x.shape.indices, |x.real ρ idx| ≤ ρ w.next idx := by
  obtain ⟨x, rfl, hrun⟩ := Rules.one_bind_ok h
  simp only [Expr.plainVar, run_monadLift_bind, Expr.newVar_run] at hrun
  obtain ⟨cs, w₁, hcs, hrun⟩ := bind_eq_ok hrun
  simp at hrun
  obtain ⟨⟨rfl, rfl⟩, -⟩ := hrun
  refine ⟨x, rfl, fun ρ => by simp [Op.real?], fun ρ => ?_⟩
  rw [Rules.bothSides_reading hcs ρ]
  simp +contextual [Shape.project_of_mem]

lemma normInf_reading (h : (ConeRule.normInf.apply e args).run.run w = (.ok (out, aux), w')) :
    ∃ x, args = [x] ∧ out = freshVar w .scalar ∧
      ∀ ρ, (∀ k ∈ aux, k.rel.Holds ρ) ↔ ∀ idx ∈ x.shape.indices, |x.real ρ idx| ≤ ρ w.next [] := by
  obtain ⟨x, rfl, hrun⟩ := Rules.one_bind_ok h
  simp only [Expr.plainVar, run_monadLift_bind, Expr.newVar_run] at hrun
  obtain ⟨cs, w₁, hcs, hrun⟩ := bind_eq_ok hrun
  simp at hrun
  obtain ⟨⟨rfl, rfl⟩, -⟩ := hrun
  refine ⟨x, rfl, rfl, fun ρ => ?_⟩
  rw [Rules.bothSides_reading hcs ρ]
  simp +contextual [Shape.project_of_mem]

lemma norm2_reading (h : (ConeRule.norm2.apply e args).run.run w = (.ok (out, aux), w')) :
    ∃ x, args = [x] ∧ out = freshVar w .scalar ∧
      ∀ ρ, (∀ k ∈ aux, k.rel.Holds ρ) ↔ √(sumSq (x.real ρ) x.shape) ≤ ρ w.next [] := by
  obtain ⟨x, rfl, hrun⟩ := Rules.one_bind_ok h
  simp [Expr.plainVar] at hrun
  obtain ⟨⟨rfl, rfl⟩, -⟩ := hrun
  refine ⟨x, rfl, rfl, fun ρ => ?_⟩
  simp [Relation.Holds]

lemma maximum_reading (h : (ConeRule.maximum.apply e args).run.run w = (.ok (out, aux), w')) :
    out = freshVar w e.shape ∧ ∀ ρ, (∀ k ∈ aux, k.rel.Holds ρ) ↔
      ∀ a ∈ args, ∀ idx ∈ ((e.shape.broadcast a.shape).getD .scalar).indices,
        a.real ρ (a.shape.project idx) ≤ ρ w.next (e.shape.project idx) := by
  simp only [ConeRule.apply, Expr.plainVar, run_monadLift_bind, Expr.newVar_run] at h
  obtain ⟨cs, w₁, hcs, hrun⟩ := bind_eq_ok h
  simp only [run_pure] at hrun
  obtain ⟨⟨rfl, rfl⟩, -⟩ := hrun
  refine ⟨rfl, fun ρ => forall_mem_iff_of_forall₂ ?_⟩
  refine mapM_forall₂ args (fun a _ w₂ k w₃ hk => ?_) hcs
  simpa using Rules.nonneg_sub_reading hk ρ

lemma minimum_reading (h : (ConeRule.minimum.apply e args).run.run w = (.ok (out, aux), w')) :
    out = freshVar w e.shape ∧ ∀ ρ, (∀ k ∈ aux, k.rel.Holds ρ) ↔
      ∀ a ∈ args, ∀ idx ∈ ((e.shape.broadcast a.shape).getD .scalar).indices,
        ρ w.next (e.shape.project idx) ≤ a.real ρ (a.shape.project idx) := by
  simp only [ConeRule.apply, Expr.plainVar, run_monadLift_bind, Expr.newVar_run] at h
  obtain ⟨cs, w₁, hcs, hrun⟩ := bind_eq_ok h
  simp only [run_pure] at hrun
  obtain ⟨⟨rfl, rfl⟩, -⟩ := hrun
  refine ⟨rfl, fun ρ => forall_mem_iff_of_forall₂ ?_⟩
  refine mapM_forall₂ args (fun a _ w₂ k w₃ hk => ?_) hcs
  simpa [Shape.broadcast_comm a.shape] using Rules.nonneg_sub_reading hk ρ

lemma sumSquares_reading (h : (ConeRule.sumSquares.apply e args).run.run w = (.ok (out, aux), w')) :
    ∃ x, args = [x] ∧ out = freshVar w .scalar ∧
      (0 < x.shape.dims.prod → x.shape.dims.prod + 1 < Shape.wordModulus →
        ∀ ρ, (∀ k ∈ aux, k.rel.Holds ρ) ↔
          √(4 * sumSq (x.real ρ) x.shape + (ρ w.next [] - 1) ^ 2) ≤ ρ w.next [] + 1) := by
  obtain ⟨x, rfl, hrun⟩ := Rules.one_bind_ok h
  simp only [Expr.plainVar, Expr.scalar, run_monadLift_bind, Expr.newVar_run, Expr.constant_run]
    at hrun
  obtain ⟨k, w₁, hk, hrun⟩ := bind_eq_ok hrun
  simp only [run_pure] at hrun
  obtain ⟨⟨rfl, rfl⟩, -⟩ := hrun
  refine ⟨x, rfl, rfl, fun hpos hfit ρ => ?_⟩
  rw [List.forall_mem_singleton, Rules.rotatedSoc_reading rfl rfl hpos hfit hk ρ]
  simp

lemma quadOverLin_reading (h : (ConeRule.quadOverLin.apply e args).run.run w = (.ok (out, aux), w')) :
    ∃ x y, args = [x, y] ∧ out = freshVar w .scalar ∧
      (y.shape = .scalar → 0 < x.shape.dims.prod → x.shape.dims.prod + 1 < Shape.wordModulus →
        ∀ ρ, (∀ k ∈ aux, k.rel.Holds ρ) ↔
          √(4 * sumSq (x.real ρ) x.shape + (ρ w.next [] - y.real ρ []) ^ 2) ≤
            ρ w.next [] + y.real ρ []) := by
  obtain ⟨⟨x, y⟩, w₁, hxy, hrun⟩ := bind_eq_ok h
  obtain ⟨rfl, rfl⟩ := Rules.two_ok hxy
  simp only [Expr.plainVar, run_monadLift_bind, Expr.newVar_run] at hrun
  obtain ⟨k, w₂, hk, hrun⟩ := bind_eq_ok hrun
  simp only [run_pure] at hrun
  obtain ⟨⟨rfl, rfl⟩, -⟩ := hrun
  refine ⟨x, y, rfl, rfl, fun hy hpos hfit ρ => ?_⟩
  rw [List.forall_mem_singleton, Rules.rotatedSoc_reading rfl hy hpos hfit hk ρ]
  simp

/-- The power rule's cone at one entry `x` and its variable's entry `t`, read over the reals:
`(x, 1, t)` with `α = p` when `0 < p < 1`, `(t, 1, x)` with `α = 1/p` when `p > 1`, and
`(t, x, 1)` with `α = 1/(1-p)` otherwise, each `α` as the double the rule computes. -/
def powerEntry (p : Float) (x t : ℝ) : Prop :=
  if 0 < p ∧ p < 1 then 0 ≤ x ∧ |t| ≤ x ^ Binary64.toReal p
  else if 1 < p then 0 ≤ t ∧ |x| ≤ t ^ Binary64.toReal (1 / p)
  else 0 ≤ t ∧ 0 ≤ x ∧ 1 ≤ t ^ Binary64.toReal (1 / (1 - p)) * x ^ (1 - Binary64.toReal (1 / (1 - p)))

/-- The power: outside the two bands where it returns `x` or ones, a variable `t` in one power
cone with `x` and ones. -/
lemma power_reading {i : Nat} {p : Float} {old : List Expr} {s : Shape} {c hp : Bool}
    (hone : ¬(p - 1).abs < 1e-10) (hzero : ¬p.abs < 1e-10)
    (h : (ConeRule.power.apply (.node i (.power p) old s c hp) args).run.run w = (.ok (out, aux), w')) :
    ∃ x, args = [x] ∧ out = freshVar w x.shape ∧
      ∀ ρ, (∀ k ∈ aux, k.rel.Holds ρ) ↔ ∀ idx ∈ x.shape.indices, powerEntry p (x.real ρ idx) (ρ w.next idx) := by
  simp only [ConeRule.apply, pure_bind] at h
  obtain ⟨x, rfl, hrun⟩ := Rules.one_bind_ok h
  simp [hone, hzero, Expr.plainVar, Expr.filled] at hrun
  obtain ⟨⟨rfl, rfl⟩, -⟩ := hrun
  refine ⟨x, rfl, rfl, fun ρ => ?_⟩
  unfold powerEntry
  -- each branch is one power cone whose constant operand reads as ones
  by_cases hc : 0 < p ∧ p < 1
  · simp only [if_pos hc]
    simp +contextual only [List.mem_cons, List.not_mem_nil, or_false, forall_eq, Relation.Holds,
      Expr.shape_var, Expr.shape_const, Shape.common_self_three, Expr.real_var, Expr.real_const,
      Shape.project_of_mem, Value.real_filled, Binary64.toReal_one, zero_le_one, true_and,
      Real.one_rpow, mul_one]
  by_cases hgt : 1 < p
  · simp only [if_neg hc, if_pos hgt]
    simp +contextual only [List.mem_cons, List.not_mem_nil, or_false, forall_eq, Relation.Holds,
      Expr.shape_var, Expr.shape_const, Shape.common_self_three, Expr.real_var, Expr.real_const,
      Shape.project_of_mem, Value.real_filled, Binary64.toReal_one, zero_le_one, true_and,
      Real.one_rpow, mul_one]
  · simp only [if_neg hc, if_neg hgt]
    simp +contextual only [List.mem_cons, List.not_mem_nil, or_false, forall_eq, Relation.Holds,
      Expr.shape_var, Expr.shape_const, Shape.common_self_three, Expr.real_var, Expr.real_const,
      Shape.project_of_mem, Value.real_filled, Binary64.toReal_one, abs_one]

end ConeRule

end ConicForm
