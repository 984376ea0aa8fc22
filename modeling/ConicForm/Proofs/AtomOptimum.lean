import Mathlib
import ConicForm.Proofs.Epigraph
import ConicForm.Proofs.Binary64Round
/-!
The standard rules are epigraph (hypograph) encodings of their atoms.

Read over the reals, the constraints of each rule bound its fresh variable by the atom's value on
the atom's domain, and the atom's value meets them: the replacement's least value over the fresh
variable (the greatest, for a concave atom) is the atom's value, entry by entry
(`ConeRule.apply_optimum`). The power rule stores its cone exponent `α` as a double, so the
power it encodes is `x^(1/α)` for `p > 1` and `x^(1 - 1/α)` for `p < 0` (`coneExponent`); that
is `x^p` when the double is exact, and `power_cube_not_optimum` shows the gap at `p = 3`.
-/

namespace ConicForm

open Binary64

/-! ### The epigraphs over the reals -/

/-- The rotated cone `‖(2x, t - y)‖₂ ≤ t + y` over `y > 0` bounds `t` below by `‖x‖² / y`. -/
lemma rotated_le_iff {S t y : ℝ} (hS : 0 ≤ S) (hy : 0 < y) :
    √(4 * S + (t - y) ^ 2) ≤ t + y ↔ S / y ≤ t := by
  rw [Real.sqrt_le_iff, div_le_iff₀ hy]
  constructor
  · rintro ⟨-, h⟩
    nlinarith
  · intro h
    have ht : 0 ≤ t := (mul_nonneg_iff_of_pos_right hy).1 (hS.trans h)
    constructor <;> nlinarith

/-- The cone `(t, 1, x)` with exponent `α > 0` bounds `t` below by `x^(1/α)`, for `x ≥ 0`. -/
lemma powerAbove_iff {x t α : ℝ} (hx : 0 ≤ x) (hα : 0 < α) :
    (0 ≤ t ∧ |x| ≤ t ^ α) ↔ x ^ α⁻¹ ≤ t := by
  rw [abs_of_nonneg hx]
  constructor
  · rintro ⟨ht, h⟩
    exact (Real.rpow_inv_le_iff_of_pos hx ht hα).2 h
  · intro h
    have ht : 0 ≤ t := (Real.rpow_nonneg hx _).trans h
    exact ⟨ht, (Real.rpow_inv_le_iff_of_pos hx ht hα).1 h⟩

/-- The cone `(t, x, 1)` with exponent `α > 0` bounds `t` below by `x^(1 - 1/α)`, for `x > 0`. -/
lemma powerBelow_iff {x t α : ℝ} (hx : 0 < x) (hα : 0 < α) :
    (0 ≤ t ∧ 0 ≤ x ∧ 1 ≤ t ^ α * x ^ (1 - α)) ↔ x ^ (1 - α⁻¹) ≤ t := by
  have hu : 0 ≤ x ^ (1 - α⁻¹) := Real.rpow_nonneg hx.le _
  have hv : 0 < x ^ (1 - α) := Real.rpow_pos_of_pos hx _
  -- the bound raised to `α` is the reciprocal of the cone's factor `x^(1-α)`
  have hone : (x ^ (1 - α⁻¹)) ^ α * x ^ (1 - α) = 1 := by
    rw [← Real.rpow_mul hx.le, ← Real.rpow_add hx,
      show (1 - α⁻¹) * α + (1 - α) = 0 by field_simp; ring, Real.rpow_zero]
  constructor
  · rintro ⟨ht, -, h⟩
    have h' := hone.le.trans h
    exact (Real.rpow_le_rpow_iff hu ht hα).1 (le_of_mul_le_mul_right h' hv)
  · intro h
    have ht : 0 ≤ t := hu.trans h
    refine ⟨ht, hx.le, ?_⟩
    calc 1 = (x ^ (1 - α⁻¹)) ^ α * x ^ (1 - α) := hone.symm
      _ ≤ t ^ α * x ^ (1 - α) := mul_le_mul_of_nonneg_right (Real.rpow_le_rpow hu h hα.le) hv.le

lemma entropy_le_iff {x t : ℝ} (hx : 0 < x) :
    (0 < x ∧ x * Real.exp (t / x) ≤ 1) ↔ t ≤ Real.negMulLog x := by
  rw [and_iff_right hx, mul_comm, ← le_div_iff₀ hx, one_div,
    ← Real.le_log_iff_exp_le (inv_pos.2 hx), Real.log_inv, div_le_iff₀ hx, Real.negMulLog]
  constructor <;> intro h <;> linarith

lemma max?_getD_le_iff {L : List ℝ} (h : L ≠ []) (d y : ℝ) :
    L.max?.getD d ≤ y ↔ ∀ b ∈ L, b ≤ y := by
  cases hm : L.max? with
  | none => exact absurd (List.max?_eq_none_iff.1 hm) h
  | some m => exact List.max?_le_iff hm

lemma le_min?_getD_iff {L : List ℝ} (h : L ≠ []) (d y : ℝ) :
    y ≤ L.min?.getD d ↔ ∀ b ∈ L, y ≤ b := by
  cases hm : L.min? with
  | none => exact absurd (List.min?_eq_none_iff.1 hm) h
  | some m => exact List.le_min?_iff hm

lemma sumSq_nonneg (a : RArr) (s : Shape) : 0 ≤ sumSq a s :=
  List.sum_nonneg fun _ hy => by
    obtain ⟨i, -, rfl⟩ := List.mem_map.1 hy
    positivity

lemma Shape.indices_ne_nil {s : Shape} (h : 0 < s.dims.prod) : s.indices ≠ [] := by
  rw [Shape.indices, Ne, List.map_eq_nil_iff, List.range_eq_nil]
  omega

lemma powerTests_real {p : Float} (hp : p.isFinite = true) :
    ((0 < p ∧ p < 1) ↔ (0 < toReal p ∧ toReal p < 1)) ∧ (1 < p ↔ 1 < toReal p) := by
  rw [lt_iff_toReal_lt isFinite_zero hp, lt_iff_toReal_lt hp isFinite_one,
    lt_iff_toReal_lt isFinite_one hp, toReal_zero, toReal_one]
  exact ⟨Iff.rfl, Iff.rfl⟩

/-! ### The atoms' sides and domains -/

/-- The side each atom's replacement is optimized from: the minimum, the logarithm, the entropy
and the powers with `0 < p < 1` are concave, every other atom convex. -/
def Op.curvature : Op → Curvature
  | .minimum | .log | .entropy => .concave
  | .power p => if 0 < p ∧ p < 1 then .concave else .convex
  | _ => .convex

/-- The operands, as real arrays with their shapes, at which a rule stands for its atom in a
node of shape `s`: the atom's own domain (`y > 0` for the quadratic over linear, `x > 0` for the
logarithm and the entropy, `x ≥ 0` for a power and `x > 0` for a negative one, at least one
operand of the maximum and minimum), operands that broadcast into the node, and for the rotated
cone an operand with entries whose count fits a machine word. A power is taken outside the two
bands where the rule returns its operand or ones. -/
def Op.Domain : Op → Shape → List (RArr × Shape) → Prop
  | .normInf, _, vals => ∀ v ∈ vals, 0 < v.2.dims.prod
  | .maximum, s, vals | .minimum, s, vals => vals ≠ [] ∧ ∀ v ∈ vals, s.broadcast v.2 = some s
  | .sumSquares, _, vals =>
      ∀ v ∈ vals, 0 < v.2.dims.prod ∧ v.2.dims.prod + 1 < Shape.wordModulus
  | .quadOverLin, _, [(_, sa), (b, sb)] =>
      0 < sa.dims.prod ∧ sa.dims.prod + 1 < Shape.wordModulus ∧ sb = .scalar ∧ 0 < b []
  | .log, _, vals | .entropy, _, vals => ∀ v ∈ vals, ∀ idx ∈ v.2.indices, 0 < v.1 idx
  | .power p, _, vals =>
      ¬(p - 1).abs < 1e-10 ∧ ¬p.abs < 1e-10 ∧
        (0 < toReal p ∧ toReal p < 1 ∨ 1 < toReal p ∨ toReal p < 0) ∧
        ∀ v ∈ vals, ∀ idx ∈ v.2.indices, 0 ≤ v.1 idx ∧ (toReal p < 0 → 0 < v.1 idx)
  | _, _, _ => True

/-- The cone exponent the power rule stores is the real one its cone needs: `1/p` for `p > 1`
and `1/(1-p)` for `p < 0`. -/
def Op.ExactExponent : Op → Prop
  | .power p => (1 < toReal p → toReal (1 / p) = (toReal p)⁻¹) ∧
      (toReal p < 0 → toReal (1 / (1 - p)) = (1 - toReal p)⁻¹)
  | _ => True

/-- The exponent the power rule's cone encodes, read from the double `α` it stores: `p` itself
for `0 < p < 1`, `1/α` with `α = 1/p` for `p > 1`, and `1 - 1/α` with `α = 1/(1-p)` for
`p < 0`. -/
noncomputable def coneExponent (p : Float) : ℝ :=
  if 0 < p ∧ p < 1 then toReal p
  else if 1 < p then (toReal (1 / p))⁻¹
  else 1 - (toReal (1 / (1 - p)))⁻¹

/-- The real reading the standard rules encode: each atom's own, except that a power raises its
operand to the exponent its cone encodes. -/
noncomputable def Op.coneReal? : Op → List (RArr × Shape) → Option RArr
  | .power p, [(a, _)] => some fun idx => a idx ^ coneExponent p
  | op, vals => op.real? vals

lemma power_branches {p : Float}
    (hclass : 0 < toReal p ∧ toReal p < 1 ∨ 1 < toReal p ∨ toReal p < 0) :
    (0 < p ∧ p < 1) ∨ (¬(0 < p ∧ p < 1) ∧ 1 < p ∧ 1 < toReal p) ∨
      (¬(0 < p ∧ p < 1) ∧ ¬1 < p ∧ toReal p < 0) := by
  have hfin : p.isFinite = true := by
    refine isFinite_of_toReal_ne_zero ?_
    rcases hclass with hp | hp | hp
    · exact hp.1.ne'
    · exact (zero_lt_one.trans hp).ne'
    · exact hp.ne
  obtain ⟨hmid, habove⟩ := powerTests_real hfin
  by_cases hc : 0 < p ∧ p < 1
  · exact .inl hc
  by_cases hgt : 1 < p
  · exact .inr (.inl ⟨hc, hgt, habove.1 hgt⟩)
  refine .inr (.inr ⟨hc, hgt, ?_⟩)
  rcases hclass with hp | hp | hp
  · exact absurd (hmid.2 hp) hc
  · exact absurd (habove.2 hp) hgt
  · exact hp

lemma coneExponent_of_exact {p : Float} (hexact : (Op.power p).ExactExponent)
    (hclass : 0 < toReal p ∧ toReal p < 1 ∨ 1 < toReal p ∨ toReal p < 0) :
    coneExponent p = toReal p := by
  rcases power_branches hclass with hc | ⟨hc, hgt, hp⟩ | ⟨hc, hgt, hp⟩
  · rw [coneExponent, if_pos hc]
  · rw [coneExponent, if_neg hc, if_pos hgt, hexact.1 hp, inv_inv]
  · rw [coneExponent, if_neg hc, if_neg hgt, hexact.2 hp, inv_inv, sub_sub_cancel]

/-! ### Each rule -/

namespace ConeRule

variable {w w' : World} {i : Nat} {old args : List Expr} {s : Shape} {c h : Bool} {out : Expr}
  {aux : List Constraint} {ρ : Valuation} {cv : Curvature}

lemma optimum_elementwise {x : Expr} {R : ℝ → ℝ → Prop} {f : ℝ → ℝ}
    (hx : ∀ m ∈ x.preorder, m.id < w.next) (hout : out = freshVar w x.shape)
    (hread : ∀ ρ, (∀ k ∈ aux, k.rel.Holds ρ) ↔
      ∀ idx ∈ x.shape.indices, R (x.real ρ idx) (ρ w.next idx))
    (hbound : ∀ idx ∈ x.shape.indices, ∀ y, R (x.real ρ idx) y → cv.Bounds (f (x.real ρ idx)) y)
    (hattain : ∀ idx ∈ x.shape.indices, R (x.real ρ idx) (f (x.real ρ idx))) :
    cv.Optimum x.shape (fun ρ' => out.real ρ') (Feasible w.next ρ aux)
      (fun idx => f (x.real ρ idx)) := by
  subst hout
  refine Curvature.optimum_entrywise (fun ρ' _ => Expr.real_var _ _) (fun ρ' hkeep => ?_)
    hbound hattain
  rw [hread, Expr.real_congr hkeep x hx]

lemma optimum_scalar {P : ℝ → Prop} {v : ℝ} (hout : out = freshVar w .scalar)
    (hread : ∀ ρ', (∀ j < w.next, ρ' j = ρ j) → ((∀ k ∈ aux, k.rel.Holds ρ') ↔ P (ρ' w.next [])))
    (hP : ∀ y, P y ↔ cv.Bounds v y) :
    cv.Optimum .scalar (fun ρ' => out.real ρ') (Feasible w.next ρ aux) (fun _ => v) := by
  subst hout
  refine Curvature.optimum_entrywise_iff (R := fun _ => P) (fun ρ' _ => Expr.real_var _ _)
    (fun ρ' hkeep => ?_) (fun _ _ => hP)
  rw [hread ρ' hkeep, Shape.indices_scalar, List.forall_mem_singleton]

lemma unary_optimum {op : Op} {g : List (RArr × Shape) → Option RArr} {R : ℝ → ℝ → Prop}
    {f : ℝ → ℝ} {D : ℝ → Prop} (hop : ∀ a sa, g [(a, sa)] = some fun idx => f (a idx))
    (hshape : ∀ sa, op.inferShape [sa] = sa)
    (hold : ∀ a ∈ args, ∀ m ∈ a.preorder, m.id < w.next)
    (hs : s = op.inferShape (args.map (·.shape)))
    (hreading : ∃ x, args = [x] ∧ out = freshVar w x.shape ∧ ∀ ρ, (∀ k ∈ aux, k.rel.Holds ρ) ↔
      ∀ idx ∈ x.shape.indices, R (x.real ρ idx) (ρ w.next idx))
    (hdom : ∀ v ∈ Expr.realList ρ args, ∀ idx ∈ v.2.indices, D (v.1 idx))
    (hbound : ∀ a, D a → ∀ y, R a y → cv.Bounds (f a) y) (hattain : ∀ a, D a → R a (f a)) :
    cv.Optimum s (fun ρ' => out.real ρ') (Feasible w.next ρ aux)
      ((g (Expr.realList ρ args)).getD (ρ i)) := by
  obtain ⟨x, rfl, hout, hread⟩ := hreading
  obtain rfl : s = x.shape := hs.trans (hshape x.shape)
  have hD : ∀ idx ∈ x.shape.indices, D (x.real ρ idx) := by
    simpa using hdom
  rw [Expr.realList_cons, Expr.realList_nil, hop, Option.getD_some]
  exact optimum_elementwise (hold x (List.mem_singleton_self x)) hout hread
    (fun idx hidx => hbound _ (hD idx hidx)) (fun idx hidx => hattain _ (hD idx hidx))

lemma unary_optimum_iff {op : Op} {g : List (RArr × Shape) → Option RArr} {R : ℝ → ℝ → Prop}
    {f : ℝ → ℝ} {D : ℝ → Prop} (hop : ∀ a sa, g [(a, sa)] = some fun idx => f (a idx))
    (hshape : ∀ sa, op.inferShape [sa] = sa)
    (hold : ∀ a ∈ args, ∀ m ∈ a.preorder, m.id < w.next)
    (hs : s = op.inferShape (args.map (·.shape)))
    (hreading : ∃ x, args = [x] ∧ out = freshVar w x.shape ∧ ∀ ρ, (∀ k ∈ aux, k.rel.Holds ρ) ↔
      ∀ idx ∈ x.shape.indices, R (x.real ρ idx) (ρ w.next idx))
    (hdom : ∀ v ∈ Expr.realList ρ args, ∀ idx ∈ v.2.indices, D (v.1 idx))
    (hR : ∀ a, D a → ∀ y, R a y ↔ cv.Bounds (f a) y) :
    cv.Optimum s (fun ρ' => out.real ρ') (Feasible w.next ρ aux)
      ((g (Expr.realList ρ args)).getD (ρ i)) :=
  unary_optimum hop hshape hold hs hreading hdom (fun a ha y => (hR a ha y).1)
    (fun a ha => (hR a ha _).2 (Curvature.bounds_refl cv _))

lemma norm1_optimum (hold : ∀ a ∈ args, ∀ m ∈ a.preorder, m.id < w.next)
    (hs : s = Op.norm1.inferShape (args.map (·.shape)))
    (hrun : (ConeRule.norm1.apply (.node i .norm1 old s c h) args).run.run w = (.ok (out, aux), w')) :
    Curvature.convex.Optimum s (fun ρ' => out.real ρ') (Feasible w.next ρ aux)
      ((Expr.node i .norm1 args s c h).real ρ) := by
  obtain ⟨x, rfl, hout, hread⟩ := norm1_reading hrun
  obtain rfl : s = .scalar := hs
  have hx := hold x (List.mem_singleton_self x)
  simp only [Expr.real_node, Expr.realList_cons, Expr.realList_nil, Op.real?, Option.getD_some]
  refine Curvature.optimum_of_fresh (fun τ _ => (x.shape.indices.map τ).sum)
    (fun τ => ∀ idx ∈ x.shape.indices, |x.real ρ idx| ≤ τ idx) (fun ρ' _ => hout ρ')
    (fun ρ' hkeep => by rw [hread, Expr.real_congr hkeep x hx])
    (fun τ hτ _ _ => List.sum_le_sum hτ) ⟨fun idx => |x.real ρ idx|, fun _ _ => le_rfl, fun _ _ => rfl⟩

lemma normInf_optimum (hold : ∀ a ∈ args, ∀ m ∈ a.preorder, m.id < w.next)
    (hs : s = Op.normInf.inferShape (args.map (·.shape)))
    (hrun : (ConeRule.normInf.apply (.node i .normInf old s c h) args).run.run w = (.ok (out, aux), w'))
    (hdom : Op.normInf.Domain s (Expr.realList ρ args)) :
    Curvature.convex.Optimum s (fun ρ' => out.real ρ') (Feasible w.next ρ aux)
      ((Expr.node i .normInf args s c h).real ρ) := by
  obtain ⟨x, rfl, hout, hread⟩ := normInf_reading hrun
  obtain rfl : s = .scalar := hs
  have hx := hold x (List.mem_singleton_self x)
  have hne : x.shape.indices.map (fun idx => |x.real ρ idx|) ≠ [] := by
    simpa using Shape.indices_ne_nil (by simpa [Op.Domain] using hdom)
  simp only [Expr.real_node, Expr.realList_cons, Expr.realList_nil, Op.real?, Option.getD_some]
  refine optimum_scalar (P := fun y => ∀ idx ∈ x.shape.indices, |x.real ρ idx| ≤ y) hout
    (fun ρ' hkeep => by rw [hread, Expr.real_congr hkeep x hx]) fun y => ?_
  rw [Curvature.Bounds, max?_getD_le_iff hne, List.forall_mem_map]

lemma norm2_optimum (hold : ∀ a ∈ args, ∀ m ∈ a.preorder, m.id < w.next)
    (hs : s = Op.norm2.inferShape (args.map (·.shape)))
    (hrun : (ConeRule.norm2.apply (.node i .norm2 old s c h) args).run.run w = (.ok (out, aux), w')) :
    Curvature.convex.Optimum s (fun ρ' => out.real ρ') (Feasible w.next ρ aux)
      ((Expr.node i .norm2 args s c h).real ρ) := by
  obtain ⟨x, rfl, hout, hread⟩ := norm2_reading hrun
  obtain rfl : s = .scalar := hs
  have hx := hold x (List.mem_singleton_self x)
  simp only [Expr.real_node, Expr.realList_cons, Expr.realList_nil, Op.real?, Option.getD_some]
  exact optimum_scalar (P := fun y => √(sumSq (x.real ρ) x.shape) ≤ y) hout
    (fun ρ' hkeep => by rw [hread, Expr.real_congr hkeep x hx]) fun _ => Iff.rfl

lemma sumSquares_optimum (hold : ∀ a ∈ args, ∀ m ∈ a.preorder, m.id < w.next)
    (hs : s = Op.sumSquares.inferShape (args.map (·.shape)))
    (hrun : (ConeRule.sumSquares.apply (.node i .sumSquares old s c h) args).run.run w =
      (.ok (out, aux), w'))
    (hdom : Op.sumSquares.Domain s (Expr.realList ρ args)) :
    Curvature.convex.Optimum s (fun ρ' => out.real ρ') (Feasible w.next ρ aux)
      ((Expr.node i .sumSquares args s c h).real ρ) := by
  obtain ⟨x, rfl, hout, hread⟩ := sumSquares_reading hrun
  obtain rfl : s = .scalar := hs
  have hx := hold x (List.mem_singleton_self x)
  obtain ⟨hpos, hfit⟩ : 0 < x.shape.dims.prod ∧ x.shape.dims.prod + 1 < Shape.wordModulus := by
    simpa [Op.Domain] using hdom
  simp only [Expr.real_node, Expr.realList_cons, Expr.realList_nil, Op.real?, Option.getD_some]
  refine optimum_scalar (P := fun y => √(4 * sumSq (x.real ρ) x.shape + (y - 1) ^ 2) ≤ y + 1) hout
    (fun ρ' hkeep => by rw [hread hpos hfit, Expr.real_congr hkeep x hx]) fun y => ?_
  rw [rotated_le_iff (sumSq_nonneg _ _) one_pos, div_one, Curvature.Bounds]

lemma quadOverLin_optimum (hold : ∀ a ∈ args, ∀ m ∈ a.preorder, m.id < w.next)
    (hs : s = Op.quadOverLin.inferShape (args.map (·.shape)))
    (hrun : (ConeRule.quadOverLin.apply (.node i .quadOverLin old s c h) args).run.run w =
      (.ok (out, aux), w'))
    (hdom : Op.quadOverLin.Domain s (Expr.realList ρ args)) :
    Curvature.convex.Optimum s (fun ρ' => out.real ρ') (Feasible w.next ρ aux)
      ((Expr.node i .quadOverLin args s c h).real ρ) := by
  obtain ⟨x, y, rfl, hout, hread⟩ := quadOverLin_reading hrun
  obtain rfl : s = .scalar := hs
  have hx := hold x (by simp)
  have hy := hold y (by simp)
  obtain ⟨hpos, hfit, hys, hypos⟩ : 0 < x.shape.dims.prod ∧
      x.shape.dims.prod + 1 < Shape.wordModulus ∧ y.shape = .scalar ∧ 0 < y.real ρ [] := by
    simpa [Op.Domain] using hdom
  simp only [Expr.real_node, Expr.realList_cons, Expr.realList_nil, Op.real?, Option.getD_some,
    hys, Shape.project_scalar]
  refine optimum_scalar
    (P := fun t => √(4 * sumSq (x.real ρ) x.shape + (t - y.real ρ []) ^ 2) ≤ t + y.real ρ []) hout
    (fun ρ' hkeep => by
      rw [hread hys hpos hfit, Expr.real_congr hkeep x hx, Expr.real_congr hkeep y hy])
    fun t => ?_
  rw [rotated_le_iff (sumSq_nonneg _ _) hypos, Curvature.Bounds]

lemma eachOperand_iff {r : ℝ → ℝ → Prop} {ρ' : Valuation} (hkeep : ∀ j < w.next, ρ' j = ρ j)
    (hold : ∀ a ∈ args, ∀ m ∈ a.preorder, m.id < w.next)
    (hb : ∀ a ∈ args, s.broadcast a.shape = some s) :
    (∀ a ∈ args, ∀ idx ∈ ((s.broadcast a.shape).getD .scalar).indices,
        r (a.real ρ' (a.shape.project idx)) (ρ' w.next (s.project idx))) ↔
      ∀ idx ∈ s.indices, ∀ a ∈ args, r (a.real ρ (a.shape.project idx)) (ρ' w.next idx) := by
  constructor
  · intro hall idx hidx a ha
    have hr := hall a ha idx (by rw [hb a ha, Option.getD_some]; exact hidx)
    rwa [Shape.project_of_mem hidx, Expr.real_congr hkeep a (hold a ha)] at hr
  · intro hall a ha idx hidx
    rw [hb a ha, Option.getD_some] at hidx
    rw [Shape.project_of_mem hidx, Expr.real_congr hkeep a (hold a ha)]
    exact hall idx hidx a ha

lemma operands_of_domain {vals : List (RArr × Shape)}
    (hdom : vals ≠ [] ∧ ∀ v ∈ vals, s.broadcast v.2 = some s) (hvals : vals = Expr.realList ρ args) :
    args ≠ [] ∧ ∀ a ∈ args, s.broadcast a.shape = some s := by
  subst hvals
  rw [Expr.realList_eq_map] at hdom
  simpa using hdom

lemma maximum_optimum (hold : ∀ a ∈ args, ∀ m ∈ a.preorder, m.id < w.next)
    (hrun : (ConeRule.maximum.apply (.node i .maximum old s c h) args).run.run w =
      (.ok (out, aux), w'))
    (hdom : Op.maximum.Domain s (Expr.realList ρ args)) :
    Curvature.convex.Optimum s (fun ρ' => out.real ρ') (Feasible w.next ρ aux)
      ((Expr.node i .maximum args s c h).real ρ) := by
  obtain ⟨hout, hread⟩ := maximum_reading hrun
  obtain ⟨hne, hb⟩ := operands_of_domain hdom rfl
  subst hout
  simp only [Expr.real_node, Expr.realList_eq_map, Op.real?, Option.getD_some, List.map_map]
  refine Curvature.optimum_entrywise_iff
    (R := fun idx y => ∀ a ∈ args, a.real ρ (a.shape.project idx) ≤ y)
    (fun ρ' _ => Expr.real_var _ _) (fun ρ' hkeep => (hread ρ').trans (eachOperand_iff hkeep hold hb))
    fun idx _ y => ?_
  rw [Curvature.Bounds, max?_getD_le_iff (by simpa using hne), List.forall_mem_map]
  rfl

lemma minimum_optimum (hold : ∀ a ∈ args, ∀ m ∈ a.preorder, m.id < w.next)
    (hrun : (ConeRule.minimum.apply (.node i .minimum old s c h) args).run.run w =
      (.ok (out, aux), w'))
    (hdom : Op.minimum.Domain s (Expr.realList ρ args)) :
    Curvature.concave.Optimum s (fun ρ' => out.real ρ') (Feasible w.next ρ aux)
      ((Expr.node i .minimum args s c h).real ρ) := by
  obtain ⟨hout, hread⟩ := minimum_reading hrun
  obtain ⟨hne, hb⟩ := operands_of_domain hdom rfl
  subst hout
  simp only [Expr.real_node, Expr.realList_eq_map, Op.real?, Option.getD_some, List.map_map]
  refine Curvature.optimum_entrywise_iff
    (R := fun idx y => ∀ a ∈ args, y ≤ a.real ρ (a.shape.project idx))
    (fun ρ' _ => Expr.real_var _ _)
    (fun ρ' hkeep => (hread ρ').trans (eachOperand_iff (r := fun a t => t ≤ a) hkeep hold hb))
    fun idx _ y => ?_
  rw [Curvature.Bounds, le_min?_getD_iff (by simpa using hne), List.forall_mem_map]
  rfl

/-- The power: outside the two bands the cone bounds the variable by `x` to the exponent it
encodes, from above for `0 < p < 1` and from below otherwise. -/
lemma power_optimum {p : Float} (hold : ∀ a ∈ args, ∀ m ∈ a.preorder, m.id < w.next)
    (hs : s = (Op.power p).inferShape (args.map (·.shape)))
    (hrun : (ConeRule.power.apply (.node i (.power p) old s c h) args).run.run w =
      (.ok (out, aux), w'))
    (hdom : (Op.power p).Domain s (Expr.realList ρ args)) :
    (Op.power p).curvature.Optimum s (fun ρ' => out.real ρ') (Feasible w.next ρ aux)
      (((Op.power p).coneReal? (Expr.realList ρ args)).getD (ρ i)) := by
  obtain ⟨hone, hzero, hclass, hD⟩ := hdom
  have hreading := power_reading hone hzero hrun
  have hop : ∀ a sa, (Op.power p).coneReal? [(a, sa)] = some fun idx => a idx ^ coneExponent p :=
    fun _ _ => rfl
  have hshape : ∀ sa, (Op.power p).inferShape [sa] = sa := fun _ => rfl
  rcases power_branches hclass with hc | ⟨hc, hgt, hp⟩ | ⟨hc, hgt, hp⟩
  · -- `|t| ≤ x^p`: the variable is greatest at `x^p`
    rw [show (Op.power p).curvature = .concave from if_pos hc]
    refine unary_optimum (R := powerEntry p) (f := fun a => a ^ coneExponent p)
      (D := fun a => 0 ≤ a ∧ (toReal p < 0 → 0 < a)) hop hshape hold hs hreading hD
      (fun a _ y hy => ?_) fun a ha => ?_
    · rw [powerEntry, if_pos hc] at hy
      rw [coneExponent, if_pos hc]
      exact (le_abs_self y).trans hy.2
    · rw [powerEntry, if_pos hc, coneExponent, if_pos hc]
      exact ⟨ha.1, (abs_of_nonneg (Real.rpow_nonneg ha.1 _)).le⟩
  all_goals rw [show (Op.power p).curvature = .convex from if_neg hc]
  · -- `|x| ≤ t^α` with `α = 1/p > 0`: the variable is least at `x^(1/α)`
    refine unary_optimum_iff (R := powerEntry p) (f := fun a => a ^ coneExponent p)
      (D := fun a => 0 ≤ a ∧ (toReal p < 0 → 0 < a)) hop hshape hold hs hreading hD
      fun a ha y => ?_
    rw [powerEntry, if_neg hc, if_pos hgt, coneExponent, if_neg hc, if_pos hgt,
      powerAbove_iff ha.1 (toReal_one_div_pos hp.le)]
    rfl
  · -- `1 ≤ t^α x^(1-α)` with `α = 1/(1-p) > 0`, over `x > 0`: the variable is least at
    -- `x^(1 - 1/α)`
    refine unary_optimum_iff (R := powerEntry p) (f := fun a => a ^ coneExponent p)
      (D := fun a => 0 ≤ a ∧ (toReal p < 0 → 0 < a)) hop hshape hold hs hreading hD
      fun a ha y => ?_
    rw [powerEntry, if_neg hc, if_neg hgt, coneExponent, if_neg hc, if_neg hgt,
      powerBelow_iff (ha.2 hp) (toReal_one_div_pos (one_le_toReal_one_sub hp))]
    rfl

/-- **Every standard rule encodes its atom.** Applied under its own kind to a node whose shape is
the one its operator infers, over operands built before the run, a rule returns a replacement
and constraints such that, for every valuation `ρ` whose operand values lie in the atom's
domain, the atom's value under `ρ` is the least value of the replacement (the greatest, for a
concave atom) over the valuations that keep `ρ` and satisfy the constraints, entry by entry,
and one such valuation attains it at every entry. A power's value is read with the exponent
its stored cone exponent encodes (`coneExponent`), which is `p` when that double is exact
(`coneExponent_of_exact`). -/
theorem apply_optimum (r : ConeRule) {op : Op} (hkind : op.kind = r.kind)
    (hs : s = op.inferShape (args.map (·.shape)))
    (hold : ∀ a ∈ args, ∀ m ∈ a.preorder, m.id < w.next)
    (hrun : (r.apply (.node i op old s c h) args).run.run w = (.ok (out, aux), w'))
    (ρ : Valuation) (hdom : op.Domain s (Expr.realList ρ args)) :
    op.curvature.Optimum s (fun ρ' => out.real ρ') (Feasible w.next ρ aux)
      ((op.coneReal? (Expr.realList ρ args)).getD (ρ i)) := by
  cases r <;> cases op <;> cases hkind
  case abs.abs =>
    exact unary_optimum_iff (R := fun a t => |a| ≤ t) (f := fun a => |a|) (D := fun _ => True)
      (fun _ _ => rfl) (fun _ => rfl) hold hs (abs_reading hrun) (fun _ _ _ _ => trivial)
      fun _ _ _ => Iff.rfl
  case pos.pos =>
    exact unary_optimum_iff (R := fun a t => max a 0 ≤ t) (f := fun a => max a 0)
      (D := fun _ => True) (fun _ _ => rfl) (fun _ => rfl) hold hs (pos_reading hrun)
      (fun _ _ _ _ => trivial) fun _ _ _ => Iff.rfl
  case negPart.negPart =>
    exact unary_optimum_iff (R := fun a t => max (-a) 0 ≤ t) (f := fun a => max (-a) 0)
      (D := fun _ => True) (fun _ _ => rfl) (fun _ => rfl) hold hs (negPart_reading hrun)
      (fun _ _ _ _ => trivial) fun _ _ _ => Iff.rfl
  case norm1.norm1 => exact norm1_optimum hold hs hrun
  case normInf.normInf => exact normInf_optimum hold hs hrun hdom
  case norm2.norm2 => exact norm2_optimum hold hs hrun
  case maximum.maximum => exact maximum_optimum hold hrun hdom
  case minimum.minimum => exact minimum_optimum hold hrun hdom
  case sumSquares.sumSquares => exact sumSquares_optimum hold hs hrun hdom
  case quadOverLin.quadOverLin => exact quadOverLin_optimum hold hs hrun hdom
  case exp.exp =>
    exact unary_optimum_iff (R := fun a t => Real.exp a ≤ t) (f := Real.exp) (D := fun _ => True)
      (fun _ _ => rfl) (fun _ => rfl) hold hs (exp_reading hrun) (fun _ _ _ _ => trivial)
      fun _ _ _ => Iff.rfl
  case log.log =>
    -- `exp t ≤ x` is `t ≤ log x` for `x > 0`
    exact unary_optimum_iff (R := fun a t => Real.exp t ≤ a) (f := Real.log) (D := (0 < ·))
      (fun _ _ => rfl) (fun _ => rfl) hold hs (log_reading hrun) hdom
      fun _ ha _ => (Real.le_log_iff_exp_le ha).symm
  case entropy.entropy =>
    exact unary_optimum_iff (R := fun a t => 0 < a ∧ a * Real.exp (t / a) ≤ 1)
      (f := Real.negMulLog) (D := (0 < ·)) (fun _ _ => rfl) (fun _ => rfl) hold hs
      (entropy_reading hrun) hdom fun _ ha _ => entropy_le_iff ha
  case power.power p => exact power_optimum hold hs hrun hdom

def scalarVar : Expr := .var 0 ⟨.scalar, none, false, false⟩

/-- The square of a scalar: its stored exponent `1/2` is exact, and at `x = 3` the square `9` is
the least value of the replacement. -/
theorem apply_optimum_square :
    ∃ out aux w', (ConeRule.power.apply (.node 1 (.power 2) [scalarVar] .scalar false false)
        [scalarVar]).run.run { next := 2 } = (.ok (out, aux), w') ∧
      (Op.power 2).curvature.Optimum .scalar (fun ρ' => out.real ρ')
        (Feasible 2 (fun _ _ => 3) aux) (fun _ => 9) := by
  have hok : (match (ConeRule.power.apply (.node 1 (.power 2) [scalarVar] .scalar false false)
      [scalarVar]).run.run { next := 2 } with
      | (.ok _, _) => true
      | (.error _, _) => false) = true := by decide +kernel
  have hhalf : toReal (1 / 2) = 2⁻¹ := by
    rw [toReal_of_unpack (show ((1 : Float) / 2).toModel.unpack =
      .finite .positive (2 ^ 52) (-53) (by decide) from rfl)]
    norm_num
  have hold : ∀ a ∈ [scalarVar], ∀ m ∈ a.preorder, m.id < 2 := by
    simp [scalarVar, Expr.id]
  have hdom : (Op.power 2).Domain .scalar (Expr.realList (fun _ _ => 3) [scalarVar]) :=
    ⟨by decide +kernel, by decide +kernel, Or.inr (Or.inl (by norm_num)),
      by simp [scalarVar]⟩
  -- the encoded exponent is `1 / (1/2) = 2`, and `3^2 = 9`
  have hnine : ((Op.power 2).coneReal? (Expr.realList (fun _ _ => 3) [scalarVar])).getD 3 =
      fun _ => 9 := by
    have hexp : coneExponent 2 = 2 := by
      rw [coneExponent, if_neg (by decide +kernel), if_pos (by decide +kernel), hhalf, inv_inv]
    funext idx
    simp [Op.coneReal?, scalarVar, hexp]
    norm_num
  rcases hr : (ConeRule.power.apply (.node 1 (.power 2) [scalarVar] .scalar false false)
      [scalarVar]).run.run { next := 2 } with ⟨_ | ⟨out, aux⟩, w'⟩
  · rw [hr] at hok
    cases hok
  · exact ⟨out, aux, w', rfl, hnine ▸ apply_optimum .power rfl (by rfl) hold hr _ hdom⟩

/-- The cube of a scalar: the rule stores the double nearest `1/3`, which lies below `1/3`, so
at `x = 2` every value `t` the cone admits has `t^α ≥ 2`, that is `t > 8`, and the cube `8` is
not the least value of the replacement. -/
theorem power_cube_not_optimum :
    (Op.power 3).Domain .scalar (Expr.realList (fun _ _ => 2) [scalarVar]) ∧
    ¬ (Op.power 3).ExactExponent ∧
    ∃ out aux w', (ConeRule.power.apply (.node 1 (.power 3) [scalarVar] .scalar false false)
        [scalarVar]).run.run { next := 2 } = (.ok (out, aux), w') ∧
      ¬ (Op.power 3).curvature.Optimum .scalar (fun ρ' => out.real ρ')
        (Feasible 2 (fun _ _ => 2) aux)
        ((Expr.node 1 (.power 3) [scalarVar] .scalar false false).real fun _ _ => 2) := by
  have hok : (match (ConeRule.power.apply (.node 1 (.power 3) [scalarVar] .scalar false false)
      [scalarVar]).run.run { next := 2 } with
      | (.ok _, _) => true
      | (.error _, _) => false) = true := by decide +kernel
  -- the stored exponent is `6004799503160661 · 2^-54 < 1/3`
  have hthird : toReal (1 / 3) < 1 / 3 := by
    rw [toReal_of_unpack (show ((1 : Float) / 3).toModel.unpack =
      .finite .positive 6004799503160661 (-54) (by decide) from rfl)]
    norm_num
  have hthree : toReal 3 = 3 := by
    rw [toReal_of_unpack (show (3 : Float).toModel.unpack =
      .finite .positive 6755399441055744 (-51) (by decide) from rfl)]
    norm_num
  have hcube : (8 : ℝ) ^ (1 / 3 : ℝ) = 2 := by
    rw [show (8 : ℝ) = 2 ^ 3 by norm_num, show (1 / 3 : ℝ) = ((3 : ℕ) : ℝ)⁻¹ by norm_num]
    exact Real.pow_rpow_inv_natCast (by norm_num) (by norm_num)
  have hdom : (Op.power 3).Domain .scalar (Expr.realList (fun _ _ => 2) [scalarVar]) :=
    ⟨by decide +kernel, by decide +kernel, Or.inr (Or.inl (by rw [hthree]; norm_num)),
      by simp [scalarVar]⟩
  have hinexact : ¬ (Op.power 3).ExactExponent := fun hexact => by
    have := hexact.1 (by rw [hthree]; norm_num)
    rw [this, hthree] at hthird
    norm_num at hthird
  rcases hr : (ConeRule.power.apply (.node 1 (.power 3) [scalarVar] .scalar false false)
      [scalarVar]).run.run { next := 2 } with ⟨_ | ⟨out, aux⟩, w'⟩
  · rw [hr] at hok
    cases hok
  refine ⟨hdom, hinexact, out, aux, w', rfl, fun hopt => ?_⟩
  obtain ⟨x, hx, rfl, hread⟩ := power_reading (by decide +kernel) (by decide +kernel) hr
  obtain rfl : scalarVar = x := List.singleton_injective hx
  -- the optimal valuation gives the variable the cube, and keeps `x = 2`
  obtain ⟨ρ', ⟨hkeep, hk⟩, hval⟩ := hopt.attained
  have ht : ρ' 2 [] = 8 := by
    have := hval [] (List.mem_singleton_self _)
    simp only [Expr.real_var, Expr.real_node, Expr.realList_cons, Expr.realList_nil, Op.real?,
      Option.getD_some, scalarVar, hthree] at this
    rw [this]
    norm_num
  have hx2 : scalarVar.real ρ' [] = 2 := by
    simp [scalarVar, hkeep 0 (by norm_num)]
  have hentry := (hread ρ').1 hk [] (List.mem_singleton_self _)
  rw [powerEntry, if_neg (by decide +kernel), if_pos (by decide +kernel), hx2] at hentry
  have hentry' : (2 : ℝ) ≤ 8 ^ toReal (1 / 3) := by
    simpa [ht] using hentry.2
  have hlt : (8 : ℝ) ^ toReal (1 / 3) < 2 :=
    hcube ▸ Real.rpow_lt_rpow_of_exponent_lt (by norm_num) hthird
  linarith

end ConeRule

end ConicForm
