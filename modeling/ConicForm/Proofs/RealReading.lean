import Mathlib.Analysis.SpecialFunctions.Log.NegMulLog
import Mathlib.Analysis.SpecialFunctions.Pow.Real
import Mathlib.Analysis.SpecialFunctions.Sqrt
import ConicForm.Proofs.Binary64Order
import ConicForm.Proofs.ShapeSemantics
import ConicForm.Proofs.Vocabulary
/-!
The exact real reading of expression trees and cone constraints. An array of reals is a function
on index tuples, listed in column-major order, and a broadcast operand reads the tuple aligned at
its last dimension (`Shape.project`). Constants read as the reals their doubles stand for, the
affine nodes and the atoms as their real functions, and every other node from the valuation at
its id. A constraint holds when its relation holds at every entry, and a replacement stands for
an atom when its optimum is the atom's value (`Curvature.Optimum`).
-/

namespace ConicForm

abbrev RArr := List Nat → ℝ

/-- The arrays of the variables, and of the nodes read as unknowns, by id. -/
abbrev Valuation := Nat → RArr

/-! ### Index tuples of a shape -/

namespace Shape

def unravel : List Nat → Nat → List Nat
  | [], _ => []
  | d :: ds, k => k % d :: unravel ds (k / d)

def ravel : List Nat → List Nat → Nat
  | d :: ds, i :: is => i + d * ravel ds is
  | _, _ => 0

def indices (s : Shape) : List (List Nat) := (List.range s.dims.prod).map (unravel s.dims)

/-- The tuple that an operand of shape `s` reads for the tuple `idx` of a broadcast result:
aligned at the last dimension, with leading dimensions that `idx` lacks read at zero, and a
dimension of one read at zero. -/
def project (s : Shape) (idx : List Nat) : List Nat :=
  List.zipWith (fun d i => if d = 1 then 0 else i) s.dims
    (List.replicate (s.dims.length - idx.length) 0 ++ idx.drop (idx.length - s.dims.length))

def cell (s : Shape) (i j : Nat) : List Nat := [i, j].take s.dims.length

/-- The common shape of operands taken elementwise, broadcast from the left; an operand that
does not fit is passed over. -/
def common : List Shape → Shape
  | [] => scalar
  | f :: rest => rest.foldl (fun acc s => (acc.broadcast s).getD acc) f

lemma unravel_lt : ∀ {ds : List Nat} {k : Nat}, k < ds.prod → List.Forall₂ (· < ·) (unravel ds k) ds
  | [], _, _ => .nil
  | d :: ds, k, hk => by
    rw [List.prod_cons] at hk
    have hd : 0 < d := Nat.pos_of_ne_zero fun h => by simp [h] at hk
    exact .cons (Nat.mod_lt k hd) (unravel_lt ((Nat.div_lt_iff_lt_mul hd).2 (by linarith)))

lemma ravel_lt {idx ds : List Nat} (h : List.Forall₂ (· < ·) idx ds) : ravel ds idx < ds.prod := by
  induction h with
  | nil => simp [ravel]
  | @cons i d is ds hi _ ih =>
    rw [ravel, List.prod_cons]
    calc i + d * ravel ds is < d + d * ravel ds is := by omega
      _ = d * (ravel ds is + 1) := by ring
      _ ≤ d * ds.prod := Nat.mul_le_mul_left d ih

lemma unravel_ravel {idx ds : List Nat} (h : List.Forall₂ (· < ·) idx ds) :
    unravel ds (ravel ds idx) = idx := by
  induction h with
  | nil => rfl
  | @cons i d is ds hi _ ih =>
    have hd : 0 < d := by omega
    rw [ravel, unravel, Nat.add_mul_mod_self_left, Nat.mod_eq_of_lt hi,
      Nat.add_mul_div_left _ _ hd, Nat.div_eq_of_lt hi, Nat.zero_add, ih]

lemma mem_indices {s : Shape} {idx : List Nat} :
    idx ∈ s.indices ↔ List.Forall₂ (· < ·) idx s.dims := by
  constructor
  · intro h
    obtain ⟨k, hk, rfl⟩ := List.mem_map.1 h
    exact unravel_lt (List.mem_range.1 hk)
  · intro h
    exact List.mem_map.2 ⟨ravel s.dims idx, List.mem_range.2 (ravel_lt h), unravel_ravel h⟩

lemma zipWith_of_lt {idx ds : List Nat} (h : List.Forall₂ (· < ·) idx ds) :
    List.zipWith (fun d i => if d = 1 then 0 else i) ds idx = idx := by
  induction h with
  | nil => rfl
  | cons hi _ ih =>
    rw [List.zipWith_cons_cons, ih, List.cons.injEq]
    refine ⟨?_, rfl⟩
    split <;> omega

lemma project_of_mem {s : Shape} {idx : List Nat} (h : idx ∈ s.indices) : s.project idx = idx := by
  have h₂ := mem_indices.1 h
  rw [project, h₂.length_eq, Nat.sub_self, List.replicate_zero, List.drop_zero, List.nil_append,
    zipWith_of_lt h₂]

@[simp] lemma project_scalar (idx : List Nat) : scalar.project idx = [] := rfl

@[simp] lemma indices_scalar : scalar.indices = [[]] := rfl

lemma indices_vector (n : Nat) : (vector n).indices = (List.range n).map fun k => [k] := by
  simp only [indices, vector, List.prod_singleton]
  refine List.map_congr_left fun k hk => ?_
  simp [unravel, Nat.mod_eq_of_lt (List.mem_range.1 hk)]

@[simp] lemma cell_scalar (i j : Nat) : scalar.cell i j = [] := rfl

@[simp] lemma broadcast_self (s : Shape) : s.broadcast s = some s := by
  simpa using broadcast_pad_self 0 s

@[simp] lemma common_self_three (s : Shape) : common [s, s, s] = s := by
  simp [common]

end Shape

/-! ### Reading values, operators and trees -/

/-- The real entry of a value at an index tuple: the double stored at the tuple's row and
column. -/
noncomputable def Value.real (v : Value) : RArr :=
  fun idx => Binary64.toReal (v.toDense.get (idx.getD 0 0) (idx.getD 1 0))

noncomputable def sumSq (a : RArr) (s : Shape) : ℝ := (s.indices.map fun i => a i ^ 2).sum

noncomputable def stackRows : List (RArr × Shape) → Nat → Nat → ℝ
  | [], _, _ => 0
  | (a, s) :: rest, i, j => if i < s.rows then a (s.cell i j) else stackRows rest (i - s.rows) j

/-- The real function of an operator over its operands' arrays and shapes: the affine operators
that rules build and the atoms that rules replace. Other operators have none here. -/
noncomputable def Op.real? : Op → List (RArr × Shape) → Option RArr
  | .add, [(a, sa), (b, sb)] => some fun idx => a (sa.project idx) + b (sb.project idx)
  | .mul, [(a, sa), (b, sb)] => some fun idx => a (sa.project idx) * b (sb.project idx)
  | .neg, [(a, _)] => some fun idx => -a idx
  | .sum none, [(a, sa)] => some fun _ => (sa.indices.map a).sum
  | .reshape t, [(a, sa)] => some fun idx => a (Shape.unravel sa.dims (Shape.ravel t.dims idx))
  | .vstack, vals => some fun idx => stackRows vals (idx.getD 0 0) (idx.getD 1 0)
  | .abs, [(a, _)] => some fun idx => |a idx|
  | .pos, [(a, _)] => some fun idx => max (a idx) 0
  | .negPart, [(a, _)] => some fun idx => max (-a idx) 0
  | .norm1, [(a, sa)] => some fun _ => (sa.indices.map fun i => |a i|).sum
  | .normInf, [(a, sa)] => some fun _ => ((sa.indices.map fun i => |a i|).max?).getD 0
  | .norm2, [(a, sa)] => some fun _ => √(sumSq a sa)
  | .maximum, vals => some fun idx => ((vals.map fun v => v.1 (v.2.project idx)).max?).getD 0
  | .minimum, vals => some fun idx => ((vals.map fun v => v.1 (v.2.project idx)).min?).getD 0
  | .sumSquares, [(a, sa)] => some fun _ => sumSq a sa
  | .quadOverLin, [(a, sa), (b, sb)] => some fun _ => sumSq a sa / b (sb.project [])
  | .exp, [(a, _)] => some fun idx => Real.exp (a idx)
  | .log, [(a, _)] => some fun idx => Real.log (a idx)
  | .entropy, [(a, _)] => some fun idx => Real.negMulLog (a idx)
  | .power p, [(a, _)] => some fun idx => a idx ^ Binary64.toReal p
  | _, _ => none

namespace Expr

mutual
/-- The real reading of a tree under a valuation. -/
noncomputable def real (ρ : Valuation) : Expr → RArr
  | .var id _ => ρ id
  | .const _ v _ => v.real
  | .node id op args _ _ _ => (op.real? (realList ρ args)).getD (ρ id)
  | e => ρ e.id

noncomputable def realList (ρ : Valuation) : List Expr → List (RArr × Shape)
  | [] => []
  | e :: es => (e.real ρ, e.shape) :: realList ρ es
end

variable {ρ : Valuation}

@[simp] lemma real_var (i : Nat) (v : VarInfo) : (var i v).real ρ = ρ i := by simp [real]

@[simp] lemma real_const (i : Nat) (v : Value) (s : Shape) : (const i v s).real ρ = v.real := by
  simp [real]

@[simp] lemma real_node (i : Nat) (op : Op) (args : List Expr) (s : Shape) (c h : Bool) :
    (node i op args s c h).real ρ = (op.real? (realList ρ args)).getD (ρ i) := by
  simp [real]

@[simp] lemma realList_nil : realList ρ [] = [] := by simp [realList]

@[simp] lemma realList_cons (e : Expr) (es : List Expr) :
    realList ρ (e :: es) = (e.real ρ, e.shape) :: realList ρ es := by
  simp [realList]

lemma realList_eq_map (es : List Expr) : realList ρ es = es.map fun e => (e.real ρ, e.shape) := by
  induction es with
  | nil => simp
  | cons e es ih => simp [ih]

lemma real_congr {ρ' : Valuation} {n : Nat} (hρ : ∀ j < n, ρ' j = ρ j) :
    ∀ e : Expr, (∀ m ∈ e.preorder, m.id < n) → e.real ρ' = e.real ρ := by
  refine (real.mutual_induct (fun e => (∀ m ∈ e.preorder, m.id < n) → e.real ρ' = e.real ρ)
    (fun es => (∀ e ∈ es, ∀ m ∈ e.preorder, m.id < n) → realList ρ' es = realList ρ es)
    ?_ ?_ ?_ ?_ ?_ ?_).1
  · intro i v h
    have hi : i < n := h _ (mem_preorder_self _)
    simp [hρ i hi]
  · intro i v s _
    simp
  · intro i op args s c p ih h
    have hargs : ∀ e ∈ args, ∀ m ∈ e.preorder, m.id < n := fun e he m hm =>
      h m (by simp only [preorder_node, List.mem_cons, List.mem_flatMap]; exact .inr ⟨e, he, hm⟩)
    have hi : i < n := h _ (mem_preorder_self _)
    rw [real_node, real_node, ih hargs, hρ i hi]
  · intro e hvar hconst hnode h
    -- a leaf that is read as an unknown reads the valuation at its own id
    have hleaf : e.preorder = [e] := preorder_of_not_node fun i op args s c p he => hnode i op args s c p he
    have hid := hρ e.id (h e (by simp [hleaf]))
    cases e
    case var i v => exact (hvar i v rfl).elim
    case const i v s => exact (hconst i v s rfl).elim
    case node i op args s c p => exact (hnode i op args s c p rfl).elim
    all_goals simpa [real] using hid
  · intro _
    simp
  · intro e es ihe ihes h
    rw [realList_cons, realList_cons, ihe fun m hm => h e (by simp) m hm,
      ihes fun e' he' => h e' (by simp [he'])]

end Expr

/-! ### Constraints -/

/-- A cone relation holds under a valuation when it holds at every entry. -/
def Relation.Holds (ρ : Valuation) : Relation → Prop
  | .zero e => ∀ idx ∈ e.shape.indices, e.real ρ idx = 0
  | .nonneg e => ∀ idx ∈ e.shape.indices, 0 ≤ e.real ρ idx
  | .equality a b => ∀ idx ∈ (Shape.common [a.shape, b.shape]).indices,
      a.real ρ (a.shape.project idx) = b.real ρ (b.shape.project idx)
  | .inequality a b => ∀ idx ∈ (Shape.common [a.shape, b.shape]).indices,
      a.real ρ (a.shape.project idx) ≤ b.real ρ (b.shape.project idx)
  | .soc t x => ∀ idx ∈ t.shape.indices, √(sumSq (x.real ρ) x.shape) ≤ t.real ρ idx
  | .expCone x y z => ∀ idx ∈ (Shape.common [x.shape, y.shape, z.shape]).indices,
      0 < y.real ρ (y.shape.project idx) ∧
        y.real ρ (y.shape.project idx) *
            Real.exp (x.real ρ (x.shape.project idx) / y.real ρ (y.shape.project idx)) ≤
          z.real ρ (z.shape.project idx)
  | .powerCone x y z α => ∀ idx ∈ (Shape.common [x.shape, y.shape, z.shape]).indices,
      0 ≤ x.real ρ (x.shape.project idx) ∧ 0 ≤ y.real ρ (y.shape.project idx) ∧
        |z.real ρ (z.shape.project idx)| ≤
          x.real ρ (x.shape.project idx) ^ Binary64.toReal α *
            y.real ρ (y.shape.project idx) ^ (1 - Binary64.toReal α)

/-! ### Optima -/

/-- The side an atom's replacement is optimized from: a convex atom is the least value of its
replacement over the variables made for it, a concave atom the greatest. -/
inductive Curvature where
  | convex
  | concave

namespace Curvature

def Bounds : Curvature → ℝ → ℝ → Prop
  | convex, v, y => v ≤ y
  | concave, v, y => y ≤ v

/-- `v` is the optimum of `F` over the valuations that `feasible` admits, entry by entry over
`s`: it bounds `F` at every admitted valuation, and one admitted valuation meets it at every
entry at once. -/
structure Optimum (c : Curvature) (s : Shape) (F : Valuation → RArr) (feasible : Valuation → Prop)
    (v : RArr) : Prop where
  bounds : ∀ ρ, feasible ρ → ∀ idx ∈ s.indices, c.Bounds (v idx) (F ρ idx)
  attained : ∃ ρ, feasible ρ ∧ ∀ idx ∈ s.indices, F ρ idx = v idx

end Curvature

end ConicForm
