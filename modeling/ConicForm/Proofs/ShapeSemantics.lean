import Mathlib.Algebra.BigOperators.Ring.List
import Mathlib.Algebra.Order.BigOperators.Group.List
import Mathlib.Algebra.Order.Group.Nat
import Mathlib.Algebra.Ring.Nat
import Mathlib.Data.List.Forall2
import ConicForm.Proofs.Broadcast
import ConicForm.Proofs.Eval
/-!
Shape inference as the shape of evaluation: every operator other than a custom one, over
operands with the dimensions of their shapes, evaluates to an array with the dimensions of its
inferred shape whenever its own condition on its operands holds (`Op.Admits`) and the counts of
entries fit in a machine word (`Op.apply_inferred_dims`). The condition is narrower than shape
inference for elementwise operators, whose arithmetic stretches only an operand of a single
entry (`add_broadcast_fails`), and it leaves out two reductions computed as for a matrix while
their shape is inferred as for a vector.
-/

namespace ConicForm

namespace Shape

def isOne (s : Shape) : Bool := s.dims.all (· == 1)

/-- At most two dimensions, none of them zero: the entries of the shape fill its storage. -/
def IsPlain (s : Shape) : Prop := s.dims.length ≤ 2 ∧ ∀ d ∈ s.dims, 0 < d

/-- Operands of an elementwise operator as its arithmetic takes them: all of one shape, apart
from operands of a single entry. -/
def Conform (ss : List Shape) : Prop := ∃ t : Shape, ∀ s ∈ ss, s.isOne = true ∨ s = t

end Shape

/-- A range picks at least one position and every position it picks is below `len`; `none`
picks the whole dimension. -/
def RangeFits (len : Nat) : Option (Nat × Nat × Nat) → Prop
  | none => True
  | some (start, stop, step) => start < stop ∧ ∀ k ∈ Dense.Stride.picks start stop step, k < len

/-- The condition an operator node puts on its operands' shapes, with the number of operands
its atom takes. Custom operators are left out. -/
def Op.Admits : Op → List Shape → Prop
  | .add, [a, b] | .mul, [a, b] => Shape.Conform [a, b]
  | .maximum, ss | .minimum, ss => ss ≠ [] ∧ Shape.Conform ss
  | .matmul, [a, b] => (a.matmul b).isSome
  | .quadForm, [x, p] => x.ndim = 1 ∧ p = .matrix x.rows x.rows
  | .quadOverLin, [_, y] => y.isOne
  | .reshape s, [a] => s.IsPlain ∧ s.size = a.size
  | .index [r], [a] => RangeFits (a.rows * a.cols) r
  | .index [r, c], [a] => RangeFits a.rows r ∧ RangeFits a.cols c
  | .vstack, ss => ∀ s ∈ ss, s.cols = (ss.headD .scalar).cols
  | .hstack, ss => ∀ s ∈ ss, s.rows = (ss.headD .scalar).rows
  -- a sum along a later axis is left out on a vector of several entries
  | .sum (some k), [a] => k = 0 ∨ a.ndim ≠ 1 ∨ a.rows = 1
  -- and the diagonal on a matrix of one column and several rows
  | .diag, [a] => ¬(a.ndim = 2 ∧ a.cols = 1 ∧ 1 < a.rows)
  | .neg, [_] | .sum none, [_] | .transpose, [_] | .trace, [_] | .cumsum _, [_] | .norm1, [_]
  | .norm2, [_] | .normInf, [_] | .abs, [_] | .pos, [_] | .negPart, [_] | .sumSquares, [_]
  | .exp, [_] | .log, [_] | .entropy, [_] | .power _, [_] => True
  | _, _ => False

def Dense.WellFormed (m : Dense) : Prop := m.data.size = m.rows * m.cols

def Dense.Stores (m : Dense) (s : Shape) : Prop := m.rows = s.rows ∧ m.cols = s.cols ∧ m.WellFormed

/-- A dense result fills a plain shape: it holds the shape's number of entries, each of its
positions stored, to be laid out again as the shape. -/
structure Dense.Fills (m : Dense) (s : Shape) : Prop where
  wellFormed : m.WellFormed
  count : m.rows * m.cols = s.dims.prod
  plain : s.IsPlain

lemma Dense.Fills.of_count {m : Dense} {s : Shape} (hw : m.WellFormed)
    (h : m.rows * m.cols = s.dims.prod ∧ s.IsPlain) : m.Fills s :=
  ⟨hw, h.1, h.2⟩

/-- The value is an array laid out as the shape's storage: it has the shape's rows and columns,
and a dense matrix is well formed. -/
def Value.HasDims (v : Value) (s : Shape) : Prop :=
  v.dims = (s.rows, s.cols) ∧ ∀ m, v = .dense m → m.WellFormed

/-! ### Shapes of at most two dimensions -/

namespace Shape

lemma prod_eq_rows_mul_cols {s : Shape} (h : s.dims.length ≤ 2) :
    s.dims.prod = s.rows * s.cols := by
  rcases s with ⟨_ | ⟨p, _ | ⟨q, _ | ⟨r, ds⟩⟩⟩⟩
  · rfl
  · simp [rows, cols]
  · simp [rows, cols]
  · simp at h

namespace IsPlain

variable {s : Shape}

lemma rows_pos (h : s.IsPlain) : 0 < s.rows := by
  rcases s with ⟨_ | ⟨p, ds⟩⟩
  · simp [rows]
  · exact h.2 p (by simp)

lemma cols_pos (h : s.IsPlain) : 0 < s.cols := by
  rcases s with ⟨_ | ⟨p, _ | ⟨q, ds⟩⟩⟩
  · simp [cols]
  · simp [cols]
  · exact h.2 q (by simp)

lemma prod_eq (h : s.IsPlain) : s.dims.prod = s.rows * s.cols := prod_eq_rows_mul_cols h.1

lemma prod_pos (h : s.IsPlain) : 0 < s.dims.prod := by
  rw [h.prod_eq]
  exact Nat.mul_pos h.rows_pos h.cols_pos

end IsPlain

lemma cols_of_ndim_le_one {s : Shape} (h : s.ndim ≤ 1) : s.cols = 1 := by
  rcases s with ⟨_ | ⟨p, _ | ⟨q, ds⟩⟩⟩ <;> simp_all [ndim, cols]

lemma size_eq_prod {s : Shape} (hpos : 0 < s.dims.prod) (hfit : s.dims.prod < wordModulus) :
    s.size = s.dims.prod := by
  rw [size, ← List.prod_eq_foldl_nat, Nat.mod_eq_of_lt hfit]
  omega

lemma rows_cols_of_isOne {s : Shape} (h : s.isOne = true) : s.rows = 1 ∧ s.cols = 1 := by
  simp only [isOne, List.all_eq_true, beq_iff_eq] at h
  rcases s with ⟨_ | ⟨p, _ | ⟨q, ds⟩⟩⟩
  · exact ⟨rfl, rfl⟩
  · exact ⟨h p (by simp), rfl⟩
  · exact ⟨h p (by simp), h q (by simp)⟩

end Shape

/-! ### Broadcasting against shapes of one entry -/

namespace Shape

lemma joinReversed_replicate_one (xs : List Nat) (k : Nat) :
    joinReversed xs (List.replicate k 1) = some (xs ++ List.replicate (k - xs.length) 1) := by
  induction xs generalizing k with
  | nil => simp
  | cons x xs ih =>
    cases k with
    | zero => simp
    | succ k =>
      rw [List.replicate_succ, joinReversed_cons, ih k]
      have hx : joinDim x 1 = some x := by unfold joinDim; split <;> simp_all
      simp [hx]

lemma joinReversed_append_self (xs : List Nat) (k : Nat) :
    joinReversed (xs ++ List.replicate k 1) xs = some (xs ++ List.replicate k 1) := by
  induction xs with
  | nil => simp
  | cons x xs ih =>
    rw [List.cons_append, joinReversed_cons, ih]
    simp [joinDim]

lemma dims_eq_replicate_of_isOne {s : Shape} (h : s.isOne = true) :
    s.dims = List.replicate s.dims.length 1 := by
  simp only [isOne, List.all_eq_true, beq_iff_eq] at h
  exact List.eq_replicate_iff.2 ⟨rfl, h⟩

lemma broadcast_isOne_right (a : Shape) {b : Shape} (hb : b.isOne = true) :
    a.broadcast b = some ⟨List.replicate (b.dims.length - a.dims.length) 1 ++ a.dims⟩ := by
  rw [broadcast, dims_eq_replicate_of_isOne hb, List.reverse_replicate,
    joinReversed_replicate_one]
  simp

lemma broadcast_isOne_left {a : Shape} (ha : a.isOne = true) (b : Shape) :
    a.broadcast b = some ⟨List.replicate (a.dims.length - b.dims.length) 1 ++ b.dims⟩ := by
  rw [broadcast, joinReversed_comm, dims_eq_replicate_of_isOne ha, List.reverse_replicate,
    joinReversed_replicate_one]
  simp

lemma broadcast_pad_self (k : Nat) (t : Shape) :
    (⟨List.replicate k 1 ++ t.dims⟩ : Shape).broadcast t =
      some ⟨List.replicate k 1 ++ t.dims⟩ := by
  rw [broadcast]
  simp only [List.reverse_append, List.reverse_replicate, joinReversed_append_self]
  simp

end Shape

/-! ### Dense results and their dimensions -/

namespace Dense

@[simp] lemma wellFormed_ofFn (r c : Nat) (f : Nat → Nat → Float) : (ofFn r c f).WellFormed := by
  simp [WellFormed, ofFn]

@[simp] lemma wellFormed_fill (r c : Nat) (x : Float) : (fill r c x).WellFormed := by
  simp [WellFormed, fill]

@[simp] lemma wellFormed_unit (x : Float) : (unit x).WellFormed := rfl

@[simp] lemma wellFormed_map (f : Float → Float) (m : Dense) :
    (m.map f).WellFormed ↔ m.WellFormed := by
  simp [WellFormed, map]

@[simp] lemma ofFn_rows (r c : Nat) (f : Nat → Nat → Float) : (ofFn r c f).rows = r := rfl
@[simp] lemma ofFn_cols (r c : Nat) (f : Nat → Nat → Float) : (ofFn r c f).cols = c := rfl
@[simp] lemma map_rows (f : Float → Float) (m : Dense) : (m.map f).rows = m.rows := rfl
@[simp] lemma map_cols (f : Float → Float) (m : Dense) : (m.map f).cols = m.cols := rfl

lemma isUnit_iff {m : Dense} : m.isUnit = true ↔ m.rows = 1 ∧ m.cols = 1 := by
  simp [isUnit]

lemma broadcastWith_of_dims_eq (f : Float → Float → Float) {a b : Dense} (ha : a.WellFormed)
    (hb : b.WellFormed) (h : a.rows = b.rows ∧ a.cols = b.cols) :
    ∃ c, broadcastWith f a b = .ok c ∧ c.rows = a.rows ∧ c.cols = a.cols ∧ c.WellFormed := by
  have hd : a.dims = b.dims := by simp [dims, h.1, h.2]
  refine ⟨{ a with data := Array.zipWith f a.data b.data }, by simp [broadcastWith, hd], rfl, rfl,
    ?_⟩
  show (Array.zipWith f a.data b.data).size = a.rows * a.cols
  rw [Array.size_zipWith, ha, hb, h.1, h.2, Nat.min_self]

lemma broadcastWith_unit_right (f : Float → Float → Float) {a b : Dense} (ha : a.WellFormed)
    (hb : b.WellFormed) (hu : b.isUnit = true) :
    ∃ c, broadcastWith f a b = .ok c ∧ c.rows = a.rows ∧ c.cols = a.cols ∧ c.WellFormed := by
  obtain ⟨hb1, hb2⟩ := isUnit_iff.1 hu
  by_cases hd : a.rows = b.rows ∧ a.cols = b.cols
  · exact broadcastWith_of_dims_eq f ha hb hd
  · have hd' : a.dims ≠ b.dims := by simpa [dims] using hd
    by_cases hau : a.isUnit = true
    · obtain ⟨ha1, ha2⟩ := isUnit_iff.1 hau
      exact absurd ⟨ha1.trans hb1.symm, ha2.trans hb2.symm⟩ hd
    · refine ⟨a.map fun v => f v (b.get 0 0), by simp [broadcastWith, hd', hau, hu], rfl, rfl,
        ?_⟩
      simpa using ha

lemma broadcastWith_unit_left (f : Float → Float → Float) {a b : Dense} (ha : a.WellFormed)
    (hb : b.WellFormed) (hu : a.isUnit = true) :
    ∃ c, broadcastWith f a b = .ok c ∧ c.rows = b.rows ∧ c.cols = b.cols ∧ c.WellFormed := by
  by_cases hd : a.rows = b.rows ∧ a.cols = b.cols
  · obtain ⟨c, hc, h1, h2, hw⟩ := broadcastWith_of_dims_eq f ha hb hd
    exact ⟨c, hc, h1.trans hd.1, h2.trans hd.2, hw⟩
  · have hd' : a.dims ≠ b.dims := by simpa [dims] using hd
    refine ⟨b.map (f (a.get 0 0)), by simp [broadcastWith, hd', hu], rfl, rfl, ?_⟩
    simpa using hb

end Dense

lemma Value.HasDims.toDense {v : Value} {s : Shape} (h : v.HasDims s) : v.toDense.Stores s := by
  obtain ⟨hd, hw⟩ := h
  cases v with
  | scalar x =>
    simp only [dims, Prod.mk.injEq] at hd
    exact ⟨hd.1, hd.2, rfl⟩
  | dense m =>
    simp only [dims, Prod.mk.injEq] at hd
    exact ⟨hd.1, hd.2, hw m rfl⟩
  | sparse m =>
    simp only [dims, Prod.mk.injEq] at hd
    refine ⟨hd.1, hd.2, ?_⟩
    -- adding stored entries into the zero matrix keeps its storage
    have hsize : ∀ (es : List (Nat × Nat × Float)) (z : Array Float),
        (es.foldl (fun d e => d.modify (e.2.1 * m.rows + e.1) (· + e.2.2)) z).size = z.size := by
      intro es
      induction es with
      | nil => intro z; rfl
      | cons e es ih => intro z; simp [ih]
    simp [Dense.WellFormed, Value.toDense, Sparse.toDense, hsize]

/-! ### Elementwise operators -/

namespace Shape

lemma isOne_pad {r : Shape} (hr : r.isOne = true) (k : Nat) :
    (⟨List.replicate k 1 ++ r.dims⟩ : Shape).isOne = true := by
  simp only [isOne, List.all_append, List.all_replicate, Bool.and_eq_true] at hr ⊢
  simp [hr]

lemma prod_pad (k : Nat) (ds : List Nat) : (List.replicate k 1 ++ ds).prod = ds.prod := by
  simp

end Shape

/-- What an elementwise operator has built after some of its operands, all of them conforming
to `t`: the shape inferred so far has at most two dimensions, and either it and the value have a
single entry, or it is `t` padded with leading ones and the value is stored as `t` is. -/
def ElementwiseAcc (t r : Shape) (m : Dense) : Prop :=
  r.dims.length ≤ 2 ∧ m.WellFormed ∧ ((r.isOne = true ∧ m.rows = 1 ∧ m.cols = 1) ∨
    ∃ k, r.dims = List.replicate k 1 ++ t.dims ∧ m.rows = t.rows ∧ m.cols = t.cols)

namespace ElementwiseAcc

variable {t r s : Shape} {m m' : Dense}

lemma init (hs : s.IsPlain) (hst : s.isOne = true ∨ s = t) (hm : m.Stores s) :
    ElementwiseAcc t s m := by
  refine ⟨hs.1, hm.2.2, ?_⟩
  rcases hst with h1 | rfl
  · obtain ⟨hr, hc⟩ := Shape.rows_cols_of_isOne h1
    exact .inl ⟨h1, hm.1.trans hr, hm.2.1.trans hc⟩
  · exact .inr ⟨0, by simp, hm.1, hm.2.1⟩

lemma step (f : Float → Float → Float) (hr : ElementwiseAcc t r m) (hs : s.IsPlain)
    (hst : s.isOne = true ∨ s = t) (hm : m'.Stores s) :
    ∃ r' m'', r.broadcast s = some r' ∧ Dense.broadcastWith f m m' = .ok m'' ∧
      ElementwiseAcc t r' m'' := by
  obtain ⟨hlen, hw, hr⟩ := hr
  obtain ⟨hm1, hm2, hmw⟩ := hm
  have hslen := hs.1
  rcases hst with hs1 | rfl
  · -- an operand of one entry stretches over what was built
    obtain ⟨h1, h2⟩ := Shape.rows_cols_of_isOne hs1
    obtain ⟨c, hc, hc1, hc2, hcw⟩ := Dense.broadcastWith_unit_right f hw hmw
      (Dense.isUnit_iff.2 ⟨hm1.trans h1, hm2.trans h2⟩)
    refine ⟨_, c, Shape.broadcast_isOne_right r hs1, hc, by simp; omega, hcw, ?_⟩
    rcases hr with ⟨hr1, hmr1, hmr2⟩ | ⟨k, hk, hmr1, hmr2⟩
    · exact .inl ⟨Shape.isOne_pad hr1 _, hc1.trans hmr1, hc2.trans hmr2⟩
    · exact .inr ⟨_ + k, by rw [hk, ← List.append_assoc, List.replicate_append_replicate],
        hc1.trans hmr1, hc2.trans hmr2⟩
  · rcases hr with ⟨hr1, hmr1, hmr2⟩ | ⟨k, hk, hmr1, hmr2⟩
    · -- what was built has one entry and stretches over the operand
      obtain ⟨c, hc, hc1, hc2, hcw⟩ := Dense.broadcastWith_unit_left f hw hmw
        (Dense.isUnit_iff.2 ⟨hmr1, hmr2⟩)
      exact ⟨_, c, Shape.broadcast_isOne_left hr1 _, hc, by simp; omega, hcw,
        .inr ⟨_, rfl, hc1.trans hm1, hc2.trans hm2⟩⟩
    · -- both are stored as the operand's shape
      obtain ⟨c, hc, hc1, hc2, hcw⟩ := Dense.broadcastWith_of_dims_eq f hw hmw
        ⟨hmr1.trans hm1.symm, hmr2.trans hm2.symm⟩
      have hr' : r = ⟨List.replicate k 1 ++ s.dims⟩ := by
        cases r
        simp only at hk
        rw [hk]
      exact ⟨r, c, by rw [hr']; exact Shape.broadcast_pad_self k _, hc, hlen, hcw,
        .inr ⟨k, hk, hc1.trans hmr1, hc2.trans hmr2⟩⟩

lemma fold (f : Float → Float → Float) :
    ∀ (ss : List Shape) (ms : List Dense) {r : Shape} {m : Dense}, List.Forall₂ Dense.Stores ms ss →
      (∀ s ∈ ss, s.IsPlain ∧ (s.isOne = true ∨ s = t)) → ElementwiseAcc t r m →
      ∃ m', ms.foldlM (Dense.broadcastWith f) m = .ok m' ∧
        ElementwiseAcc t (ss.foldl (fun acc s => (acc.broadcast s).getD acc) r) m'
  | [], [], _, _, .nil, _, h => ⟨_, rfl, h⟩
  | s :: ss, m₁ :: ms, r, m, .cons hm hms, hss, h => by
    have hs := hss s List.mem_cons_self
    obtain ⟨r', m', hb, hw, h'⟩ := step f h hs.1 hs.2 hm
    obtain ⟨m'', hf, h''⟩ := fold f ss ms hms (fun s' hs' => hss s' (List.mem_cons_of_mem _ hs')) h'
    refine ⟨m'', ?_, by simpa [hb] using h''⟩
    rw [List.foldlM_cons, hw]
    exact hf

lemma fills (ht : t.IsPlain) (h : ElementwiseAcc t r m) : m.Fills r := by
  obtain ⟨hlen, hw, ⟨hr1, hm1, hm2⟩ | ⟨k, hk, hm1, hm2⟩⟩ := h
  · -- a shape of ones
    have h1 := Shape.dims_eq_replicate_of_isOne hr1
    refine ⟨hw, by rw [h1, hm1, hm2]; simp, hlen, fun d hd => ?_⟩
    rw [h1] at hd
    rw [List.eq_of_mem_replicate hd]
    exact Nat.one_pos
  · -- the padded operand's shape
    refine ⟨hw, by rw [hk, Shape.prod_pad, hm1, hm2, ht.prod_eq], hlen, fun d hd => ?_⟩
    rw [hk] at hd
    rcases List.mem_append.1 hd with h | h
    · rw [List.eq_of_mem_replicate h]
      exact Nat.one_pos
    · exact ht.2 d h

end ElementwiseAcc

/-! ### Products -/

namespace Dense

lemma mul_dims (a b : Dense) : (a.mul b).rows = a.rows ∧ (a.mul b).cols = b.cols ∧ (a.mul b).WellFormed := by
  unfold mul
  split_ifs <;> simp [fill, ofFn, WellFormed]

/-- A product succeeds when one side is `1 × 1`, when the inner dimensions meet, or when a column
on the left meets the rows of the right; its number of entries follows the branch taken. -/
lemma matmul_ok {a b : Dense} (ha : a.WellFormed) (hb : b.WellFormed)
    (h : a.isUnit = true ∨ b.isUnit = true ∨ a.cols = b.rows ∨ (a.cols = 1 ∧ a.rows = b.rows)) :
    ∃ c, matmul a b = .ok c ∧ c.WellFormed ∧
      c.rows * c.cols = if a.isUnit then b.rows * b.cols else if b.isUnit then a.rows * a.cols
        else if a.cols = b.rows then a.rows * b.cols else b.cols := by
  by_cases hau : a.isUnit = true
  · obtain ⟨c, hc, h1, h2, hw⟩ := broadcastWith_unit_left (· * ·) ha hb hau
    exact ⟨c, by simp [matmul, hau, hc], hw, by simp [hau, h1, h2]⟩
  by_cases hbu : b.isUnit = true
  · obtain ⟨c, hc, h1, h2, hw⟩ := broadcastWith_unit_right (· * ·) ha hb hbu
    exact ⟨c, by simp [matmul, hbu, hc], hw, by simp [hau, hbu, h1, h2]⟩
  by_cases hin : a.cols = b.rows
  · obtain ⟨h1, h2, hw⟩ := mul_dims a b
    exact ⟨a.mul b, by simp [matmul, hau, hbu, hin], hw, by simp [hau, hbu, hin, h1, h2]⟩
  · -- the only way left: a column read as a row
    have hcol : a.cols = 1 ∧ a.rows = b.rows := by simpa [hau, hbu, hin] using h
    obtain ⟨h1, h2, hw⟩ := mul_dims a.transpose b
    refine ⟨a.transpose.mul b, ?_, hw, ?_⟩
    · rw [matmul, if_neg (by simp [hau, hbu]), if_neg hin, if_pos (by simp [hcol])]
    · rw [h1, h2, if_neg hau, if_neg hbu, if_neg hin]
      simp [transpose, hcol.1]

end Dense

lemma matmul_count {sa sb : Shape} {ma mb : Dense} (ha : ma.Stores sa) (hb : mb.Stores sb)
    (hpa : sa.IsPlain) (hpb : sb.IsPlain) (h : (sa.matmul sb).isSome = true) :
    ∃ m, Dense.matmul ma mb = .ok m ∧ m.Fills ((sa.matmul sb).getD .scalar) := by
  obtain ⟨ha1, ha2, haw⟩ := ha
  obtain ⟨hb1, hb2, hbw⟩ := hb
  -- one case for each pair of numbers of dimensions, up to two
  rcases sa with ⟨_ | ⟨p, _ | ⟨q, _ | ⟨_, _⟩⟩⟩⟩ <;>
  rcases sb with ⟨_ | ⟨p', _ | ⟨q', _ | ⟨_, _⟩⟩⟩⟩ <;>
  simp only [Shape.IsPlain, List.length_cons, List.length_nil] at hpa hpb <;>
  (try omega) <;>
  simp only [Shape.matmul, Shape.ndim, List.length_cons, List.length_nil, Shape.rows,
    Shape.cols, List.headD_cons, List.headD_nil, List.drop_succ_cons, List.drop_zero,
    List.drop_nil] at ha1 ha2 hb1 hb2 h ⊢
  all_goals
    subst_vars
    try split_ifs at h ⊢ with hif
    -- the products the shapes rule out
    all_goals try (simp_all; done)
    all_goals
      obtain ⟨c, hc, hw, hn⟩ := Dense.matmul_ok haw hbw (by simp only [Dense.isUnit_iff]; omega)
      refine ⟨c, hc, hw, ?_, ?_⟩
      · rw [hn]
        split_ifs <;> simp_all [Dense.isUnit_iff, Shape.vector, Shape.matrix, Shape.scalar]
      · simp_all [Shape.IsPlain, Shape.vector, Shape.matrix, Shape.scalar]

/-! ### Indexing -/

namespace Dense.Stride

lemma length_picks (start stop step : Nat) :
    (picks start stop step).length = (stop - start + max step 1 - 1) / max step 1 := by
  simp [picks]

lemma count_pos {start stop : Nat} (step : Nat) (h : start < stop) :
    0 < (stop - start + max step 1 - 1) / max step 1 :=
  Nat.div_pos (by omega) (by omega)

lemma firstOutside_eq_none {start stop step len : Nat}
    (h : ∀ k ∈ picks start stop step, k < len) : firstOutside start stop step len = none := by
  simp only [firstOutside, picks, List.mem_map, List.mem_range] at h ⊢
  have hd : 0 < max step 1 := by omega
  generalize max step 1 = d at h hd ⊢
  -- the `i`-th position of the stride is picked as soon as it lies below `stop`
  have hpick : ∀ i, i * d < stop - start → start + i * d < len := fun i hi =>
    h _ ⟨i, (Nat.le_div_iff_mul_le hd).2 (by rw [Nat.succ_mul]; omega), rfl⟩
  split_ifs with hs hlt hlt
  · have := hpick 0 (by omega)
    omega
  · rfl
  · -- the first position past `len` is the stride's next multiple from `start`
    have h1 := Nat.div_add_mod (len - start + d - 1) d
    have h2 := Nat.mod_lt (len - start + d - 1) hd
    rw [Nat.mul_comm] at h1
    have := hpick ((len - start + d - 1) / d) (by omega)
    omega
  · rfl

end Dense.Stride

lemma Dense.selectRange_ok {len : Nat} {r : Option (Nat × Nat × Nat)} (h : RangeFits len r) :
    ∃ ps, selectRange r len = .ok ps ∧
      ps.length = match r with
        | none => len
        | some (start, stop, step) => (stop - start + max step 1 - 1) / max step 1 := by
  rcases r with _ | ⟨start, stop, step⟩
  · exact ⟨_, rfl, List.length_range⟩
  · exact ⟨_, by simp [selectRange, Stride.firstOutside_eq_none h.2], Stride.length_picks _ _ _⟩

/-- The dimensions that one range contributes to the shape of an indexing that picks `n`
positions along it: at most one dimension, none zero, of product `n`. -/
def AxisDims (ds : List Nat) (n : Nat) : Prop := ds.prod = n ∧ ds.length ≤ 1 ∧ ∀ d ∈ ds, 0 < d

namespace AxisDims

lemma stride {n : Nat} (h : 0 < n) : AxisDims (if 1 < n then [n] else []) n := by
  unfold AxisDims
  split_ifs <;> simp <;> omega

lemma rows {a : Shape} (ha : a.IsPlain) :
    AxisDims (if 0 < a.ndim then [a.dims.getD 0 0] else []) a.rows := by
  have hpos := ha.2
  rcases a with ⟨_ | ⟨p, ds⟩⟩ <;> simp_all [AxisDims, Shape.ndim, Shape.rows]

lemma cols {a : Shape} (ha : a.IsPlain) :
    AxisDims (if 1 < a.ndim then [a.dims.getD 1 0] else []) a.cols := by
  have hpos := ha.2
  rcases a with ⟨_ | ⟨p, _ | ⟨q, ds⟩⟩⟩ <;> simp_all [AxisDims, Shape.ndim, Shape.cols]

lemma append {d₁ d₂ : List Nat} {n₁ n₂ : Nat} (h₁ : AxisDims d₁ n₁) (h₂ : AxisDims d₂ n₂) :
    n₁ * n₂ = (d₁ ++ d₂).prod ∧ Shape.IsPlain ⟨d₁ ++ d₂⟩ := by
  obtain ⟨hp₁, hl₁, hd₁⟩ := h₁
  obtain ⟨hp₂, hl₂, hd₂⟩ := h₂
  refine ⟨by rw [List.prod_append, hp₁, hp₂], by simp; omega, ?_⟩
  intro d hd
  rcases List.mem_append.1 hd with h | h
  · exact hd₁ d h
  · exact hd₂ d h

end AxisDims

lemma index_count {a : Shape} {m : Dense} {ranges : List (Option (Nat × Nat × Nat))}
    (hm : m.Stores a) (ha : a.IsPlain) (hfit : a.dims.prod < Shape.wordModulus)
    (h : Op.Admits (.index ranges) [a]) :
    ∃ m', m.index ranges = .ok m' ∧ m'.Fills (Op.inferShape (.index ranges) [a]) := by
  obtain ⟨hm1, hm2, hmw⟩ := hm
  rcases ranges with _ | ⟨r, _ | ⟨c, _ | ⟨_, _⟩⟩⟩ <;> simp only [Op.Admits] at h
  · -- one range picks from the entries in storage order
    have hsize : m.data.size = a.rows * a.cols := by rw [hmw, hm1, hm2]
    have hr : RangeFits m.data.size r := by rwa [hsize]
    obtain ⟨ps, hps, hlen⟩ := Dense.selectRange_ok hr
    refine ⟨Dense.column (ps.map (fun k => m.data.getD k 0)).toArray,
      by simp [Dense.index, hps, bind, Except.bind],
      .of_count (by simp [Dense.WellFormed, Dense.column]) ?_⟩
    have hprod : a.size = a.rows * a.cols := by
      rw [Shape.size_eq_prod ha.prod_pos hfit, ha.prod_eq]
    rcases r with _ | ⟨start, stop, step⟩
    · simp only at hlen
      have hpos : 0 < a.size := hprod ▸ Nat.mul_pos ha.rows_pos ha.cols_pos
      refine ⟨by simp [Op.inferShape, Dense.column, hlen, hsize, hprod], by simp [Op.inferShape],
        by simp [Op.inferShape, hpos]⟩
    · simp only at hlen
      obtain ⟨hp, hl, hd⟩ := AxisDims.stride (Dense.Stride.count_pos step h.1)
      refine ⟨by simp [Op.inferShape, Dense.column, hlen, hp], ?_, by simpa [Op.inferShape] using hd⟩
      simp only [Op.inferShape] at hl ⊢
      simp at hl ⊢
      omega
  · -- two ranges pick rows and columns
    obtain ⟨hr, hc⟩ := h
    have hr' : RangeFits m.rows r := by rwa [hm1]
    have hc' : RangeFits m.cols c := by rwa [hm2]
    obtain ⟨rs, hrs, hrl⟩ := Dense.selectRange_ok hr'
    obtain ⟨cs, hcs, hcl⟩ := Dense.selectRange_ok hc'
    refine ⟨Dense.ofFn rs.toArray.size cs.toArray.size
        fun i j => m.get (rs.toArray.getD i 0) (cs.toArray.getD j 0),
      by simp [Dense.index, hrs, hcs, bind, Except.bind], .of_count (Dense.wellFormed_ofFn _ _ _) ?_⟩
    rcases r with _ | ⟨r₁, r₂, r₃⟩ <;> rcases c with _ | ⟨c₁, c₂, c₃⟩ <;> simp only at hrl hcl
    · simpa [Op.inferShape, hrl, hcl, hm1, hm2] using (AxisDims.rows ha).append (AxisDims.cols ha)
    · simpa [Op.inferShape, hrl, hcl, hm1] using
        (AxisDims.rows ha).append (AxisDims.stride (Dense.Stride.count_pos c₃ hc.1))
    · simpa [Op.inferShape, hrl, hcl, hm2] using
        (AxisDims.stride (Dense.Stride.count_pos r₃ hr.1)).append (AxisDims.cols ha)
    · simpa [Op.inferShape, hrl, hcl] using
        (AxisDims.stride (Dense.Stride.count_pos r₃ hr.1)).append
          (AxisDims.stride (Dense.Stride.count_pos c₃ hc.1))

/-! ### Stacking -/

namespace Shape

lemma wordSum_eq_sum {xs : List Nat} (h : xs.sum < wordModulus) : wordSum xs = xs.sum := by
  -- the running sum stays below the modulus, so no step wraps
  have key : ∀ (xs : List Nat) (acc : Nat), acc + xs.sum < wordModulus →
      xs.foldl (fun a b => (a + b) % wordModulus) acc = acc + xs.sum := by
    intro xs
    induction xs with
    | nil => intro acc _; simp
    | cons x xs ih =>
      intro acc hacc
      simp only [List.sum_cons] at hacc
      rw [List.foldl_cons, Nat.mod_eq_of_lt (by omega), ih _ (by omega), List.sum_cons]
      omega
  simpa [wordSum] using key xs 0 (by simpa using h)

lemma sum_rows_le {ss : List Shape} (h : ∀ s ∈ ss, s.IsPlain) :
    (ss.map (·.rows)).sum ≤ (ss.map (·.dims.prod)).sum :=
  List.sum_le_sum fun s hs => by
    rw [(h s hs).prod_eq]
    exact Nat.le_mul_of_pos_right _ (h s hs).cols_pos

lemma sum_cols_le {ss : List Shape} (h : ∀ s ∈ ss, s.IsPlain) :
    (ss.map (·.cols)).sum ≤ (ss.map (·.dims.prod)).sum :=
  List.sum_le_sum fun s hs => by
    rw [(h s hs).prod_eq]
    exact Nat.le_mul_of_pos_left _ (h s hs).rows_pos

end Shape

namespace Dense.Stores

lemma map_rows {ms : List Dense} {ss : List Shape} (h : List.Forall₂ Dense.Stores ms ss) :
    ms.map (·.rows) = ss.map (·.rows) := by
  induction h with
  | nil => rfl
  | cons h _ ih => simp [h.1, ih]

lemma map_cols {ms : List Dense} {ss : List Shape} (h : List.Forall₂ Dense.Stores ms ss) :
    ms.map (·.cols) = ss.map (·.cols) := by
  induction h with
  | nil => rfl
  | cons h _ ih => simp [h.2.1, ih]

lemma wellFormed_of_mem {ms : List Dense} {ss : List Shape} (h : List.Forall₂ Dense.Stores ms ss) :
    ∀ m ∈ ms, m.WellFormed := by
  induction h with
  | nil => simp
  | cons h _ ih => exact List.forall_mem_cons.2 ⟨h.2.2, ih⟩

end Dense.Stores

lemma vstack_count {ss : List Shape} {ms : List Dense} (hms : List.Forall₂ Dense.Stores ms ss)
    (hplain : ∀ s ∈ ss, s.IsPlain) (hin : (ss.map (·.dims.prod)).sum < Shape.wordModulus)
    (h : ∀ s ∈ ss, s.cols = (ss.headD .scalar).cols) :
    ∃ m, Dense.vstack ms = .ok m ∧ m.Fills (Op.inferShape .vstack ss) := by
  rcases hms with _ | ⟨hm₀, hms'⟩
  · exact ⟨_, rfl, by simp, rfl, by simp [Op.inferShape, Shape.IsPlain, Shape.scalar]⟩
  rename_i m₀ s₀ ms ss
  have hrows := Dense.Stores.map_rows (.cons hm₀ hms')
  have hcols := Dense.Stores.map_cols (.cons hm₀ hms')
  -- every block has the first block's columns
  have hsame : ∀ x ∈ m₀ :: ms, x.cols = m₀.cols := by
    intro x hx
    have : x.cols ∈ (s₀ :: ss).map (·.cols) := hcols ▸ List.mem_map_of_mem hx
    obtain ⟨s, hs, hsx⟩ := List.mem_map.1 this
    rw [← hsx, h s hs, hm₀.2.1]
    rfl
  have hfind : (m₀ :: ms).find? (fun b => b.cols != m₀.cols) = none :=
    List.find?_eq_none.2 fun x hx => by simp [hsame x hx]
  have hsum : Shape.wordSum ((s₀ :: ss).map (·.rows)) = ((s₀ :: ss).map (·.rows)).sum :=
    Shape.wordSum_eq_sum (lt_of_le_of_lt (Shape.sum_rows_le hplain) hin)
  simp only [Dense.vstack, hfind]
  have htotal : ((m₀ :: ms).map (·.rows)).foldl (· + ·) 0 = ((s₀ :: ss).map (·.rows)).sum := by
    rw [← List.sum_eq_foldl_nat, hrows]
  have hpos : 0 < ((s₀ :: ss).map (·.rows)).sum := by
    have := (hplain s₀ List.mem_cons_self).rows_pos
    simp only [List.map_cons, List.sum_cons]
    omega
  refine ⟨_, rfl, ?_, ?_, ?_⟩
  · -- the storage holds every block's column `j` in turn, for each column `j`
    simp only [Dense.WellFormed, List.size_toArray, List.length_flatMap, Dense.columnList,
      List.length_map, List.length_range, List.map_const', List.sum_replicate_nat,
      ← List.sum_eq_foldl_nat]
    exact Nat.mul_comm _ _
  · simp only [Op.inferShape, hsum]
    rw [htotal, hm₀.2.1]
    split_ifs with hn
    · simp [Shape.vector, Shape.cols_of_ndim_le_one hn]
    · simp [Shape.matrix]
  · have hc := (hplain s₀ List.mem_cons_self).cols_pos
    simp only [Op.inferShape, hsum]
    split_ifs
    · refine ⟨by simp [Shape.vector], fun d hd => ?_⟩
      simp only [Shape.vector, List.mem_singleton] at hd
      exact hd ▸ hpos
    · refine ⟨by simp [Shape.matrix], fun d hd => ?_⟩
      simp only [Shape.matrix, List.mem_cons, List.not_mem_nil, or_false] at hd
      rcases hd with rfl | rfl
      · exact hpos
      · exact hc

lemma hstack_count {ss : List Shape} {ms : List Dense} (hms : List.Forall₂ Dense.Stores ms ss)
    (hplain : ∀ s ∈ ss, s.IsPlain) (hin : (ss.map (·.dims.prod)).sum < Shape.wordModulus)
    (h : ∀ s ∈ ss, s.rows = (ss.headD .scalar).rows) :
    ∃ m, Dense.hstack ms = .ok m ∧ m.Fills (Op.inferShape .hstack ss) := by
  have hwf := Dense.Stores.wellFormed_of_mem hms
  rcases hms with _ | ⟨hm₀, hms'⟩
  · exact ⟨_, rfl, by simp, rfl, by simp [Op.inferShape, Shape.IsPlain, Shape.scalar]⟩
  rename_i m₀ s₀ ms ss
  have hrows := Dense.Stores.map_rows (.cons hm₀ hms')
  have hcols := Dense.Stores.map_cols (.cons hm₀ hms')
  -- every block has the first block's rows
  have hsame : ∀ x ∈ m₀ :: ms, x.rows = m₀.rows := by
    intro x hx
    have : x.rows ∈ (s₀ :: ss).map (·.rows) := hrows ▸ List.mem_map_of_mem hx
    obtain ⟨s, hs, hsx⟩ := List.mem_map.1 this
    rw [← hsx, h s hs, hm₀.1]
    rfl
  have hfind : (m₀ :: ms).find? (fun b => b.rows != m₀.rows) = none :=
    List.find?_eq_none.2 fun x hx => by simp [hsame x hx]
  have hsum : Shape.wordSum ((s₀ :: ss).map (·.cols)) = ((s₀ :: ss).map (·.cols)).sum :=
    Shape.wordSum_eq_sum (lt_of_le_of_lt (Shape.sum_cols_le hplain) hin)
  have htotal : ((m₀ :: ms).map (·.cols)).foldl (· + ·) 0 = ((s₀ :: ss).map (·.cols)).sum := by
    rw [← List.sum_eq_foldl_nat, hcols]
  have hpos : 0 < ((s₀ :: ss).map (·.cols)).sum := by
    have := (hplain s₀ List.mem_cons_self).cols_pos
    simp only [List.map_cons, List.sum_cons]
    omega
  simp only [Dense.hstack, hfind]
  refine ⟨_, rfl, ?_, ?_, ?_⟩
  · -- the storage holds each block's entries in turn
    have hlen : ∀ x ∈ m₀ :: ms, x.data.toList.length = m₀.rows * x.cols := fun x hx => by
      rw [Array.length_toList, hwf x hx, hsame x hx]
    simp only [Dense.WellFormed, List.size_toArray, List.length_flatMap]
    rw [List.map_congr_left hlen, List.sum_map_mul_left, ← List.sum_eq_foldl_nat]
  · simp only [Op.inferShape, hsum]
    rw [htotal, hm₀.1]
    simp [Shape.matrix]
  · have hr := (hplain s₀ List.mem_cons_self).rows_pos
    simp only [Op.inferShape, hsum]
    refine ⟨by simp [Shape.matrix], fun d hd => ?_⟩
    simp only [Shape.matrix, List.mem_cons, List.not_mem_nil, or_false] at hd
    rcases hd with rfl | rfl
    · exact hr
    · exact hpos

/-! ### Every operator -/

namespace Shape

lemma isPlain_scalar : scalar.IsPlain := ⟨by simp [scalar], by simp [scalar]⟩

lemma isPlain_vector {n : Nat} (h : 0 < n) : (vector n).IsPlain :=
  ⟨by simp [vector], by simp [vector, h]⟩

lemma Conform.plain {ss : List Shape} (hc : Conform ss) (hne : ss ≠ [])
    (hp : ∀ s ∈ ss, s.IsPlain) : ∃ t, t.IsPlain ∧ ∀ s ∈ ss, s.isOne = true ∨ s = t := by
  obtain ⟨t, ht⟩ := hc
  by_cases hmem : t ∈ ss
  · exact ⟨t, hp t hmem, ht⟩
  · -- no operand has the shape `t`, so each has one entry, and any of them will do
    obtain ⟨s₀, hs₀⟩ := List.exists_mem_of_ne_nil ss hne
    refine ⟨s₀, hp s₀ hs₀, fun s hs => ?_⟩
    rcases ht s hs with h | rfl
    · exact .inl h
    · exact absurd hs hmem

end Shape

namespace Dense

@[simp] lemma stores_map {f : Float → Float} {m : Dense} {s : Shape} :
    (m.map f).Stores s ↔ m.Stores s := by
  simp [Stores]

lemma Stores.fills {m : Dense} {s : Shape} (hm : m.Stores s) (hs : s.IsPlain) : m.Fills s :=
  ⟨hm.2.2, by rw [hm.1, hm.2.1, hs.prod_eq], hs⟩

lemma unit_fills (x : Float) : (unit x).Fills .scalar := ⟨rfl, rfl, Shape.isPlain_scalar⟩

lemma Stores.singleton {ms : List Dense} {a : Shape} (h : List.Forall₂ Stores ms [a]) :
    ∃ m, ms = [m] ∧ m.Stores a := by
  rcases h with _ | ⟨ha, ⟨⟩⟩
  exact ⟨_, rfl, ha⟩

lemma Stores.pair {ms : List Dense} {a b : Shape} (h : List.Forall₂ Stores ms [a, b]) :
    ∃ ma mb, ms = [ma, mb] ∧ ma.Stores a ∧ mb.Stores b := by
  rcases h with _ | ⟨ha, _ | ⟨hb, ⟨⟩⟩⟩
  exact ⟨_, _, rfl, ha, hb⟩

lemma cumsum_stores {m : Dense} {s : Shape} (hm : m.Stores s) (axis : Nat) :
    (m.cumsum axis).Stores s := by
  obtain ⟨h1, h2, _⟩ := hm
  unfold cumsum
  split_ifs <;> exact ⟨h1, h2, wellFormed_ofFn _ _ _⟩

end Dense

lemma broadcastWith_fills (f : Float → Float → Float) {a b : Shape} {ma mb : Dense}
    (ha : ma.Stores a) (hb : mb.Stores b) (hpa : a.IsPlain) (hpb : b.IsPlain)
    (hc : Shape.Conform [a, b]) :
    ∃ m, Dense.broadcastWith f ma mb = .ok m ∧ m.Fills ((a.broadcast b).getD .scalar) := by
  obtain ⟨t, ht, hab⟩ := hc.plain (List.cons_ne_nil _ _) (by simp [hpa, hpb])
  obtain ⟨r, m, hr, hm, hacc⟩ :=
    (ElementwiseAcc.init hpa (hab a (by simp)) ha).step f hpb (hab b (by simp)) hb
  exact ⟨m, hm, by rw [hr]; exact hacc.fills ht⟩

lemma foldlM_broadcastWith_fills (f : Float → Float → Float) {s₀ : Shape} {ss : List Shape}
    {m₀ : Dense} {ms : List Dense} (h₀ : m₀.Stores s₀) (hms : List.Forall₂ Dense.Stores ms ss)
    (hp : ∀ s ∈ s₀ :: ss, s.IsPlain) (hc : Shape.Conform (s₀ :: ss)) :
    ∃ m, ms.foldlM (Dense.broadcastWith f) m₀ = .ok m ∧
      m.Fills (ss.foldl (fun acc s => (acc.broadcast s).getD acc) s₀) := by
  obtain ⟨t, ht, hall⟩ := hc.plain (List.cons_ne_nil _ _) hp
  obtain ⟨m, hm, hacc⟩ := ElementwiseAcc.fold f ss ms hms
    (fun s hs => ⟨hp s (List.mem_cons_of_mem _ hs), hall s (List.mem_cons_of_mem _ hs)⟩)
    (ElementwiseAcc.init (hp s₀ List.mem_cons_self) (hall s₀ List.mem_cons_self) h₀)
  exact ⟨m, hm, hacc.fills ht⟩

lemma sum_fills {a : Shape} {m : Dense} {axis : Option Nat} (hm : m.Stores a) (ha : a.IsPlain)
    (h : Op.Admits (.sum axis) [a]) :
    ∃ m', Op.compute (.sum axis) [m] = .ok m' ∧ m'.Fills (Op.inferShape (.sum axis) [a]) := by
  obtain ⟨hm1, hm2, _⟩ := hm
  rcases axis with _ | _ | k
  · refine ⟨_, rfl, ?_⟩
    simp only [Op.inferShape]
    split_ifs <;> exact Dense.unit_fills _
  · refine ⟨_, rfl, .of_count (Dense.wellFormed_ofFn _ _ _) ?_⟩
    simp only [Op.inferShape, List.headD_cons]
    split_ifs with hn
    · exact ⟨by simp [Dense.columnSums, hm2, Shape.cols_of_ndim_le_one hn, Shape.scalar],
        Shape.isPlain_scalar⟩
    · exact ⟨by simp [Dense.columnSums, hm2, Shape.vector], Shape.isPlain_vector ha.cols_pos⟩
  · refine ⟨_, rfl, .of_count (Dense.wellFormed_ofFn _ _ _) ?_⟩
    simp only [Op.Admits] at h
    simp only [Op.inferShape]
    split_ifs with hn
    · -- the condition keeps out a vector of several entries
      have hrows : a.rows = 1 := by
        rcases a with ⟨_ | ⟨p, _ | ⟨q, ds⟩⟩⟩ <;> simp_all [Shape.ndim, Shape.rows]
      exact ⟨by simp [Dense.rowSums, hm1, hrows, Shape.scalar], Shape.isPlain_scalar⟩
    · exact ⟨by simp [Dense.rowSums, hm1, Shape.vector], Shape.isPlain_vector ha.rows_pos⟩

lemma transpose_fills {a : Shape} {m : Dense} (hm : m.Stores a) (ha : a.IsPlain) :
    m.transpose.Fills a.transpose := by
  obtain ⟨hm1, hm2, _⟩ := hm
  refine .of_count (Dense.wellFormed_ofFn _ _ _) ?_
  obtain ⟨hlen, hpos⟩ := ha
  rcases a with ⟨_ | ⟨p, _ | ⟨q, _ | _⟩⟩⟩ <;>
    simp_all [Dense.transpose, Shape.transpose, Shape.rows, Shape.cols, Shape.IsPlain,
      Shape.matrix, Shape.scalar]

lemma diag_fills {a : Shape} {m : Dense} (hm : m.Stores a) (ha : a.IsPlain)
    (hfit : a.dims.prod < Shape.wordModulus) (h : Op.Admits .diag [a]) :
    m.diag.Fills (Op.inferShape .diag [a]) := by
  obtain ⟨hm1, hm2, _⟩ := hm
  simp only [Op.Admits] at h
  have hsize := Shape.size_eq_prod ha.prod_pos hfit
  obtain ⟨hlen, hpos⟩ := ha
  unfold Dense.diag
  split_ifs with hc <;> refine .of_count (Dense.wellFormed_ofFn _ _ _) ?_ <;>
    rcases a with ⟨_ | ⟨p, _ | ⟨q, _ | _⟩⟩⟩ <;>
    simp_all [Op.inferShape, Shape.ndim, Shape.rows, Shape.cols, Shape.IsPlain, Shape.matrix,
      Shape.vector, Shape.scalar]
  -- a column of one row, the only matrix of one column the condition leaves
  obtain rfl : p = 1 := by omega
  rfl

lemma reshape_fills {a s : Shape} {m : Dense} (hm : m.Stores a) (ha : a.IsPlain)
    (hfit : a.dims.prod < Shape.wordModulus) (hout : s.dims.prod < Shape.wordModulus)
    (h : s.IsPlain ∧ s.size = a.size) : m.Fills s := by
  refine ⟨hm.2.2, ?_, h.1⟩
  calc m.rows * m.cols = a.dims.prod := by rw [hm.1, hm.2.1, ha.prod_eq]
    _ = a.size := (Shape.size_eq_prod ha.prod_pos hfit).symm
    _ = s.size := h.2.symm
    _ = s.dims.prod := Shape.size_eq_prod h.1.prod_pos hout

lemma quadForm_fills {x p : Shape} {mx mp : Dense} (hx : mx.Stores x) (hp : mp.Stores p)
    (h : x.ndim = 1 ∧ p = .matrix x.rows x.rows) :
    ∃ m, Op.compute .quadForm [mx, mp] = .ok m ∧ m.Fills .scalar := by
  obtain ⟨hx1, hx2, _⟩ := hx
  obtain ⟨hp1, hp2, _⟩ := hp
  obtain ⟨hn, rfl⟩ := h
  have hc : mx.cols = 1 := hx2.trans (Shape.cols_of_ndim_le_one hn.le)
  have hok : ¬(mp.rows ≠ mx.rows ∨ mp.cols ≠ mx.rows) := by
    simp [hp1, hp2, hx1, Shape.matrix, Shape.rows, Shape.cols]
  obtain ⟨h1, h2, hw⟩ := Dense.mul_dims (mx.transpose.mul mp) mx
  refine ⟨_, by simp [Op.compute, hok], hw, ?_, Shape.isPlain_scalar⟩
  rw [h1, h2, (Dense.mul_dims _ _).1]
  simp [Dense.transpose, hc, Shape.scalar]

lemma quadOverLin_fills {y : Shape} {mx my : Dense} (hy : my.Stores y) (h : y.isOne = true) :
    ∃ m, Op.compute .quadOverLin [mx, my] = .ok m ∧ m.Fills .scalar := by
  obtain ⟨h1, h2⟩ := Shape.rows_cols_of_isOne h
  have hu : my.isUnit = true := Dense.isUnit_iff.2 ⟨hy.1.trans h1, hy.2.1.trans h2⟩
  exact ⟨Dense.unit (mx.normSquared / my.get 0 0), by simp [Op.compute, hu], Dense.unit_fills _⟩

/-- Every operator other than a custom one computes, over operands stored as their plain shapes
and admitted by it, a dense result that fills the shape inferred for it. -/
theorem Op.compute_fills {op : Op} {ss : List Shape} {ms : List Dense}
    (hms : List.Forall₂ Dense.Stores ms ss) (hplain : ∀ s ∈ ss, s.IsPlain)
    (hin : (ss.map (·.dims.prod)).sum < Shape.wordModulus)
    (hout : (op.inferShape ss).dims.prod < Shape.wordModulus) (hop : op.Admits ss) :
    ∃ m, op.compute ms = .ok m ∧ m.Fills (op.inferShape ss) := by
  -- each operand's count of entries fits on its own
  have hfit : ∀ s ∈ ss, s.dims.prod < Shape.wordModulus := fun s hs =>
    lt_of_le_of_lt (List.le_sum_of_mem (List.mem_map_of_mem (f := fun s => s.dims.prod) hs)) hin
  cases op
  -- operators over any number of operands
  case vstack => exact vstack_count hms hplain hin hop
  case hstack => exact hstack_count hms hplain hin hop
  case maximum | minimum =>
    rcases hms with _ | ⟨h₀, hrest⟩
    · exact absurd rfl hop.1
    · exact foldlM_broadcastWith_fills _ h₀ hrest hplain hop.2
  case custom => simp [Op.Admits] at hop
  -- the payload decides the condition for these two
  case sum axis =>
    rcases axis with _ | k <;> rcases ss with _ | ⟨a, _ | ⟨b, _⟩⟩ <;> simp only [Op.Admits] at hop
    all_goals
      obtain ⟨m, rfl, hm⟩ := Dense.Stores.singleton hms
      exact sum_fills hm (hplain a (by simp)) hop
  case index ranges =>
    rcases ss with _ | ⟨a, _ | ⟨b, _⟩⟩
    · rcases ranges with _ | ⟨r, _ | ⟨c, _⟩⟩ <;> simp [Op.Admits] at hop
    · obtain ⟨m, rfl, hm⟩ := Dense.Stores.singleton hms
      exact index_count hm (hplain a (by simp)) (hfit a (by simp)) hop
    · rcases ranges with _ | ⟨r, _ | ⟨c, _⟩⟩ <;> simp [Op.Admits] at hop
  -- the rest take a fixed number of operands
  all_goals rcases ss with _ | ⟨a, _ | ⟨b, _ | ⟨c, rest⟩⟩⟩ <;> simp only [Op.Admits] at hop
  case add | mul =>
    obtain ⟨ma, mb, rfl, ha, hb⟩ := Dense.Stores.pair hms
    exact broadcastWith_fills _ ha hb (hplain a (by simp)) (hplain b (by simp)) hop
  case matmul =>
    obtain ⟨ma, mb, rfl, ha, hb⟩ := Dense.Stores.pair hms
    exact matmul_count ha hb (hplain a (by simp)) (hplain b (by simp)) hop
  case quadForm =>
    obtain ⟨ma, mb, rfl, ha, hb⟩ := Dense.Stores.pair hms
    exact quadForm_fills ha hb hop
  case quadOverLin =>
    obtain ⟨ma, mb, rfl, ha, hb⟩ := Dense.Stores.pair hms
    exact quadOverLin_fills hb hop
  all_goals obtain ⟨m, rfl, hm⟩ := Dense.Stores.singleton hms
  case reshape s => exact ⟨_, rfl, reshape_fills hm (hplain a (by simp)) (hfit a (by simp)) hout hop⟩
  case transpose => exact ⟨_, rfl, transpose_fills hm (hplain a (by simp))⟩
  case diag => exact ⟨_, rfl, diag_fills hm (hplain a (by simp)) (hfit a (by simp)) hop⟩
  case cumsum axis => exact ⟨_, rfl, (Dense.cumsum_stores hm _).fills (hplain a (by simp))⟩
  -- the elementwise atoms keep their operand's shape
  case neg | abs | pos | negPart | exp | log | entropy | power =>
    exact ⟨_, rfl, (Dense.stores_map.2 hm).fills (hplain a (by simp))⟩
  -- and the reductions give a number
  case trace | norm1 | norm2 | normInf | sumSquares => exact ⟨_, rfl, Dense.unit_fills _⟩

/-! ### Laying out the result -/

lemma Value.ofDense_fills {m : Dense} {s : Shape} (h : m.Fills s)
    (hfit : s.dims.prod < Shape.wordModulus) :
    ∃ v, Value.ofDense m s = .ok v ∧ v.HasDims s ∧ ((∃ x, v = .scalar x) ↔ s.isScalar = true) := by
  obtain ⟨hw, hc, hp⟩ := h
  have hsize : m.rows * m.cols = s.size := by rw [hc, Shape.size_eq_prod hp.prod_pos hfit]
  have hstore : s.rows * s.cols = m.rows * m.cols := by rw [hc, hp.prod_eq]
  by_cases hs : s.isScalar = true
  · -- the scalar shape: one row, one column
    have hnil : s.dims = [] := List.isEmpty_iff.1 hs
    have hone : s.rows = 1 ∧ s.cols = 1 := by simp [Shape.rows, Shape.cols, hnil]
    exact ⟨.scalar (m.get 0 0), by simp [Value.ofDense, hsize, hs],
      ⟨by simp [Value.dims, hone.1, hone.2], by simp⟩, by simp [hs]⟩
  by_cases hd : m.rows = s.rows ∧ m.cols = s.cols
  · exact ⟨.dense m, by simp [Value.ofDense, hs, hd, hstore.trans hsize],
      ⟨by simp [Value.dims, hd.1, hd.2], fun m' h' => by cases h'; exact hw⟩, by simp [hs]⟩
  · -- the entries reread as the shape's rows and columns
    refine ⟨.dense ⟨s.rows, s.cols, m.data⟩, by simp [Value.ofDense, hsize, hs, hd, hstore],
      ⟨rfl, fun m' h' => ?_⟩, by simp [hs]⟩
    cases h'
    show m.data.size = s.rows * s.cols
    rw [hw, hstore]

/-- Shape inference is the shape of evaluation: an operator other than a custom one, over
operands' values laid out as their plain shapes and admitted by it, evaluates to an array laid
out as the shape inferred for it, a number exactly when that shape is the scalar shape, as long
as the counts of entries fit in a word. -/
theorem Op.apply_inferred_dims (op : Op) (ss : List Shape) (vals : List Value)
    (hplain : ∀ s ∈ ss, s.IsPlain) (hvals : List.Forall₂ Value.HasDims vals ss)
    (hin : (ss.map (·.dims.prod)).sum < Shape.wordModulus)
    (hout : (op.inferShape ss).dims.prod < Shape.wordModulus) (hop : op.Admits ss) :
    ∃ v, op.apply vals (op.inferShape ss) = .ok v ∧ v.HasDims (op.inferShape ss) ∧
      ((∃ x, v = .scalar x) ↔ (op.inferShape ss).isScalar = true) := by
  have hms : List.Forall₂ Dense.Stores (vals.map Value.toDense) ss :=
    List.forall₂_map_left_iff.2 (hvals.imp fun _ _ h => h.toDense)
  obtain ⟨m, hm, hfills⟩ := Op.compute_fills hms hplain hin hout hop
  obtain ⟨v, hv, hdims⟩ := Value.ofDense_fills hfills hout
  refine ⟨v, ?_, hdims⟩
  unfold Op.apply
  split
  · -- a custom operator admits no operands
    simp [Op.Admits] at hop
  · rw [hm]
    exact hv

def pairColumn : Value := Value.ofList [1, 2]

def sixBlock : Value := .dense ⟨2, 3, #[1, 2, 3, 4, 5, 6]⟩

theorem Op.apply_inferred_dims_rowTimesBlock :
    (∀ s ∈ [Shape.vector 2, Shape.matrix 2 3], s.IsPlain) ∧
    List.Forall₂ Value.HasDims [pairColumn, sixBlock] [Shape.vector 2, Shape.matrix 2 3] ∧
    ([Shape.vector 2, Shape.matrix 2 3].map (·.dims.prod)).sum < Shape.wordModulus ∧
    (Op.matmul.inferShape [Shape.vector 2, Shape.matrix 2 3]).dims.prod < Shape.wordModulus ∧
    Op.matmul.Admits [Shape.vector 2, Shape.matrix 2 3] ∧
    ∃ v, Op.matmul.apply [pairColumn, sixBlock]
        (Op.matmul.inferShape [Shape.vector 2, Shape.matrix 2 3]) = .ok v ∧
      v.HasDims (Op.matmul.inferShape [Shape.vector 2, Shape.matrix 2 3]) ∧
      ((∃ x, v = .scalar x) ↔
        (Op.matmul.inferShape [Shape.vector 2, Shape.matrix 2 3]).isScalar = true) := by
  have hplain : ∀ s ∈ [Shape.vector 2, Shape.matrix 2 3], s.IsPlain := by
    simp [Shape.IsPlain, Shape.vector, Shape.matrix]
  have hvals : List.Forall₂ Value.HasDims [pairColumn, sixBlock] [Shape.vector 2, Shape.matrix 2 3] := by
    simp [Value.HasDims, pairColumn, sixBlock, Value.ofList, Value.dims, Dense.column,
      Dense.WellFormed, Shape.vector, Shape.matrix, Shape.rows, Shape.cols]
  have hin : ([Shape.vector 2, Shape.matrix 2 3].map (·.dims.prod)).sum < Shape.wordModulus := by
    decide
  have hout : (Op.matmul.inferShape [Shape.vector 2, Shape.matrix 2 3]).dims.prod <
      Shape.wordModulus := by
    decide
  have hop : Op.matmul.Admits [Shape.vector 2, Shape.matrix 2 3] := rfl
  exact ⟨hplain, hvals, hin, hout, hop, Op.apply_inferred_dims _ _ _ hplain hvals hin hout hop⟩

/-- Broadcasting is what shape inference asks of a sum's operands, and it is less than what the
sum needs: a `2 × 3` matrix and a vector of three, stored as their shapes, broadcast to `2 × 3`,
and their sum fails. -/
theorem add_broadcast_fails :
    (Shape.matrix 2 3).IsPlain ∧ (Shape.vector 3).IsPlain ∧
    Value.HasDims sixBlock (.matrix 2 3) ∧ Value.HasDims (Value.ofList [1, 2, 3]) (.vector 3) ∧
    (Shape.matrix 2 3).broadcast (.vector 3) = some (.matrix 2 3) ∧
    ∃ e, Op.add.apply [sixBlock, Value.ofList [1, 2, 3]]
      (Op.add.inferShape [.matrix 2 3, .vector 3]) = .error e := by
  refine ⟨by simp [Shape.IsPlain, Shape.matrix], by simp [Shape.IsPlain, Shape.vector], ?_, ?_,
    by decide, _, rfl⟩
  · simp [Value.HasDims, sixBlock, Value.dims, Dense.WellFormed, Shape.matrix, Shape.rows,
      Shape.cols]
  · simp [Value.HasDims, Value.ofList, Value.dims, Dense.column, Dense.WellFormed, Shape.vector,
      Shape.rows, Shape.cols]

end ConicForm
