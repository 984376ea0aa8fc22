import Mathlib
import ConicForm.Proofs.IdMap
import ConicForm.Canon.Inverse
/-!
Where each variable of a problem sits in the stacked vector. The record lays the variables out
in increasing id order, each over its size, with offsets and length counted modulo 2^64
(`variable_layout`); while the total fits in the word the blocks follow one another inside the
vector, and seventeen variables of the largest shape overflow it (`layout_wraps_past_word`).
-/

namespace ConicForm

/-! ### Consecutive blocks -/

lemma blockOffsets_cons (start id n : Nat) (rest : List (Nat × Nat)) :
    blockOffsets start ((id, n) :: rest) =
      ((id, start) :: (blockOffsets ((start + n) % Shape.wordModulus) rest).1,
        (blockOffsets ((start + n) % Shape.wordModulus) rest).2) := rfl

lemma blockOffsets_keys (start : Nat) (bs : List (Nat × Nat)) :
    (blockOffsets start bs).1.map (·.1) = bs.map (·.1) := by
  induction bs generalizing start with
  | nil => rfl
  | cons b bs ih =>
    obtain ⟨id, n⟩ := b
    simp [blockOffsets_cons, ih]

/-- Each block starts where the blocks before it end, modulo 2^64. -/
lemma blockOffsets_getElem? {start : Nat} (hs : start < Shape.wordModulus)
    (bs : List (Nat × Nat)) {k : Nat} (hk : k < bs.length) :
    (blockOffsets start bs).1[k]? =
      some (bs[k].1, (start + ((bs.take k).map (·.2)).sum) % Shape.wordModulus) := by
  induction bs generalizing start k with
  | nil => simp at hk
  | cons b bs ih =>
    obtain ⟨id, n⟩ := b
    cases k with
    | zero => simp [blockOffsets_cons, Nat.mod_eq_of_lt hs]
    | succ k =>
      -- the rest is laid out from the wrapped end of the first block
      rw [blockOffsets_cons, List.getElem?_cons_succ,
        ih (Nat.mod_lt _ (by decide)) (by simpa using hk)]
      simp [Nat.mod_add_mod, Nat.add_assoc]

lemma blockOffsets_end {start : Nat} (hs : start < Shape.wordModulus) (bs : List (Nat × Nat)) :
    (blockOffsets start bs).2 = (start + (bs.map (·.2)).sum) % Shape.wordModulus := by
  induction bs generalizing start with
  | nil => simp [blockOffsets, Nat.mod_eq_of_lt hs]
  | cons b bs ih =>
    obtain ⟨id, n⟩ := b
    rw [blockOffsets_cons, ih (Nat.mod_lt _ (by decide))]
    simp [Nat.mod_add_mod, Nat.add_assoc]

lemma sum_take_add_le {sizes : List Nat} {j k : Nat} (hj : j < sizes.length) (hjk : j < k) :
    (sizes.take j).sum + sizes[j] ≤ (sizes.take k).sum := by
  rw [← List.sum_take_succ sizes j hj]
  exact List.monotone_sum_take sizes hjk

lemma sum_take_le_sum (sizes : List Nat) (k : Nat) : (sizes.take k).sum ≤ sizes.sum := by
  rw [← List.sum_take_add_sum_drop sizes k]
  exact Nat.le_add_right _ _

/-! ### Sizes of shapes -/

namespace Shape

lemma one_le_size (s : Shape) : 1 ≤ s.size := le_max_right _ _

lemma size_eq_max_prod {s : Shape} (h : s.dims.prod < wordModulus) :
    s.size = max s.dims.prod 1 := by
  rw [size, ← List.prod_eq_foldl_nat, Nat.mod_eq_of_lt h]

lemma prod_le_of_within {s : Shape} (hn : s.dims.length ≤ 3)
    (hd : ∀ d ∈ s.dims, d ≤ 1048576) : s.dims.prod ≤ 1152921504606846976 :=
  calc s.dims.prod ≤ 1048576 ^ s.dims.length := List.prod_le_pow_card _ _ hd
    _ ≤ 1048576 ^ 3 := Nat.pow_le_pow_right (by decide) hn
    _ = 1152921504606846976 := by norm_num

lemma size_of_within {s : Shape} (hn : s.dims.length ≤ 3) (hd : ∀ d ∈ s.dims, d ≤ 1048576) :
    s.size = max s.dims.prod 1 :=
  size_eq_max_prod (lt_of_le_of_lt (prod_le_of_within hn hd) (by decide))

end Shape

/-! ### The layout of a problem -/

lemma IdMap.find?_of_getElem? {α : Type} {m : IdMap α} (hm : m.keys.Nodup) (k : Nat) {a : Nat}
    {b : α} (h : m[k]? = some (a, b)) : m.find? a = some b :=
  (lookup_eq_some_iff_mem hm).2 (List.mem_of_getElem? h)

lemma IdMap.ofList_of_sorted {α : Type} {xs : List (Nat × α)} (h : xs.Pairwise (·.1 < ·.1)) :
    IdMap.ofList xs = xs := by
  have hnodup : (xs.map (·.1)).Nodup := by
    rw [List.nodup_iff_pairwise_ne, List.pairwise_map]
    exact h.imp Nat.ne_of_lt
  rw [IdMap.ofList_of_nodup hnodup]
  exact List.mergeSort_of_pairwise (h.imp fun hab => by simpa using Nat.le_of_lt hab)

lemma Problem.variableShapes_of_sorted {P : Problem}
    (h : ((P.roots.flatMap Expr.preorder).filter (·.isVariable)).Pairwise (·.id < ·.id)) :
    P.variableShapes =
      ((P.roots.flatMap Expr.preorder).filter (·.isVariable)).map fun e => (e.id, e.shape) :=
  IdMap.ofList_of_sorted (List.pairwise_map.2 h)

namespace InverseData

lemma ofProblem_varOffsets (P : Problem) :
    (ofProblem P).varOffsets =
      (blockOffsets 0 (P.variableShapes.map fun v => (v.1, v.2.size))).1 := rfl

lemma ofProblem_xLength (P : Problem) :
    (ofProblem P).xLength = (blockOffsets 0 (P.variableShapes.map fun v => (v.1, v.2.size))).2 :=
  rfl

lemma variableShapes_pairwise (P : Problem) : P.variableShapes.Pairwise (·.1 < ·.1) :=
  IdMap.ofList_pairwise_lt _

lemma mem_keys_variableShapes (P : Problem) (k : Nat) :
    k ∈ P.variableShapes.keys ↔
      ∃ e ∈ P.roots.flatMap Expr.preorder, e.isVariable = true ∧ e.id = k := by
  rw [Problem.variableShapes, IdMap.mem_keys_ofList_iff]
  simp [and_assoc]

lemma ofProblem_varOffsets_keys (P : Problem) :
    (ofProblem P).varOffsets.keys = P.variableShapes.keys := by
  rw [ofProblem_varOffsets, IdMap.keys, blockOffsets_keys, List.map_map]
  rfl

lemma ofProblem_xLength_eq (P : Problem) :
    (ofProblem P).xLength = (P.variableShapes.map (·.2.size)).sum % Shape.wordModulus := by
  rw [ofProblem_xLength, blockOffsets_end (by decide), Nat.zero_add, List.map_map]
  rfl

lemma ofProblem_find?_varOffsets (P : Problem) {k : Nat} (hk : k < P.variableShapes.length) :
    (ofProblem P).varOffsets.find? P.variableShapes[k].1 =
      some (((P.variableShapes.take k).map (·.2.size)).sum % Shape.wordModulus) := by
  have hnodup : (ofProblem P).varOffsets.keys.Nodup :=
    (ofProblem_varOffsets_keys P) ▸ IdMap.keys_ofList_nodup _
  refine IdMap.find?_of_getElem? hnodup k ?_
  rw [ofProblem_varOffsets, blockOffsets_getElem? (by decide) _ (by simpa using hk)]
  simp [List.map_take, Function.comp_def]

section Fit

variable {P : Problem} (hfit : (P.variableShapes.map (·.2.size)).sum < Shape.wordModulus)
include hfit

lemma ofProblem_find?_of_fit {i : Nat} (hi : i < P.variableShapes.length) :
    (ofProblem P).varOffsets.find? P.variableShapes[i].1 =
      some ((P.variableShapes.map (·.2.size)).take i).sum := by
  have hle : ((P.variableShapes.take i).map (·.2.size)).sum ≤
      (P.variableShapes.map (·.2.size)).sum := by
    rw [List.map_take]
    exact sum_take_le_sum _ i
  rw [ofProblem_find?_varOffsets P hi, Nat.mod_eq_of_lt (lt_of_le_of_lt hle hfit), List.map_take]

/-- While the sizes fit in the word, every block has an entry, ends inside the vector, and ends
before any later block starts. -/
lemma ofProblem_blocks_of_fit {j k : Nat} (hj : j < P.variableShapes.length)
    (hk : k < P.variableShapes.length) {oj ok : Nat}
    (hoj : (ofProblem P).varOffsets.find? P.variableShapes[j].1 = some oj)
    (hok : (ofProblem P).varOffsets.find? P.variableShapes[k].1 = some ok) :
    0 < P.variableShapes[k].2.size ∧ ok + P.variableShapes[k].2.size ≤ (ofProblem P).xLength ∧
      (j < k → oj + P.variableShapes[j].2.size ≤ ok) := by
  -- the offsets are the sums of the sizes before them, which `sum_take_add_le` orders
  set sizes := P.variableShapes.map (·.2.size) with hsizes
  obtain rfl : oj = (sizes.take j).sum :=
    Option.some.inj (hoj.symm.trans (ofProblem_find?_of_fit hfit hj))
  obtain rfl : ok = (sizes.take k).sum :=
    Option.some.inj (hok.symm.trans (ofProblem_find?_of_fit hfit hk))
  have hjlen : j < sizes.length := by simpa [hsizes] using hj
  have hklen : k < sizes.length := by simpa [hsizes] using hk
  refine ⟨Shape.one_le_size _, ?_, fun hjk => ?_⟩
  · rw [ofProblem_xLength_eq, Nat.mod_eq_of_lt hfit]
    calc (sizes.take k).sum + P.variableShapes[k].2.size = (sizes.take k).sum + sizes[k] := by
          simp [hsizes]
      _ ≤ (sizes.take sizes.length).sum := sum_take_add_le hklen hklen
      _ = sizes.sum := by rw [List.take_length]
  · simpa [hsizes] using sum_take_add_le hjlen hjk

end Fit

end InverseData

/-- **The variable layout.** For every problem, the record lays the variables out in increasing
id order, each id once, exactly the variables that occur in the problem's trees. Each variable's
block starts at the sum of the sizes of the variables before it, and the vector's length is the
sum of all sizes, both counted modulo 2^64. When that sum fits in the word, nothing wraps: every
block has at least one entry, ends inside the vector, and ends before any later block starts,
so the blocks are disjoint. The size of a shape within the limits of at most three dimensions
of at most 2^20 each is its product of dimensions, or one when that is zero. -/
theorem variable_layout (P : Problem) :
    let D := InverseData.ofProblem P
    let vs := P.variableShapes
    (vs.Pairwise (·.1 < ·.1) ∧
      ∀ k, k ∈ vs.keys ↔ ∃ e ∈ P.roots.flatMap Expr.preorder, e.isVariable = true ∧ e.id = k) ∧
    D.varShapes = vs ∧ D.varOffsets.keys = vs.keys ∧
    (∀ (k : Nat) (hk : k < vs.length),
      D.varOffsets.find? vs[k].1 = some (((vs.take k).map (·.2.size)).sum % Shape.wordModulus)) ∧
    D.xLength = (vs.map (·.2.size)).sum % Shape.wordModulus ∧
    ((vs.map (·.2.size)).sum < Shape.wordModulus →
      ∀ (j k : Nat) (hj : j < vs.length) (hk : k < vs.length) (oj ok : Nat),
        D.varOffsets.find? vs[j].1 = some oj → D.varOffsets.find? vs[k].1 = some ok →
        0 < vs[k].2.size ∧ ok + vs[k].2.size ≤ D.xLength ∧ (j < k → oj + vs[j].2.size ≤ ok)) ∧
    ∀ s : Shape, s.dims.length ≤ 3 → (∀ d ∈ s.dims, d ≤ 1048576) →
      s.size = max s.dims.prod 1 := by
  intro D vs
  exact ⟨⟨InverseData.variableShapes_pairwise P, InverseData.mem_keys_variableShapes P⟩, rfl,
    InverseData.ofProblem_varOffsets_keys P, fun k hk => InverseData.ofProblem_find?_varOffsets P hk,
    InverseData.ofProblem_xLength_eq P,
    fun hfit j k hj hk oj ok hoj hok => InverseData.ofProblem_blocks_of_fit hfit hj hk hoj hok,
    fun s hn hd => Shape.size_of_within hn hd⟩

/-- Maximize the sum of `x ∈ ℝ³` subject to `y ≤ 1·p` for `y ∈ ℝ²ˣ²`. -/
def vectorAndSquare : Problem :=
  let x : Expr := .var 0 ⟨.vector 3, none, false, false⟩
  let y : Expr := .var 1 ⟨.matrix 2 2, none, false, false⟩
  let p : Expr := .param 4 ⟨.scalar, none, 4⟩
  ⟨⟨.maximize, .node 2 (.sum none) [x] .scalar false false⟩,
    [⟨6, .inequality y (.node 5 .mul [.const 3 (.scalar 1) .scalar, p] .scalar true true)⟩]⟩

def largestCube : Shape := ⟨[1048576, 1048576, 1048576]⟩

/-- `x ∈ ℝ³` and `y ∈ ℝ²ˣ²` fill a vector of seven entries: the sizes sum to 7, which fits
the word, so `y`'s block from 3 ends inside the vector and `x`'s block from 0 ends where `y`'s
starts; and the largest shape within the limits has 2^60 entries. -/
theorem variable_layout_vectorAndSquare :
    (vectorAndSquare.variableShapes.map (·.2.size)).sum < Shape.wordModulus ∧
      3 + (Shape.matrix 2 2).size ≤ (InverseData.ofProblem vectorAndSquare).xLength ∧
      0 + (Shape.vector 3).size ≤ 3 ∧
      largestCube.size = 1152921504606846976 := by
  have hvs : vectorAndSquare.variableShapes = [(0, .vector 3), (1, .matrix 2 2)] := by
    rw [Problem.variableShapes_of_sorted (by decide +kernel)]
    decide +kernel
  have hfit : (vectorAndSquare.variableShapes.map (·.2.size)).sum < Shape.wordModulus := by
    rw [hvs]
    decide
  have hoffs : (InverseData.ofProblem vectorAndSquare).varOffsets = [(0, 0), (1, 3)] := by
    rw [InverseData.ofProblem_varOffsets, hvs]
    decide
  obtain ⟨-, hend, hdisj⟩ := (variable_layout vectorAndSquare).2.2.2.2.2.1 hfit 0 1
    (by rw [hvs]; decide) (by rw [hvs]; decide) 0 3 (by simp [hoffs, hvs, IdMap.find?])
    (by simp [hoffs, hvs, IdMap.find?, List.lookup])
  refine ⟨hfit, by simpa [hvs] using hend, by simpa [hvs] using hdisj Nat.zero_lt_one, ?_⟩
  rw [(variable_layout vectorAndSquare).2.2.2.2.2.2 largestCube (by decide) (by decide)]
  decide

/-- Minimize the stack of seventeen variables of the largest shape within the limits, with ids
1 to 17. -/
def seventeenCubes : Problem :=
  ⟨⟨.minimize, .node 18 .vstack
    ((List.range 17).map fun i => .var (i + 1) ⟨largestCube, none, false, false⟩)
    (Op.vstack.inferShape (List.replicate 17 largestCube)) false false⟩, []⟩

/-- Seventeen variables of the largest shape within the limits overflow the word: the sizes sum
to 17·2^60, but the last block starts at 0 again, over the first one, and not at 16·2^60 where
the block before it ends; the vector's length is 2^60. -/
theorem layout_wraps_past_word :
    (seventeenCubes.variableShapes.map (·.2.size)).sum = 19599665578316398592 ∧
      (InverseData.ofProblem seventeenCubes).varOffsets.find? 1 = some 0 ∧
      (InverseData.ofProblem seventeenCubes).varOffsets.find? 16 = some 17293822569102704640 ∧
      (InverseData.ofProblem seventeenCubes).varOffsets.find? 17 = some 0 ∧
      (InverseData.ofProblem seventeenCubes).xLength = 1152921504606846976 := by
  have hvs : seventeenCubes.variableShapes =
      (List.range 17).map fun i => (i + 1, largestCube) := by
    rw [Problem.variableShapes_of_sorted (by decide +kernel)]
    decide +kernel
  rw [InverseData.ofProblem_varOffsets, InverseData.ofProblem_xLength, hvs]
  decide +kernel

end ConicForm
