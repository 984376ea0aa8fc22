import Mathlib.Tactic.Lemma
import ConicForm.Problem
import ConicForm.Proofs.IdMap
/-!
The pre-order iterator, and the ids and shapes collected from it. A stack whose top part is `t`
yields what `t` alone yields and then what the rest yields, so the iterator over a tree yields
the tree and then the pre-orders of its operands (`Expr.preorder_eq`). The ids collected from
it increase strictly and are exactly those of the nodes met (`ListsIds`), and a problem's maps
of shapes keep the last node met with an id (`MapsShapes`); `descendants_preorder` gathers these.
-/

namespace ConicForm

/-! ### The iterator -/

namespace Descendants

lemma collect_of_next?_none {it : Descendants} (h : it.next? = none) (acc : Array Expr) :
    it.collect acc = acc := by
  rw [collect]
  split
  · rfl
  · rename_i h'
    rw [h] at h'
    cases h'

lemma collect_of_next?_some {it rest : Descendants} {node : Expr}
    (h : it.next? = some (node, rest)) (acc : Array Expr) :
    it.collect acc = rest.collect (acc.push node) := by
  rw [collect]
  split
  · rename_i h'
    rw [h] at h'
    cases h'
  · rename_i h'
    rw [h] at h'
    cases h'
    rfl

lemma next?_eq_none_iff {it : Descendants} : it.next? = none ↔ it.stack = #[] := by
  rw [← Array.back?_eq_none_iff]
  unfold next?
  split <;> simp_all

lemma next?_append {below : Array Expr} {it rest : Descendants} {node : Expr}
    (h : it.next? = some (node, rest)) :
    (⟨below ++ it.stack⟩ : Descendants).next? = some (node, ⟨below ++ rest.stack⟩) := by
  unfold next? at h ⊢
  split at h
  · cases h
  · rename_i hback
    cases h
    have hne : it.stack ≠ #[] := by
      rintro hnil
      simp [hnil] at hback
    simp [Array.back?_append, hback, hne]

lemma collect_append (below : Array Expr) (it : Descendants) (acc : Array Expr) :
    (⟨below ++ it.stack⟩ : Descendants).collect acc =
      (⟨below⟩ : Descendants).collect (it.collect acc) := by
  induction it, acc using collect.induct with
  | case1 it acc h =>
    rw [collect_of_next?_none h, next?_eq_none_iff.1 h, Array.append_empty]
  | case2 it acc node rest h ih =>
    rw [collect_of_next?_some (next?_append h), ih, collect_of_next?_some h]

lemma collect_append_acc (it : Descendants) (before acc : Array Expr) :
    it.collect (before ++ acc) = before ++ it.collect acc := by
  induction it, acc using collect.induct with
  | case1 it acc h => rw [collect_of_next?_none h, collect_of_next?_none h]
  | case2 it acc node rest h ih =>
    rw [collect_of_next?_some h, collect_of_next?_some h, ← ih, Array.push_append]

lemma collect_toList (it : Descendants) (acc : Array Expr) :
    (it.collect acc).toList = acc.toList ++ (it.collect #[]).toList := by
  rw [← Array.toList_append, ← collect_append_acc, Array.append_empty]

lemma collect_reverse (trees : List Expr) (acc : Array Expr) :
    ((⟨trees.reverse.toArray⟩ : Descendants).collect acc).toList =
      acc.toList ++ trees.flatMap Expr.preorder := by
  induction trees generalizing acc with
  | nil => simp [collect_of_next?_none (next?_eq_none_iff.2 rfl)]
  | cons e trees ih =>
    -- the first tree is on top of the others
    have hsplit : (e :: trees).reverse.toArray = trees.reverse.toArray ++ e.descendants.stack := by
      simp [Expr.descendants]
    rw [hsplit, collect_append, ih, collect_toList]
    simp [Expr.preorder]

end Descendants

namespace Expr

/-- The pre-order of a tree: the tree, then the pre-orders of its operands from left to right. -/
lemma preorder_eq (e : Expr) : e.preorder = e :: e.args.flatMap preorder := by
  have hstep : e.descendants.next? = some (e, ⟨e.args.reverse.toArray⟩) := by
    simp [descendants, Descendants.next?]
  rw [preorder, Descendants.collect_of_next?_some hstep, Descendants.collect_reverse]
  rfl

@[simp] lemma preorder_node (i : Nat) (op : Op) (args : List Expr) (s : Shape) (c h : Bool) :
    (node i op args s c h).preorder = node i op args s c h :: args.flatMap preorder :=
  preorder_eq _

lemma preorder_of_not_node {e : Expr}
    (h : ∀ i op args s c p, e = .node i op args s c p → False) : e.preorder = [e] := by
  rw [preorder_eq]
  cases e
  case node i op args s c p => exact (h i op args s c p rfl).elim
  all_goals rfl

@[simp] lemma preorder_var (i : Nat) (v : VarInfo) : (var i v).preorder = [var i v] :=
  preorder_of_not_node (by simp)

@[simp] lemma preorder_const (i : Nat) (v : Value) (s : Shape) :
    (const i v s).preorder = [const i v s] :=
  preorder_of_not_node (by simp)

@[simp] lemma preorder_deferred (i : Nat) (s : Shape) (body : Expr) :
    (deferred i s body).preorder = [deferred i s body] :=
  preorder_of_not_node (by simp)

lemma mem_preorder_self (e : Expr) : e ∈ e.preorder := by
  rw [preorder_eq]
  exact List.mem_cons_self

end Expr

/-- The iterator yields the pre-orders of the trees on its stack, from the top down. -/
lemma Descendants.collect_eq (it : Descendants) (acc : Array Expr) :
    (it.collect acc).toList = acc.toList ++ it.stack.toList.reverse.flatMap Expr.preorder := by
  simpa using collect_reverse it.stack.toList.reverse acc

/-! ### Sorted ids -/

namespace Expr

lemma dedupRuns_sublist : ∀ l : List Nat, (dedupRuns l).Sublist l
  | [] => by simp [dedupRuns]
  | [_] => by simp [dedupRuns]
  | a :: b :: rest => by
    rw [dedupRuns]
    split
    · exact (dedupRuns_sublist (b :: rest)).cons a
    · exact (dedupRuns_sublist (b :: rest)).cons_cons a

lemma mem_dedupRuns : ∀ (l : List Nat) (k : Nat), k ∈ dedupRuns l ↔ k ∈ l
  | [], _ => by simp [dedupRuns]
  | [_], _ => by simp [dedupRuns]
  | a :: b :: rest, k => by
    rw [dedupRuns]
    split
    · -- `a` gives way to `b`, which is the same number
      rename_i hab
      rw [mem_dedupRuns (b :: rest) k, hab]
      simp
    · simp only [List.mem_cons, mem_dedupRuns (b :: rest) k]

lemma dedupRuns_pairwise : ∀ {l : List Nat}, l.Pairwise (· ≤ ·) → (dedupRuns l).Pairwise (· < ·)
  | [], _ => by simp [dedupRuns]
  | [_], _ => by simp [dedupRuns]
  | a :: b :: rest, h => by
    rw [dedupRuns]
    split
    · exact dedupRuns_pairwise h.of_cons
    · rename_i hab
      refine List.pairwise_cons.2 ⟨fun c hc => ?_, dedupRuns_pairwise h.of_cons⟩
      -- `c` is `b` or comes after it, and `a` is strictly before `b`
      have hab' : a < b := Nat.lt_of_le_of_ne (List.rel_of_pairwise_cons h (by simp)) hab
      rcases List.mem_cons.1 ((dedupRuns_sublist (b :: rest)).subset hc) with rfl | hc
      · exact hab'
      · exact Nat.lt_of_lt_of_le hab' (List.rel_of_pairwise_cons h.of_cons hc)

lemma sortedIds_pairwise (ids : List Nat) : (sortedIds ids).Pairwise (· < ·) := by
  have hsorted : (ids.mergeSort (· ≤ ·)).Pairwise (· ≤ ·) := by
    simpa using @List.pairwise_mergeSort _ (fun a b => decide (a ≤ b))
      (fun a b c hab hbc => by simp at *; omega) (fun a b => by simp; omega) ids
  exact dedupRuns_pairwise hsorted

lemma mem_sortedIds (ids : List Nat) (k : Nat) : k ∈ sortedIds ids ↔ k ∈ ids := by
  rw [sortedIds, mem_dedupRuns, List.mem_mergeSort]

end Expr

/-- `ids` lists, strictly increasing, the ids of the nodes among `nodes` that `keep` picks. -/
def ListsIds (ids : List Nat) (keep : Expr → Bool) (nodes : List Expr) : Prop :=
  ids.Pairwise (· < ·) ∧ ∀ k, k ∈ ids ↔ ∃ n ∈ nodes, keep n = true ∧ n.id = k

/-- `m` holds, in strictly increasing id order, the ids of the nodes among `nodes` that `keep`
picks, each with the shape of the last of them with that id. -/
def MapsShapes (m : IdMap Shape) (keep : Expr → Bool) (nodes : List Expr) : Prop :=
  m.Pairwise (·.1 < ·.1) ∧
    ∀ k, m.find? k = (nodes.filter fun n => keep n && n.id == k).getLast?.map (·.shape)

lemma listsIds_sortedIds (keep : Expr → Bool) (nodes : List Expr) :
    ListsIds (Expr.sortedIds ((nodes.filter keep).map (·.id))) keep nodes := by
  refine ⟨Expr.sortedIds_pairwise _, fun k => ?_⟩
  rw [Expr.mem_sortedIds]
  simp [and_assoc]

lemma listsIds_flatMap {keep : Expr → Bool} {ids : Expr → List Nat}
    (h : ∀ e, ListsIds (ids e) keep e.preorder) (es : List Expr) :
    ListsIds (Expr.sortedIds (es.flatMap ids)) keep (es.flatMap Expr.preorder) := by
  refine ⟨Expr.sortedIds_pairwise _, fun k => ?_⟩
  simp only [Expr.mem_sortedIds, List.mem_flatMap, (h _).2 k]
  constructor
  · rintro ⟨e, he, n, hn, hkeep⟩
    exact ⟨n, ⟨e, he, hn⟩, hkeep⟩
  · rintro ⟨n, ⟨e, he, hn⟩, hkeep⟩
    exact ⟨e, he, n, hn, hkeep⟩

lemma mapsShapes_ofList (keep : Expr → Bool) (nodes : List Expr) :
    MapsShapes (IdMap.ofList ((nodes.filter keep).map fun e => (e.id, e.shape))) keep nodes := by
  refine ⟨IdMap.ofList_pairwise_lt _, fun k => ?_⟩
  rw [IdMap.find?_ofList_last, List.filter_map, List.filter_filter, List.getLast?_map,
    Option.map_map]
  simp [Function.comp_def, Bool.and_comm]

lemma Problem.roots_flatMap_preorder (P : Problem) :
    P.roots.flatMap Expr.preorder =
      P.objective.expr.preorder ++ P.constraints.flatMap fun c => c.args.flatMap Expr.preorder := by
  simp [Problem.roots, List.flatMap_assoc]

/-- **The pre-order iterator, and what is collected from it.** The iterator over any stack
yields the pre-orders of the trees on it, from the top down; so the iterator over a tree yields
the tree, then the pre-orders of its operands from left to right, a shared subtree once for
each place it occurs (by induction on trees, this equation fixes the list). It ends, each step
yielding one of the nodes still to come. The variable ids and the parameter ids of a tree, and
of the operands of a constraint, are strictly increasing and are exactly the ids of the
variable or parameter nodes met. A problem maps exactly the ids of the variables, and of the
parameters, of its objective and of its constraints' operands, in increasing order, each to
the shape of the last node met with that id. -/
theorem descendants_preorder :
    (∀ (it : Descendants) (acc : Array Expr),
      (it.collect acc).toList = acc.toList ++ it.stack.toList.reverse.flatMap Expr.preorder) ∧
    (∀ e : Expr, e.preorder = e :: e.args.flatMap Expr.preorder) ∧
    (∀ e : Expr, ListsIds e.variableIds Expr.isVariable e.preorder ∧
      ListsIds e.parameterIds Expr.isParameter e.preorder) ∧
    (∀ c : Constraint, ListsIds c.variableIds Expr.isVariable (c.args.flatMap Expr.preorder) ∧
      ListsIds c.parameterIds Expr.isParameter (c.args.flatMap Expr.preorder)) ∧
    ∀ P : Problem,
      MapsShapes P.variableShapes Expr.isVariable
        (P.objective.expr.preorder ++ P.constraints.flatMap fun c => c.args.flatMap Expr.preorder) ∧
      MapsShapes P.parameterShapes Expr.isParameter
        (P.objective.expr.preorder ++ P.constraints.flatMap fun c => c.args.flatMap Expr.preorder) := by
  have hvars : ∀ e : Expr, ListsIds e.variableIds Expr.isVariable e.preorder :=
    fun e => listsIds_sortedIds _ e.preorder
  have hparams : ∀ e : Expr, ListsIds e.parameterIds Expr.isParameter e.preorder :=
    fun e => listsIds_sortedIds _ e.preorder
  refine ⟨Descendants.collect_eq, Expr.preorder_eq, fun e => ⟨hvars e, hparams e⟩,
    fun c => ⟨listsIds_flatMap hvars c.args, listsIds_flatMap hparams c.args⟩, fun P => ?_⟩
  rw [← Problem.roots_flatMap_preorder]
  exact ⟨mapsShapes_ofList _ _, mapsShapes_ofList _ _⟩

end ConicForm
