import Mathlib
import ConicForm.Expr.Traverse
/-!
The walk with a stack of its own computes the recursive post-order fold `foldRec` in any lawful
monad, so the two make the same calls to `descend` and `visit` and stop at the same failure
(`foldPostorder_eq`). The proof follows one frame through the walk, whatever lies below it on
the stack (`walkFrames_enter_frame`). Evaluation by the walk is `evalAt`
(`walk_refines_recursion`).
-/

namespace ConicForm

section Recursive

variable {n : Type → Type} [Monad n] {α : Type}
  (descend : Expr → n Bool) (visit : Expr → List α → n α)

mutual
/-- The post-order fold as a recursion on the tree. -/
def foldRec : Expr → n α
  | .node i op args s c h => do
    let d ← descend (.node i op args s c h)
    let rs ← if d then foldRecList args else pure []
    visit (.node i op args s c h) rs
  | e => do
    let _ ← descend e
    visit e []

def foldRecList : List Expr → n (List α)
  | [] => pure []
  | e :: es => do
    let r ← foldRec e
    let rs ← foldRecList es
    pure (r :: rs)
end

/-- What the walk does with a node's result once its frame is popped: hand it to the frame
below, or end with it. -/
def resume : List (Frame α) → α → OptionT n α
  | [], r => pure r
  | parent :: rest, r => walkFrames descend visit (parent.push r :: rest)

lemma walkFrames_next {f : Frame α} {c : Expr} (h : f.children[f.done.length]? = some c)
    (rest : List (Frame α)) :
    walkFrames descend visit (f :: rest) = (do
      let d ← descend c
      walkFrames descend visit (Frame.enter c d :: f :: rest)) := by
  rw [walkFrames]
  split
  · next c' h' => rw [h] at h'; cases h'; rfl
  · next h' => rw [h] at h'; cases h'

lemma walkFrames_visit {f : Frame α} (h : f.children[f.done.length]? = none)
    (rest : List (Frame α)) :
    walkFrames descend visit (f :: rest) = (do
      let r ← visit f.node f.done
      resume descend visit rest r) := by
  rw [walkFrames]
  split
  · next c' h' => rw [h] at h'; cases h'
  · cases rest <;> rfl

lemma walkFrames_leafFrame (e : Expr) (rest : List (Frame α)) :
    walkFrames descend visit (⟨e, [], []⟩ :: rest) = (do
      let r ← visit e []
      resume descend visit rest r) :=
  walkFrames_visit descend visit rfl rest

end Recursive

section Refinement

variable {n : Type → Type} [Monad n] [LawfulMonad n] {α : Type}
  (descend : Expr → n Bool) (visit : Expr → List α → n α)

/-- The walk from a frame, whatever is below it: entering a node is its recursive fold, and a
frame whose operands `post` are left is their fold, the visit and then what lies below. One
induction on the tree carries both, each operand entered from its parent's frame. -/
lemma walkFrames_enter_frame :
    (∀ (e : Expr) (rest : List (Frame α)),
      (do let d ← descend e; walkFrames descend visit (Frame.enter e d :: rest) : OptionT n α) =
        (do let r ← (foldRec descend visit e : n α); resume descend visit rest r : OptionT n α)) ∧
    ∀ (post : List Expr) (node : Expr) (pre : List Expr) (ds : List α) (rest : List (Frame α)),
      ds.length = pre.length →
      walkFrames descend visit (⟨node, pre ++ post, ds⟩ :: rest) = (do
        let rs ← (foldRecList descend visit post : n (List α))
        let r ← visit node (ds ++ rs)
        resume descend visit rest r : OptionT n α) := by
  refine foldRec.mutual_induct
    (fun e => ∀ rest : List (Frame α),
      (do let d ← descend e; walkFrames descend visit (Frame.enter e d :: rest) : OptionT n α) =
        (do let r ← (foldRec descend visit e : n α); resume descend visit rest r : OptionT n α))
    (fun post => ∀ (node : Expr) (pre : List Expr) (ds : List α) (rest : List (Frame α)),
      ds.length = pre.length →
      walkFrames descend visit (⟨node, pre ++ post, ds⟩ :: rest) = (do
        let rs ← (foldRecList descend visit post : n (List α))
        let r ← visit node (ds ++ rs)
        resume descend visit rest r : OptionT n α)) ?node ?leaf ?nil ?cons
  case node =>
    -- the node's frame holds its operands, or none when the walk does not descend
    intro i op args s c h ih rest
    simp only [foldRec, monadLift_bind, bind_assoc]
    refine bind_congr fun d => ?_
    cases d
    · simp [Frame.enter, walkFrames_leafFrame]
    · simpa [Frame.enter, Expr.args] using ih (.node i op args s c h) [] [] rest rfl
  case leaf =>
    -- a leaf has no operands, so its frame is empty whatever `descend` says
    intro e hleaf rest
    have hargs : e.args = [] := by
      cases e
      case node i op args s c h => exact absurd rfl (hleaf i op args s c h)
      all_goals rfl
    rw [foldRec.eq_2 descend visit e hleaf]
    simp only [monadLift_bind, bind_assoc]
    refine bind_congr fun d => ?_
    simp [Frame.enter, hargs, walkFrames_leafFrame]
  case nil =>
    intro node pre ds rest hlen
    rw [walkFrames_visit descend visit (by simp [hlen])]
    simp [foldRecList]
  case cons =>
    -- the next operand is entered from this frame, and its result pushed onto it
    intro c post ihc ihpost node pre ds rest hlen
    have hnext : (⟨node, pre ++ c :: post, ds⟩ : Frame α).children[ds.length]? = some c := by
      simp [hlen]
    rw [walkFrames_next descend visit hnext, ihc]
    simp only [foldRecList, monadLift_bind, bind_assoc, monadLift_pure, pure_bind]
    refine bind_congr fun r => ?_
    have hpush : (⟨node, pre ++ c :: post, ds⟩ : Frame α).push r =
        ⟨node, (pre ++ [c]) ++ post, ds ++ [r]⟩ := by
      simp [Frame.push]
    simp only [resume, hpush, ihpost node (pre ++ [c]) (ds ++ [r]) rest (by simp [hlen])]
    simp

/-- The post-order fold by the walk is the recursive fold: the walk never meets an empty
stack, and makes the same calls with the same results. -/
lemma foldPostorder_eq (root : Expr) :
    foldPostorder descend visit root = monadLift (foldRec descend visit root) := by
  have h := (walkFrames_enter_frame descend visit).1 root []
  simp only [resume, bind_pure] at h
  exact h

end Refinement

namespace Expr

lemma evalAtList_args_evalNode (σ : Assignment) (e : Expr) :
    (do let vals ← evalAtList σ e.args; evalNode σ e vals) = e.evalAt σ := by
  cases e
  case node i op args s c h => rfl
  all_goals simp [args, evalAtList, evalNode]

lemma foldRec_evalNode (σ : Assignment) :
    (∀ e : Expr, foldRec (fun _ => pure true) (evalNode σ) e = e.evalAt σ) ∧
    ∀ es : List Expr, foldRecList (fun _ => pure true) (evalNode σ) es = evalAtList σ es := by
  refine foldRec.mutual_induct
    (fun e => foldRec (fun _ => pure true) (evalNode σ) e = e.evalAt σ)
    (fun es => foldRecList (fun _ => pure true) (evalNode σ) es = evalAtList σ es)
    ?node ?leaf ?nil ?cons
  case node =>
    intro i op args s c h ih
    simp only [foldRec, pure_bind, if_true, ih]
    exact evalAtList_args_evalNode σ (.node i op args s c h)
  case leaf =>
    intro e hleaf
    rw [foldRec.eq_2 _ _ e hleaf, pure_bind]
    cases e
    case node i op args s c h => exact absurd rfl (hleaf i op args s c h)
    all_goals rfl
  case nil => rfl
  case cons =>
    intro e es ihe ihes
    simp only [foldRecList, evalAtList, ihe, ihes]

lemma mapM_evaluate (σ : Assignment) (es : List Expr) :
    es.mapM (evaluate σ) = monadLift (evalAtList σ es) := by
  induction es with
  | nil => simp [evalAtList]
  | cons e es ih =>
    simp only [List.mapM_cons, evaluate, foldPostorder_eq, (foldRec_evalNode σ).1, ih,
      evalAtList, monadLift_bind, monadLift_pure]

end Expr

/-- **The walk with its own stack is the recursive post-order fold.** In every lawful monad, for
every `descend` and `visit` and every tree, the walk ends without meeting an empty stack and
is, as a computation, the fold `foldRec`: it asks `descend` about each node in pre-order and
enters its operands only when told to, visits each node after its operands with their
results, and stops at the first failure the monad has. Hence evaluation by the walk, and the
value of a node (its operands by the walk, then the node), are the recursive evaluation
`evalAt`, under every assignment and from every world. -/
theorem walk_refines_recursion :
    (∀ {n : Type → Type} [Monad n] [LawfulMonad n] {α : Type} (descend : Expr → n Bool)
      (visit : Expr → List α → n α) (root : Expr),
      (foldPostorder descend visit root).run = some <$> foldRec descend visit root) ∧
    ∀ (σ : Assignment) (e : Expr),
      (e.evaluate σ).run = some <$> e.evalAt σ ∧ (e.value σ).run = some <$> e.evalAt σ := by
  refine ⟨fun descend visit root => ?_, fun σ e => ⟨?_, ?_⟩⟩
  · rw [foldPostorder_eq]
    simp [monadLift, MonadLift.monadLift]
  · rw [Expr.evaluate, foldPostorder_eq, (Expr.foldRec_evalNode σ).1]
    simp [monadLift, MonadLift.monadLift]
  · rw [Expr.value, Expr.mapM_evaluate, ← Expr.evalAtList_args_evalNode σ e]
    simp [liftM, monadLift, MonadLift.monadLift]

def negSum : Expr :=
  .node 3 .neg [.node 2 .add [.var 0 ⟨.scalar, none, false, false⟩, .const 1 (.scalar 1) .scalar]
    .scalar false false] .scalar false false

/-- Counting the nodes of `-(x + 1)` by the walk, with each visit noted: four nodes, visited
operands first. -/
theorem walk_refines_recursion_negSum :
    (foldPostorder (fun _ => (pure true : StateM (List Kind) Bool))
      (fun e rs => do modify (· ++ [e.kind]); pure (1 + rs.sum)) negSum).run.run [] =
      (some 4, [.variable, .constant, .add, .neg]) := by
  rw [walk_refines_recursion.1]
  rfl

end ConicForm
