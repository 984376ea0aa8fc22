import ConicForm.Expr.Eval
/-!
The post-order walk of a tree with a stack of its own, and evaluation by it. Trees may be nested
deeper than a call stack allows, so the walk keeps a stack of frames, each a node, the operands
still to enter and the results already done. Every step lowers the work left on the stack
(`stackWork`), so the walk ends on every tree. Evaluation is the walk that descends into every
node (`Expr.evaluate`).
-/

namespace ConicForm

namespace Expr

theorem sizeList_drop_cons {es : List Expr} {k : Nat} {c : Expr} (h : es[k]? = some c) :
    sizeList (es.drop k) = c.size + sizeList (es.drop (k + 1)) := by
  rw [List.drop_eq_getElem_cons (List.getElem?_eq_some_iff.1 h).1, sizeList,
    (List.getElem?_eq_some_iff.1 h).2]

end Expr

/-- A node on the walk's stack: the operands the walk enters below it, and the results of those
already done. -/
structure Frame (α : Type) where
  node : Expr
  children : List Expr
  done : List α

namespace Frame

variable {α : Type}

def enter (e : Expr) (descends : Bool) : Frame α :=
  ⟨e, if descends then e.args else [], []⟩

def push (f : Frame α) (r : α) : Frame α := { f with done := f.done ++ [r] }

def pending (f : Frame α) (k : Nat) : Nat := Expr.sizeList (f.children.drop (f.done.length + k))

theorem pending_enter_lt (e : Expr) (d : Bool) : (enter e d : Frame α).pending 0 < e.size := by
  have := e.sizeList_args_lt
  cases d <;> simp [enter, pending, Expr.sizeList] at * <;> omega

theorem pending_push (f : Frame α) (r : α) : (f.push r).pending 0 = f.pending 1 := by
  simp [push, pending]

theorem pending_next {f : Frame α} {c : Expr} (h : f.children[f.done.length]? = some c) :
    f.pending 0 = c.size + f.pending 1 :=
  Expr.sizeList_drop_cons h

end Frame

/-- The work left on a stack of frames: one for each frame, and twice each node the walk has
still to enter, which for a frame below another is past the operand in progress. -/
def stackWork {α : Type} : List (Frame α) → Nat
  | [] => 0
  | top :: rest => 2 * top.pending 0 + 1 + rest.foldr (fun f w => 2 * f.pending 1 + 1 + w) 0

theorem stackWork_enter {α : Type} {top : Frame α} {rest : List (Frame α)} {c : Expr}
    (h : top.children[top.done.length]? = some c) (d : Bool) :
    stackWork (Frame.enter c d :: top :: rest) < stackWork (top :: rest) := by
  have hc := Frame.pending_enter_lt (α := α) c d
  have hnext := Frame.pending_next h
  simp only [stackWork, List.foldr_cons]
  omega

theorem stackWork_pop {α : Type} (top parent : Frame α) (rest : List (Frame α)) (r : α) :
    stackWork (parent.push r :: rest) < stackWork (top :: parent :: rest) := by
  simp only [stackWork, List.foldr_cons, Frame.pending_push]
  omega

section Walk

variable {n : Type → Type} [Monad n] {α : Type}

/-- The walk from a stack of frames: enter the top frame's next operand, or visit its node and
hand the result down. An empty stack does not arise, and the walk fails there. -/
def walkFrames (descend : Expr → n Bool) (visit : Expr → List α → n α) :
    List (Frame α) → OptionT n α
  | [] => failure
  | top :: rest =>
    match _h : top.children[top.done.length]? with
    | some child => do
      let d ← descend child
      walkFrames descend visit (Frame.enter child d :: top :: rest)
    | none => do
      let r ← visit top.node top.done
      match rest with
      | [] => pure r
      | parent :: rest => walkFrames descend visit (parent.push r :: rest)
termination_by stack => stackWork stack
decreasing_by
  · exact stackWork_enter ‹_› d
  · exact stackWork_pop top parent rest r

/-- The post-order fold of a tree: each node is offered to `descend` when the walk reaches it,
and visited after its operands, with their results when the walk descended into it. -/
def foldPostorder (descend : Expr → n Bool) (visit : Expr → List α → n α) (root : Expr) :
    OptionT n α := do
  let d ← descend root
  walkFrames descend visit [Frame.enter root d]

end Walk

namespace Expr

/-- One node's value over its operands' values: an operator node applies its operator, and a
leaf, which has no operands, reads its own value. -/
def evalNode (σ : Assignment) (e : Expr) (vals : List Value) : Run Value :=
  match e with
  | .node _ op _ shape _ _ =>
    match op.apply vals shape with
    | .ok v => pure v
    | .error err => throw err
  | leaf => leaf.evalAt σ

def evaluate (σ : Assignment) (e : Expr) : OptionT Run Value :=
  foldPostorder (fun _ => pure true) (evalNode σ) e

def value (σ : Assignment) (e : Expr) : OptionT Run Value := do
  let vals ← e.args.mapM (evaluate σ)
  evalNode σ e vals

end Expr

end ConicForm
