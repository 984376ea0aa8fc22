import ConicForm.Proofs.Run
import ConicForm.Proofs.Descendants
/-!
What evaluation reads and writes.

Evaluating any tree leaves the id counter and the notes alone: it reads parameter values and
advances source counts, nothing more. A constant tree without parameters, whose flags say the
truth about its operands, has only constant leaves: evaluating it reads nothing of the world,
writes nothing, and can fail only for the shapes or the operators of its nodes. The library's
own operators never miss a value; a custom operator may, through the evaluation it brings.
-/

namespace ConicForm

variable {α : Type}

/-! ### Failures that are not a missing value -/

def NotMissing (r : Except Error α) : Prop := ∀ e, r = .error e → e.category ≠ .missingValue

namespace NotMissing

lemma ok (a : α) : NotMissing (.ok a : Except Error α) := fun _ h => by cases h

lemma error {e : Error} (he : e.category ≠ .missingValue) :
    NotMissing (.error e : Except Error α) :=
  fun _ h => by cases h; exact he

lemma bind {β : Type} {r : Except Error α} {f : α → Except Error β} (hr : NotMissing r)
    (hf : ∀ a, NotMissing (f a)) : NotMissing (r >>= f) := by
  intro e h
  cases r with
  | error e' =>
    cases h
    exact hr _ rfl
  | ok a => exact hf a e h

end NotMissing

namespace Dense

lemma broadcastWith_notMissing (f : Float → Float → Float) (a b : Dense) :
    NotMissing (broadcastWith f a b) := by
  unfold broadcastWith
  repeat' split
  all_goals first | exact NotMissing.ok _ | exact NotMissing.error (by simp [Error.category])

lemma foldlM_broadcastWith_notMissing (f : Float → Float → Float) :
    ∀ (ms : List Dense) (m : Dense), NotMissing (ms.foldlM (broadcastWith f) m)
  | [], m => NotMissing.ok m
  | b :: ms, m => by
    rw [List.foldlM_cons]
    exact (broadcastWith_notMissing f m b).bind fun m' => foldlM_broadcastWith_notMissing f ms m'

lemma matmul_notMissing (a b : Dense) : NotMissing (matmul a b) := by
  unfold matmul
  repeat' split
  all_goals first
    | exact NotMissing.ok _
    | exact NotMissing.error (by simp [Error.category])
    | exact broadcastWith_notMissing _ a b

lemma selectRange_notMissing (r : Option (Nat × Nat × Nat)) (len : Nat) :
    NotMissing (selectRange r len) := by
  unfold selectRange
  repeat' split
  all_goals first | exact NotMissing.ok _ | exact NotMissing.error (by simp [Error.category])

lemma index_notMissing (m : Dense) (ranges : List (Option (Nat × Nat × Nat))) :
    NotMissing (m.index ranges) := by
  unfold index
  split
  · exact (selectRange_notMissing _ _).bind fun _ => NotMissing.ok _
  · exact (selectRange_notMissing _ _).bind fun _ =>
      (selectRange_notMissing _ _).bind fun _ => NotMissing.ok _
  · exact NotMissing.error (by simp [Error.category])

lemma vstack_notMissing (ms : List Dense) : NotMissing (vstack ms) := by
  unfold vstack
  repeat' split
  all_goals first | exact NotMissing.ok _ | exact NotMissing.error (by simp [Error.category])

lemma hstack_notMissing (ms : List Dense) : NotMissing (hstack ms) := by
  unfold hstack
  repeat' split
  all_goals first | exact NotMissing.ok _ | exact NotMissing.error (by simp [Error.category])

end Dense

lemma Value.ofDense_notMissing (m : Dense) (s : Shape) : NotMissing (Value.ofDense m s) := by
  unfold Value.ofDense
  repeat' split
  all_goals first | exact NotMissing.ok _ | exact NotMissing.error (by simp [Error.category])

lemma Op.compute_notMissing (op : Op) (ms : List Dense) : NotMissing (op.compute ms) := by
  cases op <;> simp only [Op.compute]
  all_goals repeat' split
  all_goals first
    | exact Dense.broadcastWith_notMissing _ _ _
    | exact Dense.matmul_notMissing _ _
    | exact Dense.index_notMissing _ _
    | exact Dense.vstack_notMissing _
    | exact Dense.hstack_notMissing _
    | exact Dense.foldlM_broadcastWith_notMissing _ _ _
    | exact NotMissing.error (by simp [Error.category])
    | exact NotMissing.ok _

/-- The error is a missing value only where the evaluation of a custom operator at a node among
`nodes` returns it: the library's own computations never miss a value. -/
def MissingFrom (nodes : List Expr) (err : Error) : Prop :=
  err.category = .missingValue →
    ∃ i c args s k h, Expr.node i (.custom c) args s k h ∈ nodes ∧ ∃ vals, c.eval vals = .error err

namespace MissingFrom

variable {nodes nodes' : List Expr} {err : Error}

lemma of_ne (h : err.category ≠ .missingValue) : MissingFrom nodes err := fun hm => absurd hm h

lemma mono (hsub : ∀ n ∈ nodes, n ∈ nodes') (h : MissingFrom nodes err) : MissingFrom nodes' err :=
  fun hm => by
    obtain ⟨i, c, args, s, k, p, hn, hval⟩ := h hm
    exact ⟨i, c, args, s, k, p, hsub _ hn, hval⟩

end MissingFrom

/-- An operator fails for a missing value only when it is a custom operator whose evaluation
returns one. -/
lemma Op.apply_missing {op : Op} {vals : List Value} {s : Shape} {err : Error}
    (h : op.apply vals s = .error err) (hm : err.category = .missingValue) :
    ∃ c, op = .custom c ∧ c.eval vals = .error err := by
  unfold Op.apply at h
  split at h
  · exact ⟨_, rfl, h⟩
  · exact absurd hm (((op.compute_notMissing _).bind fun m => Value.ofDense_notMissing m s) err h)

/-! ### Evaluation reads parameters and advances sources, nothing more -/

lemma Source.read_logBlind (src : Source) : LogBlind src.read.run := by
  intro n ns
  cases src
  case fixed v => exact Commutes.ok _
  case failing why => exact Commutes.throw _
  case ticker slot => exact Commutes.seq (Commutes.lift fun _ => rfl) fun _ => Commutes.ok _

namespace Expr

lemma evalAt_param_run (σ : Assignment) (id : Nat) (p : ParamInfo) (w : World) :
    ((param id p).evalAt σ).run.run w = match w.param? p.slot with
      | some v => (.ok v, w)
      | none => (.error (.unsetParameter id p.name), w) := by
  cases h : w.param? p.slot <;> simp only [evalAt, run_bind, run_get, h, run_pure, run_throw]

lemma evalAt_logBlind (σ : Assignment) :
    (∀ e : Expr, LogBlind (e.evalAt σ).run) ∧ ∀ es : List Expr, LogBlind (evalAtList σ es).run := by
  refine evalAt.mutual_induct σ (fun e => LogBlind (e.evalAt σ).run)
    (fun es => LogBlind (evalAtList σ es).run) ?_ ?_ ?_ ?_ ?_ ?_ ?_ ?_ ?_
  · intro id v x hx n ns
    simp only [evalAt, hx]
    exact Commutes.ok _
  · intro id v hx n ns
    simp only [evalAt, hx]
    exact Commutes.throw _
  · intro id v s n ns
    exact Commutes.ok _
  · -- the slot is read from the parameter values, which the change leaves alone
    intro id p n ns w
    have hslot : ({ w with next := n, notes := ns } : World).param? p.slot = w.param? p.slot := rfl
    simp only [evalAt_param_run, hslot]
    cases w.param? p.slot <;> rfl
  · intro id s src
    exact src.read_logBlind
  · intro id s body ih
    exact ih
  · intro id op args s c h ih n ns
    simp only [evalAt]
    refine Commutes.seq (ih n ns) fun vals => ?_
    split
    · exact Commutes.ok _
    · exact Commutes.throw _
  · exact fun n ns => Commutes.ok _
  · intro e es ihe ihes n ns
    simp only [evalAtList]
    exact Commutes.seq (ihe n ns) fun _ => Commutes.seq (ihes n ns) fun _ => Commutes.ok _

lemma evalAt_keeps {σ : Assignment} {e : Expr} {w w₁ : World} {r : Except Error Value}
    (h : (e.evalAt σ).run.run w = (r, w₁)) : w₁.next = w.next ∧ w₁.notes = w.notes := by
  have h' := ((evalAt_logBlind σ).1 e).run_eq w
  rw [h] at h'
  have hw := congrArg Prod.snd h'
  simp only at hw
  rw [hw]
  exact ⟨rfl, rfl⟩

/-! ### Trees whose flags say the truth -/

mutual
/-- The stored flags of every node say the truth about its operands: a node is constant exactly
when all of its operands are, and has parameters exactly when one of them has. -/
def flagsExact : Expr → Bool
  | .node _ _ args _ c h =>
    c == args.all (·.isConst) && h == args.any (·.hasParams) && flagsExactList args
  | _ => true

def flagsExactList : List Expr → Bool
  | [] => true
  | e :: es => e.flagsExact && flagsExactList es
end

@[simp] lemma flagsExactList_eq_all (es : List Expr) : flagsExactList es = es.all flagsExact := by
  induction es with
  | nil => rfl
  | cons e es ih => simp [flagsExactList, ih]

lemma flagsExact_node {i : Nat} {op : Op} {args : List Expr} {s : Shape} {c h : Bool} :
    (node i op args s c h).flagsExact = true ↔
      c = args.all isConst ∧ h = args.any hasParams ∧ args.all flagsExact = true := by
  simp [flagsExact, and_assoc]

end Expr

/-! ### Evaluation of a constant tree without parameters -/

/-- The computation has one outcome whatever the world, leaves the world as it was, and fails
for a missing value only where a custom operator of `nodes` returns one. -/
def Settled (nodes : List Expr) (x : Run α) : Prop :=
  ∃ r : Except Error α, (∀ err, r = .error err → MissingFrom nodes err) ∧ ∀ w, x.run.run w = (r, w)

namespace Settled

variable {nodes nodes' : List Expr}

lemma ok (a : α) : Settled nodes (pure a : Run α) := ⟨.ok a, fun _ h => (by cases h), fun _ => rfl⟩

lemma seq {β : Type} {x : Run α} {f : α → Run β} (hx : Settled nodes x)
    (hf : ∀ a, Settled nodes (f a)) : Settled nodes (x >>= f) := by
  obtain ⟨r, hr, hx⟩ := hx
  cases r with
  | error e =>
    exact ⟨.error e, fun _ h => (by cases h; exact hr e rfl), fun w => by rw [run_bind, hx]⟩
  | ok a =>
    obtain ⟨r', hr', hf⟩ := hf a
    exact ⟨r', hr', fun w => by rw [run_bind, hx]; exact hf w⟩

lemma throw {e : Error} (he : MissingFrom nodes e) : Settled nodes (throw e : Run α) :=
  ⟨.error e, fun _ h => (by cases h; exact he), fun _ => rfl⟩

lemma mono {x : Run α} (hsub : ∀ n ∈ nodes, n ∈ nodes') (hx : Settled nodes x) :
    Settled nodes' x := by
  obtain ⟨r, hr, hx⟩ := hx
  exact ⟨r, fun e h => (hr e h).mono hsub, hx⟩

lemma blind {x : Run α} (hx : Settled nodes x) : Blind x.run := by
  obtain ⟨r, -, hx⟩ := hx
  intro ps ts w
  rw [hx, hx]

end Settled

namespace Expr

/-- A constant tree without parameters, with exact flags, has only constant leaves and nodes:
its evaluation reads and writes nothing, and misses a value only where a custom operator of one
of its nodes returns it. -/
lemma evalAt_settled (σ : Assignment) :
    (∀ e : Expr, e.isConst = true → e.hasParams = false → e.flagsExact = true →
      Settled e.preorder (e.evalAt σ)) ∧
    ∀ es : List Expr, es.all isConst = true → es.any hasParams = false → es.all flagsExact = true →
      Settled (es.flatMap preorder) (evalAtList σ es) := by
  refine evalAt.mutual_induct σ
    (fun e => e.isConst = true → e.hasParams = false → e.flagsExact = true →
      Settled e.preorder (e.evalAt σ))
    (fun es => es.all isConst = true → es.any hasParams = false → es.all flagsExact = true →
      Settled (es.flatMap preorder) (evalAtList σ es)) ?_ ?_ ?_ ?_ ?_ ?_ ?_ ?_ ?_
  -- variables are not constant, and parameters, sources and deferred leaves have parameters
  all_goals try (intros; simp_all [isConst, hasParams]; done)
  · intro id v s _ _ _
    exact Settled.ok v
  · intro id op args s c h ih hc hp hf
    obtain ⟨rfl, rfl, hargs⟩ := flagsExact_node.1 hf
    simp only [evalAt]
    refine ((ih hc hp hargs).mono fun n hn => by simp [hn]).seq fun vals => ?_
    split
    next v _ => exact Settled.ok v
    next e he =>
      -- the node itself misses a value only if it is a custom operator that returns one
      refine Settled.throw fun hm => ?_
      obtain ⟨cu, rfl, hcu⟩ := Op.apply_missing he hm
      exact ⟨id, cu, args, s, args.all isConst, args.any hasParams, (by simp), vals, hcu⟩
  · exact fun _ _ _ => Settled.ok []
  · intro e es ihe ihes hc hp hf
    simp only [List.all_cons, List.any_cons, Bool.and_eq_true, Bool.or_eq_false_iff] at hc hp hf
    simp only [evalAtList]
    exact ((ihe hc.1 hp.1 hf.1).mono fun n hn => by simp [hn]).seq fun _ =>
      ((ihes hc.2 hp.2 hf.2).mono fun n hn => by simp [hn]).seq fun _ => Settled.ok _

/-- A constant tree without parameters, with exact flags, has no variable: its evaluation does
not depend on the values of variables. -/
lemma evalAt_eq_of_const (σ σ' : Assignment) :
    (∀ e : Expr, e.isConst = true → e.hasParams = false → e.flagsExact = true →
      e.evalAt σ = e.evalAt σ') ∧
    ∀ es : List Expr, es.all isConst = true → es.any hasParams = false → es.all flagsExact = true →
      evalAtList σ es = evalAtList σ' es := by
  refine evalAt.mutual_induct σ
    (fun e => e.isConst = true → e.hasParams = false → e.flagsExact = true →
      e.evalAt σ = e.evalAt σ')
    (fun es => es.all isConst = true → es.any hasParams = false → es.all flagsExact = true →
      evalAtList σ es = evalAtList σ' es) ?_ ?_ ?_ ?_ ?_ ?_ ?_ ?_ ?_
  -- variables are not constant, and parameters, sources and deferred leaves have parameters
  all_goals try (intros; simp_all [isConst, hasParams]; done)
  · exact fun _ _ _ _ _ _ => rfl
  · intro id op args s c h ih hc hp hf
    obtain ⟨rfl, rfl, hargs⟩ := flagsExact_node.1 hf
    simp only [evalAt, ih hc hp hargs]
  · exact fun _ _ _ => rfl
  · intro e es ihe ihes hc hp hf
    simp only [List.all_cons, List.any_cons, Bool.and_eq_true, Bool.or_eq_false_iff] at hc hp hf
    simp only [evalAtList, ihe hc.1 hp.1 hf.1, ihes hc.2 hp.2 hf.2]

lemma evalAt_eq_pure_of_eval {e : Expr} {v : Value} {w w' : World} (hc : e.isConst = true)
    (hp : e.hasParams = false) (hf : e.flagsExact = true) (h : e.eval.run.run w = (.ok v, w'))
    (σ : Assignment) : e.evalAt σ = pure v := by
  obtain ⟨r, -, hr⟩ := (evalAt_settled fun _ => none).1 e hc hp hf
  have hrv : r = .ok v := by
    rw [eval, hr] at h
    exact congrArg Prod.fst h
  rw [(evalAt_eq_of_const σ fun _ => none).1 e hc hp hf]
  exact Run.ext fun w₀ => by rw [hr, hrv, run_pure]

end Expr

end ConicForm
