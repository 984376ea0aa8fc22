import Mathlib.Tactic.Lemma
import ConicForm.Canon.Apply
/-!
Running the actions of canonicalization on a world, one step at a time. What an action leaves
alone is said by `Commutes g`, closed under sequencing and proved once for each builder:
`CounterOnly` (it touches only the id counter), `Blind` (not parameter values and source
counts) and `LogBlind` (not the counter and the notes). `FreshIds lo hi ids` says the ids are
distinct and were taken while the counter went from `lo` to `hi`.
-/

namespace ConicForm

variable {α β : Type}

/-! ### Running actions -/

@[simp] lemma run_pure (a : α) (w : World) : (pure a : Run α).run.run w = (.ok a, w) := rfl

@[simp] lemma run_throw (e : Error) (w : World) :
    (throw e : Run α).run.run w = (.error e, w) := rfl

@[simp] lemma run_get (w : World) : (get : Run World).run.run w = (.ok w, w) := rfl

@[simp] lemma run_monadLift (b : Build α) (w : World) :
    (monadLift b : Run α).run.run w = (.ok (b.run w).1, (b.run w).2) := rfl

lemma Run.ext {x y : Run α} (h : ∀ w, x.run.run w = y.run.run w) : x = y := funext h

lemma run_bind (x : Run α) (f : α → Run β) (w : World) :
    (x >>= f).run.run w = match x.run.run w with
      | (.ok a, w') => (f a).run.run w'
      | (.error e, w') => (.error e, w') := by
  simp only [ExceptT.run, bind, ExceptT.bind, ExceptT.mk, ExceptT.bindCont, StateT.run,
    StateT.bind]
  rcases x w with ⟨_ | a, w'⟩ <;> rfl

lemma run_bind_of_ok {x : Run α} {f : α → Run β} {w w₁ : World} {a : α}
    (h : x.run.run w = (.ok a, w₁)) : (x >>= f).run.run w = (f a).run.run w₁ := by
  rw [run_bind, h]

lemma bind_congr_of_ok {x : Run α} {f g : α → Run β}
    (h : ∀ w a w', x.run.run w = (.ok a, w') → f a = g a) : x >>= f = x >>= g := by
  refine Run.ext fun w => ?_
  rw [run_bind, run_bind]
  rcases hx : x.run.run w with ⟨e | a, w'⟩
  · rfl
  · dsimp only
    rw [h w a w' hx]

lemma run_monadLift_bind (b : Build α) (f : α → Run β) (w : World) :
    (monadLift b >>= f).run.run w = (f (b.run w).1).run.run (b.run w).2 :=
  run_bind_of_ok (run_monadLift b w)

lemma bind_eq_ok {x : Run α} {f : α → Run β} {w w' : World} {b : β}
    (h : (x >>= f).run.run w = (.ok b, w')) :
    ∃ a w₁, x.run.run w = (.ok a, w₁) ∧ (f a).run.run w₁ = (.ok b, w') := by
  rw [run_bind] at h
  rcases hx : x.run.run w with ⟨_ | a, w₁⟩ <;> rw [hx] at h
  · cases h
  · exact ⟨a, w₁, rfl, h⟩

lemma bind_eq_error {x : Run α} {f : α → Run β} {w w' : World} {e : Error}
    (h : (x >>= f).run.run w = (.error e, w')) :
    x.run.run w = (.error e, w') ∨
      ∃ a w₁, x.run.run w = (.ok a, w₁) ∧ (f a).run.run w₁ = (.error e, w') := by
  rw [run_bind] at h
  rcases hx : x.run.run w with ⟨e' | a, w₁⟩ <;> rw [hx] at h
  · simp only at h
    obtain ⟨rfl, rfl⟩ := h
    exact .inl rfl
  · exact .inr ⟨a, w₁, rfl, h⟩

@[simp] lemma build_bind_run (x : Build α) (f : α → Build β) (w : World) :
    (x >>= f).run w = (f (x.run w).1).run (x.run w).2 := rfl

@[simp] lemma build_pure_run (a : α) (w : World) : (pure a : Build α).run w = (a, w) := rfl

/-! ### The builders -/

@[simp] lemma note_run (l : Level) (m : Message) (w : World) :
    (note l m).run w = ((), { w with notes := w.notes.push ⟨l, m⟩ }) := rfl

namespace Expr

@[simp] lemma build_run (op : Op) (args : List Expr) (w : World) :
    (build op args).run w =
      (.node w.next op args (op.inferShape (args.map (·.shape))) (args.all (·.isConst))
        (args.any (·.hasParams)), { w with next := w.next + 1 }) := rfl

@[simp] lemma unary_eq (op : Op) (a : Expr) : unary op a = build op [a] := rfl

@[simp] lemma binary_eq (op : Op) (a b : Expr) : binary op a b = build op [a, b] := rfl

@[simp] lemma newVar_run (v : VarInfo) (w : World) :
    (newVar v).run w = (.var w.next v, { w with next := w.next + 1 }) := rfl

@[simp] lemma constant_run (v : Value) (s : Shape) (w : World) :
    (constant v s).run w = (.const w.next v s, { w with next := w.next + 1 }) := rfl

@[simp] lemma deferredOf_run (s : Shape) (body : Expr) (w : World) :
    (deferredOf s body).run w = (.deferred w.next s body, { w with next := w.next + 1 }) := rfl

end Expr

@[simp] lemma Table.traceNote_run (k : String) (i : Nat) (what : String) (w : World) :
    (Table.traceNote k i what).run w =
      ((), { w with
        notes := w.notes.push ⟨.trace, [.text (k ++ " "), .node i, .text (": " ++ what)]⟩ }) :=
  rfl

@[simp] lemma Constraint.make_run (r : Relation) (w : World) :
    (Constraint.make r).run w = (⟨w.next, r⟩, { w with next := w.next + 1 }) := rfl

/-! ### Actions that commute with a change of the world -/

/-- Running `b` on `g w` is running it on `w` and applying `g` afterwards: `b` neither reads nor
writes what `g` changes. -/
def Commutes (g : World → World) (b : Build α) : Prop :=
  ∀ w, b.run (g w) = ((b.run w).1, g (b.run w).2)

namespace Commutes

variable {g : World → World}

lemma pure (a : α) : Commutes g (Pure.pure a : Build α) := fun _ => rfl

lemma bind {x : Build α} {f : α → Build β} (hx : Commutes g x) (hf : ∀ a, Commutes g (f a)) :
    Commutes g (x >>= f) := by
  intro w
  simp only [build_bind_run, hx w, hf _ (x.run w).2]

/-! For actions that may fail, the property is asked of the underlying state step. -/

lemma ok (a : α) : Commutes g (Pure.pure a : Run α).run := fun _ => rfl

lemma throw (e : Error) : Commutes g (throw e : Run α).run := fun _ => rfl

lemma lift {b : Build α} (hb : Commutes g b) : Commutes g (monadLift b : Run α).run := by
  intro w
  rw [run_monadLift, run_monadLift, hb w]

lemma seq {x : Run α} {f : α → Run β} (hx : Commutes g x.run) (hf : ∀ a, Commutes g (f a).run) :
    Commutes g (x >>= f).run := by
  intro w
  have h1 : x.run.run (g w) = ((x.run.run w).1, g (x.run.run w).2) := hx w
  rw [run_bind, run_bind, h1]
  rcases x.run.run w with ⟨_ | a, w₁⟩
  · rfl
  · exact hf a w₁

lemma mapM {f : α → Run β} (hf : ∀ a, Commutes g (f a).run) :
    ∀ xs : List α, Commutes g (xs.mapM f).run
  | [] => ok _
  | x :: xs => by
    rw [List.mapM_cons]
    exact seq (hf x) fun _ => seq (mapM hf xs) fun _ => ok _

end Commutes

/-- The action reads and writes nothing of the world but the id counter: run from any world
with the same counter it does the same, and moves only the counter. -/
def CounterOnly (b : Build α) : Prop := ∀ v : World, Commutes (fun w => { v with next := w.next }) b

/-- The action neither reads nor writes parameter values and source counts. -/
def Blind (b : Build α) : Prop :=
  ∀ ps ts, Commutes (fun w => { w with params := ps, ticks := ts }) b

/-- The action neither reads nor writes the id counter and the notes. -/
def LogBlind (b : Build α) : Prop :=
  ∀ n ns, Commutes (fun w => { w with next := n, notes := ns }) b

namespace CounterOnly

lemma fresh : CounterOnly fresh := fun _ _ => rfl

lemma build (op : Op) (args : List Expr) : CounterOnly (Expr.build op args) := fun _ _ => rfl

lemma newVar (v : VarInfo) : CounterOnly (Expr.newVar v) := fun _ _ => rfl

lemma constant (v : Value) (s : Shape) : CounterOnly (Expr.constant v s) := fun _ _ => rfl

lemma deferredOf (s : Shape) (body : Expr) : CounterOnly (Expr.deferredOf s body) :=
  fun _ _ => rfl

lemma make (r : Relation) : CounterOnly (Constraint.make r) := fun _ _ => rfl

lemma run_eq {b : Build α} (hb : CounterOnly b) (w : World) :
    b.run w = ((b.run w).1, { w with next := (b.run w).2.next }) := by
  simpa using hb w w

lemma blind {b : Build α} (hb : CounterOnly b) : Blind b := by
  intro ps ts w
  have h := hb { w with params := ps, ticks := ts } w
  rw [run_eq hb w] at h ⊢
  simpa using h

end CounterOnly

lemma Blind.keeps {b : Build α} (hb : Blind b) (w : World) :
    (b.run w).2.params = w.params ∧ (b.run w).2.ticks = w.ticks := by
  have h := hb w.params w.ticks w
  rw [show ({ w with params := w.params, ticks := w.ticks } : World) = w from rfl] at h
  rw [h]
  exact ⟨rfl, rfl⟩

namespace LogBlind

lemma run_eq {b : Build α} (hb : LogBlind b) (w : World) :
    b.run w = ((b.run w).1, { (b.run w).2 with next := w.next, notes := w.notes }) := by
  simpa using hb w.next w.notes w

end LogBlind

/-! ### Steps that only build -/

/-- A step that only builds: it reads and writes nothing of the world but the id counter, and
none of its failures is a missing value. -/
structure Builds (x : Run α) : Prop where
  counterOnly : CounterOnly x.run
  notMissing : ∀ w e w', x.run.run w = (.error e, w') → e.category ≠ .missingValue

namespace Builds

lemma ok (a : α) : Builds (Pure.pure a : Run α) :=
  ⟨fun _ => Commutes.ok _, fun _ _ _ h => by cases h⟩

lemma throw {e : Error} (he : e.category ≠ .missingValue) : Builds (throw e : Run α) :=
  ⟨fun _ => Commutes.throw _, fun _ _ _ h => by cases h; exact he⟩

lemma lift {b : Build α} (hb : CounterOnly b) : Builds (monadLift b : Run α) :=
  ⟨fun v => Commutes.lift (hb v), fun _ _ _ h => by cases h⟩

lemma seq {x : Run α} {f : α → Run β} (hx : Builds x) (hf : ∀ a, Builds (f a)) :
    Builds (x >>= f) where
  counterOnly v := Commutes.seq (hx.counterOnly v) fun a => (hf a).counterOnly v
  notMissing w e w' h := by
    rcases bind_eq_error h with h | ⟨a, w₁, -, h⟩
    · exact hx.notMissing _ _ _ h
    · exact (hf a).notMissing _ _ _ h

lemma mapM {f : α → Run β} (hf : ∀ a, Builds (f a)) : ∀ xs : List α, Builds (xs.mapM f)
  | [] => ok _
  | x :: xs => by
    rw [List.mapM_cons]
    exact seq (hf x) fun _ => seq (mapM hf xs) fun _ => ok _

lemma blind {x : Run α} (hx : Builds x) : Blind x.run := hx.counterOnly.blind

lemma notes_eq {x : Run α} (hx : Builds x) (w : World) : (x.run.run w).2.notes = w.notes := by
  rw [hx.counterOnly.run_eq w]

end Builds

/-! ### Fresh ids -/

/-- The ids `ids` are distinct and were all taken while the counter went from `lo` to `hi`. -/
structure FreshIds (lo hi : Nat) (ids : List Nat) : Prop where
  le : lo ≤ hi
  nodup : ids.Nodup
  bounds : ∀ i ∈ ids, lo ≤ i ∧ i < hi

namespace FreshIds

variable {lo hi : Nat} {ids : List Nat}

lemma nil (h : lo ≤ hi) : FreshIds lo hi [] := ⟨h, List.nodup_nil, by simp⟩

lemma append {mid : Nat} {xs ys : List Nat} (h₁ : FreshIds lo mid xs) (h₂ : FreshIds mid hi ys) :
    FreshIds lo hi (xs ++ ys) where
  le := Nat.le_trans h₁.le h₂.le
  nodup := by
    refine List.nodup_append.2 ⟨h₁.nodup, h₂.nodup, fun i hi j hj => ?_⟩
    have := h₁.bounds i hi
    have := h₂.bounds j hj
    omega
  bounds i hi := by
    rcases List.mem_append.1 hi with hi | hi
    · have := h₁.bounds i hi
      have := h₂.le
      omega
    · have := h₂.bounds i hi
      have := h₁.le
      omega

lemma widen {lo' hi' : Nat} (h : FreshIds lo hi ids) (h₁ : lo' ≤ lo) (h₂ : hi ≤ hi') :
    FreshIds lo' hi' ids :=
  ⟨by have := h.le; omega, h.nodup, fun i hi => by have := h.bounds i hi; omega⟩

lemma perm {ids' : List Nat} (h : FreshIds lo hi ids) (hp : ids.Perm ids') : FreshIds lo hi ids' :=
  ⟨h.le, hp.nodup_iff.1 h.nodup, fun i hi => h.bounds i (hp.mem_iff.2 hi)⟩

end FreshIds

/-- A walk over a list whose every step takes fresh ids takes distinct fresh ids, those of the
first element first. -/
lemma mapM_fresh {f : α → Run β} (ids : β → List Nat)
    (hf : ∀ a w b w', (f a).run.run w = (.ok b, w') → FreshIds w.next w'.next (ids b)) :
    ∀ (xs : List α) {w w' : World} {bs : List β},
      (xs.mapM f).run.run w = (.ok bs, w') → FreshIds w.next w'.next (bs.flatMap ids)
  | [], w, w', bs, h => by
    rw [List.mapM_nil, run_pure] at h
    cases h
    exact FreshIds.nil (Nat.le_refl _)
  | x :: xs, w, w', bs, h => by
    rw [List.mapM_cons] at h
    obtain ⟨b, w₁, h₁, hrest⟩ := bind_eq_ok h
    obtain ⟨bs', w₂, h₂, hbs⟩ := bind_eq_ok hrest
    cases hbs
    exact (hf x w b w₁ h₁).append (mapM_fresh ids hf xs h₂)

lemma mapM_forall {f : α → Run β} {P : β → Prop} :
    ∀ (xs : List α), (∀ a ∈ xs, ∀ w b w', (f a).run.run w = (.ok b, w') → P b) →
      ∀ {w w' : World} {bs : List β}, (xs.mapM f).run.run w = (.ok bs, w') → ∀ b ∈ bs, P b
  | [], _, w, w', bs, h => by
    rw [List.mapM_nil, run_pure] at h
    cases h
    simp
  | x :: xs, hf, w, w', bs, h => by
    rw [List.mapM_cons] at h
    obtain ⟨b, w₁, h₁, hrest⟩ := bind_eq_ok h
    obtain ⟨bs', w₂, h₂, hbs⟩ := bind_eq_ok hrest
    cases hbs
    intro b' hb'
    rcases List.mem_cons.1 hb' with rfl | hb'
    · exact hf x (by simp) _ _ _ h₁
    · exact mapM_forall xs (fun a ha => hf a (by simp [ha])) h₂ b' hb'

lemma mapM_length {f : α → Run β} :
    ∀ (xs : List α) {w w' : World} {bs : List β},
      (xs.mapM f).run.run w = (.ok bs, w') → bs.length = xs.length
  | [], w, w', bs, h => by
    rw [List.mapM_nil, run_pure] at h
    cases h
    rfl
  | x :: xs, w, w', bs, h => by
    rw [List.mapM_cons] at h
    obtain ⟨b, w₁, h₁, hrest⟩ := bind_eq_ok h
    obtain ⟨bs', w₂, h₂, hbs⟩ := bind_eq_ok hrest
    cases hbs
    simp [mapM_length xs h₂]

end ConicForm
