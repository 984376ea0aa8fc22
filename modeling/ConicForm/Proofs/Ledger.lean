import ConicForm.Proofs.Rules
import ConicForm.Proofs.Vocabulary
/-!
What a canonicalization makes, and with which ids. A ledger records, for each id taken so far,
the node or constraint that received it; a builder extends it at the id it takes, and a rule by
everything it makes (`Makes`). An output *shows* a node when the node is a variable of the input
or one the ledger has at its id, built over its operands as the builders build (`Shows`).
-/

namespace ConicForm

def Op.takes (op : Op) (n : Nat) : Bool :=
  match op with
  | .custom c => c.rebuildable
  | op =>
    match op.arity n with
    | .exactly k => k == n
    | .any => true
    | .atLeastOne => n != 0

/-- A node as the builders make it: an operator node has the shape and flags its operands give,
and an operand count its operator takes. -/
def Expr.Built : Expr → Prop
  | .node _ op args s c h => s = op.inferShape (args.map (·.shape)) ∧ c = args.all (·.isConst) ∧
      h = args.any (·.hasParams) ∧ op.takes args.length = true
  | _ => True

abbrev Made := Expr ⊕ Constraint

/-- What a call has made, by the id each thing took from the counter. -/
abbrev Ledger := Nat → Option Made

namespace Ledger

def Le (L L' : Ledger) : Prop := ∀ k o, L k = some o → L' k = some o

/-- The ledger of a call begun at counter `lo`, when the counter is at `hi`: every entry took its
id in between. -/
structure Within (L : Ledger) (lo hi : Nat) : Prop where
  le : lo ≤ hi
  bounds : ∀ k o, L k = some o → lo ≤ k ∧ k < hi

def record (L : Ledger) (k : Nat) (o : Made) : Ledger := fun j => if j = k then some o else L j

lemma Le.refl (L : Ledger) : L.Le L := fun _ _ h => h

lemma Le.trans {L₁ L₂ L₃ : Ledger} (h₁ : L₁.Le L₂) (h₂ : L₂.Le L₃) : L₁.Le L₃ :=
  fun k o h => h₂ k o (h₁ k o h)

@[simp] lemma record_self (L : Ledger) (k : Nat) (o : Made) : L.record k o k = some o := by
  simp [record]

lemma within_empty (lo : Nat) : Within (fun _ => none) lo lo :=
  ⟨Nat.le_refl _, fun _ _ h => by cases h⟩

variable {L : Ledger} {lo hi : Nat}

lemma Within.le_record (hW : L.Within lo hi) (o : Made) : L.Le (L.record hi o) := by
  intro k o' hk
  have hlt := (hW.bounds k o' hk).2
  simp [record, Nat.ne_of_lt hlt, hk]

lemma Within.record (hW : L.Within lo hi) (o : Made) : (L.record hi o).Within lo (hi + 1) where
  le := Nat.le_succ_of_le hW.le
  bounds k o' hk := by
    unfold Ledger.record at hk
    split at hk
    · subst k
      exact ⟨hW.le, Nat.lt_succ_self _⟩
    · have := hW.bounds k o' hk
      omega

lemma Within.mono (hW : L.Within lo hi) {hi' : Nat} (h : hi = hi') : L.Within lo hi' := h ▸ hW

end Ledger

/-! ### What an output shows -/

section Shows

variable (src : List Expr)

/-- The node may stand in the output of a canonicalization of trees with nodes `src`: it is a
variable of them, or a node the ledger has at its id, built over its operands. -/
def Shows (L : Ledger) (n : Expr) : Prop :=
  (n.isVariable = true ∧ n ∈ src) ∨ (L n.id = some (.inl n) ∧ n.Built)

def ShowsTree (L : Ledger) (e : Expr) : Prop := ∀ n ∈ e.preorder, Shows src L n

def ShowsCons (L : Ledger) (c : Constraint) : Prop :=
  L c.id = some (.inr c) ∧ ∀ a ∈ c.args, ShowsTree src L a

variable {src} {L L' : Ledger}

lemma Shows.mono (h : L.Le L') {n : Expr} (hn : Shows src L n) : Shows src L' n :=
  hn.imp id fun hn => ⟨h _ _ hn.1, hn.2⟩

lemma Shows.built {n : Expr} (hn : Shows src L n) : n.Built := by
  rcases hn with ⟨hv, -⟩ | ⟨-, hb⟩
  · cases n
    case node => simp [Expr.isVariable] at hv
    all_goals trivial
  · exact hb

lemma ShowsTree.mono (h : L.Le L') {e : Expr} (he : ShowsTree src L e) : ShowsTree src L' e :=
  fun n hn => (he n hn).mono h

lemma ShowsCons.mono (h : L.Le L') {c : Constraint} (hc : ShowsCons src L c) :
    ShowsCons src L' c :=
  ⟨h _ _ hc.1, fun a ha => (hc.2 a ha).mono h⟩

lemma showsTree_var {i : Nat} {v : VarInfo} (h : Expr.var i v ∈ src) :
    ShowsTree src L (.var i v) := by
  simpa [ShowsTree, Shows, Expr.isVariable] using Or.inl h

lemma showsTree_leaf {e : Expr} (hleaf : e.preorder = [e]) (hbuilt : e.Built)
    (hL : L e.id = some (.inl e)) : ShowsTree src L e := by
  intro n hn
  rw [hleaf, List.mem_singleton] at hn
  subst hn
  exact Or.inr ⟨hL, hbuilt⟩

lemma showsTree_node {i : Nat} {op : Op} {args : List Expr} {s : Shape} {c h : Bool}
    (hbuilt : (Expr.node i op args s c h).Built)
    (hL : L i = some (.inl (.node i op args s c h))) (hargs : ∀ a ∈ args, ShowsTree src L a) :
    ShowsTree src L (.node i op args s c h) := by
  intro n hn
  rw [Expr.preorder_node, List.mem_cons, List.mem_flatMap] at hn
  rcases hn with rfl | ⟨a, ha, hn⟩
  · exact Or.inr ⟨hL, hbuilt⟩
  · exact hargs a ha n hn

end Shows

/-! ### Steps that extend the ledger -/

variable {α β : Type} {lo : Nat} {src : List Expr} {L : Ledger}

/-- Run from a world whose counter is past the ledger, the building step `b` extends the ledger
by what it makes, at ids it takes, to one that `Q` holds of with its result. -/
def BMakes (lo : Nat) (L : Ledger) (b : Build α) (Q : Ledger → α → Prop) : Prop :=
  ∀ w, L.Within lo w.next → ∃ L', L.Le L' ∧ L'.Within lo (b.run w).2.next ∧ Q L' (b.run w).1

/-- Run from a world whose counter is past the ledger, the step `x` succeeds only by extending
the ledger by what it makes, at ids it takes, to one that `Q` holds of with its result. -/
def Makes (lo : Nat) (L : Ledger) (x : Run α) (Q : Ledger → α → Prop) : Prop :=
  ∀ w a w', L.Within lo w.next → x.run.run w = (.ok a, w') →
    ∃ L', L.Le L' ∧ L'.Within lo w'.next ∧ Q L' a

namespace BMakes

variable {Q : Ledger → α → Prop} {R : Ledger → β → Prop}

lemma pure {a : α} (h : Q L a) : BMakes lo L (Pure.pure a : Build α) Q :=
  fun _ hW => ⟨L, Ledger.Le.refl L, hW, h⟩

lemma bind {b : Build α} {f : α → Build β} (hb : BMakes lo L b Q)
    (hf : ∀ L₁ a, L.Le L₁ → Q L₁ a → BMakes lo L₁ (f a) R) : BMakes lo L (b >>= f) R := by
  intro w hW
  obtain ⟨L₁, h₁, hW₁, hQ⟩ := hb w hW
  obtain ⟨L₂, h₂, hW₂, hR⟩ := hf L₁ _ h₁ hQ _ hW₁
  rw [build_bind_run]
  exact ⟨L₂, h₁.trans h₂, hW₂, hR⟩

end BMakes

namespace Makes

variable {Q : Ledger → α → Prop} {R : Ledger → β → Prop}

lemma pure {a : α} (h : Q L a) : Makes lo L (Pure.pure a : Run α) Q := by
  intro w b w' hW hr
  cases hr
  exact ⟨L, Ledger.Le.refl L, hW, h⟩

lemma throw {e : Error} : Makes lo L (throw e : Run α) Q := by
  intro w b w' _ hr
  cases hr

lemma bind {x : Run α} {f : α → Run β} (hx : Makes lo L x Q)
    (hf : ∀ L₁ a, L.Le L₁ → Q L₁ a → Makes lo L₁ (f a) R) : Makes lo L (x >>= f) R := by
  intro w b w' hW h
  obtain ⟨a, w₁, h₁, h₂⟩ := bind_eq_ok h
  obtain ⟨L₁, hL₁, hW₁, hQ⟩ := hx w a w₁ hW h₁
  obtain ⟨L₂, hL₂, hW₂, hR⟩ := hf L₁ a hL₁ hQ w₁ b w' hW₁ h₂
  exact ⟨L₂, hL₁.trans hL₂, hW₂, hR⟩

lemma lift {b : Build α} (hb : BMakes lo L b Q) : Makes lo L (monadLift b : Run α) Q := by
  intro w a w' hW hr
  simp only [run_monadLift] at hr
  cases hr
  exact hb w hW

lemma bind_keep {x : Run α} {f : α → Run β}
    (hx : ∀ w a w', x.run.run w = (.ok a, w') → w'.next = w.next) (hf : ∀ a, Makes lo L (f a) R) :
    Makes lo L (x >>= f) R := by
  intro w b w' hW h
  obtain ⟨a, w₁, h₁, h₂⟩ := bind_eq_ok h
  exact hf a w₁ b w' (hW.mono (hx w a w₁ h₁).symm) h₂

lemma throw_bind {e : Error} {f : α → Run β} :
    Makes lo L ((MonadExcept.throw e : Run α) >>= f) R := by
  intro w b w' _ h
  obtain ⟨a, w₁, h₁, -⟩ := bind_eq_ok h
  cases h₁

lemma mapM {f : α → Run β} {P : Ledger → β → Prop}
    (hP : ∀ L L' b, L.Le L' → P L b → P L' b) :
    ∀ (xs : List α) {L : Ledger}, (∀ L' a, a ∈ xs → L.Le L' → Makes lo L' (f a) P) →
      Makes lo L (xs.mapM f) fun L' bs => ∀ b ∈ bs, P L' b
  | [], L, _ => by
    rw [List.mapM_nil]
    exact Makes.pure (by simp)
  | x :: xs, L, hf => by
    rw [List.mapM_cons]
    refine (hf L x (by simp) (Ledger.Le.refl L)).bind fun L₁ b hL₁ hb => ?_
    refine (mapM hP xs fun L' a ha hL' => hf L' a (by simp [ha]) (hL₁.trans hL')).bind
      fun L₂ bs hL₂ hbs => Makes.pure ?_
    simpa using ⟨hP _ _ _ hL₂ hb, hbs⟩

end Makes

/-! ### The builders -/

section Builders

lemma bmakes_fresh {Q : Ledger → α → Prop} {b : Build α} (mk : Nat → α) (made : α → Made)
    (hb : ∀ w, b.run w = (mk w.next, { w with next := w.next + 1 }))
    (hQ : ∀ L' k, L.Le L' → L' k = some (made (mk k)) → Q L' (mk k)) : BMakes lo L b Q := by
  intro w hW
  rw [hb]
  exact ⟨L.record w.next (made (mk w.next)), hW.le_record _, hW.record _,
    hQ _ _ (hW.le_record _) (by simp)⟩

lemma bmakes_build {op : Op} {args : List Expr} (hop : op.takes args.length = true)
    (hargs : ∀ a ∈ args, ShowsTree src L a) :
    BMakes lo L (Expr.build op args) fun L' r => ShowsTree src L' r :=
  bmakes_fresh (fun k => .node k op args _ _ _) .inl (fun _ => rfl) fun _ _ hL hk =>
    showsTree_node ⟨rfl, rfl, rfl, hop⟩ hk fun a ha => (hargs a ha).mono hL

lemma bmakes_newVar (src : List Expr) (v : VarInfo) :
    BMakes lo L (Expr.newVar v) fun L' r => ShowsTree src L' r :=
  bmakes_fresh (fun k => .var k v) .inl (fun _ => rfl) fun _ _ _ hk =>
    showsTree_leaf (Expr.preorder_var _ _) trivial hk

lemma bmakes_constant (src : List Expr) (v : Value) (s : Shape) :
    BMakes lo L (Expr.constant v s) fun L' r => ShowsTree src L' r :=
  bmakes_fresh (fun k => .const k v s) .inl (fun _ => rfl) fun _ _ _ hk =>
    showsTree_leaf (Expr.preorder_const _ _ _) trivial hk

lemma bmakes_deferredOf (src : List Expr) (s : Shape) (body : Expr) :
    BMakes lo L (Expr.deferredOf s body) fun L' r => ShowsTree src L' r :=
  bmakes_fresh (fun k => .deferred k s body) .inl (fun _ => rfl) fun _ _ _ hk =>
    showsTree_leaf (Expr.preorder_deferred _ _ _) trivial hk

lemma bmakes_filled (src : List Expr) (s : Shape) (x : Float) :
    BMakes lo L (Expr.filled s x) fun L' r => ShowsTree src L' r :=
  bmakes_constant src _ _

lemma bmakes_make {r : Relation} (hargs : ∀ a ∈ r.args, ShowsTree src L a) :
    BMakes lo L (Constraint.make r) fun L' c => ShowsCons src L' c :=
  bmakes_fresh (fun k => ⟨k, r⟩) .inr (fun _ => rfl) fun _ _ hL hk =>
    ⟨hk, fun a ha => (hargs a ha).mono hL⟩

lemma bmakes_sub {a b : Expr} (ha : ShowsTree src L a) (hb : ShowsTree src L b) :
    BMakes lo L (Expr.sub a b) fun L' r => ShowsTree src L' r := by
  refine (bmakes_build rfl (by simpa using hb)).bind fun L₁ nb hL₁ hnb => ?_
  exact bmakes_build rfl (by simpa using ⟨ha.mono hL₁, hnb⟩)

lemma bmakes_scale (k : Float) {a : Expr} (ha : ShowsTree src L a) :
    BMakes lo L (Expr.scale k a) fun L' r => ShowsTree src L' r := by
  refine (bmakes_constant src _ _).bind fun L₁ c hL₁ hc => ?_
  exact bmakes_build rfl (by simpa using ⟨hc, ha.mono hL₁⟩)

end Builders

/-! ### The rules -/

section Rules

abbrev ShowsResult (src : List Expr) (L : Ledger) (p : Expr × List Constraint) : Prop :=
  ShowsTree src L p.1 ∧ ∀ c ∈ p.2, ShowsCons src L c

abbrev ShowsConsResult (src : List Expr) (L : Ledger) (p : Constraint × List Constraint) : Prop :=
  ShowsCons src L p.1 ∧ ∀ c ∈ p.2, ShowsCons src L c

lemma ShowsResult.mono {L L' : Ledger} (h : L.Le L') {p : Expr × List Constraint}
    (hp : ShowsResult src L p) : ShowsResult src L' p :=
  ⟨hp.1.mono h, fun c hc => (hp.2 c hc).mono h⟩

variable {args : List Expr} (hargs : ∀ a ∈ args, ShowsTree src L a)
include hargs

lemma makes_one {k : String} : Makes lo L (Rules.one k args) fun L' x => ShowsTree src L' x := by
  intro w x w' hW h
  obtain ⟨rfl, rfl⟩ := Rules.one_ok h
  exact ⟨L, Ledger.Le.refl L, hW, hargs x (by simp)⟩

lemma makes_two {k : String} :
    Makes lo L (Rules.two k args) fun L' p => ShowsTree src L' p.1 ∧ ShowsTree src L' p.2 := by
  intro w p w' hW h
  obtain ⟨rfl, rfl⟩ := Rules.two_ok h
  exact ⟨L, Ledger.Le.refl L, hW, hargs _ (by simp), hargs _ (by simp)⟩

omit hargs in
lemma makes_nonneg {e : Expr} (he : ShowsTree src L e) :
    Makes lo L (Rules.nonneg e) fun L' c => ShowsCons src L' c :=
  Makes.lift (bmakes_make (by simpa [Relation.args] using he))

omit hargs in
lemma makes_bothSides {t x : Expr} (ht : ShowsTree src L t) (hx : ShowsTree src L x) :
    Makes lo L (Rules.bothSides t x) fun L' cs => ∀ c ∈ cs, ShowsCons src L' c := by
  refine (Makes.lift (bmakes_sub ht hx)).bind fun L₁ d hL₁ hd => ?_
  refine (makes_nonneg hd).bind fun L₂ c₁ hL₂ hc₁ => ?_
  have hL := hL₁.trans hL₂
  refine (Makes.lift (bmakes_build rfl (by simpa using ⟨ht.mono hL, hx.mono hL⟩))).bind
    fun L₃ s hL₃ hs => ?_
  refine (makes_nonneg hs).bind fun L₄ c₂ hL₄ hc₂ => Makes.pure ?_
  simpa using ⟨(hc₁.mono hL₃).mono hL₄, hc₂⟩

omit hargs in
lemma makes_rotatedSoc {x t y : Expr} (hx : ShowsTree src L x) (ht : ShowsTree src L t)
    (hy : ShowsTree src L y) :
    Makes lo L (Rules.rotatedSoc x t y) fun L' c => ShowsCons src L' c := by
  have hflat : Makes lo L (Rules.flattenMatrix x) fun L' r => ShowsTree src L' r := by
    unfold Rules.flattenMatrix
    split
    · exact Makes.pure hx
    · exact Makes.lift (bmakes_build rfl (by simpa using hx))
  refine hflat.bind fun L₁ fx hL₁ hfx => ?_
  refine (Makes.lift (bmakes_scale 2 hfx)).bind fun L₂ twice hL₂ htwice => ?_
  have hL := hL₁.trans hL₂
  refine (Makes.lift (bmakes_sub (ht.mono hL) (hy.mono hL))).bind fun L₃ diff hL₃ hdiff => ?_
  refine (Makes.lift (bmakes_build rfl (by simpa using ⟨htwice.mono hL₃, hdiff⟩))).bind
    fun L₄ st hL₄ hst => ?_
  have hL' := hL.trans (hL₃.trans hL₄)
  refine (Makes.lift (bmakes_build rfl (by simpa using ⟨ht.mono hL', hy.mono hL'⟩))).bind
    fun L₅ tot hL₅ htot => ?_
  exact Makes.lift (bmakes_make (by simpa [Relation.args] using ⟨htot, hst.mono hL₅⟩))

/-- A standard rule over shown operands shows its replacement and its constraints: each is an
operand, a fresh variable, or built over them. -/
lemma ConeRule.makes (r : ConeRule) (e : Expr) :
    Makes lo L (r.apply e args) (ShowsResult src) := by
  cases r
  case maximum | minimum =>
    -- a fresh `t` and one constraint for each operand
    refine (Makes.lift (bmakes_newVar src _)).bind fun L₁ t hL₁ ht => ?_
    have hmono : ∀ L L' c, L.Le L' → ShowsCons src L c → ShowsCons src L' c :=
      fun _ _ _ h hc => hc.mono h
    refine (Makes.mapM hmono args fun L₂ a ha hL₂ => ?_).bind fun L₃ cs hL₃ hcs =>
      Makes.pure ⟨ht.mono hL₃, hcs⟩
    have ha := (hargs a ha).mono (hL₁.trans hL₂)
    refine (Makes.lift (bmakes_sub ?_ ?_)).bind fun L₄ d _ hd => makes_nonneg hd
    all_goals first | exact ha | exact ht.mono hL₂
  case power =>
    dsimp only [ConeRule.apply]
    split
    · rw [pure_bind]
      refine (makes_one hargs).bind fun L₁ x _ hx => ?_
      -- the exponent decides between the operand itself, a constant, and a power cone
      split
      · exact Makes.pure ⟨hx, by simp⟩
      split
      · exact (Makes.lift (bmakes_filled src _ _)).bind fun L₂ o _ ho => Makes.pure ⟨ho, by simp⟩
      · refine (Makes.lift (bmakes_newVar src _)).bind fun L₂ t hL₂ ht => ?_
        refine (Makes.lift (bmakes_filled src _ _)).bind fun L₃ o hL₃ ho => ?_
        have hx' := hx.mono (hL₂.trans hL₃)
        have ht' := ht.mono hL₃
        refine (Makes.lift (bmakes_make ?_)).bind fun L₄ c hL₄ (hc : ShowsCons src L₄ c) => ?_
        · repeat' split
          all_goals simp [Relation.args, hx', ht', ho]
        · exact Makes.pure ⟨ht'.mono hL₄, by simpa using hc⟩
    · exact Makes.throw_bind
  case sumSquares =>
    refine (makes_one hargs).bind fun L₁ x _ hx => ?_
    refine (Makes.lift (bmakes_newVar src _)).bind fun L₂ t hL₂ ht => ?_
    refine (Makes.lift (bmakes_constant src _ _)).bind fun L₃ y hL₃ hy => ?_
    refine (makes_rotatedSoc (hx.mono (hL₂.trans hL₃)) (ht.mono hL₃) hy).bind
      fun L₄ c hL₄ hc => Makes.pure ⟨(ht.mono hL₃).mono hL₄, by simpa using hc⟩
  case quadOverLin =>
    refine (makes_two hargs).bind fun L₁ p _ hp => ?_
    obtain ⟨x, y⟩ := p
    refine (Makes.lift (bmakes_newVar src _)).bind fun L₂ t hL₂ ht => ?_
    refine (makes_rotatedSoc (hp.1.mono hL₂) ht (hp.2.mono hL₂)).bind
      fun L₃ c hL₃ hc => Makes.pure ⟨ht.mono hL₃, by simpa using hc⟩
  case abs | normInf =>
    refine (makes_one hargs).bind fun L₁ x _ hx => ?_
    refine (Makes.lift (bmakes_newVar src _)).bind fun L₂ t hL₂ ht => ?_
    exact (makes_bothSides ht (hx.mono hL₂)).bind fun L₃ cs hL₃ hcs =>
      Makes.pure ⟨ht.mono hL₃, hcs⟩
  case norm1 =>
    refine (makes_one hargs).bind fun L₁ x _ hx => ?_
    refine (Makes.lift (bmakes_newVar src _)).bind fun L₂ t hL₂ ht => ?_
    refine (makes_bothSides ht (hx.mono hL₂)).bind fun L₃ cs hL₃ hcs => ?_
    exact (Makes.lift (bmakes_build rfl (by simpa using ht.mono hL₃))).bind
      fun L₄ s hL₄ hs => Makes.pure ⟨hs, fun c hc => (hcs c hc).mono hL₄⟩
  case pos | negPart =>
    refine (makes_one hargs).bind fun L₁ x _ hx => ?_
    refine (Makes.lift (bmakes_newVar src _)).bind fun L₂ t hL₂ ht => ?_
    refine (Makes.lift ?_).bind fun L₃ d hL₃ (hd : ShowsTree src L₃ d) => ?_
    · first
        | exact bmakes_sub ht (hx.mono hL₂)
        | exact bmakes_build rfl (by simpa using ⟨ht, hx.mono hL₂⟩)
    refine (makes_nonneg hd).bind fun L₄ c₁ hL₄ hc₁ => ?_
    have ht' := ht.mono (hL₃.trans hL₄)
    exact (makes_nonneg ht').bind fun L₅ c₂ hL₅ hc₂ =>
      Makes.pure ⟨ht'.mono hL₅, by simpa using ⟨hc₁.mono hL₅, hc₂⟩⟩
  case norm2 =>
    refine (makes_one hargs).bind fun L₁ x _ hx => ?_
    refine (Makes.lift (bmakes_newVar src _)).bind fun L₂ t hL₂ ht => ?_
    exact (Makes.lift (bmakes_make (by simpa [Relation.args] using ⟨ht, hx.mono hL₂⟩))).bind
      fun L₃ c hL₃ (hc : ShowsCons src L₃ c) => Makes.pure ⟨ht.mono hL₃, by simpa using hc⟩
  case exp | log | entropy =>
    refine (makes_one hargs).bind fun L₁ x _ hx => ?_
    refine (Makes.lift (bmakes_newVar src _)).bind fun L₂ t hL₂ ht => ?_
    refine (Makes.lift (bmakes_filled src _ _)).bind fun L₃ o hL₃ ho => ?_
    have hx' := hx.mono (hL₂.trans hL₃)
    have ht' := ht.mono hL₃
    exact (Makes.lift (bmakes_make (by simp [Relation.args, hx', ht', ho]))).bind
      fun L₄ c hL₄ (hc : ShowsCons src L₄ c) => Makes.pure ⟨ht'.mono hL₄, by simpa using hc⟩

lemma ExprRule.makes (r : ExprRule) (e : Expr) :
    Makes lo L (r.apply e args) (ShowsResult src) := by
  cases r
  case cone c => exact c.makes hargs e
  case epigraph =>
    refine (Makes.lift (bmakes_newVar src _)).bind fun L₁ t _ ht => ?_
    exact (makes_nonneg ht).bind fun L₂ c hL₂ hc => Makes.pure ⟨ht.mono hL₂, by simpa using hc⟩
  case passFirst =>
    dsimp only [ExprRule.apply]
    split
    · exact Makes.pure ⟨hargs _ (by simp), by simp⟩
    · exact Makes.throw
  case reject => exact Makes.throw

lemma Constraint.makes_withArgs (c : Constraint) :
    Makes lo L (c.withArgs args) fun L' k => ShowsCons src L' k := by
  unfold Constraint.withArgs
  split
  · rename_i r hr
    rw [← (Relation.withArgs_ok hr).2] at hargs
    exact Makes.lift (bmakes_make hargs)
  · exact Makes.throw

lemma ConsRule.makes (r : ConsRule) (c : Constraint) :
    Makes lo L (r.apply c args) (ShowsConsResult src) := by
  rcases r with (_ | _) | _ | _ | _
  · -- `lhs - rhs = 0`
    refine (makes_two hargs).bind fun L₁ p _ hp => ?_
    obtain ⟨lhs, rhs⟩ := p
    refine (Makes.lift (bmakes_sub hp.1 hp.2)).bind fun L₂ d _ hd => ?_
    exact (Makes.lift (bmakes_make (by simpa [Relation.args] using hd))).bind
      fun L₃ k _ (hk : ShowsCons src L₃ k) => Makes.pure ⟨hk, by simp⟩
  · -- `lhs + s - rhs = 0` with a non-negative slack `s`
    refine (makes_two hargs).bind fun L₁ p _ hp => ?_
    obtain ⟨lhs, rhs⟩ := p
    refine (Makes.lift (bmakes_newVar src _)).bind fun L₂ s hL₂ hs => ?_
    refine (Makes.lift (bmakes_build rfl (by simpa using ⟨hp.1.mono hL₂, hs⟩))).bind
      fun L₃ sum hL₃ hsum => ?_
    refine (Makes.lift (bmakes_sub hsum (hp.2.mono (hL₂.trans hL₃)))).bind fun L₄ d hL₄ hd => ?_
    refine (Makes.lift (bmakes_make (by simpa [Relation.args] using hd))).bind
      fun L₅ top hL₅ (htop : ShowsCons src L₅ top) => ?_
    exact (makes_nonneg (hs.mono (hL₃.trans (hL₄.trans hL₅)))).bind
      fun L₆ k hL₆ hk => Makes.pure ⟨htop.mono hL₆, by simpa using hk⟩
  · exact Makes.throw
  · refine (c.makes_withArgs hargs).bind fun L₁ top hL₁ htop => ?_
    split
    · exact (makes_nonneg ((hargs _ (by simp)).mono hL₁)).bind
        fun L₂ k hL₂ hk => Makes.pure ⟨htop.mono hL₂, by simpa using hk⟩
    · exact Makes.throw
  · dsimp only [ConsRule.apply]
    split
    · exact (Makes.lift (bmakes_make (by simpa [Relation.args] using hargs _ (by simp)))).bind
        fun L₁ k _ (hk : ShowsCons src L₁ k) => Makes.pure ⟨hk, by simp⟩
    · exact Makes.throw

end Rules

/-! ### Copies -/

/-- An operator other than a custom one takes the same operand counts whatever count it was
built with. -/
lemma Op.arity_of_not_custom {op : Op} (h : ∀ c, op = .custom c → False) (m n : Nat) :
    op.arity m = op.arity n := by
  cases op
  case custom c => exact (h c rfl).elim
  all_goals rfl

lemma Op.takes_of_not_custom {op : Op} (h : ∀ c, op = .custom c → False) (n : Nat) :
    op.takes n = match op.arity n with
      | .exactly k => k == n
      | .any => true
      | .atLeastOne => n != 0 := by
  cases op
  case custom c => exact (h c rfl).elim
  all_goals rfl

lemma makes_fresh {Q : Ledger → α → Prop} {x : Run α} (mk : Nat → α) (made : α → Made)
    (hx : ∀ w, x.run.run w = (.ok (mk w.next), { w with next := w.next + 1 }))
    (hQ : ∀ L' k, L.Le L' → L' k = some (made (mk k)) → Q L' (mk k)) : Makes lo L x Q := by
  intro w a w' hW h
  rw [hx] at h
  cases h
  exact ⟨L.record w.next (made (mk w.next)), hW.le_record _, hW.record _,
    hQ _ _ (hW.le_record _) (by simp)⟩

lemma Expr.makes_withArgs (e : Expr) {args : List Expr} (hargs : ∀ a ∈ args, ShowsTree src L a) :
    Makes lo L (e.withArgs args) fun L' r => ShowsTree src L' r := by
  unfold Expr.withArgs
  dsimp only
  split
  · exact Makes.throw
  · rename_i op old _ _ _
    split
    · -- a custom operator keeps its operand count, and must be rebuildable
      split
      · exact Makes.throw
      split
      · exact Makes.throw
      rename_i hre _
      exact Makes.lift (bmakes_build (by simpa [Op.takes] using hre) hargs)
    · rename_i _ hnc
      have htakes := Op.takes_of_not_custom hnc args.length
      rw [Op.arity_of_not_custom hnc old.length args.length]
      split <;> rename_i harity <;> rw [harity] at htakes
      · split
        · exact Makes.throw
        · exact Makes.lift (bmakes_build (by simp_all) hargs)
      · exact Makes.lift (bmakes_build htakes hargs)
      · split
        · exact Makes.throw
        · exact Makes.lift (bmakes_build (by simp_all) hargs)
  · -- a leaf other than a variable is copied with a fresh id
    rename_i _ hvar hnode
    split
    · exact Makes.throw
    refine makes_fresh e.copyLeaf .inl (fun _ => rfl) fun L' k _ hk => ?_
    cases e
    case var i v => exact (hvar i v rfl).elim
    case node i op args s c p => exact (hnode i op args s c p rfl).elim
    all_goals
      exact showsTree_leaf (Expr.preorder_of_not_node fun _ _ _ _ _ _ h => Expr.noConfusion h)
        trivial hk

end ConicForm
