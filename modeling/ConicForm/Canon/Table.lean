import ConicForm.Constraint
/-!
Rule tables. A table maps node kinds and constraint kinds to canonicalization rules; a kind with no
entry is copied over its canonical operands. The standard table `Table.cone` holds the
sixteen rules that leave only affine nodes and cone constraints; any of its rules may also be
registered under another kind.
-/

namespace ConicForm

/-- The standard rules for nodes, each written for the atom it is named after. -/
inductive ConeRule where
  | abs | pos | negPart | norm1 | normInf | norm2 | maximum | minimum
  | sumSquares | quadOverLin | exp | log | entropy | power
  deriving DecidableEq, Repr, Inhabited

inductive ConeConsRule where
  | equality | inequality
  deriving DecidableEq, Repr, Inhabited

/-- A rule for nodes. -/
inductive ExprRule where
  /-- A standard rule. -/
  | cone (r : ConeRule)
  /-- A fresh variable shaped like the first operand (like the node without operands), with
  the auxiliary constraint that it is non-negative. -/
  | epigraph
  /-- The first operand itself. -/
  | passFirst
  /-- Refuses the node. -/
  | reject
  deriving DecidableEq, Repr, Inhabited

/-- A rule for constraints. -/
inductive ConsRule where
  /-- A standard rule. -/
  | cone (r : ConeConsRule)
  /-- Refuses the constraint. -/
  | reject
  /-- The copy over the operands, with the auxiliary constraint that the first operand is
  non-negative. -/
  | copyWithNonneg
  /-- The first operand is zero. -/
  | zeroOfFirst
  deriving DecidableEq, Repr, Inhabited

def ConeRule.kind : ConeRule → Kind
  | .abs => .abs | .pos => .pos | .negPart => .negPart | .norm1 => .norm1
  | .normInf => .normInf | .norm2 => .norm2 | .maximum => .maximum | .minimum => .minimum
  | .sumSquares => .sumSquares | .quadOverLin => .quadOverLin | .exp => .exp | .log => .log
  | .entropy => .entropy | .power => .power

def ConeRule.ofKind? (k : Kind) : Option ConeRule :=
  [ConeRule.abs, .pos, .negPart, .norm1, .normInf, .norm2, .maximum, .minimum, .sumSquares,
    .quadOverLin, .exp, .log, .entropy, .power].find? (·.kind == k)

def ConeConsRule.kind : ConeConsRule → ConeKind
  | .equality => .equality
  | .inequality => .inequality

def ConeConsRule.ofKind? : ConeKind → Option ConeConsRule
  | .equality => some .equality
  | .inequality => some .inequality
  | _ => none

/-- A rule table: at most one rule per kind. -/
structure Table where
  exprs : List (Kind × ExprRule)
  constraints : List (ConeKind × ConsRule)
  deriving Inhabited

namespace Table

/-- The table without rules: every node and constraint is copied. -/
def empty : Table := ⟨[], []⟩

def exprRule? (T : Table) (k : Kind) : Option ExprRule := T.exprs.lookup k

def consRule? (T : Table) (k : ConeKind) : Option ConsRule := T.constraints.lookup k

def withExpr (T : Table) (k : Kind) (r : ExprRule) : Table :=
  { T with exprs := T.exprs.filter (·.1 != k) ++ [(k, r)] }

def withoutExpr (T : Table) (k : Kind) : Table := { T with exprs := T.exprs.filter (·.1 != k) }

def withCons (T : Table) (k : ConeKind) (r : ConsRule) : Table :=
  { T with constraints := T.constraints.filter (·.1 != k) ++ [(k, r)] }

def withoutCons (T : Table) (k : ConeKind) : Table :=
  { T with constraints := T.constraints.filter (·.1 != k) }

def size (T : Table) : Nat := T.exprs.length + T.constraints.length

/-- The standard table: each standard rule under the kind it is written for. -/
def cone : Table :=
  ⟨[ConeRule.abs, .pos, .negPart, .norm1, .normInf, .norm2, .maximum, .minimum, .sumSquares,
      .quadOverLin, .exp, .log, .entropy, .power].map fun r => (r.kind, .cone r),
    [(.equality, .cone .equality), (.inequality, .cone .inequality)]⟩

end Table

end ConicForm
