import ConicForm.Shape
import ConicForm.Decimal.Layout
/-!
Why an operation fails, and the text that reports it.

An error is a cause with its data; `Error.category` sorts causes into the five families a
caller sees, and `Error.message` writes the report. A report is a `Message`: text with node
ids kept apart, so that a caller can show each id under a name of its own.
-/

namespace ConicForm

inductive Message.Part where
  | text (s : String)
  | node (id : Nat)
  deriving Repr, DecidableEq, Inhabited

/-- A report: text with node ids kept apart. -/
abbrev Message := List Message.Part

namespace Message

def ofText (s : String) : Message := [.text s]

def render (name : Nat → String) (m : Message) : String :=
  String.join (m.map fun
    | .text s => s
    | .node id => "#" ++ name id)

def ids (m : Message) : List Nat :=
  m.filterMap fun
    | .text _ => none
    | .node id => some id

end Message

/-- Floats in reports are written positionally with the fewest digits, an integral value
without a point. -/
def Decimal.Layout.inText : Decimal.Layout :=
  { positional := (-400, 400), pointZero := false, expPlus := false,
    nan := "NaN", inf := "inf", negInf := "-inf" }

/-- The five families of failure. -/
inductive Category where
  | notReconstructible
  | missingValue
  | notEvaluable
  | shapeMismatch
  | invalidProblem
  /-- Not a failure the library reports but one that abandons the whole operation. -/
  | abandoned
  deriving Repr, DecidableEq, Inhabited

def Category.name : Category → String
  | .notReconstructible => "NotReconstructible"
  | .missingValue => "MissingValue"
  | .notEvaluable => "NotEvaluable"
  | .shapeMismatch => "ShapeMismatch"
  | .invalidProblem => "InvalidProblem"
  | .abandoned => "Panic"

/-- Why an operation failed. -/
inductive Error where
  /-- A variable is shared by the canonical tree, never copied. -/
  | variableCopied
  /-- A node of `kind` takes `expected` operands and was given `got`. -/
  | arity (kind : String) (expected got : Nat)
  /-- A maximum or minimum needs an operand. -/
  | noOperands (kind : String)
  /-- The custom operator refuses a new operand list. -/
  | customFixed (kind : String)
  /-- A canonicalization rule for `kind` takes `expected` operands and was given `got`. -/
  | ruleArity (kind : String) (expected got : Nat)
  /-- The power rule was given a node that is not a power. -/
  | notPower (kind : String)
  /-- A variable has no value. -/
  | unsetVariable (id : Nat) (name : Option String)
  /-- A parameter has no value. -/
  | unsetParameter (id : Nat) (name : Option String)
  /-- A value source failed with its own report. -/
  | sourceFailed (why : String)
  /-- A custom operator has no numeric meaning. -/
  | noNumericMeaning (op : String)
  /-- Two operands of incompatible dimensions. -/
  | dimsMismatch (expected got : Nat × Nat)
  /-- A value of `got` dimensions does not fill `shape`. -/
  | sizeMismatch (shape : Shape) (got : Nat × Nat)
  /-- A picked position `i` lies past `len`. -/
  | indexOutOfRange (len i : Nat)
  /-- A divisor that is not a single number. -/
  | notScalar (got : Nat × Nat)
  /-- Only parameters take values. -/
  | notAssignable (kind : String) (id : Nat)
  /-- Indexing takes one or two ranges. -/
  | indexRank (n : Nat)
  /-- An elementwise maximum or minimum of nothing. -/
  | emptyElementwise
  /-- Norms other than 1, 2 and infinity. -/
  | unsupportedNorm (p : Float)
  /-- `maximum` or `minimum` of an empty list. -/
  | emptyList (what : String)
  /-- Inverting a chain with the wrong number of inverse records. -/
  | inverseCount (expected got : Nat)
  /-- A rule that refuses its node. -/
  | ruleRejected (kind : String)
  /-- A rule that needs an operand. -/
  | noArgsFor (kind : String)
  /-- A dense result has as many entries as its shape, but not as many as the shape's first
  two dimensions hold, so it cannot be laid out; the operation is abandoned. -/
  | storageMismatch
  deriving Inhabited

namespace Error

def category : Error → Category
  | .variableCopied | .arity .. | .noOperands _ | .customFixed _ | .ruleArity .. | .notPower _ =>
    .notReconstructible
  | .unsetVariable .. | .unsetParameter .. | .sourceFailed _ => .missingValue
  | .noNumericMeaning _ => .notEvaluable
  | .dimsMismatch .. | .sizeMismatch .. | .indexOutOfRange .. | .notScalar _ => .shapeMismatch
  | .notAssignable .. | .indexRank _ | .emptyElementwise | .unsupportedNorm _ | .emptyList _
  | .inverseCount .. | .ruleRejected _ | .noArgsFor _ => .invalidProblem
  | .storageMismatch => .abandoned

def dimsText (d : Nat × Nat) : String := "(" ++ toString d.1 ++ ", " ++ toString d.2 ++ ")"

def nodeRef (id : Nat) : Option String → Message
  | some n => [.text n]
  | none => [.node id]

def rebuildText (kind why : String) : Message := .ofText ("Cannot canonicalize " ++ kind ++ ": " ++ why)

def shapeText (e g : String) : Message := .ofText ("Shape mismatch: expected " ++ e ++ ", got " ++ g)

def invalidText (why : String) : Message := .ofText ("Invalid problem: " ++ why)

/-- The report of a cause. -/
def message : Error → Message
  | .variableCopied => rebuildText "Variable" "variables are passed through and never copied"
  | .arity k e g => rebuildText k ("expected " ++ toString e ++ " args, got " ++ toString g)
  | .noOperands k => rebuildText k "needs at least one argument"
  | .customFixed k => rebuildText k "custom operator cannot be rebuilt from an args list"
  | .ruleArity k e g =>
    rebuildText k ("expected " ++ toString e ++ (if e = 1 then " arg, got " else " args, got ") ++
      toString g)
  | .notPower k => rebuildText k "power rule applied to a non-power node"
  | .unsetVariable id n =>
    [.text "Missing value: variable "] ++ nodeRef id n ++ [.text " has no value"]
  | .unsetParameter id n =>
    [.text "Missing value: parameter "] ++ nodeRef id n ++ [.text " has no value"]
  | .sourceFailed why => .ofText ("Missing value: " ++ why)
  | .noNumericMeaning op => .ofText ("Cannot evaluate: operator " ++ op ++ " has no numeric semantics")
  | .dimsMismatch e g => shapeText (dimsText e) (dimsText g)
  | .sizeMismatch s g => shapeText s.display (dimsText g)
  | .indexOutOfRange len i => shapeText ("index < " ++ toString len) (toString i)
  | .notScalar g => shapeText "()" (dimsText g)
  | .notAssignable k id =>
    [.text ("Invalid problem: cannot assign a value to " ++ k ++ " node "), .node id]
  | .indexRank n => invalidText ("unsupported index with " ++ toString n ++ " dimensions")
  | .emptyElementwise => invalidText "elementwise max/min of nothing"
  | .unsupportedNorm p =>
    invalidText ("norm p=" ++ Decimal.Layout.inText.render p ++
      " is not supported; use p=1, 2, or inf")
  | .emptyList what => invalidText (what ++ " of an empty list")
  | .inverseCount e g =>
    invalidText ("expected inverse data for " ++ toString e ++ " reductions, got " ++ toString g)
  | .ruleRejected k => invalidText ("rule rejected " ++ k)
  | .noArgsFor k => invalidText ("no args for " ++ k)
  | .storageMismatch =>
    .ofText "Allocation from iterator error: the iterator did not yield the correct number of elements."

end Error

end ConicForm
