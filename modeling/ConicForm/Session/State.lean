import Std.Data.HashMap
import ConicForm.Canon.Chain
import ConicForm.Session.Doc
/-!
A session: the world, the names a caller gave to nodes, and the labels under which ids are
shown.

Ids are never shown raw. A node built from a request is shown under its name or under `_k`;
a node or constraint first seen in an answer is shown under `~k`, numbered in the order
answers mention them. Reports mention ids the same way.
-/

namespace ConicForm

/-- Why a request fails: an error of the library, or a request that cannot be read. -/
inductive Fault where
  | lib (e : Error)
  | badInput (why : String)
  deriving Inhabited

/-- Whether a fault abandons everything, the steps of a sequence included. -/
def Fault.abandons : Fault → Bool
  | .lib e => e.category == .abandoned
  | .badInput _ => false

/-- The state of a session. -/
structure Session where
  world : World := {}
  /-- Expressions by the names a caller gave them. -/
  names : Std.HashMap String Expr := {}
  /-- The label of each labeled id. -/
  labels : Std.HashMap Nat String := {}
  /-- The id of each label, as last given. -/
  ids : Std.HashMap String Nat := {}
  /-- The labels of numbers that reports write after `#` but that are not ids. -/
  numbers : Std.HashMap Nat String := {}
  /-- The next `_k`. -/
  inputCount : Nat := 0
  /-- The next `~k`. -/
  outputCount : Nat := 0
  /-- How many notes of the world were written before the current request. -/
  notesSeen : Nat := 0
  deriving Inhabited

abbrev Act := ExceptT Fault (StateM Session)

namespace Act

def bad {α : Type} (why : String) : Act α := throw (.badInput why)

/-- The outcome of library work on the session's world; an error that abandons the operation
is not an outcome but fails the request. -/
def attempt {α : Type} (x : Run α) : Act (Except Error α) := do
  let s ← get
  let (r, w) := (x.run).run s.world
  set { s with world := w }
  match r with
  | .error e => if e.category == .abandoned then throw (.lib e) else pure r
  | .ok _ => pure r

def lib {α : Type} (x : Run α) : Act α := do
  match ← attempt x with
  | .ok a => pure a
  | .error e => throw (.lib e)

def build {α : Type} (x : Build α) : Act α := do
  let s ← get
  let (a, w) := x.run s.world
  set { s with world := w }
  pure a

def need {α : Type} (o : Option α) (why : String) : Act α :=
  match o with
  | some a => pure a
  | none => bad why

/-- Give `id` a label unless it has one; the label then names `id`, also when it named
another id before. -/
def setLabel (id : Nat) (l : String) : Act Unit :=
  modify fun s =>
    if s.labels.contains id then s
    else { s with labels := s.labels.insert id l, ids := s.ids.insert l id }

def inputLabel (id : Nat) : Act Unit := do
  let s ← get
  unless s.labels.contains id do
    setLabel id ("_" ++ toString s.inputCount)
    modify fun s => { s with inputCount := s.inputCount + 1 }

def label (id : Nat) : Act String := do
  let s ← get
  match s.labels.get? id with
  | some l => pure l
  | none =>
    let l := "~" ++ toString s.outputCount
    modify fun s => { s with outputCount := s.outputCount + 1 }
    setLabel id l
    pure l

def labelTree (e : Expr) : Act Unit := e.preorder.forM fun n => inputLabel n.id

def labelConstraint (c : Constraint) : Act Unit := do
  c.args.forM labelTree
  inputLabel c.id

/-- The label of a number written after `#` in a report's text: the next `~k` when the
number is first seen, the same label after that. -/
def numberLabel (n : Nat) : Act String := do
  let s ← get
  match s.numbers.get? n with
  | some l => pure l
  | none =>
    let l := "~" ++ toString s.outputCount
    set { s with outputCount := s.outputCount + 1, numbers := s.numbers.insert n l }
    pure l

def wordMax : Nat := 18446744073709551615

/-- Text with each `#` followed by digits that fit a 64-bit word written as `#` and the
number's label; digits past a word stay as they are. -/
def relabelChars : Nat → List Char → Act (List Char)
  | 0, cs => pure cs
  | _, [] => pure []
  | fuel + 1, '#' :: rest => do
    let (ds, after) := rest.span Char.isDigit
    let n := ds.foldl (fun a c => a * 10 + (c.toNat - '0'.toNat)) 0
    if ds.isEmpty then pure ('#' :: (← relabelChars fuel rest))
    else if n > wordMax then pure ('#' :: ds ++ (← relabelChars fuel after))
    else
      let l ← numberLabel n
      pure ('#' :: l.toList ++ (← relabelChars fuel after))
  | fuel + 1, c :: rest => do pure (c :: (← relabelChars fuel rest))

def relabelText (t : String) : Act String := do
  pure (String.ofList (← relabelChars (t.length + 1) t.toList))

/-- The text of a report: each id shown by its label, and each run of text relabeled, labels
given in the order the report reads. -/
def messageText (m : Message) : Act String := do
  let (done, pending) ← m.foldlM (fun (acc : String × String) part =>
      match part with
      | .text t => pure (acc.1, acc.2 ++ t)
      | .node id => do
        let run ← relabelText acc.2
        let l ← label id
        pure (acc.1 ++ run ++ "#" ++ l, "")) ("", "")
  pure (done ++ (← relabelText pending))

def faultDoc (f : Fault) : Act Doc :=
  match f with
  | .lib e => do
    pure (.obj [("error", .str e.category.name), ("message", .str (← messageText e.message))])
  | .badInput why => pure (.obj [("error", .str "BadInput"), ("message", .str why)])

def named (n : String) : Act Expr := do
  match (← get).names.get? n with
  | some e => pure e
  | none => bad ("unknown ref " ++ n)

def store (n : String) (e : Expr) : Act Unit :=
  modify fun s => { s with names := s.names.insert n e }

/-- The id of a label; an unknown label gets a fresh id that names nothing. -/
def resolve (l : String) : Act Nat := do
  match (← get).ids.get? l with
  | some id => pure id
  | none => build fresh

end Act

end ConicForm
