import ConicForm.Value
/-!
The state that node construction and evaluation share.

Every node and constraint takes its id from one counter, so an id never names two things.
Parameter values and the counts of ticking sources live in slots, so that every copy of a
parameter sees the value last assigned to it. Work that reports on itself appends notes.
-/

namespace ConicForm

inductive Level where
  | debug
  | trace
  deriving DecidableEq, Repr, Inhabited

def Level.name : Level → String
  | .debug => "DEBUG"
  | .trace => "TRACE"

structure Note where
  level : Level
  text : Message
  deriving Inhabited

/-- The shared state. -/
structure World where
  /-- The next fresh id. -/
  next : Nat := 0
  /-- Parameter values by slot, the latest assignment first. -/
  params : List (Nat × Value) := []
  /-- Reads so far of each ticking source, by slot, the latest first. -/
  ticks : List (Nat × Nat) := []
  /-- Notes, the latest last. -/
  notes : Array Note := #[]
  deriving Inhabited

abbrev Build := StateM World

/-- Evaluating and canonicalizing: may fail, and the state reached before a failure is kept. -/
abbrev Run := ExceptT Error Build

namespace World

def param? (w : World) (slot : Nat) : Option Value := w.params.lookup slot

def tickCount (w : World) (slot : Nat) : Nat := (w.ticks.lookup slot).getD 0

end World

def fresh : Build Nat := modifyGet fun w => (w.next, { w with next := w.next + 1 })

def note (level : Level) (text : Message) : Build Unit :=
  modify fun w => { w with notes := w.notes.push ⟨level, text⟩ }

def assignSlot (slot : Nat) (v : Value) : Build Unit :=
  modify fun w => { w with params := (slot, v) :: w.params }

/-- Read a ticking source: the count so far, which is then advanced. -/
def tick (slot : Nat) : Build Nat :=
  modifyGet fun w => (w.tickCount slot, { w with ticks := (slot, w.tickCount slot + 1) :: w.ticks })

@[simp] theorem fresh_run (w : World) : fresh.run w = (w.next, { w with next := w.next + 1 }) := rfl

end ConicForm
