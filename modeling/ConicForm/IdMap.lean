/-!
Maps keyed by ids, kept as lists of pairs in increasing id order with one entry per id.
Inserting an id that is present replaces its entry, so of repeated insertions the last wins.
-/

namespace ConicForm

/-- A map from ids, in increasing id order. -/
abbrev IdMap (α : Type) := List (Nat × α)

namespace IdMap

variable {α : Type}

def insert (m : IdMap α) (k : Nat) (v : α) : IdMap α :=
  match m with
  | [] => [(k, v)]
  | (k', v') :: rest =>
    if k < k' then (k, v) :: (k', v') :: rest
    else if k = k' then (k, v) :: rest
    else (k', v') :: insert rest k v

def lastOfRuns : List (Nat × α) → List (Nat × α)
  | [] => []
  | p :: tl@(q :: _) => if p.1 = q.1 then lastOfRuns tl else p :: lastOfRuns tl
  | [p] => [p]

/-- The map of a list of pairs: sorted by id, keeping the order of pairs with one id, and of
those the last one counts, as if the pairs were inserted in order. -/
def ofList (xs : List (Nat × α)) : IdMap α :=
  lastOfRuns (xs.mergeSort fun a b => decide (a.1 ≤ b.1))

def find? (m : IdMap α) (k : Nat) : Option α := m.lookup k

def keys (m : IdMap α) : List Nat := m.map (·.1)

@[simp] theorem insert_nil (k : Nat) (v : α) : insert ([] : IdMap α) k v = [(k, v)] := rfl

end IdMap

end ConicForm
