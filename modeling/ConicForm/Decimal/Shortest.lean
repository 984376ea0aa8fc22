/-!
The shortest decimal that reads back as a given binary64 value.

A finite float is `m · 2^q`. The reals that round to it form an interval around it, from
halfway to the neighbour below to halfway to the neighbour above, with both ends included
exactly when `m` is even (reading rounds ties to even). `Binary.shortest` searches the
decimal grids `10^(e - n + 1)` for `n = 1, 2, …` digits, where `10^e ≤ m · 2^q < 10^(e+1)`;
on each grid only the two neighbours of the value can lie in the interval, so the first grid
with a hit gives the fewest digits, and of two hits the nearer one is taken.
-/

namespace ConicForm.Decimal

/-- A finite non-negative binary64 magnitude `m · 2^q`. -/
structure Binary where
  m : Nat
  q : Int
  /-- The gap to the value below is half the gap to the value above. -/
  narrowBelow : Bool
  deriving Repr, DecidableEq

structure Dec where
  digits : Nat
  exp : Int
  deriving Repr, DecidableEq, Inhabited

def Binary.ofBits (b : UInt64) : Binary :=
  let e := ((b >>> 52) &&& 0x7FF).toNat
  let f := (b &&& 0xFFFFFFFFFFFFF).toNat
  if e == 0 then ⟨f, -1074, false⟩ else ⟨Nat.pow 2 52 + f, (e : Int) - 1075, f == 0 && e > 1⟩

def cmpScaled (a : Nat) (i : Int) (n : Nat) (j : Int) : Ordering :=
  compare (a * Nat.pow 10 i.toNat * Nat.pow 2 (-j).toNat) (n * Nat.pow 2 j.toNat * Nat.pow 10 (-i).toNat)

/-- The decimal lies among the reals that round to the value. -/
def Binary.readsBack (x : Binary) (d : Dec) : Bool :=
  let lo := if x.narrowBelow then 4 * x.m - 1 else 4 * x.m - 2
  let hi := 4 * x.m + 2
  let incl := x.m % 2 == 0
  let cl := cmpScaled d.digits d.exp lo (x.q - 2)
  let ch := cmpScaled d.digits d.exp hi (x.q - 2)
  (cl == .gt || (incl && cl == .eq)) && (ch == .lt || (incl && ch == .eq))

def digitCount (n : Nat) : Nat := if n = 0 then 0 else (Nat.toDigits 10 n).length

/-- The decimal exponent `e` with `10^e ≤ m · 2^q < 10^(e+1)`, for `m > 0`. -/
def Binary.scale (x : Binary) : Int :=
  let num := x.m * Nat.pow 2 x.q.toNat
  let den := Nat.pow 2 (-x.q).toNat
  if den ≤ num then (digitCount (num / den) : Int) - 1
  else -((digitCount ((den + num - 1) / num - 1) : Int))

def Binary.floorOnGrid (x : Binary) (k : Int) : Nat :=
  (x.m * Nat.pow 2 x.q.toNat * Nat.pow 10 (-k).toNat) / (Nat.pow 2 (-x.q).toNat * Nat.pow 10 k.toNat)

/-- The point of the grid `10^k` that lies in the interval, if any; of two, the nearer to
the value, and the upper one on an exact tie. -/
def Binary.onGrid (x : Binary) (k : Int) : Option Dec :=
  let low : Dec := ⟨x.floorOnGrid k, k⟩
  let high : Dec := ⟨x.floorOnGrid k + 1, k⟩
  match x.readsBack low, x.readsBack high with
  | true, true =>
    -- twice the value against the sum of the two neighbours
    if cmpScaled (2 * low.digits + 1) k (2 * x.m) x.q == .gt then some low else some high
  | true, false => some low
  | false, true => some high
  | false, false => none

def Dec.strip (d : Dec) : Dec :=
  if h : d.digits ≠ 0 ∧ d.digits % 10 = 0 then
    have : d.digits / 10 < d.digits := Nat.div_lt_self (Nat.pos_of_ne_zero h.1) (by decide)
    Dec.strip ⟨d.digits / 10, d.exp + 1⟩
  else d
termination_by d.digits

def Binary.exact (x : Binary) : Dec :=
  if 0 ≤ x.q then ⟨x.m * Nat.pow 2 x.q.toNat, 0⟩
  else ⟨x.m * Nat.pow 5 (-x.q).toNat, x.q⟩

/-- The fewest digits that read back as the value, the nearest such decimal among those,
with trailing zeros stripped. Zero is `0 · 10^0`. -/
def Binary.shortest (x : Binary) : Dec :=
  if x.m = 0 then ⟨0, 0⟩
  else
    let e := x.scale
    match (List.range 17).findSome? (fun (i : Nat) => x.onGrid (e - (i : Int))) with
    | some d => d.strip
    | none => x.exact.strip

end ConicForm.Decimal
