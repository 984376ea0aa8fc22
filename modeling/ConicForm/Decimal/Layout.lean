import ConicForm.Decimal.Shortest
/-!
Writing a float as text from its shortest decimal. A `Layout` holds the decisions of one
output format: for which decimal exponents the number is written positionally, whether an
integral value keeps a `.0`, and the texts of NaN and the infinities.
-/

namespace ConicForm.Decimal

/-- The decisions of one float text format. -/
structure Layout where
  /-- Positional notation for scientific exponents `E` with `lo ≤ E < hi`. -/
  positional : Int × Int
  /-- An integral value written positionally keeps `.0`. -/
  pointZero : Bool
  /-- A non-negative exponent is written with a plus sign. -/
  expPlus : Bool
  nan : String
  inf : String
  negInf : String

def zeros (n : Nat) : String := String.ofList (List.replicate n '0')

def Layout.positionalText (L : Layout) (ds : String) (k : Int) : String :=
  let point := (ds.length : Int) + k
  if 0 ≤ k then ds ++ zeros k.toNat ++ (if L.pointZero then ".0" else "")
  else if 0 < point then
    String.ofList (ds.toList.take point.toNat) ++ "." ++ String.ofList (ds.toList.drop point.toNat)
  else "0." ++ zeros (-point).toNat ++ ds

def Layout.scientificText (L : Layout) (ds : String) (e : Int) : String :=
  let mant := match ds.toList with
    | [] => "0"
    | [c] => String.ofList [c]
    | c :: rest => String.ofList (c :: '.' :: rest)
  let sign := if e < 0 then "-" else if L.expPlus then "+" else ""
  mant ++ "e" ++ sign ++ toString e.natAbs

def Layout.magnitude (L : Layout) (d : Dec) : String :=
  if d.digits = 0 then (if L.pointZero then "0.0" else "0")
  else
    let ds := toString d.digits
    let e := (ds.length : Int) - 1 + d.exp
    if L.positional.1 ≤ e ∧ e < L.positional.2 then L.positionalText ds d.exp
    else L.scientificText ds e

/-- The text of a float under the layout. -/
def Layout.render (L : Layout) (x : Float) : String :=
  if x.isNaN then L.nan
  else if x.isInf then (if x < 0 then L.negInf else L.inf)
  else
    let bits := x.toBits
    let neg := bits >>> 63 == 1
    (if neg then "-" else "") ++ L.magnitude (Binary.ofBits bits).shortest

end ConicForm.Decimal
