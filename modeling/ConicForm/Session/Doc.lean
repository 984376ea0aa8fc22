import ConicForm.Decimal.Layout
/-!
JSON documents: the requests a session reads and the answers it writes.

A number read is a whole number of a 64-bit word when written as one and fitting, and a float
otherwise; a float is written with the fewest digits that read back. Reading a field treats a
null value as a missing field.
-/

namespace ConicForm

/-- A JSON value. Numbers are read into three kinds, as JSON readers commonly do: whole
numbers that fit an unsigned 64-bit word, negative whole numbers that fit a signed one, and
floats for everything else. The kind decides which readings a number allows. -/
inductive Doc where
  | null
  | bool (b : Bool)
  /-- A whole number from `0` to `2^64 - 1`, written without a point or an exponent. -/
  | nat (n : Nat)
  /-- A negative whole number down to `-2^63`, written without a point or an exponent. -/
  | negInt (i : Int)
  /-- Any other number; also a float to be written, finite ones as numbers and others as the
  strings `"inf"`, `"-inf"` and `"nan"`. -/
  | float (x : Float)
  | str (s : String)
  | arr (items : List Doc)
  /-- An object: its fields sorted by key, each key once. -/
  | obj (fields : List (String × Doc))
  deriving Inhabited

namespace Doc

def int (i : Int) : Doc := if i < 0 then .negInt i else .nat i.toNat

def optFloat : Option Float → Doc
  | some x => .float x
  | none => .null

/-- The field `key`, where a null value counts as missing. -/
def get? (d : Doc) (key : String) : Option Doc :=
  match d with
  | .obj fields =>
    match fields.lookup key with
    | some .null => none
    | r => r
  | _ => none

def items : Doc → List Doc
  | .arr xs => xs
  | _ => []

def str? : Doc → Option String
  | .str s => some s
  | _ => none

def bool? : Doc → Option Bool
  | .bool b => some b
  | _ => none

/-- The float a number stands for; also the strings `"inf"`, `"-inf"` and `"nan"`. -/
def float? : Doc → Option Float
  | .nat n => some (Float.ofNat n)
  | .negInt i => some (Float.ofInt i)
  | .float x => some x
  | .str "inf" => some (1 / 0)
  | .str "-inf" => some (-1 / 0)
  | .str "nan" => some (0 / 0)
  | _ => none

def signedMax : Nat := 9223372036854775807

def int? : Doc → Option Int
  | .nat n => if n ≤ signedMax then some n else none
  | .negInt i => some i
  | _ => none

def nat? : Doc → Option Nat
  | .nat n => some n
  | _ => none

/-! ### Writing -/

/-- Floats in answers: positional for exponents from -5 to 15 with `.0` kept, else
`d.ddde±x`. -/
def Layout.answer : Decimal.Layout :=
  { positional := (-5, 16), pointZero := true, expPlus := true,
    nan := "nan", inf := "inf", negInf := "-inf" }

def hex4 (n : Nat) : String :=
  let d := fun (k : Nat) => "0123456789abcdef".toList.getD (n / Nat.pow 16 k % 16) '0'
  String.ofList [d 3, d 2, d 1, d 0]

/-- A character inside a JSON string. -/
def escapeChar (c : Char) : String :=
  if c == '"' then "\\\""
  else if c == '\\' then "\\\\"
  else if c == '\n' then "\\n"
  else if c == '\r' then "\\r"
  else if c == '\t' then "\\t"
  else if c.toNat < 32 then "\\u" ++ hex4 c.toNat
  else String.singleton c

def quote (s : String) : String := "\"" ++ String.join (s.toList.map escapeChar) ++ "\""

mutual
def render : Doc → String
  | .null => "null"
  | .bool b => if b then "true" else "false"
  | .nat n => toString n
  | .negInt i => toString i
  | .float x => if x.isNaN || x.isInf then quote (Layout.answer.render x) else Layout.answer.render x
  | .str s => quote s
  | .arr xs => "[" ++ ",".intercalate (renderItems xs) ++ "]"
  | .obj fs => "\x7b" ++ ",".intercalate (renderFields fs) ++ "\x7d"

def renderItems : List Doc → List String
  | [] => []
  | d :: ds => render d :: renderItems ds

def renderFields : List (String × Doc) → List String
  | [] => []
  | (k, d) :: fs => (quote k ++ ":" ++ render d) :: renderFields fs
end

end Doc

end ConicForm
