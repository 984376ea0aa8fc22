import ConicForm.Session.Doc
import ConicForm.Decimal.Quick
/-!
Reading a JSON text into a document, with the errors of a strict reader: a syntax error names
what was wrong and the column of the byte where a reader that consumes one byte at a time stands.
A number's significand is its leading digits that fit a 64-bit word, scaled once by a power of
ten; objects keep each key once, its last value, sorted by key; nesting is limited to 127 levels.
-/

namespace ConicForm

namespace Syntax

/-- Where reading stands: the characters left, the bytes read so far, and the length of the
whole text in bytes. -/
structure Cursor where
  rest : List Char
  pos : Nat
  total : Nat

/-- A syntax error: what was wrong, and its column. -/
structure Failure where
  what : String
  column : Nat

def Failure.text (f : Failure) : String :=
  f.what ++ " at line 1 column " ++ toString f.column

abbrev Reader := StateT Cursor (Except Failure)

def peek : Reader (Option Char) := do pure (← get).rest.head?

def advance (n : Nat) : Reader Unit :=
  modify fun c =>
    { c with rest := c.rest.drop n,
             pos := (c.rest.take n).foldl (fun p ch => p + ch.utf8Size) c.pos }

def failHere {α : Type} (what : String) : Reader α := do throw ⟨what, (← get).pos⟩

def failAhead {α : Type} (what : String) : Reader α := do
  let c ← get
  throw ⟨what, min c.total (c.pos + 1)⟩

def isBlank (c : Char) : Bool := c == ' ' || c == '\n' || c == '\t' || c == '\r'

def blank : Reader (Option Char) := do
  let c ← get
  let n := (c.rest.takeWhile isBlank).length
  set { c with rest := c.rest.drop n, pos := c.pos + n }
  peek

def isDigit (c : Char) : Bool := '0' ≤ c && c ≤ '9'

def digit (c : Char) : Nat := c.toNat - '0'.toNat

def digitsAhead : Reader (List Nat) := do
  pure (((← get).rest.takeWhile isDigit).map digit)

/-! ### Numbers -/

def wordMax : Nat := 18446744073709551615

def exponentMax : Nat := 2147483647

def appendDigits : Nat → List Nat → Nat × Option Nat
  | s, [] => (s, none)
  | s, d :: ds =>
    if s * 10 + d > wordMax then (s, some 0)
    else
      let (s', stop) := appendDigits (s * 10 + d) ds
      (s', stop.map (· + 1))

def clampExponent (e : Int) : Int := max (min e exponentMax) (-(exponentMax : Int) - 1)

/-- The float of `±s · 10^e`: one product or quotient by a power of ten. A product that
overflows, or an exponent past `308` with a nonzero significand, is out of range. -/
def fromParts (positive : Bool) (s : Nat) (e : Int) : Reader Float := do
  let f := Float.ofNat s
  let f ← if 0 ≤ e then
      if e.toNat ≤ 308 then
        let r := f * Decimal.tenPow e.toNat
        if r.isInf then failHere "number out of range" else pure r
      else if f == 0 then pure f
      else failHere "number out of range"
    else pure (Decimal.divideTen f (-e).toNat)
  pure (if positive then f else -f)

/-- The exponent part after `e`: an optional sign, then digits. An exponent past a 32-bit
word gives zero, or is out of range when it is positive and the significand is not zero. -/
def exponentPart (positive : Bool) (s : Nat) (start : Int) : Reader Float := do
  advance 1
  let positiveExp ← match ← peek with
    | some '+' => do advance 1; pure true
    | some '-' => do advance 1; pure false
    | _ => pure true
  match ← peek with
  | none => failHere "EOF while parsing a value"
  | some c =>
    if !isDigit c then failAhead "invalid number"
    else
      let ds ← digitsAhead
      let (e, stop) := appendExponent 0 ds
      match stop with
      | some k =>
        advance (k + 1)
        if s ≠ 0 && positiveExp then failHere "number out of range"
        else
          advance (ds.length - (k + 1))
          pure (if positive then 0 else -0)
      | none =>
        advance ds.length
        let final := clampExponent (if positiveExp then start + e else start - e)
        fromParts positive s final
where
  /-- Exponent digits while they fit a signed 32-bit word, and the position of the first that
  would overflow it. -/
  appendExponent : Nat → List Nat → Nat × Option Nat
    | e, [] => (e, none)
    | e, d :: ds =>
      if e * 10 + d > exponentMax then (e, some 0)
      else
        let (e', stop) := appendExponent (e * 10 + d) ds
        (e', stop.map (· + 1))

/-- The fraction after the point: digits join the significand while it stays a word, later
ones are dropped; at least one digit must follow the point unless the first overflows. -/
def fractionPart (positive : Bool) (s : Nat) (start : Int) : Reader Float := do
  advance 1
  let ds ← digitsAhead
  let (s', stop) := appendDigits s ds
  let kept := stop.getD ds.length
  advance ds.length
  if ds.isEmpty then
    match ← peek with
    | some _ => failAhead "invalid number"
    | none => failAhead "EOF while parsing a value"
  else
    let e := start - kept
    match ← peek with
    | some 'e' | some 'E' => exponentPart positive s' e
    | _ => fromParts positive s' e

def number (positive : Bool) : Reader Doc := do
  match ← peek with
  | none => failHere "EOF while parsing a value"
  | some '0' =>
    advance 1
    match ← peek with
    | some c =>
      if isDigit c then failAhead "invalid number"
      else finish 0 0 false
    | none => finish 0 0 false
  | some c =>
    if !isDigit c then failAhead "invalid number"
    else
      let ds ← digitsAhead
      let (s, stop) := appendDigits 0 ds
      advance ds.length
      match stop with
      | some k => finish s (ds.length - k) true
      | none => finish s 0 false
where
  /-- After the whole digits: a fraction, an exponent, or the end of the number. -/
  finish (s : Nat) (e : Nat) (long : Bool) : Reader Doc := do
    match ← peek with
    | some '.' => pure (.float (← fractionPart positive s e))
    | some 'e' | some 'E' => pure (.float (← exponentPart positive s e))
    | _ =>
      if long then pure (.float (← fromParts positive s e))
      else if positive then pure (.nat s)
      else if 1 ≤ s ∧ s ≤ 9223372036854775808 then pure (.negInt (-(s : Int)))
      else pure (.float (-(Float.ofNat s)))

/-! ### Strings -/

def hexValue? (c : Char) : Option Nat :=
  if '0' ≤ c ∧ c ≤ '9' then some (c.toNat - '0'.toNat)
  else if 'a' ≤ c ∧ c ≤ 'f' then some (c.toNat - 'a'.toNat + 10)
  else if 'A' ≤ c ∧ c ≤ 'F' then some (c.toNat - 'A'.toNat + 10)
  else none

/-- Four hexadecimal digits after `\u`: fewer than four bytes left is the end of the text,
and four bytes that are not all hexadecimal digits are an invalid escape. -/
def hexEscape : Reader Nat := do
  let c ← get
  if c.total - c.pos < 4 then
    set { c with rest := [], pos := c.total }
    failHere "EOF while parsing a string"
  else
    match c.rest.take 4 |>.mapM hexValue? with
    | some [a, b, d, e] =>
      advance 4
      pure (a * 4096 + b * 256 + d * 16 + e)
    | _ =>
      set { c with pos := c.pos + 4 }
      failHere "invalid escape"

/-- The character of a `\u` escape, the `\u` consumed; a leading surrogate must be followed
by `\u` and a trailing one. -/
def unicodeEscape : Reader Char := do
  let n ← hexEscape
  if 0xDC00 ≤ n ∧ n ≤ 0xDFFF then failHere "lone leading surrogate in hex escape"
  else if n < 0xD800 ∨ n > 0xDBFF then pure (Char.ofNat n)
  else
    match ← peek with
    | none => failHere "EOF while parsing a string"
    | some '\\' =>
      advance 1
      match ← peek with
      | none => failHere "EOF while parsing a string"
      | some 'u' =>
        advance 1
        let m ← hexEscape
        if m < 0xDC00 ∨ m > 0xDFFF then failHere "lone leading surrogate in hex escape"
        else pure (Char.ofNat (0x10000 + (n - 0xD800) * 1024 + (m - 0xDC00)))
      | some _ => failAhead "unexpected end of hex escape"
    | some _ => failAhead "unexpected end of hex escape"

def escape : Reader Char := do
  match ← peek with
  | none => failHere "EOF while parsing a string"
  | some e =>
    match e with
    | '"' => do advance 1; pure '"'
    | '\\' => do advance 1; pure '\\'
    | '/' => do advance 1; pure '/'
    | 'b' => do advance 1; pure (Char.ofNat 8)
    | 'f' => do advance 1; pure (Char.ofNat 12)
    | 'n' => do advance 1; pure '\n'
    | 'r' => do advance 1; pure '\r'
    | 't' => do advance 1; pure '\t'
    | 'u' => do advance 1; unicodeEscape
    | _ => failAhead "invalid escape"

/-- The rest of a string after its opening quote, read backwards into `acc`; each step
consumes at least one character, so `fuel` of the text's length suffices. -/
def stringRest : Nat → List Char → Reader String
  | 0, _ => failHere "EOF while parsing a string"
  | fuel + 1, acc => do
    match ← peek with
    | none => failHere "EOF while parsing a string"
    | some '"' => do advance 1; pure (String.ofList acc.reverse)
    | some '\\' => do
      advance 1
      let c ← escape
      stringRest fuel (c :: acc)
    | some c =>
      if c.toNat < 0x20 then
        advance 1
        failHere "control character (\\u0000-\\u001F) found while parsing a string"
      else
        advance 1
        stringRest fuel (c :: acc)

def string : Reader String := do stringRest ((← get).rest.length + 1) []

/-! ### Values -/

def literal (rest : List Char) : Reader Unit :=
  rest.forM fun want => do
    match ← peek with
    | none => failHere "EOF while parsing a value"
    | some c =>
      if c == want then advance 1
      else failAhead "expected ident"

/-- Fields sorted by key, the last of each repeated key kept. -/
def normalize (fs : List (String × Doc)) : List (String × Doc) :=
  let sorted := fs.mergeSort fun a b => decide (a.1 ≤ b.1)
  (sorted.splitBy fun a b => a.1 == b.1).filterMap List.getLast?

def depthLimit : Nat := 128

mutual
/-- A value at nesting `depth`; `fuel` bounds the calls. -/
def value : Nat → Nat → Reader Doc
  | 0, _ => failAhead "recursion limit exceeded"
  | fuel + 1, depth => do
    match ← blank with
    | none => failAhead "EOF while parsing a value"
    | some 'n' => do advance 1; literal ['u', 'l', 'l']; pure .null
    | some 't' => do advance 1; literal ['r', 'u', 'e']; pure (.bool true)
    | some 'f' => do advance 1; literal ['a', 'l', 's', 'e']; pure (.bool false)
    | some '-' => do advance 1; number false
    | some '"' => do advance 1; pure (.str (← string))
    | some '[' => do
      if depth + 1 ≥ depthLimit then failAhead "recursion limit exceeded"
      advance 1
      let xs ← items fuel (depth + 1) true []
      pure (.arr xs)
    | some '{' => do
      if depth + 1 ≥ depthLimit then failAhead "recursion limit exceeded"
      advance 1
      let fs ← fields fuel (depth + 1) true []
      pure (.obj (normalize fs))
    | some c =>
      if isDigit c then number true else failAhead "expected value"

def items : Nat → Nat → Bool → List Doc → Reader (List Doc)
  | 0, _, _, _ => failAhead "recursion limit exceeded"
  | fuel + 1, depth, first, acc => do
    match ← blank with
    | none => failAhead "EOF while parsing a list"
    | some ']' => do advance 1; pure acc.reverse
    | some c =>
      if first then
        let d ← value fuel depth
        items fuel depth false (d :: acc)
      else if c == ',' then
        advance 1
        match ← blank with
        | some ']' => failAhead "trailing comma"
        | some _ =>
          let d ← value fuel depth
          items fuel depth false (d :: acc)
        | none => failAhead "EOF while parsing a value"
      else failAhead "expected `,` or `]`"

def fields : Nat → Nat → Bool → List (String × Doc) → Reader (List (String × Doc))
  | 0, _, _, _ => failAhead "recursion limit exceeded"
  | fuel + 1, depth, first, acc => do
    let next ← match ← blank with
      | none => failAhead "EOF while parsing an object"
      | some '}' => pure none
      | some c =>
        if first then pure (some (some c))
        else if c == ',' then do advance 1; pure (some (← blank))
        else failAhead "expected `,` or `\x7d`"
    match next with
    | none => do advance 1; pure acc.reverse
    | some none => failAhead "EOF while parsing a value"
    | some (some '"') => do
      advance 1
      let key ← string
      match ← blank with
      | some ':' => advance 1
      | some _ => failAhead "expected `:`"
      | none => failAhead "EOF while parsing an object"
      let d ← value fuel depth
      fields fuel depth false ((key, d) :: acc)
    | some (some '}') => failAhead "trailing comma"
    | some (some _) => failAhead "key must be a string"
end

/-- The document of a JSON text: one value, then blanks only. -/
def parse (text : String) : Except Failure Doc :=
  let cs := text.toList
  let run : Reader Doc := do
    let d ← value (2 * cs.length + 4) 0
    match ← blank with
    | some _ => failAhead "trailing characters"
    | none => pure d
  (run.run ⟨cs, 0, text.utf8ByteSize⟩).map (·.1)

end Syntax

end ConicForm
