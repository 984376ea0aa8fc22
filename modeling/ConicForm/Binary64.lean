/-!
Exact arithmetic on finite doubles and the one rounding that brings an exact value back.
A finite double is `m · 2^e` with an integer significand `m` and `e ≥ -1074`; products and
sums of such values are again of that form, so a fused multiply-add is computed exactly and
rounded once, to nearest with ties to even, as hardware `fma` does.
-/

namespace ConicForm.Binary64

/-- A value `m · 2^e` with an integer significand. -/
structure Scaled where
  m : Int
  e : Int

def hidden : Nat := 4503599627370496

def signBit : Nat := 9223372036854775808

def infinityBits : Nat := 0x7FF0000000000000

/-- A finite double as `m · 2^e`; both zeros give `m = 0`. -/
def decode (x : Float) : Scaled :=
  let bits := x.toBits.toNat
  let frac := bits % hidden
  let biased := (bits / hidden) % 2048
  let mag : Nat := if biased = 0 then frac else frac + hidden
  let e : Int := (if biased = 0 then (1 : Int) else biased) - 1075
  ⟨if bits ≥ signBit then -(mag : Int) else mag, e⟩

def shiftRound (n s : Nat) : Nat :=
  match s with
  | 0 => n
  | s + 1 =>
    let q := n / Nat.pow 2 (s + 1)
    let r := n % Nat.pow 2 (s + 1)
    let half := Nat.pow 2 s
    if r > half ∨ (r = half ∧ q % 2 = 1) then q + 1 else q

/-- The magnitude bits of the double nearest to `n · 2^e`: the last kept bit has weight
`2^lsb`, the larger of `2^-1074` and the weight that leaves 53 significant bits; a carry out
of the top bit moves the exponent up, and an exponent past the largest gives infinity. -/
def magnitudeBits (n : Nat) (e : Int) : Nat :=
  let lsb : Int := max (e + (n.log2 : Int) - 52) (-1074)
  let (q, lsb) :=
    if lsb ≤ e then (n * Nat.pow 2 (e - lsb).toNat, lsb)
    else
      let q := shiftRound n (lsb - e).toNat
      if q = 2 * hidden then (hidden, lsb + 1) else (q, lsb)
  if q < hidden then q
  else
    let biased := lsb + 1075
    if biased ≥ 2047 then infinityBits else biased.toNat * hidden + (q - hidden)

def nearest (neg : Bool) (n : Nat) (e : Int) : Float :=
  Float.ofBits (UInt64.ofNat ((if neg then signBit else 0) + magnitudeBits n e))

/-- `a * b + c` computed exactly and rounded once. An exact zero from nonzero terms is
`+0`; when the product is zero the signed zeros add as in plain addition. A non-finite
operand gives what the unfused expression gives, except that a finite product never
overflows before the addition of an infinite `c`. -/
def fusedMulAdd (a b c : Float) : Float :=
  if a.isFinite && b.isFinite then
    if c.isFinite then
      let x := decode a
      let y := decode b
      let z := decode c
      let p := x.m * y.m
      let pe := x.e + y.e
      let lo := min pe z.e
      let s := p * (Nat.pow 2 (pe - lo).toNat : Int) + z.m * (Nat.pow 2 (z.e - lo).toNat : Int)
      if s = 0 then (if p = 0 then a * b + c else 0)
      else nearest (decide (s < 0)) s.natAbs lo
    else c
  else a * b + c

end ConicForm.Binary64
