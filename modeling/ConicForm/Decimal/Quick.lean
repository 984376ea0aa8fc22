/-!
Scaling by powers of ten the quick way, as requests are read: a float is multiplied or divided
once by the float nearest `10^|e|`. An exponent below `-308` first divides by `1e308` until it
is in range, and a zero stops the divisions.

With a significand of at most fifteen digits and an exponent of at most 22 either way, the
power of ten is exact and only the last step rounds, so the result is the nearest float.
Beyond that two roundings can meet and the result may be the neighbour of the nearest float.
-/

namespace ConicForm

namespace Decimal

def tenPow (k : Nat) : Float := Float.ofScientific 1 false k

/-- `f / 10^n` by one quotient with `tenPow n`, after dividing by `1e308` while `n > 308`;
a zero stops the divisions. -/
def divideTen (f : Float) (n : Nat) : Float :=
  if n ≤ 308 then f / tenPow n
  else if f == 0 then f
  else divideTen (f / tenPow 308) (n - 308)
termination_by n
decreasing_by omega

end Decimal

end ConicForm
