/-!
Which decimal magnitudes binary64 holds. A magnitude `m · 10^e` is computed as the product of two
rounded factors, so it counts as finite when that product rounds to a finite number.
-/
namespace SpanWire.Json.Binary64

/-- Rounds to 53 significant bits, a tie to the even neighbour. -/
def round53 (n : Nat) : Nat :=
  let shift := n.log2 - 52
  let unit := 1 <<< shift
  let q := n / unit
  let twiceRest := 2 * (n % unit)
  if unit < twiceRest ∨ (twiceRest = unit ∧ q % 2 = 1) then (q + 1) * unit else q * unit

/-- From here on integers round to infinity: half a unit above the largest finite number. -/
def overflowThreshold : Nat := 1 <<< 1024 - 1 <<< 970

/-- Whether `significand · 10^exponent` is finite, for a significand of at most 64 bits. -/
def isFinite (significand : Nat) (exponent : Int) : Bool :=
  if exponent < 0 then true
  else if exponent < 309 then
    round53 significand * round53 (Nat.pow 10 exponent.toNat) < overflowThreshold
  else significand = 0

end SpanWire.Json.Binary64
