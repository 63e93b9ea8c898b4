import Rostrum.Number.Binary64

/-!
# The shortest decimal that reads back

The reals that round to a binary64 number form an interval around it. `shortest` looks for the
coarsest decimal grid that has a point in this interval and takes the nearest such point. On each
grid only the two neighbours of the value have to be tried: if any point of the grid lies in the
interval, one of them does.
-/

namespace Rostrum

/-- The decimal number `digits * 10 ^ exponent`. -/
structure Decimal where
  digits : Nat
  exponent : Int
deriving DecidableEq, Repr

/-- The interval of reals that round to one number, as numerators over a common denominator. -/
structure RoundingInterval where
  low : Nat
  value : Nat
  high : Nat
  den : Nat
  /-- Whether the two ends belong to the interval. -/
  closed : Bool
deriving Repr

/-- The interval of a magnitude; the gap below a power of two is half as wide. -/
def Binary64.interval (x : Binary64) : RoundingInterval :=
  let up := pow2 x.exponent.toNat
  let down := if x.mantissa = pow2 52 ∧ Binary64.minExponent < x.exponent then 1 else 2
  { low := (4 * x.mantissa - down) * up
    value := 4 * x.mantissa * up
    high := (4 * x.mantissa + 2) * up
    den := 4 * pow2 (-x.exponent).toNat
    closed := x.mantissa % 2 = 0 }

/-- The number of decimal digits. -/
def decimalLength (n : Nat) : Nat := (Nat.toDigits 10 n).length

/-- The exponent of the leading digit of the positive quotient `num / den`. -/
def leadingExponent (num den : Nat) : Int :=
  if den ≤ num then (decimalLength (num / den) : Int) - 1
  else -(decimalLength ((den + num - 1) / num - 1) : Int)

namespace RoundingInterval

/-- Whether `n / d` lies in the interval. -/
def contains (i : RoundingInterval) (n d : Nat) : Bool :=
  if i.closed then i.low * d ≤ n * i.den && n * i.den ≤ i.high * d
  else i.low * d < n * i.den && n * i.den < i.high * d

/--
The point of the grid of step `10 ^ e` that lies in the interval and is nearest to the value, as a
multiple of the step. A tie goes to the even multiple.
-/
def gridPoint? (i : RoundingInterval) (e : Int) : Option Nat :=
  let num := i.value * pow10 (-e).toNat
  let den := i.den * pow10 e.toNat
  let below := num / den
  let fits (k : Nat) := i.contains (k * pow10 e.toNat) (pow10 (-e).toNat)
  let near := roundHalfEven num den
  let far := if near = below then below + 1 else below
  if fits near then some near else if fits far then some far else none

end RoundingInterval

/-- Moves trailing zeros of the digits into the exponent. -/
def Decimal.strip (d : Decimal) : (fuel : Nat) → Decimal
  | 0 => d
  | fuel + 1 =>
    if d.digits ≠ 0 ∧ d.digits % 10 = 0 then
      Decimal.strip ⟨d.digits / 10, d.exponent + 1⟩ fuel
    else d

/-- The decimal with the fewest digits that rounds to the magnitude of `x`. -/
def Binary64.shortest (x : Binary64) : Decimal :=
  if x.mantissa = 0 then ⟨0, 0⟩
  else
    let i := x.interval
    let lead := leadingExponent i.value i.den
    let grids := (List.range 18).map fun (n : Nat) => lead - n
    let found := grids.findSome? fun e => (i.gridPoint? e).map fun k => Decimal.mk k e
    (found.getD ⟨0, 0⟩).strip 20

end Rostrum
