import Rostrum.Number.Power

/-!
# Binary64 numbers without rounding errors of our own

A finite binary64 number is kept as sign, mantissa and exponent, so every operation here is exact
arithmetic on natural numbers followed by one rounding. Infinities and not-a-number values are not
represented: an operation that leaves the finite range answers `none`.
-/

namespace Rostrum

/-- The finite number `± mantissa * 2 ^ exponent`. -/
structure Binary64 where
  negative : Bool
  mantissa : Nat
  exponent : Int
deriving DecidableEq, Repr

/-- The quotient rounded to the nearest integer, a half to the even neighbour. -/
def roundHalfEven (num den : Nat) : Nat :=
  let low := num / den
  let rest := num % den
  if 2 * rest < den then low
  else if den < 2 * rest then low + 1
  else if low % 2 = 0 then low else low + 1

namespace Binary64

/-- The smallest exponent of a mantissa unit. -/
def minExponent : Int := -1074

/-- The largest exponent of a mantissa unit. -/
def maxExponent : Int := 971

def zero : Binary64 := ⟨false, 0, minExponent⟩

/-- The quotient `num / den` divided by `2 ^ q`, again as a quotient. -/
def unscale (num den : Nat) (q : Int) : Nat × Nat :=
  if 0 ≤ q then (num, den * pow2 q.toNat) else (num * pow2 (-q).toNat, den)

/-- The exponent at which `num / den` has a mantissa of 53 bits, but never below `minExponent`. -/
def unitExponent (num den : Nat) : Int :=
  let q : Int := (Nat.log2 num : Int) - (Nat.log2 den : Int) - 52
  let (n, d) := unscale num den q
  max minExponent (if n < d * pow2 52 then q - 1 else q)

/-- The non-negative number nearest to `num / den`; `none` when it is beyond the finite range. -/
def ofQuotient (num den : Nat) : Option Binary64 :=
  if num = 0 then some zero
  else
    let q := unitExponent num den
    let (n, d) := unscale num den q
    let m := roundHalfEven n d
    let (m, q) := if m = pow2 53 then (pow2 52, q + 1) else (m, q)
    if maxExponent < q then none else some ⟨false, m, q⟩

/-- The magnitude as a quotient of natural numbers. -/
def toQuotient (x : Binary64) : Nat × Nat :=
  if 0 ≤ x.exponent then (x.mantissa * pow2 x.exponent.toNat, 1)
  else (x.mantissa, pow2 (-x.exponent).toNat)

/-- The rounded product of two magnitudes. -/
def mul (x y : Binary64) : Option Binary64 :=
  ofQuotient (x.toQuotient.1 * y.toQuotient.1) (x.toQuotient.2 * y.toQuotient.2)

/-- The rounded quotient of two magnitudes. -/
def div (x y : Binary64) : Option Binary64 :=
  ofQuotient (x.toQuotient.1 * y.toQuotient.2) (x.toQuotient.2 * y.toQuotient.1)

def ofNat (n : Nat) : Binary64 := (ofQuotient n 1).getD zero

def neg (x : Binary64) : Binary64 := { x with negative := !x.negative }

/-- The largest power of ten that is taken in one step. -/
def maxTenPower : Nat := 308

/--
The number `x * 10 ^ k`, rounded after every step: one multiplication or division by a power of ten
when `k` is small enough, otherwise divisions by the largest power first. Three of those already
reach zero from any 64-bit integer, so `fuel` never runs out there.
-/
def shiftTen (x : Binary64) (k : Int) : (fuel : Nat) → Option Binary64
  | 0 => some x
  | fuel + 1 =>
    if k.natAbs ≤ maxTenPower then
      if 0 ≤ k then x.mul (ofNat (pow10 k.natAbs)) else x.div (ofNat (pow10 k.natAbs))
    else if x.mantissa = 0 then some x
    else if 0 ≤ k then none
    else do
      let y ← x.div (ofNat (pow10 maxTenPower))
      y.shiftTen (k + maxTenPower) fuel

end Binary64

end Rostrum
