import Rostrum.Number.Shortest

/-!
# Numbers of a data text

An integer that fits into 64 bits, signed or unsigned, stays an integer; every other numeral denotes
a binary64 number. `Numeral.value?` gives the number of a numeral, `Number.text` writes one.
-/

namespace Rostrum

/-- A number as data texts carry it. -/
inductive Number where
  | int (value : Int)
  | float (value : Binary64)
deriving DecidableEq, Repr

/-- A numeral taken apart: its digits before and after the point, and its exponent. -/
structure Numeral where
  negative : Bool
  whole : List Nat
  fraction : Option (List Nat)
  exponent : Option Int
deriving Repr

namespace Numeral

/-- The largest significand that is kept exactly. -/
def maxSignificand : Nat := pow2 64 - 1

/-- Appends digits to a significand while it fits; answers also how many were left out. -/
def extend (significand : Nat) : List Nat → Nat × Nat
  | [] => (significand, 0)
  | d :: ds =>
    if maxSignificand < significand * 10 + d then (significand, (d :: ds).length)
    else extend (significand * 10 + d) ds

/-- The binary64 number of a significand and a power of ten. -/
def float? (negative : Bool) (significand : Nat) (exponent : Int) : Option Number := do
  let x ← (Binary64.ofNat significand).shiftTen exponent 8
  return .float (if negative then x.neg else x)

/-- The number a numeral denotes, `none` when it is beyond the finite range. -/
def value? (n : Numeral) : Option Number :=
  let (significand, dropped) := extend 0 n.whole
  match n.fraction, n.exponent with
  | none, none =>
    if 0 < dropped then float? n.negative significand dropped
    else if n.negative then
      if significand = 0 ∨ pow2 63 < significand then some (.float (Binary64.ofNat significand).neg)
      else some (.int (-significand))
    else some (.int significand)
  | fraction, exponent =>
    let digits := fraction.getD []
    let (significand, cut) := extend significand digits
    float? n.negative significand (dropped - ((digits.length - cut : Nat) : Int) + exponent.getD 0)

end Numeral

/-- How a binary64 number is written. -/
structure FloatFormat where
  /-- Leading exponents from here on are written positionally, -/
  minPositional : Int
  /-- up to and with this one. -/
  maxPositional : Int
  /-- The mark of an exponent that is not negative. -/
  plusMark : String
  minusMark : String

/-- Numbers are positional from 1e-5 up to below 1e16; integral ones keep a zero after the point. -/
def jsonFloat : FloatFormat := ⟨-5, 15, "e+", "e-"⟩

/-- Writes the digits of a decimal, with the point or an exponent where the format wants it. -/
def Decimal.text (f : FloatFormat) (d : Decimal) : String :=
  let digits := Nat.toDigits 10 d.digits
  let lead : Int := d.exponent + digits.length - 1
  let zeros (n : Nat) := List.replicate n '0'
  let chars : List Char :=
    if f.minPositional ≤ lead ∧ lead ≤ f.maxPositional then
      if 0 ≤ d.exponent then digits ++ zeros d.exponent.toNat ++ ['.', '0']
      else if 0 ≤ lead then
        digits.take (lead.toNat + 1) ++ '.' :: digits.drop (lead.toNat + 1)
      else '0' :: '.' :: zeros (-lead - 1).toNat ++ digits
    else
      let fraction := match digits.tail with
        | [] => []
        | ds => '.' :: ds
      let mark := if 0 ≤ lead then f.plusMark else f.minusMark
      digits.take 1 ++ fraction ++ mark.toList ++ Nat.toDigits 10 lead.natAbs
  String.ofList chars

def Binary64.text (x : Binary64) : String :=
  let body := if x.mantissa = 0 then "0.0" else x.shortest.text jsonFloat
  if x.negative then "-" ++ body else body

def Number.text : Number → String
  | .int value => toString value
  | .float value => value.text

end Rostrum
