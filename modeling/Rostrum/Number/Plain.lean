/-!
# Plain numerals

The numerals people write: a sign, digits with a point among them, an exponent, and the words for
what is not finite.
-/

namespace Rostrum

/-- The words for numbers that are not finite; their case does not matter. -/
def nonFiniteWords : List String := ["inf", "infinity", "nan"]

/-- A text without a sign in front. -/
def afterSign : List Char → List Char
  | '+' :: cs => cs
  | '-' :: cs => cs
  | cs => cs

/-- Whether a text is an exponent or empty. -/
def isExponent : List Char → Bool
  | [] => true
  | c :: cs => (c = 'e' || c = 'E') && !(afterSign cs).isEmpty && (afterSign cs).all Char.isDigit

/-- The digits and the rest of a text after a point, if one is there. -/
def afterPoint : List Char → List Char × List Char
  | '.' :: cs => (cs.takeWhile Char.isDigit, cs.dropWhile Char.isDigit)
  | cs => ([], cs)

/-- Whether a text is a number. Before or after the point there is a digit. -/
def isNumeral (cs : List Char) : Bool :=
  let cs := afterSign cs
  let whole := cs.takeWhile Char.isDigit
  let (fraction, rest) := afterPoint (cs.dropWhile Char.isDigit)
  nonFiniteWords.contains (String.ofList (cs.map Char.toLower)) ||
    (!(whole ++ fraction).isEmpty && isExponent rest)

end Rostrum
