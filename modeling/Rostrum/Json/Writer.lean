import Rostrum.Json.Basic

/-!
# Writing JSON

Values are written without blanks. Inside strings only the quote, the backslash and the control
characters below U+0020 are escaped.
-/

namespace Rostrum.Json

namespace Writer

def hexDigit (n : Nat) : Char := Nat.digitChar n

/-- The characters that stand for one character of a string. -/
def escape (c : Char) : List Char :=
  if c = '"' then ['\\', '"']
  else if c = '\\' then ['\\', '\\']
  else if c = '\x08' then ['\\', 'b']
  else if c = '\x0c' then ['\\', 'f']
  else if c = '\n' then ['\\', 'n']
  else if c = '\r' then ['\\', 'r']
  else if c = '\t' then ['\\', 't']
  else if c.toNat < 0x20 then
    ['\\', 'u', '0', '0', hexDigit (c.toNat / 16), hexDigit (c.toNat % 16)]
  else [c]

def string (s : String) : List Char := '"' :: (s.toList.flatMap escape ++ ['"'])

mutual

def value : Json → List Char
  | .null => ['n', 'u', 'l', 'l']
  | .bool true => ['t', 'r', 'u', 'e']
  | .bool false => ['f', 'a', 'l', 's', 'e']
  | .number n => n.text.toList
  | .string s => string s
  | .array xs => '[' :: (items xs ++ [']'])
  | .object ms => '{' :: (members ms ++ ['}'])

def items : List Json → List Char
  | [] => []
  | [x] => value x
  | x :: y :: xs => value x ++ ',' :: items (y :: xs)

def members : List (String × Json) → List Char
  | [] => []
  | [(k, v)] => string k ++ ':' :: value v
  | (k, v) :: m :: ms => string k ++ ':' :: value v ++ ',' :: members (m :: ms)

end

end Writer

/-- The text of a value. -/
def text (j : Json) : String := String.ofList (Writer.value j)

/-- The text of an object whose members are written in the given order. -/
def orderedText (members : List (String × Json)) : String :=
  String.ofList (Writer.value (.object members))

end Rostrum.Json
