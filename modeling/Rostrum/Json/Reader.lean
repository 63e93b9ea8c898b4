import Rostrum.Json.Document
import Rostrum.Number.Digits

/-!
# Reading JSON

A reader takes a document off the front of a text. A fault is either `truncated`, when the text ends
inside a value, or `malformed`; the first fault in the order of the text is the one reported.

Containers nest at most `levels` deep. A strict reader refuses literals without a value where they
stand, a lenient one keeps them as `Document.faulty`, for members that nobody looks at.
-/

namespace Rostrum.Json

/-- Why a text is not JSON. -/
inductive Fault where
  /-- The text ends inside a value. -/
  | truncated
  | malformed
deriving DecidableEq, Repr

/-- Takes a result off the front of a text. -/
abbrev Reader (α : Type) := List Char → Except Fault (α × List Char)

/-- What to do with a literal that is well formed but has no value. -/
inductive Rigour where
  | strict
  | lenient
deriving DecidableEq, Repr

namespace Reader

def isBlank (c : Char) : Bool := c = ' ' || c = '\n' || c = '\t' || c = '\r'

def skipBlanks (text : List Char) : List Char := text.dropWhile isBlank

/-- The rest of a keyword whose first letter has been seen. -/
def keyword : (letters : List Char) → Reader Unit
  | [], text => .ok ((), text)
  | _ :: _, [] => .error .truncated
  | c :: cs, d :: text => if c = d then keyword cs text else .error .malformed

def digit? (c : Char) : Option Nat :=
  if '0' ≤ c ∧ c ≤ '9' then some (c.toNat - '0'.toNat) else none

/-- The digits at the front of a text, in front of those in `seen`, which are in reverse. -/
def digits (seen : List Nat) : List Char → List Nat × List Char
  | [] => (seen.reverse, [])
  | c :: text =>
    match digit? c with
    | some d => digits (d :: seen) text
    | none => (seen.reverse, c :: text)

/-- At least one digit. -/
def someDigits : Reader (List Nat)
  | [] => .error .truncated
  | c :: text =>
    match digit? c with
    | some d => .ok (digits [d] text)
    | none => .error .malformed

/-- Exponents are cut off at this bound, far beyond every number that has a value. -/
def exponentBound : Nat := pow10 12

/-- The exponent after its letter. -/
def exponent (text : List Char) : Except Fault (Int × List Char) := do
  let (negative, text) := match text with
    | '+' :: rest => (false, rest)
    | '-' :: rest => (true, rest)
    | _ => (false, text)
  let (ds, rest) ← someDigits text
  let size := ds.foldl (fun n d => min exponentBound (10 * n + d)) 0
  return (if negative then -size else size, rest)

/-- The digits before the point: a single zero, or digits that do not start with one. -/
def wholePart (text : List Char) : Except Fault (List Nat × List Char) := do
  let (ds, rest) ← someDigits text
  match ds with
  | 0 :: _ :: _ => .error .malformed
  | _ => return (ds, rest)

/-- A numeral, after its sign. -/
def numeral (negative : Bool) (text : List Char) : Except Fault (Numeral × List Char) := do
  let (whole, text) ← wholePart text
  let (fraction, text) ← match text with
    | '.' :: rest => do
      let (ds, rest) ← someDigits rest
      pure (some ds, rest)
    | _ => pure (none, text)
  let (exponent, text) ← match text with
    | 'e' :: rest | 'E' :: rest => do
      let (e, rest) ← exponent rest
      pure (some e, rest)
    | _ => pure (none, text)
  return (⟨negative, whole, fraction, exponent⟩, text)

/-- A number, after its sign. -/
def number (rigour : Rigour) (negative : Bool) (text : List Char) :
    Except Fault (Document × List Char) := do
  let (n, rest) ← numeral negative text
  match n.value?, rigour with
  | some v, _ => return (.number v, rest)
  | none, .strict => .error .malformed
  | none, .lenient => return (.faulty, rest)

/-- Four hexadecimal digits. The text counts as ended when fewer than four bytes are left. -/
def hexCode : Reader Nat
  | a :: b :: c :: d :: rest =>
    match digitValue? 16 a, digitValue? 16 b, digitValue? 16 c, digitValue? 16 d with
    | some a, some b, some c, some d => .ok (((a * 16 + b) * 16 + c) * 16 + d, rest)
    | _, _, _, _ => .error .malformed
  | short =>
    if (String.ofList short).utf8ByteSize < 4 then .error .truncated else .error .malformed

def isHighSurrogate (n : Nat) : Bool := 0xD800 ≤ n && n ≤ 0xDBFF

def isLowSurrogate (n : Nat) : Bool := 0xDC00 ≤ n && n ≤ 0xDFFF

/-- The character of a surrogate pair. -/
def joinSurrogates (high low : Nat) : Char :=
  Char.ofNat ((high - 0xD800) * 0x400 + (low - 0xDC00) + 0x10000)

/-- The second half of a surrogate pair, escape and all. -/
def lowSurrogate : Reader Nat
  | [] => .error .truncated
  | '\\' :: [] => .error .truncated
  | '\\' :: 'u' :: rest => do
    let (low, rest) ← hexCode rest
    if isLowSurrogate low then return (low, rest) else .error .malformed
  | _ => .error .malformed

/-- A character given by its code, after the letter `u`; `none` for half of a surrogate pair. -/
def codeEscape (rigour : Rigour) (text : List Char) :
    Except Fault (Option Char × List Char) := do
  let (code, rest) ← hexCode text
  if !isHighSurrogate code && !isLowSurrogate code then return (some (Char.ofNat code), rest)
  else if isHighSurrogate code then
    match lowSurrogate rest, rigour with
    | .ok (low, rest), _ => return (some (joinSurrogates code low), rest)
    | .error fault, .strict => .error fault
    | .error _, .lenient => return (none, rest)
  else match rigour with
    | .strict => .error .malformed
    | .lenient => return (none, rest)

/-- The character of a one-letter escape. -/
def letterEscape? : Char → Option Char
  | '"' => some '"'
  | '\\' => some '\\'
  | '/' => some '/'
  | 'b' => some '\x08'
  | 'f' => some '\x0c'
  | 'n' => some '\n'
  | 'r' => some '\r'
  | 't' => some '\t'
  | _ => none

/-- An escape, after its backslash. -/
def escape (rigour : Rigour) : Reader (Option Char)
  | [] => .error .truncated
  | 'u' :: rest => codeEscape rigour rest
  | c :: rest =>
    match letterEscape? c with
    | some d => .ok (some d, rest)
    | none => .error .malformed

/--
The rest of a string after its opening quote. The characters before are in `seen`, in reverse, which
is `none` once a half of a surrogate pair was met. Every round takes a character, so the length of
the text is enough `fuel`.
-/
def stringBody (rigour : Rigour) :
    (fuel : Nat) → (seen : Option (List Char)) → Reader (Option String)
  | _, _, [] => .error .truncated
  | 0, _, _ :: _ => .error .malformed
  | fuel + 1, seen, c :: text =>
    if c = '"' then .ok (seen.map fun cs => String.ofList cs.reverse, text)
    else if c = '\\' then do
      let (d, rest) ← escape rigour text
      stringBody rigour fuel (do return (← d) :: (← seen)) rest
    else if c.toNat < 0x20 then .error .malformed
    else stringBody rigour fuel (seen.map (c :: ·)) text

/-- A string after its opening quote. The text is at most `size` characters long. -/
def string (rigour : Rigour) (size : Nat) (text : List Char) :
    Except Fault (Option String × List Char) :=
  stringBody rigour size (some []) text

/-- What follows an item: a comma and another item, or the closing bracket. -/
def more (close : Char) (text : List Char) : Except Fault (Bool × List Char) :=
  match skipBlanks text with
  | [] => .error .truncated
  | c :: rest =>
    if c = close then .ok (false, rest)
    else if c = ',' then
      match skipBlanks rest with
      | [] => .error .truncated
      | d :: rest => if d = close then .error .malformed else .ok (true, d :: rest)
    else .error .malformed

/-- Items up to the closing bracket; those before are in `seen`, in reverse. -/
def items (item : Reader α) (close : Char) : (fuel : Nat) → (seen : List α) → Reader (List α)
  | 0, _, _ => .error .malformed
  | fuel + 1, seen, text => do
    let (x, rest) ← item text
    let (again, rest) ← more close rest
    if again then items item close fuel (x :: seen) rest
    else return ((x :: seen).reverse, rest)

/-- The inside of a container, after its opening bracket. The text is at most `size` long. -/
def container (item : Reader α) (close : Char) (size : Nat) (text : List Char) :
    Except Fault (List α × List Char) :=
  match skipBlanks text with
  | [] => .error .truncated
  | c :: rest => if c = close then .ok ([], rest) else items item close size [] (c :: rest)

/-- A member of an object: its name, a colon and its value. -/
def member (rigour : Rigour) (size : Nat) (value : Reader Document) :
    Reader (Option String × Document)
  | '"' :: text => do
    let (name, rest) ← string rigour size text
    match skipBlanks rest with
    | [] => .error .truncated
    | ':' :: rest => do
      let (v, rest) ← value rest
      return ((name, v), rest)
    | _ => .error .malformed
  | _ => .error .malformed

/-- The object of these members, faulty when a name is. -/
def objectOf (members : List (Option String × Document)) : Document :=
  match members.mapM fun m => m.1.map fun name => (name, m.2) with
  | some ms => .object ms
  | none => .faulty

def named (d : Document) (letters : List Char) (text : List Char) :
    Except Fault (Document × List Char) := do
  let ((), rest) ← keyword letters text
  return (d, rest)

/--
A document whose containers nest at most `levels` deep, after blanks. The text is at most `size`
characters long.
-/
def document (rigour : Rigour) (size : Nat) : (levels : Nat) → Reader Document
  | levels, text =>
    match skipBlanks text with
    | [] => .error .truncated
    | 'n' :: rest => named .null ['u', 'l', 'l'] rest
    | 't' :: rest => named (.bool true) ['r', 'u', 'e'] rest
    | 'f' :: rest => named (.bool false) ['a', 'l', 's', 'e'] rest
    | '-' :: rest => number rigour true rest
    | '"' :: rest => do
      let (s, rest) ← string rigour size rest
      return (match s with | some s => .string s | none => .faulty, rest)
    | '[' :: rest =>
      match levels with
      | 0 => .error .malformed
      | levels + 1 => do
        let (ds, rest) ← container (document rigour size levels) ']' size rest
        return (.array ds, rest)
    | '{' :: rest =>
      match levels with
      | 0 => .error .malformed
      | levels + 1 => do
        let (ms, rest) ← container (member rigour size (document rigour size levels)) '}' size rest
        return (objectOf ms, rest)
    | c :: rest => if (digit? c).isSome then number rigour false (c :: rest) else .error .malformed

end Reader

/-- Texts nest at most this deep. -/
def maxLevels : Nat := 127

namespace Document

/-- A whole text as one document. -/
def ofText (rigour : Rigour) (levels : Nat) (text : String) : Except Fault Document := do
  let (d, rest) ← Reader.document rigour text.length levels text.toList
  match Reader.skipBlanks rest with
  | [] => return d
  | _ :: _ => .error .malformed

/-- A whole text as a document in which every literal has a value. -/
def parse (text : String) : Except Fault Document := ofText .strict maxLevels text

/-- A whole text as a document that may hold faulty literals and nest as deep as it likes. -/
def parseLoosely (text : String) : Except Fault Document :=
  match parse text with
  | .ok d => .ok d
  | .error _ => ofText .lenient text.length text

end Document

/-- The value of a whole text. -/
def parse (text : String) : Except Fault Json := do
  let d ← Document.parse text
  match d.value? maxLevels with
  | some v => return v
  | none => .error .malformed

end Rostrum.Json
