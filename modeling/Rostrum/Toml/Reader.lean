import Rostrum.Number.Binary64
import Rostrum.Number.Digits
import Rostrum.Toml.Value

/-!
# Reading TOML

A document is read line by line into statements, and the statements are added up. A reader takes the
rest of the text and answers what it has read and what is left. Whatever is wrong with a text, it is
no document: no reader says more than that.
-/

namespace Rostrum.Toml

/-- What a line says. -/
inductive Statement where
  | header (path : List String) (name : String)
  | listHeader (path : List String) (name : String)
  | pair (path : List String) (name : String) (value : Value)
deriving Repr

/-- A reader of a part of the text. -/
abbrev Reader (α : Type) := List Char → Option (α × List Char)

namespace Reader

def isSpace (c : Char) : Bool := c = ' ' || c = '\t'

def skipSpace (cs : List Char) : List Char := cs.dropWhile isSpace

/-- The rest of the text after the end of a line. -/
def newline? : List Char → Option (List Char)
  | '\n' :: cs => some cs
  | '\r' :: '\n' :: cs => some cs
  | _ => none

/-- The characters that may stand in comments and strings: no control characters but the tab. -/
def isPlain (c : Char) : Bool := c = '\t' || (' ' ≤ c && c ≠ '\x7f')

def skipComment : List Char → List Char
  | '#' :: cs => cs.dropWhile isPlain
  | cs => cs

/-- The rest of the text after the end of a line, in front of which there may be a comment. -/
def lineEnd? (cs : List Char) : Option (List Char) :=
  match skipComment (skipSpace cs) with
  | [] => some []
  | cs => newline? cs

/-- Skips spaces, comments and ends of lines; `inComment` says whether a comment has begun. -/
def skipLines (inComment : Bool) : List Char → List Char
  | [] => []
  | '\n' :: cs => skipLines false cs
  | '\r' :: '\n' :: cs => skipLines false cs
  | c :: cs =>
    if inComment then if isPlain c then skipLines true cs else c :: cs
    else if c = '#' then skipLines true cs
    else if isSpace c then skipLines false cs
    else c :: cs

/-! ## Strings -/

/-- The character of a code point given by some number of hexadecimal digits. -/
def codePoint (digits : Nat) : Reader Char := fun cs => do
  let code ← (cs.take digits).mapM (digitValue? 16)
  guard (code.length = digits)
  let n := code.foldl (fun n d => 16 * n + d) 0
  guard n.isValidChar
  return (Char.ofNat n, cs.drop digits)

/-- What stands for a character after a backslash. -/
def escape : Reader Char
  | 'b' :: cs => some ('\x08', cs)
  | 't' :: cs => some ('\t', cs)
  | 'n' :: cs => some ('\n', cs)
  | 'f' :: cs => some ('\x0c', cs)
  | 'r' :: cs => some ('\r', cs)
  | '"' :: cs => some ('"', cs)
  | '\\' :: cs => some ('\\', cs)
  | 'u' :: cs => codePoint 4 cs
  | 'U' :: cs => codePoint 8 cs
  | _ => none

/-- The rest of a string in one line up to its quote; escapes count if the string has them. -/
def lineString (quote : Char) (escapes : Bool) : (fuel : Nat) → (seen : List Char) → Reader String
  | 0, _, _ => none
  | _, _, [] => none
  | fuel + 1, seen, c :: cs =>
    if c = quote then some (String.ofList seen.reverse, cs)
    else if escapes && c = '\\' then do
      let (c, rest) ← escape cs
      lineString quote escapes fuel (c :: seen) rest
    else if isPlain c then lineString quote escapes fuel (c :: seen) cs
    else none

/-- The rest of the text after a backslash at the end of a line: blanks and line ends are skipped. -/
def joinLines? (cs : List Char) : Option (List Char) :=
  let rec skip : Nat → List Char → List Char
    | 0, cs => cs
    | fuel + 1, cs =>
      match newline? (skipSpace cs) with
      | some rest => skip fuel rest
      | none => skipSpace cs
  (newline? (skipSpace cs)).map fun rest => skip rest.length rest

/--
The rest of a string over several lines. Three quotes end it, and up to two more in front of them
belong to it.
-/
def linesString (quote : Char) (escapes : Bool) : (fuel : Nat) → (seen : List Char) → Reader String
  | 0, _, _ => none
  | _, _, [] => none
  | fuel + 1, seen, c :: cs =>
    if c = quote then
      let quotes := min 5 ((c :: cs).takeWhile fun d => d = quote).length
      let rest := (c :: cs).drop quotes
      if 3 ≤ quotes then
        some (String.ofList (List.replicate (quotes - 3) quote ++ seen).reverse, rest)
      else linesString quote escapes fuel (List.replicate quotes quote ++ seen) rest
    else if escapes && c = '\\' then
      match joinLines? cs with
      | some rest => linesString quote escapes fuel seen rest
      | none => do
        let (c, rest) ← escape cs
        linesString quote escapes fuel (c :: seen) rest
    else match newline? (c :: cs) with
      | some rest => linesString quote escapes fuel ('\n' :: seen) rest
      | none =>
        if isPlain c then linesString quote escapes fuel (c :: seen) cs else none

/-- Whether escapes count in a string of this quote. -/
def hasEscapes (quote : Char) : Bool := quote = '"'

/-- A string in one line, after its first quote. -/
def shortString (quote : Char) : Reader String := fun cs =>
  lineString quote (hasEscapes quote) (cs.length + 1) [] cs

/-- A string, after its first quote; a line end right after three quotes does not belong to it. -/
def string (quote : Char) : Reader String
  | a :: b :: cs =>
    if a = quote ∧ b = quote then
      let body := (newline? cs).getD cs
      linesString quote (hasEscapes quote) (body.length + 1) [] body
    else shortString quote (a :: b :: cs)
  | cs => shortString quote cs

/-! ## Keys -/

def isKeyChar (c : Char) : Bool := c.isAlphanum || c = '_' || c = '-'

/-- One part of a key. -/
def keyPart : Reader String
  | '"' :: cs => shortString '"' cs
  | '\'' :: cs => shortString '\'' cs
  | cs =>
    let name := cs.takeWhile isKeyChar
    if name.isEmpty then none else some (String.ofList name, cs.drop name.length)

/-- Neither the parts of a key nor the levels of a value may be that many. -/
def depthLimit : Nat := 80

/-- The parts of a key, with the spaces around them. -/
def keyParts : (fuel : Nat) → Reader (List String)
  | 0, _ => none
  | fuel + 1, cs => do
    let (part, rest) ← keyPart (skipSpace cs)
    match skipSpace rest with
    | '.' :: rest => do
      let (parts, rest) ← keyParts fuel rest
      return (part :: parts, rest)
    | rest => return ([part], rest)

/-- A key: the tables it names, and the name in the last one. -/
def key : Reader (List String × String) := fun cs => do
  let (parts, rest) ← keyParts (cs.length + 1) cs
  guard (parts.length < depthLimit)
  return ((parts.dropLast, ← parts.getLast?), rest)

/-! ## Numbers and dates -/

/-- The digits of a number; single underscores may stand between them. -/
def underscored (isDigit : Char → Bool) : Reader (List Char)
  | [] => none
  | c :: cs => if isDigit c then some (more c cs) else none
where
  more (c : Char) : List Char → List Char × List Char
    | '_' :: d :: cs =>
      if isDigit d then
        let (ds, rest) := more d cs
        (c :: ds, rest)
      else ([c], '_' :: d :: cs)
    | d :: cs =>
      if isDigit d then
        let (ds, rest) := more d cs
        (c :: ds, rest)
      else ([c], d :: cs)
    | [] => ([c], [])

/-- A sign: whether it is a minus. -/
def sign : List Char → Bool × List Char
  | '-' :: cs => (true, cs)
  | '+' :: cs => (false, cs)
  | cs => (false, cs)

/-- A decimal number without zeros in front. -/
def wholeNumber : Reader (List Char)
  | '0' :: cs => some (['0'], cs)
  | cs => underscored Char.isDigit cs

/-- An integer in another base than ten. -/
def basedInteger (base : Nat) : Reader Int := fun cs => do
  let (digits, rest) ← underscored (isDigitOf base) cs
  return (numberOf base digits, rest)

/-- A decimal integer with its sign. -/
def signedInteger (digits : Reader (List Char)) : Reader Int := fun cs => do
  let (negative, cs) := sign cs
  let (ds, rest) ← digits cs
  let n : Int := numberOf 10 ds
  return (if negative then -n else n, rest)

/-- An integer of any size. -/
def unbounded : Reader Int
  | '0' :: 'x' :: cs => basedInteger 16 cs
  | '0' :: 'o' :: cs => basedInteger 8 cs
  | '0' :: 'b' :: cs => basedInteger 2 cs
  | cs => signedInteger wholeNumber cs

/-- An integer that fits into 64 bits. -/
def integer : Reader Value := fun cs => do
  let (n, rest) ← unbounded cs
  guard (-(pow2 63 : Int) ≤ n ∧ n < pow2 63)
  return (.integer n, rest)

/-- The digits after the point. -/
def fraction : Reader (List Char)
  | '.' :: cs => underscored Char.isDigit cs
  | _ => none

def exponent : Reader Int
  | c :: cs => if c = 'e' ∨ c = 'E' then signedInteger (underscored Char.isDigit) cs else none
  | [] => none

/-- Whether `digits * 10 ^ exponent` is too large for a binary64 number. -/
def isTooLarge (digits : List Char) (exponent : Int) : Bool :=
  let n := numberOf 10 digits
  if n = 0 then false
  else if 400 < exponent then true
  else if exponent < 0 - (digits.length : Int) then false
  else (Binary64.ofQuotient (n * pow10 exponent.toNat) (pow10 (-exponent).toNat)).isNone

/-- The rest of the text after a word. -/
def after? : (word : List Char) → List Char → Option (List Char)
  | [], cs => some cs
  | w :: word, c :: cs => if w = c then after? word cs else none
  | _ :: _, [] => none

/-- A number with a fraction or an exponent. Only a negative one may be too large. -/
def decimal : Reader Value := fun cs => do
  let (negative, cs) := sign cs
  let (whole, rest) ← wholeNumber cs
  let (digits, e, rest) ← match fraction rest with
    | some (part, rest) =>
      let (e, rest) := (exponent rest).getD (0, rest)
      some (whole ++ part, e - part.length, rest)
    | none => do
      let (e, rest) ← exponent rest
      some (whole, e, rest)
  guard (negative || !isTooLarge digits e)
  return (.float, rest)

/-- An infinity, or not a number at all. -/
def specialFloat : Reader Value := fun cs => do
  let (_, cs) := sign cs
  let rest ← (after? "inf".toList cs).or (after? "nan".toList cs)
  return (.float, rest)

/-- A number of exactly so many digits within bounds. -/
def fixed (digits low high : Nat) : Reader Nat := fun cs => do
  let front := cs.take digits
  let n := numberOf 10 front
  guard (front.length = digits ∧ front.all Char.isDigit ∧ low ≤ n ∧ n ≤ high)
  return (n, cs.drop digits)

def daysIn (year month : Nat) : Nat :=
  if month = 2 then
    if year % 4 = 0 ∧ (year % 100 ≠ 0 ∨ year % 400 = 0) then 29 else 28
  else if month = 4 ∨ month = 6 ∨ month = 9 ∨ month = 11 then 30
  else 31

def date : Reader Unit := fun cs => do
  let (year, cs) ← fixed 4 0 9999 cs
  let (month, cs) ← fixed 2 1 12 (← after? ['-'] cs)
  let (_, cs) ← fixed 2 1 (daysIn year month) (← after? ['-'] cs)
  return ((), cs)

/-- A time of the day; the last minute may have a leap second. -/
def time : Reader Unit := fun cs => do
  let (_, cs) ← fixed 2 0 23 cs
  let (_, cs) ← fixed 2 0 59 (← after? [':'] cs)
  let (_, cs) ← fixed 2 0 60 (← after? [':'] cs)
  match cs with
  | '.' :: d :: rest => return ((), if d.isDigit then rest.dropWhile Char.isDigit else cs)
  | _ => return ((), cs)

/-- The offset of a time from universal time, if there is one. -/
def skipOffset (cs : List Char) : List Char :=
  match cs with
  | c :: rest =>
    if c = 'Z' ∨ c = 'z' then rest
    else if c = '+' ∨ c = '-' then
      let hoursMinutes : Option (List Char) := do
        let (_, rest) ← fixed 2 0 23 rest
        let (_, rest) ← fixed 2 0 59 (← after? [':'] rest)
        return rest
      hoursMinutes.getD cs
    else cs
  | [] => []

/-- The time that may follow a date. -/
def skipTime (cs : List Char) : List Char :=
  match cs with
  | c :: rest =>
    if c = 'T' ∨ c = 't' ∨ c = ' ' then
      match time rest with
      | some ((), rest) => skipOffset rest
      | none => cs
    else cs
  | [] => []

/-- A date, a time or both. -/
def dateTime : Reader Value := fun cs =>
  match date cs with
  | some ((), rest) => some (.dateTime, skipTime rest)
  | none => (time cs).map fun (_, rest) => (.dateTime, rest)

/-- A number or a date. -/
def numeric : Reader Value := fun cs =>
  (dateTime cs).or ((decimal cs).or ((specialFloat cs).or (integer cs)))

/-! ## Values -/

/-- The rest of an array after its opening bracket. -/
def items (value : Reader Value) : (fuel : Nat) → (seen : List Value) → Reader (List Value)
  | 0, _, _ => none
  | fuel + 1, seen, cs =>
    match skipLines false cs with
    | ']' :: rest => some (seen.reverse, rest)
    | cs => do
      let (v, rest) ← value cs
      match skipLines false rest with
      | ',' :: rest => items value fuel (v :: seen) rest
      | ']' :: rest => some ((v :: seen).reverse, rest)
      | _ => none

/-- A key with its value. -/
def pair (value : Reader Value) : Reader (List String × String × Value) := fun cs => do
  let ((path, name), rest) ← key cs
  let (v, rest) ← value (skipSpace (← after? ['='] rest))
  return ((path, name, v), rest)

/-- The rest of a table in braces after its first member; there is no comma after the last one. -/
def pairs (value : Reader Value) : (fuel : Nat) → Reader (List (List String × String × Value))
  | 0, _ => none
  | fuel + 1, cs => do
    let (p, rest) ← pair value cs
    match skipSpace rest with
    | ',' :: rest => do
      let (ps, rest) ← pairs value fuel rest
      return (p :: ps, rest)
    | '\x7d' :: rest => return ([p], rest)
    | _ => none

/-- The rest of a table in braces. -/
def braces (value : Reader Value) : Reader Value := fun cs =>
  match skipSpace cs with
  | '\x7d' :: rest => some (.table .braces [], rest)
  | cs => do
    let (ps, rest) ← pairs value (cs.length + 1) cs
    return (← ofPairs ps, rest)

/-- A value that holds no other values. -/
def scalar : Reader Value := fun cs =>
  match cs with
  | '"' :: rest => (string '"' rest).map fun (s, rest) => (.string s, rest)
  | '\'' :: rest => (string '\'' rest).map fun (s, rest) => (.string s, rest)
  | 't' :: _ => (after? "true".toList cs).map fun rest => (.boolean true, rest)
  | 'f' :: _ => (after? "false".toList cs).map fun rest => (.boolean false, rest)
  | _ => numeric cs

/-- A value whose arrays and tables in braces nest at most `levels` deep. -/
def value : (levels : Nat) → Reader Value
  | 0, cs => scalar cs
  | levels + 1, cs =>
    match cs with
    | '[' :: rest =>
      (items (value levels) (rest.length + 1) [] rest).map fun (vs, rest) => (.array vs, rest)
    | '\x7b' :: rest => braces (value levels) rest
    | _ => scalar cs

/-! ## Statements -/

/-- The line that starts here; at the end of the text there is none. -/
def statement (cs : List Char) : Option (Option Statement × List Char) :=
  match cs with
  | '[' :: '[' :: rest => do
    let ((path, name), rest) ← key rest
    let rest ← lineEnd? (← after? [']', ']'] rest)
    return (some (.listHeader path name), rest)
  | '[' :: rest => do
    let ((path, name), rest) ← key rest
    let rest ← lineEnd? (← after? [']'] rest)
    return (some (.header path name), rest)
  | _ =>
    match lineEnd? cs with
    | some rest => some (none, rest)
    | none => do
      let ((path, name, v), rest) ← pair (value (depthLimit - 1)) cs
      return (some (.pair path name v), ← lineEnd? rest)

def statements : (fuel : Nat) → (seen : List Statement) → List Char → Option (List Statement)
  | _, seen, [] => some seen.reverse
  | 0, _, _ :: _ => none
  | fuel + 1, seen, cs => do
    let (s, rest) ← statement (skipSpace cs)
    statements fuel (s.toList ++ seen) rest

end Reader

/-- The statements that were added up so far, and the table that pairs go to. -/
structure Draft where
  root : Members := []
  current : List String := []

namespace Draft

/-- Adds a statement. -/
def add (d : Draft) : Statement → Option Draft
  | .header path name => do return ⟨← addHeader path name d.root, path ++ [name]⟩
  | .listHeader path name => do return ⟨← addListHeader path name d.root, path ++ [name]⟩
  | .pair path name v => do
    return { d with root := ← changeAt (addPair name v path) d.current d.root }

end Draft

/-- The table a text stands for; a byte order mark in front is skipped. -/
def parse? (text : String) : Option Members := do
  let cs := match text.toList with
    | '\uFEFF' :: cs => cs
    | cs => cs
  let statements ← Reader.statements (cs.length + 1) [] cs
  return (← statements.foldlM Draft.add {}).root

end Rostrum.Toml
