import Rostrum.Number.Digits
import Rostrum.Pattern.Usable
import Rostrum.Text.Alphanumeric
import Rostrum.Text.Blank

/-!
# Reading patterns

A reader goes through the text once. It keeps in mind whether blanks stand for nothing, and which
names groups already have. Whatever is wrong with a text, it is no pattern: no reader says more than
that. Bounds on repetitions (`a{2}`) and properties of characters (`\pL`) are not among the patterns.
-/

namespace Rostrum.Pattern

/-- Where a reader is. -/
structure Reading where
  rest : List Char
  /-- Whether blanks and comments stand for nothing. -/
  spaced : Bool := false
  /-- The names that groups have. -/
  names : List (List Char) := []

/-- A reader of a part of the text. -/
abbrev Reader (α : Type) := Reading → Option (α × Reading)

/--
The text without the blanks and comments in front. A comment goes from a number sign to the end of its
line.
-/
def skipBlanks (inComment : Bool) : List Char → List Char
  | [] => []
  | c :: cs =>
    if inComment then skipBlanks (c ≠ '\n') cs
    else if isBlank c then skipBlanks false cs
    else if c = '#' then skipBlanks true cs
    else c :: cs

namespace Reading

/-- Skips what stands for nothing. -/
def skip (r : Reading) : Reading :=
  if r.spaced then { r with rest := skipBlanks false r.rest } else r

/-- Goes on behind a character. -/
def behind (r : Reading) (cs : List Char) : Reading := { r with rest := cs }

/-- Goes on behind a character, and behind what stands for nothing after it. -/
def past (r : Reading) (cs : List Char) : Reading := (r.behind cs).skip

/--
The character after the next one. Where blanks stand for nothing, those in between do not count, nor
does one number sign among them.
-/
def second? (r : Reading) : Option Char :=
  let cs := r.rest.drop 1
  if r.spaced then
    match cs.dropWhile isBlank with
    | '#' :: cs' => (cs'.dropWhile isBlank ++ cs).head?
    | cs' => (cs' ++ cs).head?
  else cs.head?

end Reading

/-! ## Escapes -/

/-- The characters that mean something by themselves. -/
def metaSigns : List Char := "\\.+*?()|[]\x7b\x7d^$#&-~".toList

/-- Whether a backslash may stand before a character without changing it. -/
def isEscapable (c : Char) : Bool :=
  metaSigns.contains c || (c.toNat < 128 && !c.isAlphanum && c ≠ '<' && c ≠ '>')

/-- The controls that letters stand for after a backslash. -/
def controlOf? : Char → Option Char
  | 'a' => some '\x07'
  | 'f' => some '\x0c'
  | 't' => some '\t'
  | 'n' => some '\n'
  | 'r' => some '\r'
  | 'v' => some '\x0b'
  | _ => none

/-- The number of hexadecimal digits that a letter asks for. -/
def codeLength? : Char → Option Nat
  | 'x' => some 2
  | 'u' => some 4
  | 'U' => some 8
  | _ => none

/-- Some hexadecimal digits, each before what stands for nothing. -/
def hexDigits : (count : Nat) → Reader (List Char)
  | 0, r => some ([], r)
  | count + 1, r =>
    match r.rest with
    | c :: cs =>
      if isDigitOf 16 c then
        (hexDigits count (r.past cs)).map fun (ds, r) => (c :: ds, r)
      else none
    | [] => none

/-- A character given by its code. -/
def coded (digits : Nat) : Reader Pattern := fun r => do
  let (ds, r) ← hexDigits digits r
  let code := numberOf 16 ds
  guard code.isValidChar
  return (.sign { char := Char.ofNat code, isByte := digits = 2 }, r)

/-- What stands after a backslash. -/
def escape : Reader Pattern := fun r =>
  match r.rest with
  | [] => none
  | c :: cs =>
    match codeLength? c with
    | some digits => coded digits (r.past cs)
    | none =>
      let found : Option Pattern :=
        if "dsw".toList.contains c then some (.shorthand false)
        else if "DSW".toList.contains c then some (.shorthand true)
        else if isEscapable c then some (.sign { char := c })
        else if c = 'A' ∨ c = 'z' then some .edge
        else if "bB<>".toList.contains c then some .wordEdge
        else (controlOf? c).map fun control => .sign { char := control }
      found.map fun p => (p, r.behind cs)

/-! ## Sets -/

/-- The names of classes of ASCII characters. -/
def classNames : List String :=
  ["alnum", "alpha", "ascii", "blank", "cntrl", "digit", "graph", "lower", "print", "punct", "space",
    "upper", "word", "xdigit"]

/-- A class of ASCII characters, after its first bracket. -/
def namedClass? : List Char → Option (SignSet × List Char)
  | ':' :: cs =>
    let (negated, cs) := match cs with
      | '^' :: cs => (true, cs)
      | cs => (false, cs)
    let name := String.ofList (cs.takeWhile fun c => c ≠ ':')
    match cs.dropWhile fun c => c ≠ ':' with
    | ':' :: ']' :: cs => if classNames.contains name then some (.named negated name, cs) else none
    | _ => none
  | _ => none

/-- One character of a set, or what stands after a backslash. -/
def setPart : Reader Pattern := fun r =>
  match r.rest with
  | '\\' :: cs => escape (r.behind cs)
  | c :: cs => some (.sign { char := c }, r.behind cs)
  | [] => none

/-- A character or a range of characters. -/
def setMember : Reader SignSet := fun r => do
  let (first, r) ← setPart r
  let r := r.skip
  let single : Option SignSet := match first with
    | .sign s => some (.sign s)
    | .shorthand negated => some (.shorthand negated)
    | _ => none
  match r.rest with
  | [] => none
  | '-' :: cs =>
    if r.second? = some ']' ∨ r.second? = some '-' then return (← single, r)
    let (last, r) ← setPart (r.past cs)
    match first, last with
    | .sign a, .sign b => if a.char ≤ b.char then return (.range a b, r) else none
    | _, _ => none
  | _ => return (← single, r)

/-- The minus signs a set starts with. -/
def leadingMinus : (fuel : Nat) → Reader (List SignSet)
  | 0, r => some ([], r)
  | fuel + 1, r =>
    match r.rest with
    | '-' :: cs =>
      (leadingMinus fuel (r.past cs)).map fun (ms, r) => (.sign { char := '-' } :: ms, r)
    | _ => some ([], r)

/-- The start of a set: whether it is negated, and members that need no escape there. -/
def setStart (fuel : Nat) : Reader (Bool × List SignSet) := fun r =>
  let r := r.skip
  let (negated, r) := match r.rest with
    | '^' :: cs => (true, r.past cs)
    | _ => (false, r)
  match leadingMinus fuel r with
  | some ([], r) =>
    match r.rest with
    | ']' :: cs => some ((negated, [.sign { char := ']' }]), r.past cs)
    | _ => some ((negated, []), r)
  | some (minus, r) => some ((negated, minus), r)
  | none => none

/-- What a set is, given what stands before its last operator and the members behind it. -/
def setOf (left : Option SignSet) (members : List SignSet) : SignSet :=
  match left with
  | some l => .combined l (.ofList members.reverse)
  | none => .ofList members.reverse

/-- The rest of the text after an operator on sets. -/
def setOperator? : List Char → Option (List Char)
  | '&' :: '&' :: cs => some cs
  | '-' :: '-' :: cs => some cs
  | '~' :: '~' :: cs => some cs
  | _ => none

/-- The rest of a set up to its bracket; `seen` are its last members, the latest first. -/
def setRest : (fuel : Nat) → (left : Option SignSet) → (seen : List SignSet) → Reader SignSet
  | 0, _, _, _ => none
  | fuel + 1, left, seen, r =>
    let r := r.skip
    match r.rest, setOperator? r.rest with
    | [], _ => none
    | ']' :: cs, _ => some (setOf left seen, r.behind cs)
    | '[' :: cs, _ =>
      match namedClass? cs with
      | some (s, cs) => setRest fuel left (s :: seen) (r.behind cs)
      | none => do
        let ((negated, start), r) ← setStart fuel (r.behind cs)
        let (members, r) ← setRest fuel none start r
        setRest fuel left (.bracketed negated members :: seen) r
    | _, some cs => setRest fuel (some (setOf left seen)) [] (r.behind cs)
    | _, none => do
      let (s, r) ← setMember r
      setRest fuel left (s :: seen) r

/-! ## Groups -/

def flagOf? : Char → Option Flag
  | 'i' => some .caseless
  | 'm' => some .lines
  | 's' => some .pointAll
  | 'U' => some .lazyFirst
  | 'u' => some .unicode
  | 'R' => some .carriage
  | 'x' => some .spaced
  | _ => none

/-- Flags up to a colon or a bracket; those after a minus sign are cleared. Each is named once. -/
def flagChanges (on : Bool) (seen : List FlagChange) :
    List Char → Option (List FlagChange × List Char)
  | [] => none
  | '-' :: c :: cs => if on && (flagOf? c).isSome then flagChanges false seen (c :: cs) else none
  | c :: cs =>
    if c = ':' ∨ c = ')' then some (seen.reverse, c :: cs)
    else match flagOf? c with
      | some flag =>
        if seen.any fun s => s.flag = flag then none else flagChanges on (⟨flag, on⟩ :: seen) cs
      | none => none

/-- Whether a character may be in the name of a group. -/
def isNameChar (c : Char) : Bool :=
  c = '_' || c = '.' || c = '[' || c = ']' || Text.isAlphanumeric c

/-- The name of a group, which no other group has. -/
def groupName : Reader Unit := fun r =>
  let name := r.rest.takeWhile isNameChar
  match name, r.rest.drop name.length with
  | first :: _, '>' :: cs =>
    if (first = '_' || Text.isAlphabetic first) && !r.names.contains name then
      some ((), { r with rest := cs, names := name :: r.names })
    else none
  | _, _ => none

/-- What a bracket opens. -/
inductive Opening where
  | group (changes : List FlagChange)
  /-- No group: flags change for what follows. -/
  | change (changes : List FlagChange)

/-- The start of a group after its bracket. -/
def opening : Reader Opening := fun r =>
  let r := r.skip
  match r.rest with
  | '?' :: 'P' :: '<' :: cs => (groupName (r.behind cs)).map fun ((), r) => (.group [], r)
  | '?' :: '<' :: cs => (groupName (r.behind cs)).map fun ((), r) => (.group [], r)
  | '?' :: cs =>
    match flagChanges true [] cs with
    | some (changes, ':' :: cs) => some (.group changes, r.behind cs)
    | some (c :: changes, ')' :: cs) => some (.change (c :: changes), r.behind cs)
    | _ => none
  | _ => some (.group [], r)

/-- Whether blanks stand for nothing after some changes. -/
def spacedAfter (changes : List FlagChange) (spaced : Bool) : Bool :=
  match changes.find? fun c => c.flag = .spaced with
  | some c => c.on
  | none => spaced

/-! ## Patterns -/

/-- A part of a pattern that is made of one sign. -/
def single : Reader Pattern := fun r =>
  match r.rest with
  | '\\' :: cs => escape (r.behind cs)
  | '.' :: cs => some (.anySign, r.behind cs)
  | '^' :: cs => some (.edge, r.behind cs)
  | '$' :: cs => some (.edge, r.behind cs)
  | c :: cs => some (.sign { char := c }, r.behind cs)
  | [] => none

/-- The rest of the text after the sign of a repetition; a question mark after it belongs to it. -/
def repetition? : List Char → Option (List Char)
  | c :: cs =>
    if c = '?' ∨ c = '*' ∨ c = '+' then
      match cs with
      | '?' :: cs => some cs
      | cs => some cs
    else none
  | [] => none

/-- What a group is whose end has come. -/
def ended (choices seen : List Pattern) : Pattern := oneOf (inSequence seen.reverse :: choices).reverse

/--
The rest of a group up to its end. `choices` are the choices before, `seen` the parts of the last
one, both the latest first.
-/
def body : (fuel : Nat) → (choices seen : List Pattern) → Reader Pattern
  | 0, _, _, _ => none
  | fuel + 1, choices, seen, r =>
    let r := r.skip
    match r.rest, repetition? r.rest with
    | [], _ => some (ended choices seen, r)
    | ')' :: _, _ => some (ended choices seen, r)
    | '|' :: cs, _ => body fuel (inSequence seen.reverse :: choices) [] (r.behind cs)
    | '(' :: cs, _ => do
      match ← opening (r.behind cs) with
      | (.change changes, r) =>
        let r := { r with spaced := spacedAfter changes r.spaced }
        body fuel choices (.change changes :: seen) r
      | (.group changes, inner) =>
        let (p, inner) ← body fuel [] [] { inner with spaced := spacedAfter changes inner.spaced }
        match inner.rest with
        | ')' :: cs =>
          let after := { inner with rest := cs, spaced := r.spaced }
          body fuel choices (.group changes p :: seen) after
        | _ => none
    | '[' :: cs, _ => do
      let ((negated, start), r) ← setStart fuel (r.behind cs)
      let (members, r) ← setRest fuel none start r
      body fuel choices (.set negated members :: seen) r
    | '\x7b' :: _, _ => none
    | _, some cs =>
      match seen with
      | [] => none
      | .change _ :: _ => none
      | p :: before => body fuel choices (.repeated p :: before) (r.behind cs)
    | _, none => do
      let (p, r) ← single r
      body fuel choices (p :: seen) r

/-- Reads a pattern. -/
def ofChars? (text : List Char) : Option Pattern :=
  match body (text.length + 1) [] [] { rest := text } with
  | some (p, ⟨[], _, _⟩) => some p
  | _ => none

end Rostrum.Pattern
