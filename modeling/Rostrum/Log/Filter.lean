import Rostrum.Number.Plain
import Rostrum.Pattern.Reader

/-!
# Log filters

A filter is a list of directives, separated by commas. A directive says how much is logged, for
everything or for a target and what lies below it; of the directives that concern an event the most
specific one decides. Directives that ask for a span concern no event outside of spans, and no others
are logged here.
-/

namespace Rostrum.Log

inductive Level where
  | error
  | warn
  | info
  | debug
  | trace
deriving DecidableEq, Repr

namespace Level

def all : List Level := [.error, .warn, .info, .debug, .trace]

def name : Level → String
  | .error => "error"
  | .warn => "warn"
  | .info => "info"
  | .debug => "debug"
  | .trace => "trace"

/-- More detailed levels have a higher rank. -/
def rank : Level → Nat
  | .error => 1
  | .warn => 2
  | .info => 3
  | .debug => 4
  | .trace => 5

/-- Whether a text is the name of a level. -/
def isName (text : String) : Bool := all.any fun l => l.name = text

end Level

/-- How much is logged: the levels up to a rank, nothing at rank 0. -/
structure Verbosity where
  rank : Nat
deriving DecidableEq, Repr

namespace Verbosity

def everything : Verbosity := ⟨Level.trace.rank⟩

def admits (v : Verbosity) (l : Level) : Bool := l.rank ≤ v.rank

/-- The number a text of digits stands for, which may start with a plus. -/
def number? (cs : List Char) : Option Nat :=
  let digits := match cs with
    | '+' :: rest => rest
    | _ => cs
  if !digits.isEmpty && digits.all Char.isDigit then
    some (digits.foldl (fun n c => 10 * n + (c.toNat - '0'.toNat)) 0)
  else none

/-- Reads a rank, or the name of a level in any case, or `off`; no text at all means errors only. -/
def ofChars? (cs : List Char) : Option Verbosity :=
  match number? cs with
  | some n => if n ≤ Level.trace.rank then some ⟨n⟩ else none
  | none =>
    let name := String.ofList (cs.map Char.toLower)
    if name = "" then some ⟨Level.error.rank⟩
    else if name = "off" then some ⟨0⟩
    else (Level.all.find? fun l => l.name = name).map fun l => ⟨l.rank⟩

end Verbosity

/-- What is logged. -/
structure Event where
  target : String
  level : Level
  /-- The names of its fields. -/
  fields : List String := ["message"]
deriving Repr

/-- Why a text is no filter. -/
inductive Fault where
  | malformed
  /-- A part would start or end within a character. -/
  | torn
deriving DecidableEq, Repr

/-- One directive of a filter. -/
structure Directive where
  target : Option String := none
  span : Option String := none
  /-- The fields it asks for, and whether it asks for a value. -/
  fields : List (String × Bool) := []
  verbosity : Verbosity := .everything
deriving Repr

namespace Directive

/-- Where a reader is in a directive; the numbers are positions at which a part starts. -/
inductive State where
  | start
  | levelOrTarget (start : Nat)
  | span (start : Nat)
  | field (start : Nat)
  | fieldsRead
  | spanRead
  | level (start : Nat)

/-- The rest of a text from a position on, counted in bytes of UTF-8. No character may be torn. -/
def dropBytes : (bytes : Nat) → List Char → Except Fault (List Char)
  | 0, cs => .ok cs
  | _ + 1, [] => .error .torn
  | bytes + 1, c :: cs =>
    if c.utf8Size ≤ bytes + 1 then dropBytes (bytes + 1 - c.utf8Size) cs else .error .torn
termination_by _ cs => cs.length

/-- The start of a text up to a position. -/
def takeBytes : (bytes : Nat) → List Char → Except Fault (List Char)
  | 0, _ => .ok []
  | _ + 1, [] => .error .torn
  | bytes + 1, c :: cs =>
    if c.utf8Size ≤ bytes + 1 then do return c :: (← takeBytes (bytes + 1 - c.utf8Size) cs)
    else .error .torn
termination_by _ cs => cs.length

/-- The text from one position up to another. -/
def cut (text : List Char) (start stop : Nat) : Except Fault (List Char) := do
  takeBytes (stop - start) (← dropBytes start text)

/-- Whether a directive may start with a character. -/
def canStart (c : Char) : Bool := c = '-' || c = ':' || c = '_' || Text.isAlphanumeric c

/-- Whether a text may be asked for as a value: it is a number or a pattern. -/
def isValue (cs : List Char) : Bool := isNumeral cs || (Pattern.ofChars? cs).any Pattern.isUsable

/-- A field that is asked for, perhaps with a value. What comes after a second sign does not count. -/
def fieldOf (cs : List Char) : Except Fault (String × Bool) :=
  match splitAtChar '=' cs with
  | [] => .ok ("", false)
  | [name] => .ok (String.ofList name, false)
  | name :: value :: _ =>
    if isValue value then .ok (String.ofList name, true) else .error .malformed

/-- Reads the character `c` at position `i`. -/
def read (text : List Char) (i : Nat) (c : Char) (d : Directive) :
    State → Except Fault (State × Directive)
  | .start =>
    if c = '[' then .ok (.span (i + 1), d)
    else if canStart c then .ok (.levelOrTarget i, d)
    else .error .malformed
  | .levelOrTarget start =>
    if c = '=' ∨ c = '[' then do
      let d := { d with target := some (String.ofList (← cut text start i)) }
      return (if c = '=' then .level (i + 1) else .span (i + 1), d)
    else .ok (.levelOrTarget start, d)
  | .span start =>
    if c = ']' then do
      return (.spanRead, { d with span := some (String.ofList (← cut text start i)) })
    else if c = '\x7b' then do
      let name ← cut text start i
      return (.field (i + 1),
        { d with span := if name.isEmpty then none else some (String.ofList name) })
    else .ok (.span start, d)
  | .field start =>
    if c = '\x7d' then do
      let field ← cut text start i
      if field.isEmpty then throw .malformed
      return (.fieldsRead, { d with fields := d.fields ++ [← fieldOf field] })
    else .ok (.field start, d)
  | .fieldsRead => if c = ']' then .ok (.spanRead, d) else .error .malformed
  | .spanRead => if c = '=' then .ok (.level (i + 1), d) else .error .malformed
  | .level start => .ok (.level start, d)

/-- Reads characters from position `i` on. -/
def readAll (text : List Char) (i : Nat) (d : Directive) :
    State → List Char → Except Fault (State × Directive)
  | state, [] => .ok (state, d)
  | state, c :: cs => do
    let (state, d) ← read text i c d state
    readAll text (i + c.utf8Size) d state cs

/-- What a directive is whose text has ended. -/
def finish (text : List Char) (d : Directive) : State → Except Fault Directive
  | .levelOrTarget start => do
    let word ← dropBytes start text
    if word.isEmpty then return d
    match Verbosity.ofChars? word with
    | some v => return { d with verbosity := v }
    | none => return { d with target := some (String.ofList word) }
  | .level start => do
    let word ← dropBytes start text
    if word.isEmpty then return d
    match Verbosity.ofChars? word with
    | some v => return { d with verbosity := v }
    | none => throw .malformed
  | .spanRead => .ok d
  | _ => .error .malformed

/--
Reads a directive. Blanks at its ends are passed over and not counted in positions, but parts are cut
out of the whole text: with blanks in front they are other parts than it seems.
-/
def ofChars (text : List Char) : Except Fault Directive := do
  let (state, d) ← readAll text 0 {} .start (trimBlanks text)
  finish text d state

/-- Whether a directive concerns an event. -/
def concerns (d : Directive) (e : Event) : Bool :=
  d.span.isNone && d.fields.all (fun f => !f.2 && e.fields.contains f.1) &&
    match d.target with
    | some target => e.target.startsWith target
    | none => true

/-- The names of the fields a directive asks for. -/
def names (d : Directive) : List String := d.fields.map Prod.fst

/--
A directive is more specific than another if its target is longer, or it asks for more fields, or for
fields whose names come later.
-/
def isMoreSpecific (d d' : Directive) : Bool :=
  let length (d : Directive) : Nat := (d.target.map fun t => t.utf8ByteSize + 1).getD 0
  length d' < length d ||
    (length d = length d' &&
      (d'.names.length < d.names.length ||
        (d.names.length = d'.names.length && d'.names < d.names)))

end Directive

/-- The directives of a filter. -/
structure Filter where
  directives : List Directive
deriving Repr

namespace Filter

/-- Reads a filter; parts without text are passed over. Without directives nothing is logged. -/
def ofText (text : String) : Except Fault Filter := do
  let parts := (splitAtChar ',' text.toList).filter fun part => !part.isEmpty
  return ⟨← parts.mapM Directive.ofChars⟩

/-- What is logged when no filter can be read. -/
def info : Filter := ⟨[{ verbosity := ⟨Level.info.rank⟩ }]⟩

/-- The first of some filters that is not malformed, or `info`; nothing if one before it is torn. -/
def firstOf : List String → Option Filter
  | [] => some info
  | text :: texts =>
    match ofText text with
    | .ok f => some f
    | .error .malformed => firstOf texts
    | .error .torn => none

/-- The directive that decides on an event; of equally specific ones it is the last. -/
def deciding? (f : Filter) (e : Event) : Option Directive :=
  (f.directives.filter fun d => d.concerns e).foldl
    (fun best d => match best with
      | some b => if b.isMoreSpecific d then some b else some d
      | none => some d) none

/-- Whether an event is logged. -/
def admits (f : Filter) (e : Event) : Bool :=
  match f.deciding? e with
  | some d => d.verbosity.admits e.level
  | none => false

end Filter

end Rostrum.Log
