/-!
# Patterns

The syntax of regular expressions: signs and sets of signs, places in a text, repetition, sequence,
choice and groups. Flags may change within a pattern. `Pattern.depth` is how deep its parts are
nested.
-/

namespace Rostrum

/-- A character of a pattern. -/
structure Pattern.Sign where
  char : Char
  /-- Whether it is given by a code of two digits, so that it may stand for a byte. -/
  isByte : Bool := false
deriving DecidableEq, Repr

namespace Pattern.Sign

def isAscii (s : Sign) : Bool := s.char.toNat < 128

end Pattern.Sign

/-- What may be in brackets: characters, and sets of them. -/
inductive SignSet where
  | sign (s : Pattern.Sign)
  | range (first last : Pattern.Sign)
  /-- A class of ASCII characters by its name. -/
  | named (negated : Bool) (name : String)
  /-- Digits, blanks or the characters of words, by a letter. -/
  | shorthand (negated : Bool)
  | bracketed (negated : Bool) (members : SignSet)
  | union (members : List SignSet)
  /-- What two sets have in common, what only one of them has, or what only the first has. -/
  | combined (left right : SignSet)

namespace SignSet

/-- Some members together. -/
def ofList : List SignSet → SignSet
  | [s] => s
  | members => .union members

mutual

/-- How deep sets are nested. -/
def depth : SignSet → Nat
  | .bracketed _ members => members.depth + 1
  | .union [] => 0
  | .union members => depths members + 1
  | .combined left right => max left.depth right.depth + 1
  | _ => 0

def depths : List SignSet → Nat
  | [] => 0
  | s :: rest => max s.depth (depths rest)

end

end SignSet

inductive Pattern.Flag where
  /-- Letters stand for both of their cases. -/
  | caseless
  /-- Lines have starts and ends of their own. -/
  | lines
  /-- A point stands for line ends too. -/
  | pointAll
  /-- Short repetitions come first. -/
  | lazyFirst
  /-- Signs are characters, not bytes. -/
  | unicode
  /-- Lines end with a carriage return and a line feed. -/
  | carriage
  /-- Blanks and comments stand for nothing. -/
  | spaced
deriving DecidableEq, Repr

/-- A flag that is set or cleared. -/
structure Pattern.FlagChange where
  flag : Pattern.Flag
  on : Bool
deriving DecidableEq, Repr

/-- A regular expression. -/
inductive Pattern where
  | sign (s : Pattern.Sign)
  /-- A point. -/
  | anySign
  /-- A start or an end of the text or of a line. -/
  | edge
  /-- A place where a word starts or ends, or where none does. -/
  | wordEdge
  /-- Digits, blanks or the characters of words, by a letter. -/
  | shorthand (negated : Bool)
  | set (negated : Bool) (members : SignSet)
  | repeated (p : Pattern)
  /-- A group, with the flags that change within it. -/
  | group (changes : List Pattern.FlagChange) (p : Pattern)
  /-- Flags that change for what follows in the same group. -/
  | change (changes : List Pattern.FlagChange)
  | sequence (parts : List Pattern)
  | choice (parts : List Pattern)

namespace Pattern

/-- Some parts one after the other. -/
def inSequence : List Pattern → Pattern
  | [p] => p
  | parts => .sequence parts

/-- One of some parts. -/
def oneOf : List Pattern → Pattern
  | [p] => p
  | parts => .choice parts

mutual

/-- How deep patterns are nested. -/
def depth : Pattern → Nat
  | .set _ members => members.depth + 1
  | .repeated p => p.depth + 1
  | .group _ p => p.depth + 1
  | .sequence [] => 0
  | .sequence parts => depths parts + 1
  | .choice parts => depths parts + 1
  | _ => 0

def depths : List Pattern → Nat
  | [] => 0
  | p :: rest => max p.depth (depths rest)

end

end Pattern

end Rostrum
