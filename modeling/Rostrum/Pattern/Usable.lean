import Rostrum.Pattern.Basic

/-!
# Which patterns can be matched

Patterns are matched byte by byte against text in UTF-8, and nothing is known of letters beyond
ASCII. So as long as signs are characters, classes of characters, edges of words and letters of
either case cannot be used. Once signs are bytes, nothing can be used that matches a byte outside of
ASCII on its own.
-/

namespace Rostrum

/-- The flags on which it depends what can be used. -/
structure Pattern.Mode where
  caseless : Bool := false
  unicode : Bool := true
deriving DecidableEq, Repr

namespace Pattern.Mode

def changed (m : Mode) (c : FlagChange) : Mode :=
  match c.flag with
  | .caseless => { m with caseless := c.on }
  | .unicode => { m with unicode := c.on }
  | _ => m

def changedBy (m : Mode) (changes : List FlagChange) : Mode := changes.foldl changed m

end Pattern.Mode

namespace SignSet

/-- Whether a character can be used in a set. -/
def admits (m : Pattern.Mode) (s : Pattern.Sign) : Bool :=
  if m.unicode then !m.caseless else s.isAscii

mutual

/-- Whether a set can be used; a negated one has bytes outside of ASCII. -/
def isUsable (m : Pattern.Mode) : SignSet → Bool
  | .sign s => admits m s
  | .range first last => admits m first && admits m last
  | .named negated _ => if m.unicode then !m.caseless else !negated
  | .shorthand negated => !m.unicode && !negated
  | .bracketed negated members => members.isUsable m && (m.unicode || !negated)
  | .union members => areUsable m members
  | .combined left right => left.isUsable m && right.isUsable m

def areUsable (m : Pattern.Mode) : List SignSet → Bool
  | [] => true
  | s :: rest => s.isUsable m && areUsable m rest

end

end SignSet

namespace Pattern

/-- Whether a character can be used outside of sets. -/
def admits (m : Mode) (s : Sign) : Bool :=
  if m.unicode then !m.caseless else s.isAscii || (!s.isByte && !m.caseless)

mutual

/-- The mode after a pattern that can be used. -/
def modeAfter? (m : Mode) : Pattern → Option Mode
  | .sign s => if admits m s then some m else none
  | .anySign => if m.unicode then some m else none
  | .edge => some m
  | .wordEdge => if m.unicode then none else some m
  | .shorthand negated => if m.unicode || negated then none else some m
  | .set negated members =>
    if members.isUsable m && (m.unicode || !negated) then some m else none
  | .repeated p => p.modeAfter? m
  | .group changes p => (p.modeAfter? (m.changedBy changes)).map fun _ => m
  | .change changes => some (m.changedBy changes)
  | .sequence parts => modeAfterAll? m parts
  | .choice parts => modeAfterAll? m parts

def modeAfterAll? (m : Mode) : List Pattern → Option Mode
  | [] => some m
  | p :: rest =>
    match p.modeAfter? m with
    | some m => modeAfterAll? m rest
    | none => none

end

/-- Patterns are nested at most that deep. -/
def depthLimit : Nat := 250

def isUsable (p : Pattern) : Bool := p.depth ≤ depthLimit && (p.modeAfter? {}).isSome

end Pattern

end Rostrum
