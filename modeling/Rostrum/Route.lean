import Rostrum.Text.Blank

/-!
# Routes

A route is a path whose segments may end in a parameter. `:name` stands for the rest of its segment,
`*name` for all that is left of the path. Paths are taken as they are written: nothing in them is
decoded, and every slash counts.
-/

namespace Rostrum

/-- One segment of a route. -/
inductive RouteSegment where
  | fixed (text : List Char)
  /-- A start, and a parameter for the rest of the segment. -/
  | parameter (start : List Char)
  /-- All segments from here on. -/
  | rest
deriving DecidableEq, Repr

namespace RouteSegment

/-- Whether a parameter starts with a character. -/
def isMark (c : Char) : Bool := c = ':' || c = '*'

/-- Reads a segment. A parameter has a name, and no other parameter follows it in its segment. -/
def ofChars? (cs : List Char) : Option RouteSegment :=
  let start := cs.takeWhile fun c => !isMark c
  match cs.drop start.length with
  | [] => some (.fixed cs)
  | mark :: name =>
    if name.isEmpty || name.any isMark then none
    else if mark = ':' then some (.parameter start)
    else if start.isEmpty then some .rest
    else none

def isParameter : RouteSegment → Bool
  | .parameter _ => true
  | _ => false

end RouteSegment

/-- A route, by its segments behind the first slash. -/
structure Route where
  segments : List RouteSegment
deriving DecidableEq, Repr

namespace Route

/-- A route has fewer parameters than that. -/
def parameterLimit : Nat := 26

/-- Reads a route. It starts with a slash, and only its last segment may stand for all that is left. -/
def ofText? (text : String) : Option Route :=
  match text.toList with
  | '/' :: cs => do
    let segments ← (splitAtChar '/' cs).mapM RouteSegment.ofChars?
    guard (!segments.dropLast.contains .rest)
    guard ((segments.filter RouteSegment.isParameter).length < parameterLimit)
    return ⟨segments⟩
  | _ => none

/--
Whether segments of a route take those of a path. A parameter at the end of a path is not empty, one
in front of a slash may be.
-/
def takes : List RouteSegment → List (List Char) → Bool
  | [], [] => true
  | [.rest], path => path ≠ [[]] && !path.isEmpty
  | .fixed text :: route, segment :: path => text = segment && takes route path
  | .parameter start :: route, segment :: path =>
    start.isPrefixOf segment && (!path.isEmpty || start.length < segment.length) && takes route path
  | _, _ => false

/-- Whether a route leads to a path. -/
def admits (r : Route) (path : String) : Bool :=
  match path.toList with
  | '/' :: cs => takes r.segments (splitAtChar '/' cs)
  | _ => false

end Route

end Rostrum
