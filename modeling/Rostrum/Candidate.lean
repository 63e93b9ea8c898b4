import Rostrum.Json.Reader
import Rostrum.Json.Shape
import Rostrum.Json.Writer

/-!
# Connection candidates

A candidate is a network address that a client or the media engine offers. The server passes it on
and looks at three members only; all others are kept as they are.
-/

namespace Rostrum

/-- A connection candidate. -/
structure Candidate where
  /-- The candidate line itself. -/
  line : String
  /-- The media stream it belongs to. -/
  mid : Option String := none
  /-- The index of the media line it belongs to. -/
  lineIndex : Option Nat := none
  /-- All other members, untouched. -/
  extras : Json.Members := []
deriving Repr, Inhabited

namespace Candidate

def lineName : String := "candidate"

def midName : String := "sdpMid"

def lineIndexName : String := "sdpMLineIndex"

/-- The names of the members that are looked at. -/
def knownNames : List String := [lineName, midName, lineIndexName]

/-- A candidate of which only the line is known. -/
def ofLine (line : String) : Candidate := { line := line }

/-- The members of a candidate in the order they are written; absent ones are left out. -/
def members (c : Candidate) : List (String × Json) :=
  (lineName, .string c.line)
    :: (c.mid.map fun m => (midName, Json.string m)).toList
    ++ (c.lineIndex.map fun i => (lineIndexName, Json.ofNat i)).toList
    ++ c.extras

/-- The candidate as an object with its members in the order they are written. -/
def written (c : Candidate) : Json := .object c.members

def toJson (c : Candidate) : Json := Json.mkObject c.members

/-- Reads one member into a candidate whose line may still be missing. -/
def readMember (got : Option String × Candidate) (name : String) (value : Json) :
    Except Json.ShapeFault (Option String × Candidate) := do
  if name = lineName then return (some (← Json.readString value), got.2)
  else if name = midName then
    return (got.1, { got.2 with mid := ← Json.readOptional Json.readString value })
  else if name = lineIndexName then
    return (got.1, { got.2 with lineIndex := ← Json.readOptional Json.readWord32 value })
  else return (got.1, { got.2 with extras := got.2.extras ++ [(name, value)] })

/-- Reads members one after the other; the first fault counts. -/
def readMembers (got : Option String × Candidate) :
    Json.Members → Except Json.ShapeFault (Option String × Candidate)
  | [] => .ok got
  | (name, value) :: rest => do readMembers (← readMember got name value) rest

/-- Reads a candidate off a value. A missing line is reported only when all else is in order. -/
def ofJson : Json → Except Json.ShapeFault Candidate
  | .object ms => do
    let (line, c) ← readMembers (none, { line := "" }) ms
    match line with
    | some line => return { c with line := line }
    | none => .error (.missing lineName)
  | other => .error (.wrongType other .candidate)

/-- Whether no known member is given twice. -/
def isUnambiguous : Json.Document → Bool
  | .object ms => knownNames.all fun name => Json.Document.occurrences name ms ≤ 1
  | _ => true

/-- Reads a candidate off a document, in which no known member may be given twice. -/
def ofDocument? (d : Json.Document) : Option Candidate := do
  guard (isUnambiguous d)
  let v ← d.value? Json.maxLevels
  (ofJson v).toOption

def ofText? (text : String) : Option Candidate :=
  (Json.Document.parse text).toOption.bind ofDocument?

end Candidate

end Rostrum
