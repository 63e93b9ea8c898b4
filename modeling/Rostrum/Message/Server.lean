import Rostrum.Candidate
import Rostrum.Session

/-!
# Messages to clients

The server answers a request for a role, passes on candidates of the media engine and reports texts
it could not read. `ServerMessage.text` writes a message, `ServerMessage.ofText?` reads it back.
-/

namespace Rostrum

/-- How a negotiation ended. -/
inductive Verdict where
  | accepted
  | rejected
deriving DecidableEq, Repr

namespace Verdict

def text : Verdict → String
  | .accepted => "accepted"
  | .rejected => "rejected"

def ofName? (name : String) : Option Verdict :=
  if name = Verdict.accepted.text then some .accepted
  else if name = Verdict.rejected.text then some .rejected
  else none

end Verdict

/-- What a session is told. -/
inductive ServerMessage where
  /-- The answer to a request for a role. -/
  | response (role : Role) (verdict : Verdict) (answer message : Option String)
  /-- A candidate of the media engine. -/
  | candidate (candidate : Candidate)
  /-- A client's text could not be read. -/
  | error (message : String)
deriving Repr

namespace ServerMessage

def accepted (role : Role) (answer : String) : ServerMessage :=
  .response role .accepted (some answer) none

def rejected (role : Role) (reason : String) : ServerMessage :=
  .response role .rejected none (some reason)

def responseKind : Role → String
  | .presenter => "presenterResponse"
  | .viewer => "viewerResponse"

def candidateKind : String := "iceCandidate"

def errorKind : String := "error"

def kindName : String := "kind"

def verdictName : String := "response"

def answerName : String := "sdpAnswer"

def messageName : String := "message"

def candidateName : String := "candidate"

/-- The members of a message in the order they are written; absent ones are left out. -/
def members : ServerMessage → List (String × Json)
  | .response role verdict answer message =>
    (kindName, .string (responseKind role)) :: (verdictName, .string verdict.text)
      :: (answer.map fun a => (answerName, Json.string a)).toList
      ++ (message.map fun m => (messageName, Json.string m)).toList
  | .candidate c => [(kindName, .string candidateKind), (candidateName, c.written)]
  | .error message => [(kindName, .string errorKind), (messageName, .string message)]

def text (m : ServerMessage) : String := Json.orderedText m.members

/-- The names of the members of a kind of message, its kind apart. -/
def fieldNames? (kind : String) : Option (List String) :=
  if kind = responseKind .presenter ∨ kind = responseKind .viewer then
    some [verdictName, answerName, messageName]
  else if kind = candidateKind then some [candidateName]
  else if kind = errorKind then some [messageName]
  else none

/-- A verdict is its name, or an object with its name as the only member and no content. -/
def verdict? : Json.Document → Option Verdict
  | .string name => Verdict.ofName? name
  | .object [(name, .null)] => Verdict.ofName? name
  | .object [(name, .object [])] => Verdict.ofName? name
  | _ => none

open Json.Document (member? given? optional string? occurrences)

/-- Reads the message of a kind off its members. -/
def ofMembers? (kind : String) (members : List (String × Json.Document)) : Option ServerMessage :=
  let response (role : Role) : Option ServerMessage := do
    let verdict ← verdict? (← member? members verdictName)
    let answer ← optional string? (given? members answerName)
    let message ← optional string? (given? members messageName)
    return .response role verdict answer message
  if kind = responseKind .presenter then response .presenter
  else if kind = responseKind .viewer then response .viewer
  else if kind = candidateKind then do
    return .candidate (← Candidate.ofDocument? (← member? members candidateName))
  else if kind = errorKind then do
    return .error (← string? (← member? members messageName))
  else none

/-- Reads a message, which may also be an array that starts with the kind. -/
def ofDocument? : Json.Document → Option ServerMessage
  | .object members => do
    guard (occurrences kindName members = 1)
    let kind ← string? (← member? members kindName)
    guard ((← fieldNames? kind).all fun name => occurrences name members ≤ 1)
    ofMembers? kind members
  | .array (.string kind :: items) => do
    let names ← fieldNames? kind
    guard (items.length ≤ names.length)
    ofMembers? kind (names.zip items)
  | _ => none

def ofText? (text : String) : Option ServerMessage :=
  (Json.Document.parse text).toOption.bind ofDocument?

end ServerMessage

end Rostrum
