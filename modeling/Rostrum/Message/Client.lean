import Rostrum.Candidate
import Rostrum.Json.Record
import Rostrum.Session

/-!
# Messages from clients

A client's message is one text with one JSON object. Its member `kind` says what it asks for; older
clients call this member `id`. `ClientMessage.decode` is what the server reads with.
`ClientMessage.ofText?` reads the written form of a message alone: it knows no `id`, takes a message
also as an array, and refuses a member that is given twice.
-/

namespace Rostrum

/-- What a client asks for. -/
inductive ClientMessage where
  /-- Take this role, with this offer. -/
  | join (role : Role) (offer : String)
  | stop
  | candidate (candidate : Candidate)
deriving Repr

/-- The kinds of messages. -/
inductive MessageKind where
  | join (role : Role)
  | stop
  | candidate
deriving DecidableEq, Repr

namespace MessageKind

def name : MessageKind → String
  | .join role => role.text
  | .stop => "stop"
  | .candidate => "onIceCandidate"

def all : List MessageKind := [.join .presenter, .join .viewer, .stop, .candidate]

def ofName? (name : String) : Option MessageKind := all.find? fun k => k.name = name

end MessageKind

/-- Why a text is not a client's message. -/
inductive DecodeFault where
  | tooLarge (size limit : Nat)
  | notJson (fault : Json.Fault)
  | notObject
  | missingKind
  | unknownKind (name : String)
  | shape (fault : Json.ShapeFault)
deriving Repr

/--
The wording of a fault. What the reader says of a text that is not JSON, with the place it has come to, is
given as the cause.
-/
def DecodeFault.message (cause : String) : DecodeFault → String
  | .tooLarge size limit =>
    "Nachricht zu gross: " ++ toString size ++ " Bytes (Maximum: " ++ toString limit ++ " Bytes)"
  | .notJson _ => "Ungueltiges JSON: " ++ cause
  | .notObject => "Nachricht ist kein JSON-Objekt"
  | .missingKind => "Nachrichtentyp fehlt"
  | .unknownKind name => "Unbekannter Nachrichtentyp: " ++ name
  | .shape fault => "Ungueltiges JSON: " ++ fault.message

namespace ClientMessage

def kindName : String := "kind"

/-- What older clients call the kind. -/
def oldKindName : String := "id"

def offerName : String := "sdpOffer"

def candidateName : String := "candidate"

/-- The largest text that is read unless configured otherwise, in bytes. -/
def defaultLimit : Nat := 1024 * 1024

/-- A member that has to be there. -/
def required (name : String) (members : Json.Members)
    (read : Json → Except Json.ShapeFault α) : Except Json.ShapeFault α :=
  match members.get? name with
  | some v => read v
  | none => .error (.missing name)

/-- Reads the message of a kind off the members of its object. -/
def ofMembers (members : Json.Members) : MessageKind → Except Json.ShapeFault ClientMessage
  | .join role => do return .join role (← required offerName members Json.readString)
  | .stop => .ok .stop
  | .candidate => do return .candidate (← required candidateName members Candidate.ofJson)

/-- The kind of an object: its member `kind`, or `id` when there is none. -/
def kindOf (members : Json.Members) : Option Json :=
  (members.get? kindName).or (members.get? oldKindName)

/-- Reads a client's text of at most `limit` bytes. -/
def decode (limit : Nat) (text : String) : Except DecodeFault ClientMessage := do
  if limit < text.utf8ByteSize then throw (.tooLarge text.utf8ByteSize limit)
  let value ← (Json.parse text).mapError .notJson
  match value with
  | .object members =>
    match kindOf members with
    | some (.string name) =>
      match MessageKind.ofName? name with
      | some kind => (ofMembers members kind).mapError .shape
      | none => throw (.unknownKind name)
    | _ => throw .missingKind
  | _ => throw .notObject

/-- The kind of a message. -/
def kind : ClientMessage → MessageKind
  | .join role _ => .join role
  | .stop => .stop
  | .candidate _ => .candidate

/-- The members of a message in the order they are written. -/
def members (m : ClientMessage) : List (String × Json) :=
  (kindName, .string m.kind.name) :: match m with
  | .join _ offer => [(offerName, .string offer)]
  | .stop => []
  | .candidate c => [(candidateName, c.written)]

def text (m : ClientMessage) : String := Json.orderedText m.members

/-- The names of the members of a kind. -/
def fieldNames : MessageKind → List String
  | .join _ => [offerName]
  | .stop => []
  | .candidate => [candidateName]

/-- What was seen of a message: its kind, and all other members in the order of the text. -/
structure Seen where
  kind : Option MessageKind := none
  others : List (String × Json.Document) := []

/-- Takes in one more member. The kind may stand anywhere, but once only. -/
def Seen.take (seen : Seen) (name : String) (d : Json.Document) : Option Seen :=
  if name = kindName then do
    guard seen.kind.isNone
    return { seen with kind := some (← MessageKind.ofName? (← d.string?)) }
  else return { seen with others := seen.others ++ [(name, d)] }

def Seen.takeAll (seen : Seen) : List (String × Json.Document) → Option Seen
  | [] => some seen
  | (name, d) :: rest => do (← seen.take name d).takeAll rest

/-- Reads the one member of a name, which must not come a second time, and passes over all others. -/
def only? (name : String) (read : Json.Document → Option α) :
    (found : Option α) → List (String × Json.Document) → Option α
  | found, [] => found
  | found, (k, d) :: rest =>
    if k = name then do
      guard found.isNone
      only? name read (some (← read d)) rest
    else only? name read found rest

/-- Reads the message of a kind off its other members. -/
def ofOthers? (others : List (String × Json.Document)) : MessageKind → Option ClientMessage
  | .join role => do return .join role (← only? offerName Json.Document.string? none others)
  | .stop => some .stop
  | .candidate => do return .candidate (← only? candidateName Candidate.ofDocument? none others)

/-- Reads the written form of a message, which may also be an array that starts with the kind. -/
def ofDocument? : Json.Document → Option ClientMessage
  | .object members => do
    let seen ← Seen.takeAll {} members
    ofOthers? seen.others (← seen.kind)
  | .array (.string name :: items) => do
    let k ← MessageKind.ofName? name
    guard (items.length ≤ (fieldNames k).length)
    ofOthers? ((fieldNames k).zip items) k
  | _ => none

def ofText? (text : String) : Option ClientMessage :=
  (Json.Document.parse text).toOption.bind ofDocument?

end ClientMessage

end Rostrum
