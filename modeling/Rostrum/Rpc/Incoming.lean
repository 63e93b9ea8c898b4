import Rostrum.Json.Record
import Rostrum.Rpc.Request

/-!
# What a remote engine sends

A text of the engine is the answer to a request, an event, or something else that is ignored. Members
nobody asked for are skipped without a look at their values.
-/

namespace Rostrum.Rpc

/-- An error as the engine reports it. -/
structure RemoteError where
  code : Int
  message : String
  data : Option Json
deriving Repr

def RemoteError.toFault (e : RemoteError) : EngineFault := .refused e.code e.message

/-- An event the engine reports. -/
structure Event where
  type : String
  /-- The object it happened to. -/
  object : String
  data : Json
deriving Repr

/-- A text of the engine. -/
inductive Incoming where
  | answer (id : Nat) (result : Except RemoteError Json)
  | event (event : Event)
  /-- Everything else. -/
  | other
deriving Repr

namespace Incoming

open Json (Document)
open Json.Document (record? given? optional string? integer?)

def maxId : Int := (pow2 64 : Int) - 1

def minCode : Int := -(pow2 63 : Int)

def maxCode : Int := (pow2 63 : Int) - 1

/-- Reads an error; its value may nest `levels` deep. -/
def error? (levels : Nat) (d : Document) : Option RemoteError := do
  let members ← record? ["code", "message", "data"] d
  let code ← integer? minCode maxCode (← given? members "code")
  let message ← string? (← given? members "message")
  let data ← optional (·.value? levels) (given? members "data")
  return ⟨code, message, data⟩

/-- The parts of a text of the engine. -/
structure Parts where
  id : Option Int
  method : Option String
  params : Option Json
  result : Option Json
  error : Option RemoteError

/-- Takes a text of the engine apart. -/
def parts? (d : Document) : Option Parts := do
  let members ← record? ["id", "method", "params", "result", "error"] d
  let levels := Json.maxLevels - 1
  return {
    id := ← optional (integer? 0 maxId) (given? members "id")
    method := ← optional string? (given? members "method")
    params := ← optional (·.value? levels) (given? members "params")
    result := ← optional (·.value? levels) (given? members "result")
    error := ← optional (error? (levels - 1)) (given? members "error") }

/-- The event that parameters describe. -/
def event? (params : Option Json) : Option Event := do
  let value ← (← params).get? "value"
  let type ← (← value.get? "type").asString?
  let object ← (← value.get? "object").asString?
  return ⟨type, object, (value.get? "data").getD .null⟩

/-- The method of an event. -/
def eventMethod : String := "onEvent"

/-- The answer among the parts: an error wins over a result. -/
def answer? (p : Parts) : Option Incoming := do
  let id ← p.id
  match p.error, p.result with
  | some e, _ => return .answer id.toNat (.error e)
  | none, some v => return .answer id.toNat (.ok v)
  | none, none => none

def ofParts (p : Parts) : Incoming :=
  match answer? p with
  | some found => found
  | none =>
    if p.method = some eventMethod then
      match event? p.params with
      | some e => .event e
      | none => .other
    else .other

/-- Reads a text of the engine. -/
def ofText? (text : String) : Option Incoming := do
  let d ← (Document.parseLoosely text).toOption
  return ofParts (← parts? d)

end Incoming

/-- The candidate an event brings, as far as its data have one. -/
def Event.candidate? (e : Event) : Option (Except Json.ShapeFault Candidate) :=
  (e.data.get? "candidate").map candidateFromEngine

/-- The text value of a result. -/
def resultText (result : Json) : Except EngineFault String :=
  match (result.get? "value").bind Json.asString? with
  | some s => .ok s
  | none => .error (.badAnswer ("missing 'value': " ++ result.text))

/-- The engine's session in a result. -/
def resultSession? (result : Json) : Option String :=
  (result.get? sessionName).bind Json.asString?

end Rostrum.Rpc
