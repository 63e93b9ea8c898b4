import Rostrum.Engine.Call

/-!
# Requests to a remote engine

A remote engine is called by JSON-RPC 2.0. This module holds the parameters of the five methods, the
written form of a request, and the form in which the engine takes candidates.
-/

namespace Rostrum.Rpc

/-- The name of the member that carries the engine's session. -/
def sessionName : String := "sessionId"

/-- Adds the engine's session to parameters that are an object. -/
def withSession (params : Json) : Option String → Json
  | some s => params.withMember sessionName (.string s)
  | none => params

def createParams (type : String) (constructor : Json) : Json :=
  Json.mkObject
    [("type", .string type), ("constructorParams", constructor), ("properties", .object [])]

def invokeParams (object operation : String) (params : Json) : Json :=
  Json.mkObject
    [("object", .string object), ("operation", .string operation), ("operationParams", params)]

def subscribeParams (object type : String) : Json :=
  Json.mkObject [("type", .string type), ("object", .string object)]

def releaseParams (object : String) : Json := Json.mkObject [("object", .string object)]

def pingParams (millis : Nat) : Json := Json.mkObject [("interval", .ofNat millis)]

/-- What is asked of the engine, before it has a number. -/
structure Request where
  method : String
  params : Json
deriving Repr

/-- What a request is about: its method, and the type or the object and the operation it names. -/
def Request.summary (r : Request) : String :=
  let names := if r.method = "create" then ["type"] else ["object", "operation"]
  let words := names.filterMap fun name => (r.params.get? name).bind Json.asString?
  String.intercalate " " (r.method :: words)

/-- A request as it is sent: with its number, and the session if there is one. -/
structure SentRequest where
  id : Nat
  request : Request
deriving Repr

/-- The members of a request in the order they are written. -/
def SentRequest.members (r : SentRequest) : List (String × Json) :=
  [("jsonrpc", .string "2.0"), ("id", .ofNat r.id), ("method", .string r.request.method),
    ("params", r.request.params)]

def SentRequest.text (r : SentRequest) : String := Json.orderedText r.members

/-- The type of the events that bring candidates. -/
def candidateEvent : String := "IceCandidateFound"

/-- The two members that tag a candidate on its way to the engine. -/
def candidateTags : List (String × String) :=
  [("__module__", "kurento"), ("__type__", "IceCandidate")]

/-- A candidate as the engine takes it: tagged, whatever the client had under the names of the tags. -/
def candidateToEngine (c : Candidate) : Json :=
  candidateTags.foldl (fun j t => j.withMember t.1 (.string t.2)) c.toJson

/-- A candidate of the engine, read without its tags. -/
def candidateFromEngine (value : Json) : Except Json.ShapeFault Candidate :=
  Candidate.ofJson (candidateTags.foldl (fun j t => j.withoutMember t.1) value)

/-- An object with one text member. -/
def single (name : String) (id : ObjectId) : Json := Json.mkObject [(name, .string id.name)]

/-- The request that makes a call. -/
def ofCall {L : Type} : EngineCall L → Request
  | .createPipeline => ⟨"create", createParams "MediaPipeline" (.object [])⟩
  | .createMixer pipeline =>
    ⟨"create", createParams "Composite" (single "mediaPipeline" pipeline.id)⟩
  | .createEndpoint pipeline =>
    ⟨"create", createParams "WebRtcEndpoint" (single "mediaPipeline" pipeline.id)⟩
  | .createPort mixer => ⟨"create", createParams "HubPort" (single "hub" mixer.id)⟩
  | .connect source sink => ⟨"invoke", invokeParams source.name "connect" (single "sink" sink)⟩
  | .processOffer endpoint offer =>
    ⟨"invoke", invokeParams endpoint.id.name "processOffer"
      (Json.mkObject [("offer", .string offer)])⟩
  | .gather endpoint => ⟨"invoke", invokeParams endpoint.id.name "gatherCandidates" (.object [])⟩
  | .addCandidate endpoint candidate =>
    ⟨"invoke", invokeParams endpoint.id.name "addIceCandidate"
      (Json.mkObject [("candidate", candidateToEngine candidate)])⟩
  | .release object => ⟨"release", releaseParams object.name⟩
  | .subscribe endpoint _ => ⟨"subscribe", subscribeParams endpoint.id.name candidateEvent⟩

end Rostrum.Rpc
