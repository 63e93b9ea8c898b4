import Rostrum.Engine.Call
import Rostrum.Table

/-!
# A simulated media engine

The simulated engine keeps books on its objects, on those who listen, and on every call it carries
out. Calls can be made to fail, and offers can be held back at a gate. `run` carries out one call; it
is the only operation that writes to the journal.
-/

namespace Rostrum

/-- A gate that holds back offers until it is opened. -/
structure OfferGate where
  isOpen : Bool := false
deriving Repr

/-- How a simulated engine names objects and words answers. -/
inductive EngineStyle where
  /-- Names tell the kind of an object, answers the endpoint. -/
  | telling
  | terse
deriving DecidableEq, Repr

namespace EngineStyle

/-- The name of the object that is created as number `n`. -/
def objectName (style : EngineStyle) (n : Nat) (kind : ObjectKind) : ObjectId :=
  match style with
  | .telling => ⟨"mock-" ++ toString n ++ "/" ++ kind.typeName⟩
  | .terse => ⟨"o" ++ toString n⟩

/-- The answer to an offer. -/
def answer (style : EngineStyle) (endpoint : ObjectId) (offer : String) : String :=
  match style with
  | .telling => "answer[" ++ endpoint.name ++ "]:" ++ offer
  | .terse => "answer:" ++ offer

end EngineStyle

/-- The books of the simulated engine. -/
structure SimulatedEngine (L : Type) where
  style : EngineStyle := .telling
  /-- How many objects were ever created. -/
  created : Nat := 0
  live : Table ObjectId ObjectKind := {}
  listeners : Table ObjectId L := {}
  /-- The calls that were carried out, in order. -/
  journal : Array (EngineCall L) := #[]
  /-- How many of the next calls of an operation are to fail. -/
  failures : Table Operation Nat := {}
  /-- Releases of objects that were not live. -/
  doubleReleases : Nat := 0
  gates : Array OfferGate := #[]
  /-- Whether an offer has reached a gate since the last look. -/
  offerReached : Bool := false
  connected : Bool := true

namespace SimulatedEngine

variable {L : Type}

/-- The name of an operation in the message of an injected failure. -/
def failureName : Operation → String
  | .createPipeline => "PipelineErstellen"
  | .createMixer => "MixerErstellen"
  | .createEndpoint => "EndpointErstellen"
  | .createPort => "MixerPortErstellen"
  | .connect => "Verbinden"
  | .processOffer => "AngebotVerarbeiten"
  | .gather => "KandidatenSammeln"
  | .addCandidate => "KandidatHinzufuegen"
  | .release => "Freigeben"
  | .subscribe => "KandidatenAbonnieren"

/-- The fault of a call that was made to fail. -/
def injectedFault (o : Operation) : EngineFault :=
  .refused (-1) ("injected failure: " ++ failureName o)

def isLive (e : SimulatedEngine L) (id : ObjectId) : Bool := e.live.contains id

/-- Makes the next calls of an operation fail. -/
def failNext (e : SimulatedEngine L) (o : Operation) (count : Nat) : SimulatedEngine L :=
  { e with failures := e.failures.put o ((e.failures.get? o).getD 0 + count) }

/-- Creates an object. -/
def create (e : SimulatedEngine L) (kind : ObjectKind) : ObjectId × SimulatedEngine L :=
  let id := e.style.objectName (e.created + 1) kind
  (id, { e with created := e.created + 1, live := e.live.put id kind })

/-- The first of some objects that is not live. -/
def missing? (e : SimulatedEngine L) (ids : List ObjectId) : Option ObjectId :=
  ids.find? fun id => !e.isLive id

/-- Releases an object. -/
def drop (e : SimulatedEngine L) (id : ObjectId) : Reply × SimulatedEngine L :=
  let e' := { e with listeners := e.listeners.erase id }
  if e.isLive id then (.ok "", { e' with live := e.live.erase id })
  else (.error (.unknownObject id.name), { e' with doubleReleases := e.doubleReleases + 1 })

/-- What a call does that is not made to fail. -/
def perform (e : SimulatedEngine L) (call : EngineCall L) : Reply × SimulatedEngine L :=
  let made (kind : ObjectKind) : Reply × SimulatedEngine L :=
    let (id, e) := e.create kind
    (.ok id.name, e)
  match call with
  | .release object => e.drop object
  | _ =>
    match e.missing? call.objects with
    | some id => (.error (.unknownObject id.name), e)
    | none =>
      match call with
      | .createPipeline => made .pipeline
      | .createMixer _ => made .mixer
      | .createEndpoint _ => made .endpoint
      | .createPort _ => made .port
      | .processOffer endpoint offer => (.ok (e.style.answer endpoint.id offer), e)
      | .subscribe endpoint listener =>
        (.ok "", { e with listeners := e.listeners.put endpoint.id listener })
      | _ => (.ok "", e)

/-- Carries out a call: notes it, and fails it if a failure is outstanding. -/
def run (e : SimulatedEngine L) (call : EngineCall L) : Reply × SimulatedEngine L :=
  let e := { e with journal := e.journal.push call }
  match e.failures.get? call.operation with
  | some (n + 1) =>
    (.error (injectedFault call.operation), { e with failures := e.failures.put call.operation n })
  | _ => e.perform call

/-- Who hears of a candidate the engine finds for an endpoint. -/
def listener? (e : SimulatedEngine L) (id : ObjectId) : Option L := e.listeners.get? id

/-- Holds back all later offers at a new gate. -/
def holdOffers (e : SimulatedEngine L) : SimulatedEngine L := { e with gates := e.gates.push {} }

/-- Opens a gate, for the offers that wait there and for later ones. -/
def openGate (e : SimulatedEngine L) (gate : Nat) : SimulatedEngine L :=
  { e with gates := e.gates.modify gate fun g => { g with isOpen := true } }

/-- The gate a call meets: offers meet the newest one. -/
def gateOf? (e : SimulatedEngine L) (call : EngineCall L) : Option Nat :=
  match call with
  | .processOffer _ _ => if e.gates.size = 0 then none else some (e.gates.size - 1)
  | _ => none

def isOpenGate (e : SimulatedEngine L) (gate : Nat) : Bool := (e.gates[gate]?.map (·.isOpen)).getD true

/-- Notes that a call has come to its gate, if there is one. -/
def touchGate (e : SimulatedEngine L) (call : EngineCall L) : SimulatedEngine L :=
  { e with offerReached := e.offerReached || (e.gateOf? call).isSome }

/-- What a call leads to that comes in at the engine. -/
inductive Arrival where
  | replied (reply : Reply)
  /-- The call waits at a gate. -/
  | waits (gate : Nat)

/-- Carries out a call, unless it is an offer that meets a closed gate. -/
def arrive (e : SimulatedEngine L) (call : EngineCall L) : Arrival × SimulatedEngine L :=
  let run (e : SimulatedEngine L) : Arrival × SimulatedEngine L :=
    let (reply, e) := e.run call
    (.replied reply, e)
  match e.gateOf? call with
  | none => run e
  | some gate =>
    let e := e.touchGate call
    if e.isOpenGate gate then run e else (.waits gate, e)

/-- Whether an offer has reached a gate since the last look. -/
def takeReached (e : SimulatedEngine L) : Bool × SimulatedEngine L :=
  (e.offerReached, { e with offerReached := false })

/-- How often an operation was carried out. -/
def count (e : SimulatedEngine L) (o : Operation) : Nat := e.journal.toList.countP fun c => c.operation = o

/-- The lines of the candidates that were added to an endpoint. -/
def appliedTo (e : SimulatedEngine L) (id : ObjectId) : List String :=
  e.journal.toList.filterMap fun
    | .addCandidate endpoint candidate => if endpoint.id = id then some candidate.line else none
    | _ => none

/-- How many objects of a kind are live. -/
def liveOf (e : SimulatedEngine L) (kind : ObjectKind) : Nat :=
  e.live.values.countP fun k => k = kind

end SimulatedEngine

end Rostrum
