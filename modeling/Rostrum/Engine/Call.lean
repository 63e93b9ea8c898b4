import Rostrum.Candidate
import Rostrum.Engine.Fault

/-!
# Calls to the media engine

The media engine holds the objects that carry the media: one pipeline with one mixer, and an endpoint
and a mixer port for every session. The server knows them by handles only and works on them by the
ten calls listed here. A `Reply` is what the engine answers: a text or a fault.
-/

namespace Rostrum

/-- The engine's name of a media object. -/
structure ObjectId where
  name : String
deriving DecidableEq, Repr, Inhabited

inductive ObjectKind where
  | pipeline
  | mixer
  | endpoint
  | port
deriving DecidableEq, Repr

namespace ObjectKind

def all : List ObjectKind := [.pipeline, .mixer, .endpoint, .port]

def typeName : ObjectKind → String
  | .pipeline => "Pipeline"
  | .mixer => "Mixer"
  | .endpoint => "Endpoint"
  | .port => "MixerPort"

end ObjectKind

/-- A handle on an object of a known kind. -/
structure Handle (kind : ObjectKind) where
  id : ObjectId
deriving DecidableEq, Repr

abbrev Pipeline := Handle .pipeline

abbrev Mixer := Handle .mixer

/-- The media object of one client. -/
abbrev Endpoint := Handle .endpoint

/-- Where an endpoint is plugged into the mixer. -/
abbrev MixerPort := Handle .port

/-- The ten kinds of calls. -/
inductive Operation where
  | createPipeline
  | createMixer
  | createEndpoint
  | createPort
  | connect
  | processOffer
  | gather
  | addCandidate
  | release
  | subscribe
deriving DecidableEq, Repr

namespace Operation

/-- The name of an operation in logs and in the message of a fault. -/
def name : Operation → String
  | .createPipeline => "pipeline_erstellen"
  | .createMixer => "mixer_erstellen"
  | .createEndpoint => "endpoint_erstellen"
  | .createPort => "mixer_port_erstellen"
  | .connect => "verbinden"
  | .processOffer => "angebot_verarbeiten"
  | .gather => "kandidaten_sammeln"
  | .addCandidate => "kandidat_hinzufuegen"
  | .release => "freigeben"
  | .subscribe => "kandidaten_abonnieren"

def all : List Operation :=
  [.createPipeline, .createMixer, .createEndpoint, .createPort, .connect, .processOffer, .gather,
    .addCandidate, .release, .subscribe]

def ofName? (name : String) : Option Operation := all.find? fun o => o.name = name

end Operation

/-- A call to the engine. `L` is the type of those who listen for the candidates of an endpoint. -/
inductive EngineCall (L : Type) where
  | createPipeline
  | createMixer (pipeline : Pipeline)
  | createEndpoint (pipeline : Pipeline)
  | createPort (mixer : Mixer)
  /-- Lets the media of one object flow into another. -/
  | connect (source sink : ObjectId)
  | processOffer (endpoint : Endpoint) (offer : String)
  /-- Starts the search for candidates. -/
  | gather (endpoint : Endpoint)
  | addCandidate (endpoint : Endpoint) (candidate : Candidate)
  | release (object : ObjectId)
  | subscribe (endpoint : Endpoint) (listener : L)
deriving Repr

namespace EngineCall

variable {L : Type}

def operation : EngineCall L → Operation
  | .createPipeline => .createPipeline
  | .createMixer _ => .createMixer
  | .createEndpoint _ => .createEndpoint
  | .createPort _ => .createPort
  | .connect _ _ => .connect
  | .processOffer _ _ => .processOffer
  | .gather _ => .gather
  | .addCandidate _ _ => .addCandidate
  | .release _ => .release
  | .subscribe _ _ => .subscribe

/-- The call of an operation with those of some arguments that it takes. -/
def ofOperation (first second : ObjectId) (offer : String) (candidate : Candidate) (listener : L) :
    Operation → EngineCall L
  | .createPipeline => .createPipeline
  | .createMixer => .createMixer ⟨first⟩
  | .createEndpoint => .createEndpoint ⟨first⟩
  | .createPort => .createPort ⟨first⟩
  | .connect => .connect first second
  | .processOffer => .processOffer ⟨first⟩ offer
  | .gather => .gather ⟨first⟩
  | .addCandidate => .addCandidate ⟨first⟩ candidate
  | .release => .release first
  | .subscribe => .subscribe ⟨first⟩ listener

/-- The objects a call names. -/
def objects : EngineCall L → List ObjectId
  | .createPipeline => []
  | .createMixer pipeline => [pipeline.id]
  | .createEndpoint pipeline => [pipeline.id]
  | .createPort mixer => [mixer.id]
  | .connect source sink => [source, sink]
  | .processOffer endpoint _ => [endpoint.id]
  | .gather endpoint => [endpoint.id]
  | .addCandidate endpoint _ => [endpoint.id]
  | .release object => [object]
  | .subscribe endpoint _ => [endpoint.id]

/-- The candidate a call carries. -/
def candidate? : EngineCall L → Option Candidate
  | .addCandidate _ candidate => some candidate
  | _ => none

/-- The line of a call in a journal: its name, the objects and the candidate. -/
def text (c : EngineCall L) : String :=
  String.intercalate " "
    (c.operation.name :: c.objects.map ObjectId.name ++ (c.candidate?.map Candidate.line).toList)

end EngineCall

/--
What the engine answers to a call. The text of a success is the name of the new object for a call
that creates one, and the session description for an offer; it is of no interest otherwise.
-/
abbrev Reply := Except EngineFault String

end Rostrum
