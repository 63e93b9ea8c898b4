import Rostrum.Broadcast.Mix
import Rostrum.Broadcast.Registry

/-!
# Tasks of the coordinator

A task is a piece of work that calls the engine. Between two calls it runs without interruption, so
its whole state is the call it waits for and what it still needs afterwards. `Task.awaits` says what
has to happen before a task takes its next step.
-/

namespace Rostrum

/-- A negotiation: which session wants which role. -/
structure Negotiation where
  session : SessionId
  attempt : Attempt
  role : Role
  offer : String
  /-- The mix a viewer saw when it asked. -/
  snapshot : Option SharedMix
deriving Repr

inductive NegotiationStage where
  /-- The session is entered, nothing else is done. -/
  | prepared
  | obtainingMix (stage : MixRequest)
  | creatingEndpoint (mix : SharedMix)
  | creatingPort (mix : SharedMix) (endpoint : Endpoint)
  | connecting (endpoint : Endpoint) (port : MixerPort)
  | applying (endpoint : Endpoint) (candidate : Candidate)
  | subscribing (endpoint : Endpoint)
  | offering (endpoint : Endpoint)
  | gathering (endpoint : Endpoint) (answer : String)
  /-- The negotiation failed; its entry is removed and what it made is being released. -/
  | releasing (fault : NegotiationFault) (entry : Entry) (object : ObjectId) (rest : List ObjectId)
deriving Repr

/-- The end of a stop: the entry is removed and what it names is being released. -/
structure Teardown where
  entry : Entry
  object : ObjectId
  rest : List ObjectId
deriving Repr

inductive ShutdownStage where
  /-- A session is taken down, others are left. -/
  | stopping (teardown : Teardown) (left : List SessionId)
  | withdrawing (stage : MixWithdrawal)
deriving Repr

inductive Task where
  | negotiation (negotiation : Negotiation) (stage : NegotiationStage)
  /-- A stop of a session that took part, at the end of which the client may leave. -/
  | stop (session : SessionId) (leaving : Bool) (teardown : Teardown)
  | apply (session : SessionId) (endpoint : Endpoint) (candidate : Candidate)
  | shutdown (stage : ShutdownStage)
  | mixRequest (stage : MixRequest)
  | mixWithdrawal (stage : MixWithdrawal)
deriving Repr

inductive Ending where
  | negotiated (result : Except NegotiationFault String)
  | mix (result : Except EngineFault SharedMix)
  | withdrawn (existed : Bool)
  /-- The session was stopped and its client leaves. -/
  | left (session : SessionId)
  | done
deriving Repr

/-- What a task waits for before its next step. -/
inductive Await where
  /-- Nothing: it can start at once. -/
  | start
  /-- The lock on the mix. -/
  | lock
  | reply (call : EngineCall SessionId)
deriving Repr

namespace Await

def ofCall? : Option (EngineCall SessionId) → Await
  | some call => .reply call
  | none => .lock

end Await

/-- The objects an entry names, in the order in which they are released: the port first. -/
def Entry.objects (e : Entry) : List ObjectId :=
  (e.port.map Handle.id).toList ++ (e.endpoint.map Handle.id).toList

namespace NegotiationStage

/-- The call of a stage that calls the engine. -/
def call? (n : Negotiation) : NegotiationStage → Option (EngineCall SessionId)
  | .prepared => none
  | .obtainingMix stage => stage.call?
  | .creatingEndpoint mix => some (.createEndpoint mix.pipeline)
  | .creatingPort mix _ => some (.createPort mix.mixer)
  | .connecting endpoint port =>
    match n.role with
    | .presenter => some (.connect endpoint.id port.id)
    | .viewer => some (.connect port.id endpoint.id)
  | .applying endpoint candidate => some (.addCandidate endpoint candidate)
  | .subscribing endpoint => some (.subscribe endpoint n.session)
  | .offering endpoint => some (.processOffer endpoint n.offer)
  | .gathering endpoint _ => some (.gather endpoint)
  | .releasing _ _ object _ => some (.release object)

end NegotiationStage

namespace Task

def call? : Task → Option (EngineCall SessionId)
  | .negotiation n stage => stage.call? n
  | .stop _ _ teardown => some (.release teardown.object)
  | .apply _ endpoint candidate => some (.addCandidate endpoint candidate)
  | .shutdown (.stopping teardown _) => some (.release teardown.object)
  | .shutdown (.withdrawing stage) => stage.call?
  | .mixRequest stage => stage.call?
  | .mixWithdrawal stage => stage.call?

/-- What has to happen before the next step of a task. -/
def awaits : Task → Await
  | .negotiation _ .prepared => .start
  | task => .ofCall? task.call?

end Task

end Rostrum
