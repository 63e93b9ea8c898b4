import Rostrum.Rpc.Incoming
import Rostrum.Table

/-!
# The client of a remote engine

Many calls may be under way at a time; answers find their calls by number. A call takes three steps:
`start` sends the request, `receive` gets the answer, and `finish` is what the caller does when it
goes on. In between, a caller may be cancelled and the connection may be lost.

`Link.dial` is how a client comes about: the engine is reached at its address, or it is said why not.
-/

namespace Rostrum.Rpc

/-- The state of a connection to a remote engine. `L` is the type of those who listen. -/
structure Client (L : Type) where
  /-- The number of the next request. -/
  nextId : Nat := 1
  /-- The requests that are sent and not answered. -/
  pending : List Nat := []
  /-- The engine's session, once it is known. -/
  session : Option String := none
  /-- Who listens for the candidates of which object. -/
  listeners : Table String L := {}
  connected : Bool := true
  /-- Whether requests still go out. They do until the client says goodbye. -/
  sending : Bool := true

/-- What a text of the engine leads to. -/
inductive Receipt (L : Type) where
  | answered (id : Nat) (outcome : Except EngineFault Json)
  | heard (listener : L) (candidate : Candidate)
  | ignored

namespace Client

variable {L : Type}

/-- The fault of calls after the connection was lost. -/
def lost : EngineFault := .unreachable "connection to media server lost"

/-- The fault of calls after the client has said goodbye. -/
def silent : EngineFault := .unreachable "send task stopped"

/-- Sends a request. Without a connection it is not sent and takes no number. -/
def send (c : Client L) (request : Request) : Except EngineFault SentRequest × Client L :=
  if !c.connected then (.error lost, c)
  else if !c.sending then (.error silent, { c with nextId := c.nextId + 1 })
  else
    let sent : SentRequest :=
      ⟨c.nextId, { request with params := withSession request.params c.session }⟩
    (.ok sent, { c with nextId := c.nextId + 1, pending := c.pending ++ [c.nextId] })

/-- Says goodbye. What was asked before may still be answered. -/
def sayGoodbye (c : Client L) : Client L := { c with sending := false }

/-- Changes the listeners as a call does before its request: early events find their listener. -/
def prepare (c : Client L) : EngineCall L → Client L
  | .subscribe endpoint listener =>
    { c with listeners := c.listeners.put endpoint.id.name listener }
  | .release object => { c with listeners := c.listeners.erase object.name }
  | _ => c

/-- Takes back what a call did to the listeners when it fails. -/
def undo (c : Client L) : EngineCall L → Client L
  | .subscribe endpoint _ => { c with listeners := c.listeners.erase endpoint.id.name }
  | _ => c

/-- Starts a call. -/
def start (c : Client L) (call : EngineCall L) : Except EngineFault SentRequest × Client L :=
  match (c.prepare call).send (ofCall call) with
  | (.ok sent, c) => (.ok sent, c)
  | (.error fault, c) => (.error fault, c.undo call)

/-- Remembers the engine's session; the first one stays. -/
def learn (c : Client L) (result : Json) : Client L :=
  match c.session with
  | some _ => c
  | none => { c with session := resultSession? result }

/-- What a call makes of its result. -/
def replyOf (call : EngineCall L) (result : Json) : Reply :=
  match call with
  | .createPipeline | .createMixer _ | .createEndpoint _ | .createPort _ | .processOffer _ _ =>
    resultText result
  | _ => .ok ""

/-- A caller goes on with the outcome of its call. -/
def finish (c : Client L) (call : EngineCall L) : Except EngineFault Json → Reply × Client L
  | .ok result => (replyOf call result, c.learn result)
  | .error fault => (.error fault, c.undo call)

/-- A caller gives up. Its answer will find nobody. -/
def cancel (c : Client L) (id : Nat) : Client L :=
  { c with pending := c.pending.filter fun i => i ≠ id }

/-- Who hears of an event, and the candidate it brings. -/
def heard? (c : Client L) (e : Event) : Option (L × Candidate) :=
  if e.type = candidateEvent then do
    let listener ← c.listeners.get? e.object
    let candidate ← (← e.candidate?).toOption
    return (listener, candidate)
  else none

/-- A text of the engine comes in. -/
def receive (c : Client L) (text : String) : Receipt L × Client L :=
  match Incoming.ofText? text with
  | some (.answer id result) =>
    if c.pending.contains id then
      (.answered id (result.mapError RemoteError.toFault), c.cancel id)
    else (.ignored, c)
  | some (.event e) =>
    match c.heard? e with
    | some (listener, candidate) => (.heard listener candidate, c)
    | none => (.ignored, c)
  | _ => (.ignored, c)

/-- The connection ends; answers the calls that fail by this. -/
def lose (c : Client L) : List Nat × Client L :=
  (c.pending, { c with pending := [], connected := false })

end Client

/-- What comes of dialling an engine. -/
inductive Dialling where
  | through
  | failed (cause : String)
  /-- No connection came about in the time that was allowed for it. -/
  | timedOut
deriving DecidableEq, Repr

/-- A client, and the address at which its engine was reached. -/
structure Link (L : Type) where
  url : String
  client : Client L := {}

/-- Connects to the engine at an address. -/
def Link.dial {L : Type} (url : String) : Dialling → Except EngineFault (Link L)
  | .through => .ok { url := url }
  | .failed cause => .error (.unreachable (url ++ ": " ++ cause))
  | .timedOut => .error (.unreachable ("timed out connecting to " ++ url))

end Rostrum.Rpc
