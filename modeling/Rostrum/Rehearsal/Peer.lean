import Rostrum.Rpc.Client

/-!
# A remote engine in rehearsal

Calls of a client to a remote engine whose part is played by a script. A caller goes on as soon as the
texts are handled that hold its answer, so the order of the answers is the order in which callers go
on.
-/

namespace Rostrum.Rpc

/-- A call under way, by the name of its caller; a ping has no call of the engine. -/
structure Flight (L : Type) where
  caller : String
  id : Nat
  call : Option (EngineCall L)

/-- Something the client did that shows. -/
structure Landing where
  caller : String
  operation : Operation
  reply : Reply

/-- A client that has reached its engine, and its calls. -/
structure PeerRehearsal (L : Type) extends Link L where
  flights : List (Flight L) := []
  /-- Calls that have ended and were not looked at yet. -/
  landed : Table String Landing := {}
  /-- Whether the peer is still there. -/
  peer : Bool := true
  timeLimit : Option Nat := none
  pingMillis : Nat := 0

namespace PeerRehearsal

variable {L : Type}

/-- A flight ends with an outcome. -/
def land (r : PeerRehearsal L) (f : Flight L) (outcome : Except EngineFault Json) :
    PeerRehearsal L :=
  let r := { r with flights := r.flights.filter fun g => g.id ≠ f.id }
  match f.call with
  | some call =>
    let (reply, client) := r.client.finish call outcome
    let landing : Landing := ⟨f.caller, call.operation, reply⟩
    { r with client := client, landed := r.landed.put f.caller landing }
  | none =>
    match outcome with
    | .ok result => { r with client := r.client.learn result }
    | .error _ => r

/-- Starts a call; answers the request, or how it ended at once. -/
def call (r : PeerRehearsal L) (caller : String) (call : EngineCall L) :
    Except Landing SentRequest × PeerRehearsal L :=
  match r.client.start call with
  | (.ok sent, client) =>
    (.ok sent, { r with client := client, flights := r.flights ++ [⟨caller, sent.id, some call⟩] })
  | (.error fault, client) =>
    (.error ⟨caller, call.operation, .error fault⟩, { r with client := client })

/-- The client gets texts, one after the other; then the callers go on. -/
def serve (r : PeerRehearsal L) (texts : List String) : List (L × Candidate) × PeerRehearsal L :=
  let (events, outcomes, client) := texts.foldl (fun (events, outcomes, client) text =>
    match Client.receive client text with
    | (.answered id outcome, client) => (events, outcomes ++ [(id, outcome)], client)
    | (.heard listener candidate, client) => (events ++ [(listener, candidate)], outcomes, client)
    | (.ignored, client) => (events, outcomes, client)) (([] : List (L × Candidate)), [], r.client)
  (events, outcomes.foldl (fun r (id, outcome) =>
    match r.flights.find? fun f => f.id = id with
    | some f => r.land f outcome
    | none => r) { r with client := client })

/-- Lets the time of a call that is under way run out. -/
def expire (r : PeerRehearsal L) (f : Flight L) (limit : Nat) : PeerRehearsal L :=
  let r := { r with
    client := r.client.cancel f.id, flights := r.flights.filter fun g => g.id ≠ f.id }
  match f.call with
  | some call =>
    let fault := EngineFault.timedOut call.operation.name limit
    let landing : Landing := ⟨f.caller, call.operation, .error fault⟩
    { r with landed := r.landed.put f.caller landing }
  | none => r

/-- Waits for the end of a call. -/
def join (r : PeerRehearsal L) (caller : String) : Option Landing × PeerRehearsal L :=
  let r := match r.flights.find? (fun f => f.caller = caller), r.timeLimit with
    | some f, some limit => r.expire f limit
    | _, _ => r
  (r.landed.get? caller, { r with landed := r.landed.erase caller })

/-- A caller gives up. -/
def abort (r : PeerRehearsal L) (caller : String) : PeerRehearsal L :=
  let r := match r.flights.find? fun f => f.caller = caller with
    | some f => { r with
        client := r.client.cancel f.id, flights := r.flights.filter fun g => g.id ≠ f.id }
    | none => r
  { r with landed := r.landed.erase caller }

/-- Waits for the next ping. One that was not answered has given up by then. -/
def ping (r : PeerRehearsal L) : Option SentRequest × PeerRehearsal L :=
  let r := match r.flights.find? fun f => f.call.isNone with
    | some f => r.expire f r.pingMillis
    | none => r
  match r.client.send ⟨"ping", pingParams r.pingMillis⟩ with
  | (.ok sent, client) =>
    (some sent, { r with client := client, flights := r.flights ++ [⟨"", sent.id, none⟩] })
  | (.error _, client) => (none, { r with client := client })

/-- The peer leaves. -/
def leave (r : PeerRehearsal L) : PeerRehearsal L :=
  let (ids, client) := r.client.lose
  let r := { r with client := client, peer := false }
  ids.foldl (fun r id =>
    match r.flights.find? fun f => f.id = id with
    | some f => r.land f (.error Client.lost)
    | none => r) r

/-- The client says goodbye; answers whether the peer hears it. A second goodbye finds it leaving. -/
def disconnect (r : PeerRehearsal L) : Bool × PeerRehearsal L :=
  if !r.peer then (false, r)
  else if r.client.sending then (true, { r with client := r.client.sayGoodbye })
  else (false, r.leave)

end PeerRehearsal

end Rostrum.Rpc
