import Rostrum.Health
import Rostrum.Metrics.Exposition
import Rostrum.Rehearsal.Sockets
import Rostrum.Server.Start

/-!
# A whole server in rehearsal

A server is started from its configuration, serves one client and those who ask for its metrics and
its health, and is shut down. Whether it can be asked already is known only when its client has come.
The engine is slow to answer when it starts to search for candidates: that answer comes only after
whatever is done next.
-/

namespace Rostrum

/-- The state of a server in rehearsal. -/
structure ServiceRehearsal where
  configuration : Configuration
  launched : Launched
  sockets : SocketRehearsal
  /-- What the client has not looked at yet. -/
  unread : List Sight := []
  /-- Whether a client has connected. -/
  isUp : Bool := false
  isDown : Bool := false

namespace ServiceRehearsal

/-- The name of the one client. -/
def client : String := "client"

/-- How many bytes the stream to the client holds. -/
def streamCapacity : Nat := 1048576

/-- Starts a server. -/
def start (c : Configuration) (around : Surroundings) : Except StartFault ServiceRehearsal := do
  let launched ← c.start around
  let stage := Rehearsal.ofHub (Hub.ofSettings c.settings) (some c.media.callMillis)
  let stage := { stage with
    engine := { style := .terse }, isRemote := true, slowOperations := [.gather] }
  return { configuration := c, launched := launched, sockets := { stage := stage } }

/-- Notes what the client has seen. -/
def withSockets (r : ServiceRehearsal) (sockets : SocketRehearsal) : ServiceRehearsal :=
  let (seen, sockets) := sockets.takeSeen
  { r with sockets := sockets, unread := r.unread ++ seen.map Prod.snd }

/-- The client connects at the configured path; answers the refusal if it may not. -/
def connect (r : ServiceRehearsal) : Option HttpReply × ServiceRehearsal :=
  let (refusal, sockets) := r.sockets.connect client r.configuration.network.path streamCapacity
  (refusal, { r.withSockets sockets with isUp := true })

/-- The tasks whose replies are on their way. -/
def answered (r : ServiceRehearsal) : List TaskId :=
  r.sockets.stage.tasks.entries.filterMap fun (t, run) =>
    match run.waiting with
    | some ⟨_, .answered _, _⟩ => some t
    | _ => none

/-- The slow replies arrive. -/
def catchUp (r : ServiceRehearsal) : ServiceRehearsal :=
  r.withSockets (r.sockets.onStage fun stage => stage.deliverReplies r.answered)

/-- The client sends a text; answers whether it could. -/
def tell (r : ServiceRehearsal) (text : String) : Bool × ServiceRehearsal :=
  let due := r.answered
  let (sent, sockets) := r.sockets.send client (.text text)
  (sent.getD false, r.withSockets (sockets.onStage fun stage => stage.deliverReplies due))

/-- The next thing the client sees. -/
def next (r : ServiceRehearsal) : Option Sight × ServiceRehearsal :=
  (r.unread.head?, { r with unread := r.unread.tail })

/-- The answer to whoever asks for a target, if anybody answers. -/
def ask (r : ServiceRehearsal) (target : String) : Option HttpReply × ServiceRehearsal :=
  let stage := r.sockets.stage
  let reply :=
    if r.launched.observability.isNone || !r.isUp || r.isDown then none
    else if !RequestTarget.isSound target then some .badRequest
    else if RequestTarget.path target = Exposition.path then
      some (Exposition.reply stage.hub.metrics.families)
    else if RequestTarget.path target = HealthReport.path then
      some (HealthReport.ofEngine stage.engine.connected 0).reply
    else some .notFound
  (reply, r.catchUp)

/-- The connection to the engine is lost. -/
def loseEngine (r : ServiceRehearsal) : ServiceRehearsal :=
  let r := r.catchUp
  r.withSockets (r.sockets.onStage Rehearsal.loseEngine)

/-- Shuts the server down: connections are closed, then the mix is released. -/
def interrupt (r : ServiceRehearsal) : ServiceRehearsal :=
  let r := r.catchUp
  let sockets := (r.sockets.signal true).onStage fun stage => stage.shutdown 0
  { r.withSockets sockets with isDown := true }

/-- The requests the engine got. -/
def requests (r : ServiceRehearsal) : List String :=
  r.sockets.stage.engine.journal.toList.map fun call => (Rpc.ofCall call).summary

end ServiceRehearsal

end Rostrum
