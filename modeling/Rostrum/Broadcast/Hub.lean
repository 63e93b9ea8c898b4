import Rostrum.Broadcast.Coordinator
import Rostrum.Broadcast.Outbound
import Rostrum.Broadcast.Places
import Rostrum.Message.Client

/-!
# The hub

The hub is all the state of the server that connections share: the coordinator, the outbound queues,
the places and the session numbers. `Hub.dispatch` is what a text of a client does at once.
-/

namespace Rostrum

/-- What can be set for the connections of clients. -/
structure Settings where
  path : String := "/one2many"
  maxSessions : Nat := 512
  keepaliveSeconds : Nat := 30
  timeoutSeconds : Nat := 90
  queueSize : Nat := 64
  /-- The largest text a client may send, in bytes. -/
  maxMessage : Nat := ClientMessage.defaultLimit
deriving Repr, DecidableEq

/-- The state that all connections share. -/
structure Hub where
  settings : Settings
  coordinator : Coordinator := {}
  outbound : Outbound
  places : Places
  counter : SessionCounter := {}

/-- The longest part of a text that an error message repeats, in bytes. -/
def maxEcho : Nat := 1024

/-- The characters at the front of a text that fit into a number of bytes. -/
def takeBytes : (bytes : Nat) → List Char → List Char
  | _, [] => []
  | bytes, c :: cs => if c.utf8Size ≤ bytes then c :: takeBytes (bytes - c.utf8Size) cs else []

/-- What an error message says about a text that cannot be read. -/
def unreadable (text : String) : String :=
  "Invalid message " ++ String.ofList (takeBytes maxEcho text.toList)

/-- What a text of a client leads to: work of its own, and at most one negotiation beside it. -/
structure Reaction where
  coordinator : Coordinator
  notices : List Notice := []
  own : Progress Task Ending := .done .done
  negotiation : Option Negotiation := none

namespace Coordinator

/-- Does what a client asks for. -/
def obey (c : Coordinator) (s : SessionId) : ClientMessage → Reaction
  | .join role offer =>
    match c.prepare s role offer with
    | (.ok n, notices, c) => { coordinator := c, notices := notices, negotiation := some n }
    | (.error _, notices, c) => { coordinator := c, notices := notices }
  | .stop =>
    let result := stopTask s false (c.stop s)
    { coordinator := result.coordinator, own := result.task }
  | .candidate candidate =>
    match c.submit s candidate with
    | (.ongoing task, c) => { coordinator := c, own := .ongoing task }
    | (.done (), c) => { coordinator := c }

/-- Reads a text of a client and does what it asks for. -/
def dispatch (c : Coordinator) (limit : Nat) (s : SessionId) (text : String) : Reaction :=
  match ClientMessage.decode limit text with
  | .ok message => c.obey s message
  | .error _ => { coordinator := c, notices := [⟨s, .error (unreadable text)⟩] }

end Coordinator

namespace Hub

def ofSettings (settings : Settings) : Hub :=
  { settings := settings
    outbound := Outbound.ofSize settings.queueSize
    places := { limit := settings.maxSessions } }

/-- Puts messages into the queues of their sessions. -/
def deliver (h : Hub) (notices : List Notice) : Hub :=
  { h with outbound := notices.foldl (fun o n => (o.send n.session n.message).2) h.outbound }

/-- Reserves a place; answers the number of the new session. -/
def accept (h : Hub) : Option SessionId × Hub :=
  match h.places.reserve with
  | (true, places) =>
    let (s, counter) := h.counter.take
    (some s, { h with places := places, counter := counter })
  | (false, places) => (none, { h with places := places })

/-- The metrics, with the gauge of connected sessions. -/
def metrics (h : Hub) : Metrics :=
  { h.coordinator.metrics with sessionsConnected := h.places.connected }

/-- What a text of a client does at once. -/
def dispatch (h : Hub) (s : SessionId) (text : String) :
    Progress Task Ending × Option Negotiation × Hub :=
  let reaction := h.coordinator.dispatch h.settings.maxMessage s text
  (reaction.own, reaction.negotiation,
    { h with coordinator := reaction.coordinator }.deliver reaction.notices)

/-- Lets a task take its next step. -/
def step (h : Hub) (t : TaskId) (task : Task) (wake : Coordinator.Wake) :
    Progress Task Ending × Hub :=
  let result := h.coordinator.step t task wake
  (result.task, { h with coordinator := result.coordinator }.deliver result.notices)

/-- A candidate of the engine goes to the session that listens. -/
def found (h : Hub) (s : SessionId) (candidate : Candidate) : Hub :=
  h.deliver [⟨s, .candidate candidate⟩]

end Hub

end Rostrum
