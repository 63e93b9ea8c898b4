import Rostrum.Broadcast.Hub
import Rostrum.Connection.Frame
import Rostrum.Http
import Rostrum.Route

/-!
# Connections

The connection of a client reads frames, sends what is queued for the client, pings it now and then,
and ends when the client leaves, is silent for too long, does not keep up with its queue, or when the
server shuts down. In front of every wait it looks at the clock. While it sends it does nothing else.
Times are in milliseconds.
-/

namespace Rostrum

/-- What follows a frame that is being sent. -/
inductive AfterSending where
  | listen
  /-- The next ping is due an interval after this one has been sent. -/
  | schedulePing
  | leave
deriving DecidableEq, Repr

/-- What a connection is doing. -/
inductive Activity where
  | listening
  | sending (after : AfterSending)
  /-- Its loop has ended. -/
  | left
deriving DecidableEq, Repr

/-- The connection of a client. -/
structure Connection where
  session : SessionId
  queue : QueueId
  activity : Activity := .listening
  /-- When the last frame of the client came. -/
  lastHeard : Nat
  /-- When the next ping is due. -/
  nextPing : Nat
  /-- When the connection last looked at the clock. -/
  lookedAt : Nat
  /-- The shutdown signals it has seen. -/
  signalsSeen : Nat := 0
deriving Repr

/-- What a connection does towards others. -/
inductive Outward where
  | nothing
  /-- A text goes to the hub. -/
  | request (content : String)
  | send (frame : ServerFrame)
deriving Repr

namespace Connection

def seconds (n : Nat) : Nat := 1000 * n

/-- The time between two pings: a second at least. -/
def pingInterval (s : Settings) : Nat := seconds (max 1 s.keepaliveSeconds)

/--
Looks at the clock. Some time, however little, has passed since the client was last heard, so a client
is silent for too long as soon as the whole limit has passed.
-/
def look (s : Settings) (now : Nat) (c : Connection) : Connection :=
  if seconds s.timeoutSeconds ≤ now - c.lastHeard then { c with activity := .left }
  else { c with activity := .listening, lookedAt := now }

/-- A new connection. -/
def opened (s : Settings) (session : SessionId) (queue : QueueId) (now : Nat) : Connection :=
  look s now
    { session := session, queue := queue, lastHeard := now, nextPing := now + pingInterval s
      lookedAt := now }

/-- When a connection wakes that nothing happens to: for the ping, or at once if that is overdue. -/
def wakeAt (c : Connection) : Nat :=
  c.lookedAt + if c.lookedAt < c.nextPing then c.nextPing - c.lookedAt else 1

/-- Starts to send a frame. -/
def sending (c : Connection) (after : AfterSending) : Connection :=
  { c with activity := .sending after }

/-- The client's side of the stream has ended. -/
def hangUp (c : Connection) : Connection := { c with activity := .left }

/-- Whether a frame breaks the rules of the protocol. -/
def isIllegal : ClientFrame → Bool
  | .ping length | .pong length => maxControlPayload < length
  | frame => frame.isOversized

/-- A frame of the client has come. -/
def hear (s : Settings) (now : Nat) (frame : ClientFrame) (c : Connection) : Outward × Connection :=
  if isIllegal frame then (.nothing, c.hangUp)
  else
    let heard := look s now { c with lastHeard := now }
    match frame with
    | .close => (.nothing, c.hangUp)
    | .text content => (.request content, heard)
    | .ping length => (.send (.pong length), heard)
    | .binary _ | .pong _ => (.nothing, heard)

/-- A message for the client was taken from the queue, or its end was found. -/
def pass (c : Connection) : Option ServerMessage → Outward × Connection
  | some m => (.send (.text m.text), c.sending .listen)
  | none => (.send .close, c.sending .leave)

/-- It is time to wake. -/
def wake (s : Settings) (now : Nat) (c : Connection) : Outward × Connection :=
  if c.nextPing ≤ c.lookedAt then (.send .ping, c.sending .schedulePing)
  else (.nothing, c.look s now)

/-- A shutdown signal has come, which may also say that there is no shutdown. -/
def signal (s : Settings) (now : Nat) (signals : Nat) (shutdown : Bool) (c : Connection) :
    Outward × Connection :=
  let c := { c with signalsSeen := signals }
  if shutdown then (.send .close, c.sending .leave) else (.nothing, c.look s now)

/-- What was being sent is sent. -/
def sent (s : Settings) (now : Nat) (after : AfterSending) (c : Connection) : Connection :=
  match after with
  | .listen => c.look s now
  | .schedulePing => { c with nextPing := now + pingInterval s }.look s now
  | .leave => c.hangUp

/--
The longest interval between pings that the clock can add to its time, in seconds. The clock has 63
bits, and shows a second already when the first client comes.
-/
def maxInterval : Nat := pow2 63 - 2

end Connection

/--
A client that was let in. Its connection breaks down at once if a queue of the configured size cannot
be made, or if the next ping would be due beyond the end of time; a queue that was registered by then
stays registered.
-/
structure Admission where
  session : SessionId
  queue : QueueId
  /-- Whether the connection has not broken down. -/
  isAlive : Bool
deriving Repr

namespace Hub

/-- The answer to a client that finds no place. -/
def full : HttpReply := { status := 503, body := "Server voll" }

/-- Whether clients are served at a path. -/
def serves (h : Hub) (path : String) : Bool :=
  (Route.ofText? h.settings.path).any fun route => route.admits path

/-- A connection that begins takes its queue. -/
def begin (h : Hub) (s : SessionId) : Admission × Hub :=
  let (q, outbound) := h.outbound.register s
  if Outbound.maxCapacity < outbound.capacity then
    (⟨s, q, false⟩, { h with outbound := (outbound.close q).remove s, places := h.places.release })
  else if Connection.maxInterval < h.settings.keepaliveSeconds then
    (⟨s, q, false⟩, { h with outbound := outbound.close q, places := h.places.release })
  else (⟨s, q, true⟩, { h with outbound := outbound })

/-- A client that has connected to the host asks for a target there. -/
def connect (h : Hub) (target : String) : Except HttpReply Admission × Hub :=
  match RequestTarget.pathBehindHost? target with
  | none => (.error .badRequest, h)
  | some path =>
    if !h.serves path then (.error .notFound, h)
    else match h.accept with
      | (none, h) => (.error full, h)
      | (some s, h) =>
        let (admission, h) := h.begin s
        (.ok admission, h)

end Hub

end Rostrum
