import Rostrum.Connection.Basic
import Rostrum.Rehearsal.Basic

/-!
# Connections in rehearsal

Clients connect to the hub of a rehearsal over streams that hold a limited number of bytes. A client
that does not read lets the stream run full, and the server waits. After every command everything goes
on until nothing can go on any more.
-/

namespace Rostrum

/-- What a client sees. -/
inductive Sight where
  | frame (frame : ServerFrame)
  /-- The stream has ended. -/
  | over
deriving DecidableEq, Repr

/-- A client and its connection. -/
structure Line where
  client : String
  connection : Connection
  /-- How many bytes the stream to the client holds. -/
  capacity : Nat
  /-- Whether the client reads. -/
  isReading : Bool := true
  /-- Whether the client has gone away. -/
  isGone : Bool := false
  /-- Whether the client may not send any more: it has said goodbye. -/
  isDone : Bool := false
  /-- Whether the client has seen the end. -/
  sawEnd : Bool := false
  /-- Frames the server has sent and the client has not read. -/
  toClient : List ServerFrame := []
  /-- Frames the client has sent and the server has not read. -/
  toServer : List ClientFrame := []
deriving Repr

namespace Line

/-- Whether the server has gone away. -/
def isOver (l : Line) : Bool := l.connection.activity = .left

/-- Whether the stream has taken all that was sent. -/
def isTaken (l : Line) : Bool := framesSize l.toClient ≤ l.capacity

/--
The client reads what has come. A ping it answers, and finds out that the server has gone away if it
has, whatever else has come.
-/
def read (l : Line) : List ServerFrame → List Sight × Line
  | [] => ([], { l with toClient := [] })
  | .ping :: rest =>
    if l.isOver then ([.frame .ping], { l with toClient := [] })
    else
      let (seen, l) := read { l with toServer := l.toServer ++ [.pong 0] } rest
      (.frame .ping :: seen, l)
  | f :: rest =>
    let (seen, l) := read l rest
    (.frame f :: seen, l)

/-- All that the client sees at once. -/
def watch (l : Line) : List Sight × Line :=
  if l.isReading && !l.isGone && !l.sawEnd then
    let (seen, l) := l.read l.toClient
    if l.isOver then (seen ++ [.over], { l with sawEnd := true }) else (seen, l)
  else ([], l)

/-- Whether a frame of the client can be sent. -/
def canSend (l : Line) : Bool := !l.isDone && !l.isOver

end Line

/-- The state of a rehearsal with connections. -/
structure SocketRehearsal where
  stage : Rehearsal
  lines : Table Nat Line := {}
  /-- The sessions of the connections, in order. -/
  accepted : List SessionId := []
  /-- How often the shutdown signal was given. -/
  signals : Nat := 0
  /-- What it said last. -/
  isShutdown : Bool := false
  /-- What clients have seen since the last look. -/
  seen : List (String × Sight) := []

namespace SocketRehearsal

def settings (r : SocketRehearsal) : Settings := r.stage.hub.settings

/-- The connection of a line does something and may have left by that. -/
def act (r : SocketRehearsal) (n : Nat) (l : Line) (outward : Outward) (c : Connection) :
    SocketRehearsal :=
  let wasOver := l.isOver
  let l := { l with connection := c }
  let (stage, l) := match outward with
    | .nothing => (r.stage, l)
    | .request content => (r.stage.frame 0 c.session content, l)
    | .send frame => (r.stage, { l with toClient := l.toClient ++ [frame] })
  let stage :=
    if l.isOver && !wasOver then
      let stage := stage.stop 0 c.session true
      { stage with hub := { stage.hub with outbound := stage.hub.outbound.close c.queue } }
    else stage
  { r with stage := { stage with endings := [] }, lines := r.lines.put n l }

/-- What a listening connection meets first, if there is anything. -/
def meet (r : SocketRehearsal) (l : Line) : Option (Line × Outward × Connection × Hub) :=
  let c := l.connection
  let hub := r.stage.hub
  match hub.outbound.receive c.queue with
  | some (.message m, outbound) =>
    let (outward, c) := c.pass (some m)
    some (l, outward, c, { hub with outbound := outbound })
  | some (.closed, _) =>
    let (outward, c) := c.pass none
    some (l, outward, c, hub)
  | _ =>
    match l.toServer with
    | frame :: rest =>
      let (outward, c) := c.hear r.settings r.stage.now frame
      some ({ l with toServer := rest }, outward, c, hub)
    | [] =>
      if l.isGone then some (l, .nothing, c.hangUp, hub)
      else if c.signalsSeen ≠ r.signals then
        let (outward, c) := c.signal r.settings r.stage.now r.signals r.isShutdown
        some (l, outward, c, hub)
      else if c.wakeAt ≤ r.stage.now then
        let (outward, c) := c.wake r.settings r.stage.now
        some (l, outward, c, hub)
      else none

/-- Lets one line go on by one step; answers whether it could. -/
def move (r : SocketRehearsal) (n : Nat) : Bool × SocketRehearsal :=
  match r.lines.get? n with
  | none => (false, r)
  | some l =>
    let (seen, l) := l.watch
    let r := { r with
      lines := r.lines.put n l, seen := r.seen ++ seen.map fun sight => (l.client, sight) }
    let moved := !seen.isEmpty
    match l.connection.activity with
    | .left => (moved, r)
    | .sending after =>
      if l.isGone then (true, r.act n l .nothing l.connection.hangUp)
      else if l.isTaken then
        (true, r.act n l .nothing (l.connection.sent r.settings r.stage.now after))
      else (moved, r)
    | .listening =>
      match r.meet l with
      | some (l, outward, c, hub) =>
        (true, { r with stage := { r.stage with hub := hub } }.act n l outward c)
      | none => (moved, r)

/-- Lets all lines go on by one step each; answers whether any could. -/
def round (r : SocketRehearsal) : Bool × SocketRehearsal :=
  r.lines.keys.foldl (fun (any, r) n =>
    let (moved, r) := r.move n
    (any || moved, r)) (false, r)

/-- Lets all lines go on until none can. -/
def settle : (fuel : Nat) → SocketRehearsal → SocketRehearsal
  | 0, r => r
  | fuel + 1, r =>
    match r.round with
    | (true, r) => settle fuel r
    | (false, r) => r

/-- A bound on the rounds until no line can go on. -/
def roundBound (r : SocketRehearsal) : Nat :=
  let queued := r.stage.hub.outbound.boxes.values.foldl (fun n box => n + box.messages.length) 0
  let sent := r.lines.values.foldl (fun n l => n + l.toServer.length + l.toClient.length) 0
  50 + 4 * (queued + sent)

def run (r : SocketRehearsal) : SocketRehearsal := settle r.roundBound r

/-- The line of a client, with its number. -/
def line? (r : SocketRehearsal) (client : String) : Option (Nat × Line) :=
  r.lines.entries.reverse.find? fun e => e.2.client = client && !e.2.isGone

/-- A client goes away. -/
def drop (r : SocketRehearsal) (client : String) : SocketRehearsal :=
  match r.line? client with
  | some (n, l) => { r with lines := r.lines.put n { l with isGone := true } }.run
  | none => r

/-- Adds the line of a new connection. -/
def begin (r : SocketRehearsal) (client : String) (capacity : Nat) (a : Admission) :
    SocketRehearsal :=
  let c := Connection.opened r.settings a.session a.queue r.stage.now
  let l : Line :=
    { client := client, connection := { c with activity := .listening }, capacity := capacity }
  let n := r.lines.size
  if a.isAlive then ({ r with lines := r.lines.put n l }.act n l .nothing c).run
  else { r with lines := r.lines.put n { l with connection := c.hangUp } }.run

/-- A client connects; one of the same name goes away. -/
def connect (r : SocketRehearsal) (client target : String) (capacity : Nat) :
    Option HttpReply × SocketRehearsal :=
  match r.stage.hub.connect target with
  | (.error reply, hub) => (some reply, { r with stage := { r.stage with hub := hub } }.run)
  | (.ok a, hub) =>
    let r := { r with
      stage := { r.stage with hub := hub }, accepted := r.accepted ++ [a.session] }.drop client
    (none, r.begin client capacity a)

/-- Changes the line of a client. -/
def change (r : SocketRehearsal) (client : String) (f : Line → Line) : SocketRehearsal :=
  match r.line? client with
  | some (n, l) => { r with lines := r.lines.put n (f l) }.run
  | none => r

/-- A client sends a frame; answers whether it could, or nothing if there is no such client. -/
def send (r : SocketRehearsal) (client : String) (frame : ClientFrame) :
    Option Bool × SocketRehearsal :=
  match r.line? client with
  | none => (none, r)
  | some (n, l) =>
    if l.canSend then
      let l := { l with toServer := l.toServer ++ [frame], isDone := frame = .close }
      (some (!frame.isOversized), { r with lines := r.lines.put n l }.run)
    else (some false, r)

/-- A client starts or stops reading. -/
def setReading (r : SocketRehearsal) (client : String) (reading : Bool) : SocketRehearsal :=
  r.change client fun l => { l with isReading := reading }

/-- Gives the shutdown signal. -/
def signal (r : SocketRehearsal) (shutdown : Bool) : SocketRehearsal :=
  { r with signals := r.signals + 1, isShutdown := shutdown }.run

/-- Lets time pass, and then a little more, in which what has come due is done. -/
def advance (r : SocketRehearsal) (millis : Nat) : SocketRehearsal :=
  let r := { r with stage := r.stage.advance millis }.run
  { r with stage := r.stage.advance 1 }.run

/-- The engine finds candidates for the endpoint of the connection with this number, counted from one. -/
def emit (r : SocketRehearsal) (number : Nat) (candidates : List Candidate) :
    List Bool × SocketRehearsal :=
  let endpoint := do
    let s ← if number = 0 then none else r.accepted[number - 1]?
    (← r.stage.hub.coordinator.registry.entry? s).endpoint
  match endpoint with
  | none => (candidates.map fun _ => false, r)
  | some e =>
    let (heard, stage) := candidates.foldl (fun (heard, stage) c =>
      let (b, stage) := Rehearsal.emit stage e.id c
      (heard ++ [b], stage)) (([] : List Bool), r.stage)
    (heard, { r with stage := stage }.run)

/-- Does something to the hub or the engine. -/
def onStage (r : SocketRehearsal) (f : Rehearsal → Rehearsal) : SocketRehearsal :=
  { r with stage := f r.stage }.run

/-- Takes what clients have seen since the last look. -/
def takeSeen (r : SocketRehearsal) : List (String × Sight) × SocketRehearsal :=
  (r.seen, { r with seen := [] })

end SocketRehearsal

end Rostrum
