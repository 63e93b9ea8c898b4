import Rostrum.Broadcast.Hub
import Rostrum.Engine.Simulated
import Rostrum.Rpc.Client

/-!
# Rehearsals

A rehearsal runs the hub against a simulated engine under a schedule. Calls to the engine can be held
back one by one, offers can be held back at a gate, and time passes only when told to. After every
command all tasks run until each has ended or waits for a held call, a closed gate or the lock on the
mix; a task that can go on does so before others.
-/

namespace Rostrum

/-- Where the call of a waiting task is. -/
inductive CallPlace where
  /-- Held back before it reaches the engine, under a number. -/
  | held (number : Nat)
  /-- At a gate of the engine. -/
  | gate (gate : Nat)
  /-- Through the engine, whose reply is on its way. -/
  | answered (reply : Reply)
deriving Repr

/-- A call that has not been answered yet. -/
structure WaitingCall where
  call : EngineCall SessionId
  place : CallPlace
  /-- When the caller gives up. -/
  deadline : Option Nat
deriving Repr

/-- A task of a rehearsal. -/
structure RunningTask where
  task : Task
  /-- The command whose end this task is; nobody waits for a negotiation that a text started. -/
  command : Option Nat
  waiting : Option WaitingCall := none
deriving Repr

/-- The state of a rehearsal. -/
structure Rehearsal where
  hub : Hub
  engine : SimulatedEngine SessionId := {}
  /-- Whether the connection to the engine is lost, so that no call reaches it. -/
  isEngineLost : Bool := false
  /-- Whether calls travel, so that they are carried out even if their caller gives up at once. -/
  isRemote : Bool := false
  tasks : Table TaskId RunningTask := {}
  nextTask : Nat := 0
  now : Nat := 0
  /-- How long a call may take, in milliseconds. -/
  timeLimit : Option Nat := none
  /-- The operations whose calls are held back from now on. -/
  heldOperations : List Operation := []
  /-- The operations whose replies take their time. -/
  slowOperations : List Operation := []
  /-- The number of the next call that is held back. -/
  nextHeld : Nat := 1
  /-- The ends of commands since the last look, in order. -/
  endings : List (Nat × Ending) := []
  /-- The commands by which a client leaves that has no place to give back. -/
  placeless : List Nat := []

namespace Rehearsal

def ofHub (hub : Hub) (timeLimit : Option Nat) : Rehearsal := { hub := hub, timeLimit := timeLimit }

/-- Lets a call through to the engine, where an offer may meet a closed gate. -/
def reach (r : Rehearsal) (call : EngineCall SessionId) :
    SimulatedEngine.Arrival × Rehearsal :=
  if r.isEngineLost then (.replied (.error Rpc.Client.lost), r)
  else
    let (arrival, engine) := r.engine.arrive call
    (arrival, { r with engine := engine })

/-- The fault of a call whose time is up. -/
def lateFault (call : EngineCall SessionId) (limit : Nat) : EngineFault :=
  .timedOut call.operation.name limit

/-- Notes that a task waits with its call somewhere. -/
def park (r : Rehearsal) (t : TaskId) (run : RunningTask) (call : EngineCall SessionId)
    (place : CallPlace) (deadline : Option Nat) : Rehearsal :=
  { r with tasks := r.tasks.put t { run with waiting := some ⟨call, place, deadline⟩ } }

/--
A call whose caller has no time at all for it; answers what the caller gets. A call that is held back
has a number even so.
-/
def rush (r : Rehearsal) (call : EngineCall SessionId) : Reply × Rehearsal :=
  if r.isEngineLost then (.error Rpc.Client.lost, r)
  else if r.heldOperations.contains call.operation then
    (.error (lateFault call 0), { r with nextHeld := r.nextHeld + 1 })
  else (.error (lateFault call 0), if r.isRemote then (r.reach call).2 else r)

/-- A task makes a call; answers the reply if there is one at once. -/
def issue (r : Rehearsal) (t : TaskId) (run : RunningTask) (call : EngineCall SessionId) :
    Option Reply × Rehearsal :=
  let deadline := r.timeLimit.map (r.now + ·)
  if r.timeLimit = some 0 then
    let (reply, r) := r.rush call
    (some reply, { r with tasks := r.tasks.put t run })
  else if r.heldOperations.contains call.operation then
    (none, { r.park t run call (.held r.nextHeld) deadline with nextHeld := r.nextHeld + 1 })
  else
    match r.reach call with
    | (.replied reply, r) =>
      if r.slowOperations.contains call.operation then
        (none, r.park t run call (.answered reply) deadline)
      else (some reply, { r with tasks := r.tasks.put t run })
    | (.waits gate, r) => (none, r.park t run call (.gate gate) deadline)

/-- Ends a task. -/
def finish (r : Rehearsal) (t : TaskId) (command : Option Nat) (ending : Ending) : Rehearsal :=
  let r := { r with tasks := r.tasks.erase t }
  let r := match ending with
    | .left s =>
      let places :=
        if command.any r.placeless.contains then r.hub.places else r.hub.places.release
      { r with hub := { r.hub with outbound := r.hub.outbound.remove s, places := places } }
    | _ => r
  match command with
  | some n => { r with endings := r.endings ++ [(n, ending)] }
  | none => r

/-- The task that was handed the lock on the mix while another one took a step. -/
def handedOn (before after : Option TaskId) (t : TaskId) : List (TaskId × Coordinator.Wake) :=
  match after with
  | some u => if before = some u ∨ u = t then [] else [(u, .turn)]
  | none => []

/-- Lets the given tasks run, the first one until it waits. -/
def settle : (fuel : Nat) → Rehearsal → List (TaskId × Coordinator.Wake) → Rehearsal
  | 0, r, _ => r
  | _, r, [] => r
  | fuel + 1, r, (t, wake) :: rest =>
    match r.tasks.get? t with
    | none => settle fuel r rest
    | some run =>
      let before := r.hub.coordinator.mix.holder
      let (progress, hub) := r.hub.step t run.task wake
      let rest := rest ++ handedOn before hub.coordinator.mix.holder t
      let r := { r with hub := hub }
      match progress with
      | .done ending => settle fuel (r.finish t run.command ending) rest
      | .ongoing task =>
        let run := { run with task := task, waiting := none }
        match task.awaits with
        | .reply call =>
          match r.issue t run call with
          | (some reply, r) => settle fuel r ((t, .reply reply) :: rest)
          | (none, r) => settle fuel r rest
        | _ => settle fuel { r with tasks := r.tasks.put t run } rest

/-- A bound on the steps that all tasks together can take until each one waits or has ended. -/
def stepBound (r : Rehearsal) : Nat :=
  let queues := r.hub.coordinator.registry.buffer.queues.values
  let buffered := queues.foldl (fun n queue => n + queue.length) 0
  (r.tasks.size + 2) * (40 + buffered + 4 * r.hub.coordinator.registry.sessions.length)

/-- Lets the given tasks run until each one waits or has ended. -/
def run (r : Rehearsal) (ready : List (TaskId × Coordinator.Wake)) : Rehearsal :=
  settle r.stepBound r ready

/-- Adds a task whose first step is still to come. -/
def spawn (r : Rehearsal) (command : Option Nat) (task : Task) : TaskId × Rehearsal :=
  let t : TaskId := ⟨r.nextTask⟩
  (t, { r with
    nextTask := r.nextTask + 1
    tasks := r.tasks.put t { task := task, command := command } })

/-- Adds a task that has taken its first step, and lets it run. -/
def adopt (r : Rehearsal) (command : Option Nat) (progress : Progress Task Ending) : Rehearsal :=
  match progress with
  | .done ending => r.finish ⟨r.nextTask⟩ command ending
  | .ongoing task =>
    let (t, r) := r.spawn command task
    match task.awaits with
    | .reply call =>
      match r.issue t { task := task, command := command } call with
      | (some reply, r) => r.run [(t, .reply reply)]
      | (none, r) => r
    | _ => r

/-- Runs a prepared negotiation. -/
def negotiate (r : Rehearsal) (command : Option Nat) (n : Negotiation) : Rehearsal :=
  let (t, r) := r.spawn command (.negotiation n .prepared)
  r.run [(t, .turn)]

/-- Prepares a negotiation. -/
def prepare (r : Rehearsal) (s : SessionId) (role : Role) (offer : String) :
    Except NegotiationFault Negotiation × Rehearsal :=
  let (result, notices, coordinator) := r.hub.coordinator.prepare s role offer
  (result, { r with hub := { r.hub with coordinator := coordinator }.deliver notices })

/-- Prepares and runs a negotiation. -/
def join (r : Rehearsal) (command : Nat) (s : SessionId) (role : Role) (offer : String) : Rehearsal :=
  match r.prepare s role offer with
  | (.ok n, r) => r.negotiate (some command) n
  | (.error fault, r) =>
    { r with endings := r.endings ++ [(command, .negotiated (.error fault))] }

/-- A client sends a text. -/
def frame (r : Rehearsal) (command : Nat) (s : SessionId) (text : String) : Rehearsal :=
  let (own, negotiation, hub) := r.hub.dispatch s text
  let r := { r with hub := hub }.adopt (some command) own
  match negotiation with
  | some n => r.negotiate none n
  | none => r

/-- Stops a session; its client may leave. -/
def stop (r : Rehearsal) (command : Nat) (s : SessionId) (leaving : Bool) : Rehearsal :=
  let result := Coordinator.stopTask s leaving (r.hub.coordinator.stop s)
  { r with hub := { r.hub with coordinator := result.coordinator } }.adopt (some command) result.task

/-- A client sends a candidate. -/
def submit (r : Rehearsal) (command : Nat) (s : SessionId) (candidate : Candidate) : Rehearsal :=
  let (progress, coordinator) := r.hub.coordinator.submit s candidate
  let r := { r with hub := { r.hub with coordinator := coordinator } }
  r.adopt (some command) (match progress with
    | .ongoing task => .ongoing task
    | .done () => .done .done)

/-- Begins something that acts at once and may leave a task behind. -/
def begin (r : Rehearsal) (command : Nat) (act : Coordinator → TaskId → StepResult) : Rehearsal :=
  let result := act r.hub.coordinator ⟨r.nextTask⟩
  { r with hub := { r.hub with coordinator := result.coordinator } }.adopt (some command) result.task

/-- Stops all sessions and withdraws the mix. -/
def shutdown (r : Rehearsal) (command : Nat) : Rehearsal := r.begin command Coordinator.shutdown

/-- Asks for the mix. -/
def requestMix (r : Rehearsal) (command : Nat) : Rehearsal :=
  r.begin command fun c t => c.mixRequested (c.mix.request t)

/-- Adds many requests for the mix that all come before the first one goes on. -/
def requestMixes (r : Rehearsal) (command : Nat) (count : Nat) : Rehearsal :=
  let (ready, r) := (List.range count).foldl (fun (ready, r) i =>
    let (t, r) := r.spawn (some (command + i)) (.mixRequest .waiting)
    let (got, mix) := r.hub.coordinator.mix.lock t
    let r := { r with hub := { r.hub with coordinator := { r.hub.coordinator with mix := mix } } }
    (if got then ready ++ [(t, Coordinator.Wake.turn)] else ready, r)) ([], r)
  r.run ready

/-- Withdraws the mix. -/
def withdrawMix (r : Rehearsal) (command : Nat) : Rehearsal :=
  r.begin command fun c t => c.mixWithdrawn (c.mix.withdraw t)

/-- The calls that are held back, in the order of their numbers. -/
def heldCalls (r : Rehearsal) : List (Nat × TaskId × WaitingCall) :=
  let all := r.tasks.entries.filterMap fun (t, run) =>
    match run.waiting with
    | some w => match w.place with
      | .held number => some (number, t, w)
      | _ => none
    | none => none
  all.mergeSort fun a b => a.1 ≤ b.1

/-- Lets a held call through, or fails it. Answers its operation if there is such a call. -/
def release (r : Rehearsal) (number : Option Nat) (fault : Option EngineFault) :
    Option Operation × Rehearsal :=
  let call : Option (Nat × TaskId × WaitingCall) := match number with
    | some n => r.heldCalls.find? fun h => h.1 = n
    | none => r.heldCalls.head?
  match call with
  | none => (none, r)
  | some (_, t, w) =>
    let r := match fault with
      | some fault => r.run [(t, .reply (.error fault))]
      | none =>
        match r.reach w.call with
        | (.replied reply, r) => r.run [(t, .reply reply)]
        | (.waits gate, r) =>
          { r with tasks := r.tasks.modify t fun run =>
              { run with waiting := some { w with place := .gate gate } } }
    (some w.call.operation, r)

/-- Opens a gate; the offers that wait there come through in the order in which they came. -/
def openGate (r : Rehearsal) (gate : Nat) : Rehearsal :=
  let r := { r with engine := r.engine.openGate gate }
  let waiting := r.tasks.entries.filterMap fun (t, run) =>
    match run.waiting with
    | some ⟨call, .gate g, _⟩ => if g = gate then some (t, call) else none
    | _ => none
  waiting.foldl (fun r (t, call) =>
    let (reply, engine) := r.engine.run call
    { r with engine := engine }.run [(t, .reply reply)]) r

/-- The replies for some tasks that are on their way arrive. -/
def deliverReplies (r : Rehearsal) (due : List TaskId) : Rehearsal :=
  due.foldl (fun r t =>
    match (r.tasks.get? t).bind RunningTask.waiting with
    | some ⟨_, .answered reply, _⟩ => r.run [(t, .reply reply)]
    | _ => r) r

/-- Lets time pass. Callers whose time is up get a fault; their calls are gone. -/
def advance (r : Rehearsal) (millis : Nat) : Rehearsal :=
  let r := { r with now := r.now + millis }
  let late := r.tasks.entries.filterMap fun (t, run) =>
    match run.waiting with
    | some ⟨call, _, some deadline⟩ => if deadline ≤ r.now then some (deadline, t, call) else none
    | _ => none
  (late.mergeSort fun a b => a.1 ≤ b.1).foldl (fun r (_, t, call) =>
    r.run [(t, .reply (.error (lateFault call (r.timeLimit.getD 0))))]) r

/-- The engine finds a candidate for an object; answers whether anybody listens. -/
def emit (r : Rehearsal) (id : ObjectId) (candidate : Candidate) : Bool × Rehearsal :=
  match r.engine.listener? id with
  | some s => (true, { r with hub := r.hub.found s candidate })
  | none => (false, r)

/-- The engine carries out a call of somebody else. -/
def callEngine (r : Rehearsal) (call : EngineCall SessionId) : Reply × Rehearsal :=
  let (reply, engine) := r.engine.run call
  (reply, { r with engine := engine })

/-- The connection to the engine is lost. -/
def loseEngine (r : Rehearsal) : Rehearsal :=
  { r with isEngineLost := true, engine := { r.engine with connected := false } }

/-- Takes the ends of commands since the last look. -/
def takeEndings (r : Rehearsal) : List (Nat × Ending) × Rehearsal :=
  (r.endings, { r with endings := [] })

end Rehearsal

end Rostrum
