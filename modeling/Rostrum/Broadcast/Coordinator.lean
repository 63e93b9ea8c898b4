import Rostrum.Broadcast.Task
import Rostrum.Message.Server
import Rostrum.Metrics

/-!
# The coordinator

The coordinator leads sessions through their negotiations. It is given as a transition system: a
request (`prepare`, `stop`, `submit`, `shutdown`) acts at once and may leave a task behind, and `step`
lets a task go on when what it waits for has happened. No step is ever interrupted; between two steps
of a task, any other task may take any number of steps.

A negotiation gets hold of the mix, makes an endpoint and a mixer port, connects them, applies the
candidates that wait, listens for candidates of the engine, has the offer answered, and starts the
search for candidates. Every object is noted in the registry as soon as it exists. When a call fails
or a stop has come, the negotiation removes its entry and releases what the entry names.
-/

namespace Rostrum

/-- A message on its way to a session. -/
structure Notice where
  session : SessionId
  message : ServerMessage
deriving Repr

structure Coordinator where
  registry : Registry := {}
  mix : MixCell := {}
  metrics : Metrics := {}
deriving Repr, Inhabited

/-- The result of a step: the new state, what is said to clients, and what becomes of the task. -/
structure StepResult where
  coordinator : Coordinator
  notices : List Notice := []
  task : Progress Task Ending

namespace Coordinator

def labels (role : Role) (verdict : Verdict) : NegotiationLabels := ⟨role.text, verdict.text⟩

/-- Tells a session that it does not get a role, and counts that. A stopped session is not told. -/
def reject (c : Coordinator) (s : SessionId) (role : Role) (fault : NegotiationFault) :
    List Notice × Coordinator :=
  if fault.isReported then
    ([⟨s, .rejected role fault.message⟩],
      { c with metrics := c.metrics.countNegotiation (labels role .rejected) })
  else ([], c)

/-- The mix a new negotiation starts from: none for a presenter, the published one for a viewer. -/
def snapshot (c : Coordinator) (s : SessionId) :
    Role → Except NegotiationFault (Option SharedMix)
  | .presenter => .ok none
  | .viewer =>
    match c.registry.activeRole? s with
    | some held => .error (.roleTaken held)
    | none =>
      match c.mix.published with
      | some mix => .ok (some mix)
      | none => .error .noPresenter

/-- Enters a session for a role. -/
def reserve (c : Coordinator) (s : SessionId) (role : Role) (offer : String) :
    Except NegotiationFault (Negotiation × Coordinator) := do
  let snapshot ← c.snapshot s role
  let (attempt, registry) ← c.registry.register s role
  return (⟨s, attempt, role, offer, snapshot⟩, { c with registry := registry })

/-- Prepares a negotiation. It acts at once, so a stop that follows finds the session entered. -/
def prepare (c : Coordinator) (s : SessionId) (role : Role) (offer : String) :
    Except NegotiationFault Negotiation × List Notice × Coordinator :=
  match c.reserve s role offer with
  | .ok (n, c) => (.ok n, [], c)
  | .error fault =>
    let (notices, c) := c.reject s role fault
    (.error fault, notices, c)

/-- Counts an entry out of the gauge of its role once its objects are released. -/
def settle (c : Coordinator) (e : Entry) : Coordinator :=
  match e.phase with
  | .ready => { c with metrics := c.metrics.addActive e.role.text (-1) }
  | .pending => c

def release (c : Coordinator) (e : Entry) : List ObjectId → Progress Teardown Unit × Coordinator
  | [] => (.done (), c.settle e)
  | object :: rest => (.ongoing ⟨e, object, rest⟩, c)

/-- Stops a session. What has to be released is left to a teardown. -/
def stop (c : Coordinator) (s : SessionId) : Progress Teardown Unit × Coordinator :=
  let (action, registry) := c.registry.stop s
  let c := { c with registry := registry }
  match action with
  | .marked | .nothing => (.done (), c)
  | .teardown e => c.release e e.objects

def submit (c : Coordinator) (s : SessionId) (candidate : Candidate) :
    Progress Task Unit × Coordinator :=
  let (destination, registry) := c.registry.submit s candidate
  let c := { c with registry := registry }
  match destination with
  | .apply endpoint candidate => (.ongoing (.apply s endpoint candidate), c)
  | .buffered => (.done (), { c with metrics := c.metrics.countBuffered 1 })

/-- Withdraws the mix, at the end of a shutdown. -/
def shutdownMix (c : Coordinator) (t : TaskId) : StepResult :=
  match c.mix.withdraw t with
  | (.ongoing stage, mix) => ⟨{ c with mix := mix }, [], .ongoing (.shutdown (.withdrawing stage))⟩
  | (.done _, mix) => ⟨{ c with mix := mix }, [], .done .done⟩

/-- Stops the given sessions one after the other, then withdraws the mix. -/
def shutdownFrom (c : Coordinator) (t : TaskId) : List SessionId → StepResult
  | [] => c.shutdownMix t
  | s :: left =>
    match c.stop s with
    | (.ongoing teardown, c) => ⟨c, [], .ongoing (.shutdown (.stopping teardown left))⟩
    | (.done (), c) => c.shutdownFrom t left

/-- Stops all sessions and withdraws the mix. -/
def shutdown (c : Coordinator) (t : TaskId) : StepResult := c.shutdownFrom t c.registry.sessions

/-- The end of a negotiation that failed, once its objects are released. -/
def giveUp (c : Coordinator) (n : Negotiation) (fault : NegotiationFault) (e : Entry) :
    List ObjectId → StepResult
  | object :: rest => ⟨c, [], .ongoing (.negotiation n (.releasing fault e object rest))⟩
  | [] =>
    let c := c.settle e
    let (notices, c) := if e.stopped then ([], c) else c.reject n.session n.role fault
    ⟨c, notices, .done (.negotiated (.error fault))⟩

/-- Takes down a negotiation that cannot go on. -/
def abort (c : Coordinator) (n : Negotiation) (fault : NegotiationFault) : StepResult :=
  match c.registry.remove n.session n.attempt with
  | (some e, registry) => { c with registry := registry }.giveUp n fault e e.objects
  | (none, registry) =>
    ⟨{ c with registry := registry }, [], .done (.negotiated (.error fault))⟩

def advance (c : Coordinator) (n : Negotiation) (stage : NegotiationStage) : StepResult :=
  ⟨c, [], .ongoing (.negotiation n stage)⟩

/-- Lets a negotiation go on unless it was stopped. -/
def advanceChecked (c : Coordinator) (n : Negotiation) (stage : NegotiationStage) : StepResult :=
  match c.registry.check n.session n.attempt with
  | .ok () => c.advance n stage
  | .error fault => c.abort n fault

/-- Passes the answer on to the client, before the search for candidates starts. -/
def answered (c : Coordinator) (n : Negotiation) (endpoint : Endpoint) (answer : String) :
    StepResult :=
  match c.registry.check n.session n.attempt with
  | .ok () =>
    ⟨c, [⟨n.session, .accepted n.role answer⟩],
      .ongoing (.negotiation n (.gathering endpoint answer))⟩
  | .error fault => c.abort n fault

/-- Applies the next candidate that waits, or goes on to listen to the engine. -/
def drain (c : Coordinator) (n : Negotiation) (endpoint : Endpoint) : StepResult :=
  match c.registry.nextCandidate n.session n.attempt with
  | .error fault => c.abort n fault
  | .ok (some candidate, registry) =>
    { c with registry := registry }.advance n (.applying endpoint candidate)
  | .ok (none, registry) => { c with registry := registry }.advance n (.subscribing endpoint)

/-- What a negotiation fails with whose mix is gone. -/
def mixGone : Role → NegotiationFault
  | .presenter => .mixReleased
  | .viewer => .noPresenter

/-- Goes on with a negotiation after a step of its request for the mix. -/
def afterMix (c : Coordinator) (n : Negotiation) : MixCell.RequestStep → StepResult
  | (.ongoing stage, mix) => { c with mix := mix }.advance n (.obtainingMix stage)
  | (.done (.ok shared), mix) => { c with mix := mix }.advanceChecked n (.creatingEndpoint shared)
  | (.done (.error fault), mix) => { c with mix := mix }.abort n (.engine fault)

def start (c : Coordinator) (t : TaskId) (n : Negotiation) : StepResult :=
  match n.snapshot with
  | some shared => c.advanceChecked n (.creatingEndpoint shared)
  | none => c.afterMix n (c.mix.request t)

/-- Notes a new endpoint and goes on if the mix is still there. -/
def endpointMade (c : Coordinator) (n : Negotiation) (mix : SharedMix) (endpoint : Endpoint) :
    StepResult :=
  match c.registry.setEndpoint n.session n.attempt endpoint with
  | (.error fault, registry) => { c with registry := registry }.abort n fault
  | (.ok (), registry) =>
    let c := { c with registry := registry }
    if c.mix.isCurrent mix then c.advance n (.creatingPort mix endpoint)
    else c.abort n (mixGone n.role)

def portMade (c : Coordinator) (n : Negotiation) (endpoint : Endpoint) (port : MixerPort) :
    StepResult :=
  match c.registry.setPort n.session n.attempt port with
  | (.error fault, registry) => { c with registry := registry }.abort n fault
  | (.ok (), registry) => { c with registry := registry }.advance n (.connecting endpoint port)

def complete (c : Coordinator) (n : Negotiation) (answer : String) : StepResult :=
  match c.registry.finish n.session n.attempt with
  | .error fault => c.abort n fault
  | .ok registry =>
    let metrics := (c.metrics.addActive n.role.text 1).countNegotiation (labels n.role .accepted)
    ⟨{ c with registry := registry, metrics := metrics }, [], .done (.negotiated (.ok answer))⟩

def resume (c : Coordinator) (n : Negotiation) : NegotiationStage → Reply → StepResult
  | .prepared, _ => c.advance n .prepared
  | .obtainingMix stage, reply => c.afterMix n (c.mix.resumeRequest stage reply)
  | .releasing fault e _ rest, _ => c.giveUp n fault e rest
  | .creatingEndpoint mix, .ok id => c.endpointMade n mix ⟨⟨id⟩⟩
  | .creatingPort _ endpoint, .ok id => c.portMade n endpoint ⟨⟨id⟩⟩
  | .connecting endpoint _, .ok _ =>
    match c.registry.check n.session n.attempt with
    | .ok () => c.drain n endpoint
    | .error fault => c.abort n fault
  | .applying endpoint _, .ok _ => c.drain n endpoint
  | .subscribing endpoint, .ok _ => c.advanceChecked n (.offering endpoint)
  | .offering endpoint, .ok answer =>
    c.answered n endpoint answer
  | .gathering _ answer, .ok _ => c.complete n answer
  | _, .error fault => c.abort n (.engine fault)

/-- Counts releases that the engine refused. -/
def countRelease (c : Coordinator) (task : Task) (reply : Reply) : Coordinator :=
  match task.call?, reply with
  | some (.release _), .error _ => { c with metrics := c.metrics.countReleaseFailures 1 }
  | _, _ => c

/-- What made a task go on. -/
inductive Wake where
  /-- Its turn to start, or to take the lock it waited for. -/
  | turn
  | reply (reply : Reply)
deriving Repr

/-- Goes on with a request for the mix that stands alone. -/
def mixRequested (c : Coordinator) : MixCell.RequestStep → StepResult
  | (.ongoing stage, mix) => ⟨{ c with mix := mix }, [], .ongoing (.mixRequest stage)⟩
  | (.done result, mix) => ⟨{ c with mix := mix }, [], .done (.mix result)⟩

/-- Goes on with a withdrawal of the mix that stands alone. -/
def mixWithdrawn (c : Coordinator) : MixCell.WithdrawalStep → StepResult
  | (.ongoing stage, mix) => ⟨{ c with mix := mix }, [], .ongoing (.mixWithdrawal stage)⟩
  | (.done existed, mix) => ⟨{ c with mix := mix }, [], .done (.withdrawn existed)⟩

/-- Goes on with the withdrawal at the end of a shutdown. -/
def shutdownWithdrawn (c : Coordinator) : MixCell.WithdrawalStep → StepResult
  | (.ongoing stage, mix) => ⟨{ c with mix := mix }, [], .ongoing (.shutdown (.withdrawing stage))⟩
  | (.done _, mix) => ⟨{ c with mix := mix }, [], .done .done⟩

/-- Begins a stop, at the end of which the client may leave. -/
def stopTask (s : SessionId) (leaving : Bool) :
    Progress Teardown Unit × Coordinator → StepResult
  | (.ongoing teardown, c) => ⟨c, [], .ongoing (.stop s leaving teardown)⟩
  | (.done (), c) => ⟨c, [], .done (if leaving then .left s else .done)⟩

/-- The step of a task when the engine has replied. -/
def stepReply (c : Coordinator) (t : TaskId) (task : Task) (reply : Reply) : StepResult :=
  let c := c.countRelease task reply
  match task with
  | .negotiation n stage => c.resume n stage reply
  | .stop s leaving teardown => stopTask s leaving (c.release teardown.entry teardown.rest)
  | .apply _ _ _ => ⟨c, [], .done .done⟩
  | .shutdown (.stopping teardown left) =>
    match c.release teardown.entry teardown.rest with
    | (.ongoing teardown, c) => ⟨c, [], .ongoing (.shutdown (.stopping teardown left))⟩
    | (.done (), c) => c.shutdownFrom t left
  | .shutdown (.withdrawing stage) => c.shutdownWithdrawn (c.mix.resumeWithdrawal stage)
  | .mixRequest stage => c.mixRequested (c.mix.resumeRequest stage reply)
  | .mixWithdrawal stage => c.mixWithdrawn (c.mix.resumeWithdrawal stage)

/-- The step of a task that starts, or that was handed the lock on the mix. -/
def stepTurn (c : Coordinator) (t : TaskId) (task : Task) : StepResult :=
  match task with
  | .negotiation n .prepared => c.start t n
  | .negotiation n (.obtainingMix .waiting) => c.afterMix n c.mix.enterRequest
  | .shutdown (.withdrawing .waiting) => c.shutdownWithdrawn c.mix.enterWithdrawal
  | .mixRequest .waiting => c.mixRequested c.mix.enterRequest
  | .mixWithdrawal .waiting => c.mixWithdrawn c.mix.enterWithdrawal
  | task => ⟨c, [], .ongoing task⟩

def step (c : Coordinator) (t : TaskId) (task : Task) : Wake → StepResult
  | .turn => c.stepTurn t task
  | .reply reply => c.stepReply t task reply

/-- Whether a task is the holder of the lock and was handed it while waiting. -/
def hasTurn (c : Coordinator) (t : TaskId) (task : Task) : Bool :=
  match task.awaits with
  | .start => true
  | .lock => c.mix.holder = some t
  | .reply _ => false

end Coordinator

end Rostrum
