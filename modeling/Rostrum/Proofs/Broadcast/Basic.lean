import Rostrum.Broadcast.Coordinator
import Rostrum.Proofs.Registry.Ownership

/-!
# The coordinator with all its tasks

A broadcast is the coordinator together with the tasks that run on it. What happens next is an action:
a request, the turn of a task that waits for nothing or was handed the lock on the mix, or the reply
of the engine to a call. Any action that is possible may come next, so no order is assumed between
tasks, and every call may fail. Of the engine it is assumed that a new object gets a name that no
object had before.

The log says what was done to the registry and what passed between tasks and the engine. Checks of the
registry change nothing and are left out.
-/

namespace Rostrum

def EngineCall.creates? {L : Type} : EngineCall L → Option ObjectKind
  | .createPipeline => some .pipeline
  | .createMixer _ => some .mixer
  | .createEndpoint _ => some .endpoint
  | .createPort _ => some .port
  | _ => none

/-- The task that is left after a step. -/
def Progress.ongoing? {σ α : Type} : Progress σ α → Option σ
  | .ongoing state => some state
  | .done _ => none

namespace NegotiationStage

/-- Whether a negotiation has not been given up. -/
def isLive : NegotiationStage → Bool
  | .releasing _ _ _ _ => false
  | _ => true

/-- What a negotiation asks of the registry when it goes on after a reply, except for checks. -/
def asks (n : Negotiation) : NegotiationStage → Option Reply → Option Registry.Call
  | .creatingEndpoint _, some (.ok id) => some (.setEndpoint n.session n.attempt ⟨⟨id⟩⟩)
  | .creatingPort _ _, some (.ok id) => some (.setPort n.session n.attempt ⟨⟨id⟩⟩)
  | .connecting _ _, some (.ok _) => some (.nextCandidate n.session n.attempt)
  | .applying _ _, some (.ok _) => some (.nextCandidate n.session n.attempt)
  | .gathering _ _, some (.ok _) => some (.finish n.session n.attempt)
  | _, _ => none

end NegotiationStage

/-- Whether a negotiation gave up in a step that ended like this. -/
def Progress.gaveUp : Progress Task Ending → Bool
  | .ongoing (.negotiation _ stage) => !stage.isLive
  | .done (.negotiated (.error _)) => true
  | _ => false

/-- Those of the given sessions that a shutdown stops before it has to release something. -/
def Registry.stopped (r : Registry) : List SessionId → List SessionId
  | [] => []
  | s :: left =>
    match r.answer (.stop s) with
    | .action (.teardown e) =>
      if e.objects = [] then s :: (r.next (.stop s)).stopped left else [s]
    | _ => s :: (r.next (.stop s)).stopped left

namespace Broadcast

/-- What is asked of the coordinator. -/
inductive Request where
  | prepare (session : SessionId) (role : Role) (offer : String)
  | stop (session : SessionId) (leaving : Bool)
  | submit (session : SessionId) (candidate : Candidate)
  /-- Stops all sessions, in any order. -/
  | shutdown (order : List SessionId)
  | requestMix
  | withdrawMix

inductive Action where
  | request (request : Request)
  | turn (task : TaskId)
  | reply (task : TaskId) (reply : Reply)

inductive Event where
  | called (deed : Registry.Deed)
  | issued (id : TaskId) (task : Task)
  | replied (id : TaskId) (task : Task) (reply : Reply)

end Broadcast

open Broadcast in
/-- The coordinator, the tasks that run, and what was done. -/
structure Broadcast where
  coordinator : Coordinator := {}
  tasks : Table TaskId Task := {}
  nextTask : Nat := 0
  log : List Event := []

namespace Broadcast

/-- Does what is asked for; what is left of it is a task of its own. -/
def serve (c : Coordinator) (t : TaskId) : Request → StepResult
  | .prepare s role offer =>
    match c.prepare s role offer with
    | (.ok n, notices, c) => ⟨c, notices, .ongoing (.negotiation n .prepared)⟩
    | (.error fault, notices, c) => ⟨c, notices, .done (.negotiated (.error fault))⟩
  | .stop s leaving => Coordinator.stopTask s leaving (c.stop s)
  | .submit s candidate =>
    match c.submit s candidate with
    | (.ongoing task, c) => ⟨c, [], .ongoing task⟩
    | (.done (), c) => ⟨c, [], .done .done⟩
  | .shutdown order => c.shutdownFrom t order
  | .requestMix => c.mixRequested (c.mix.request t)
  | .withdrawMix => c.mixWithdrawn (c.mix.withdraw t)

def requestCalls (c : Coordinator) : Request → List Registry.Call
  | .prepare s role _ =>
    match c.snapshot s role with
    | .ok _ => [.register s role]
    | .error _ => []
  | .stop s _ => [.stop s]
  | .submit s candidate => [.submit s candidate]
  | .shutdown order => (c.registry.stopped order).map .stop
  | .requestMix => []
  | .withdrawMix => []

/-- The calls to the registry that a negotiation makes in a step, by what the step leads to. -/
def negotiationCalls (n : Negotiation) (stage : NegotiationStage) (reply : Option Reply)
    (result : StepResult) : List Registry.Call :=
  (stage.asks n reply).toList ++ if result.task.gaveUp then [.remove n.session n.attempt] else []

/-- The calls to the registry that a step of a task makes. -/
def taskCalls (c : Coordinator) (task : Task) (reply : Option Reply) (result : StepResult) :
    List Registry.Call :=
  match task, reply with
  | .negotiation n stage, reply =>
    if stage.isLive then negotiationCalls n stage reply result else []
  | .shutdown (.stopping teardown left), some _ =>
    if teardown.rest = [] then (c.registry.stopped left).map .stop else []
  | _, _ => []

/-- The object a reply brings to a task. -/
def madeBy (task : Task) : Reply → Option (ObjectKind × ObjectId)
  | .ok name => (task.call?.bind EngineCall.creates?).map fun kind => (kind, ⟨name⟩)
  | .error _ => none

def Event.made? : Event → Option (ObjectKind × ObjectId)
  | .replied _ task reply => madeBy task reply
  | _ => none

def made (log : List Event) : List (ObjectKind × ObjectId) := log.filterMap Event.made?

/-- Whether a reply to a call is possible: a new object has a new name. -/
def admits (log : List Event) (call : EngineCall SessionId) : Reply → Prop
  | .ok name => call.creates?.isSome → ⟨name⟩ ∉ (made log).map Prod.snd
  | .error _ => True

instance (log : List Event) (call : EngineCall SessionId) (reply : Reply) :
    Decidable (admits log call reply) := by
  cases reply <;> unfold admits <;> infer_instance

def repliedEvents (t : TaskId) : Option Task → Option Reply → List Event
  | some task, some reply => [.replied t task reply]
  | _, _ => []

def issuedEvents (t : TaskId) : Option Task → List Event
  | some task => if task.call?.isSome then [.issued t task] else []
  | none => []

variable (b : Broadcast)

/-- A step of a task: from what it was to what is left of it, with the calls it makes meanwhile. -/
def take (t : TaskId) (task : Option Task) (reply : Option Reply) (calls : List Registry.Call)
    (result : StepResult) : Broadcast where
  coordinator := result.coordinator
  tasks :=
    match result.task.ongoing? with
    | some task => b.tasks.put t task
    | none => b.tasks.erase t
  nextTask := max b.nextTask (t.number + 1)
  log := b.log ++ repliedEvents t task reply ++
    (b.coordinator.registry.log calls).map .called ++ issuedEvents t result.task.ongoing?

/-- Serves a request. A shutdown takes the sessions in any order, but each of them once. -/
def request? (q : Request) : Option Broadcast :=
  let c := b.coordinator
  let t : TaskId := ⟨b.nextTask⟩
  let next := b.take t none none (requestCalls c q) (serve c t q)
  match q with
  | .shutdown order => if order.isPerm c.registry.sessions then some next else none
  | _ => some next

def turn? (t : TaskId) : Option Broadcast :=
  let c := b.coordinator
  match b.tasks.get? t with
  | some task =>
    let result := c.step t task .turn
    if c.hasTurn t task then some (b.take t (some task) none (taskCalls c task none result) result)
    else none
  | none => none

def reply? (t : TaskId) (reply : Reply) : Option Broadcast :=
  let c := b.coordinator
  match b.tasks.get? t with
  | some task =>
    match task.call? with
    | some call =>
      let result := c.step t task (.reply reply)
      if admits b.log call reply then
        some (b.take t (some task) (some reply) (taskCalls c task (some reply) result) result)
      else none
    | none => none
  | none => none

def step? : Action → Option Broadcast
  | .request q => b.request? q
  | .turn t => b.turn? t
  | .reply t reply => b.reply? t reply

/-- An action that is not possible is without effect. -/
def step (a : Action) : Broadcast := (b.step? a).getD b

def run (actions : List Action) : Broadcast := actions.foldl step b

theorem run_append (actions : List Action) (a : Action) :
    b.run (actions ++ [a]) = (b.run actions).step a :=
  List.foldl_append

end Broadcast

end Rostrum
