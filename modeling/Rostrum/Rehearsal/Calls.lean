import Rostrum.Engine.Simulated

/-!
# Single calls in rehearsal

Single calls to a simulated engine, each from a caller of its own. An offer may wait at a gate, and a
caller may give up when its time is over; nothing else takes time.
-/

namespace Rostrum

/-- A call that waits at a gate. -/
structure GatedCall (L : Type) where
  /-- Who made the call. -/
  caller : Nat
  call : EngineCall L
  gate : Nat
  deadline : Option Nat
deriving Repr

/-- The state of a rehearsal of single calls. -/
structure CallRehearsal (L : Type) where
  engine : SimulatedEngine L := {}
  waiting : List (GatedCall L) := []
  now : Nat := 0
  /-- How long a call may take, in milliseconds. -/
  timeLimit : Option Nat := none

/-- A call that ended: its caller, its operation and the reply. -/
structure EndedCall where
  caller : Nat
  operation : Operation
  reply : Reply

namespace CallRehearsal

variable {L : Type}

def lateReply (r : CallRehearsal L) (call : EngineCall L) : Reply :=
  .error (.timedOut call.operation.name (r.timeLimit.getD 0))

/-- Makes a call. A limit of zero leaves no call the time to be carried out; an offer reaches its gate. -/
def call (r : CallRehearsal L) (caller : Nat) (call : EngineCall L) :
    List EndedCall × CallRehearsal L :=
  if r.timeLimit = some 0 then
    ([⟨caller, call.operation, r.lateReply call⟩], { r with engine := r.engine.touchGate call })
  else match r.engine.arrive call with
    | (.replied reply, engine) =>
      ([⟨caller, call.operation, reply⟩], { r with engine := engine })
    | (.waits gate, engine) =>
      let gated : GatedCall L := ⟨caller, call, gate, r.timeLimit.map (r.now + ·)⟩
      ([], { r with engine := engine, waiting := r.waiting ++ [gated] })

/-- Opens a gate; the calls that wait there are carried out in the order in which they came. -/
def openGate (r : CallRehearsal L) (gate : Nat) : List EndedCall × CallRehearsal L :=
  let (through, waiting) := r.waiting.partition fun g => g.gate = gate
  let r := { r with engine := r.engine.openGate gate, waiting := waiting }
  through.foldl (fun (ended, r) g =>
    let (reply, engine) := r.engine.run g.call
    (ended ++ [⟨g.caller, g.call.operation, reply⟩], { r with engine := engine })) ([], r)

/-- Lets time pass; callers whose time is up get a fault, and their calls are gone. -/
def advance (r : CallRehearsal L) (millis : Nat) : List EndedCall × CallRehearsal L :=
  let r := { r with now := r.now + millis }
  let (late, waiting) := r.waiting.partition fun g => g.deadline.any (· ≤ r.now)
  (late.map fun g => ⟨g.caller, g.call.operation, r.lateReply g.call⟩,
    { r with waiting := waiting })

end CallRehearsal

end Rostrum
