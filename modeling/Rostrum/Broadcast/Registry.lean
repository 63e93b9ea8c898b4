import Rostrum.Broadcast.CandidateBuffer
import Rostrum.Broadcast.Fault
import Rostrum.Engine.Call

/-!
# The registry of sessions

The registry holds an entry for every session that negotiates or takes part: its role, the media
objects made for it, and how far it has come. Presenters and viewers stand in tables of their own; a
session is in at most one of them.

Every negotiation has an attempt number. A session that was stopped during its negotiation may begin
again at once. Its old entry then moves to the table of superseded entries, where the old negotiation
finds it by its attempt number when it comes to take down what it has built.
-/

namespace Rostrum

structure Attempt where
  number : Nat
deriving DecidableEq, Repr, Inhabited

inductive Phase where
  /-- The negotiation is under way. -/
  | pending
  | ready
deriving DecidableEq, Repr

/-- What the registry knows of a negotiation or a session that takes part. -/
structure Entry where
  attempt : Attempt
  role : Role
  phase : Phase := .pending
  /-- A stop came during the negotiation. -/
  stopped : Bool := false
  endpoint : Option Endpoint := none
  port : Option MixerPort := none
  /-- The waiting candidates were all applied; new ones go straight to the endpoint. -/
  endpointReady : Bool := false
deriving DecidableEq, Repr

/-- All entries and the waiting candidates. -/
structure Registry where
  presenters : Table SessionId Entry := {}
  viewers : Table SessionId Entry := {}
  superseded : Table Attempt Entry := {}
  buffer : CandidateBuffer := {}
  /--
  How many attempts there were. The counter is a word of 64 bits in a machine; it does not overflow with
  fewer than 2 ^ 64 attempts.
  -/
  lastAttempt : Nat := 0
deriving Repr, Inhabited

/-- Where a candidate of a client goes. -/
inductive Destination where
  | apply (endpoint : Endpoint) (candidate : Candidate)
  | buffered
deriving Repr

/-- What is left to do for a stop. -/
inductive StopAction where
  /-- The negotiation is under way and takes itself down. -/
  | marked
  /-- The entry was removed; its objects have to be released. -/
  | teardown (entry : Entry)
  | nothing
deriving Repr

namespace Registry

variable (r : Registry) (s : SessionId) (a : Attempt)

/-- The current entry of a session. -/
def entry? : Option Entry := (r.presenters.get? s).or (r.viewers.get? s)

/-- Whether this attempt is the current one of the session. -/
def isCurrent : Bool := (r.entry? s).any fun e => e.attempt = a

/-- The entry of an attempt, current or superseded. -/
def attempt? : Option Entry := if r.isCurrent s a then r.entry? s else r.superseded.get? a

/-- The entry of an attempt, if its session was not stopped. -/
def running? : Option Entry := (r.attempt? s a).filter fun e => !e.stopped

def modifyEntry (f : Entry → Entry) : Registry :=
  if r.presenters.contains s then { r with presenters := r.presenters.modify s f }
  else { r with viewers := r.viewers.modify s f }

def modifyAttempt (f : Entry → Entry) : Registry :=
  if r.isCurrent s a then r.modifyEntry s f else { r with superseded := r.superseded.modify a f }

/-- Removes the current entry of a session, and leaves its waiting candidates. -/
def dropEntry : Registry :=
  if r.presenters.contains s then { r with presenters := r.presenters.erase s }
  else { r with viewers := r.viewers.erase s }

def clearBuffer : Registry := { r with buffer := r.buffer.clear s }

/-- Moves a stopped current entry out of the way of a new negotiation. -/
def supersede (old : Entry) : Registry :=
  let r := r.dropEntry s
  { r with superseded := r.superseded.put old.attempt old }

/-- Adds the entry of a new negotiation under the next attempt number. -/
def addAttempt (role : Role) : Attempt × Registry :=
  let a : Attempt := ⟨r.lastAttempt + 1⟩
  let entry : Entry := { attempt := a, role := role }
  let r := { r with lastAttempt := r.lastAttempt + 1 }
  (a, match role with
    | .presenter => { r with presenters := r.presenters.put s entry }
    | .viewer => { r with viewers := r.viewers.put s entry })

/-- Enters a session for a negotiation. A session that has a role and was not stopped is refused. -/
def register (role : Role) : Except NegotiationFault (Attempt × Registry) :=
  match r.entry? s with
  | some e =>
    if e.stopped then .ok ((r.supersede s e).addAttempt s role) else .error (.roleTaken e.role)
  | none => .ok (r.addAttempt s role)

/--
Notes something in the entry of an attempt. This happens also when the session was stopped, so that
the teardown finds it; the fault tells the negotiation to give up.
-/
def note (f : Entry → Entry) : Except NegotiationFault Unit × Registry :=
  match r.attempt? s a with
  | some e => (if e.stopped then .error .stopped else .ok (), r.modifyAttempt s a f)
  | none => (.error .stopped, r)

def setEndpoint (endpoint : Endpoint) : Except NegotiationFault Unit × Registry :=
  r.note s a fun e => { e with endpoint := some endpoint }

def setPort (port : MixerPort) : Except NegotiationFault Unit × Registry :=
  r.note s a fun e => { e with port := some port }

/-- Whether a negotiation may go on. -/
def check : Except NegotiationFault Unit :=
  if (r.running? s a).isSome then .ok () else .error .stopped

/--
The next waiting candidate of the session. When none is left, the endpoint becomes ready and the
queue is removed: from then on candidates go straight to the endpoint.
-/
def nextCandidate : Except NegotiationFault (Option Candidate × Registry) :=
  match r.running? s a with
  | none => .error .stopped
  | some _ =>
    match r.buffer.pop s with
    | some (c, buffer) => .ok (some c, { r with buffer := buffer })
    | none =>
      .ok (none, (r.clearBuffer s).modifyAttempt s a fun e => { e with endpointReady := true })

/-- Hands a candidate of the client to its endpoint, or lets it wait. -/
def submit (c : Candidate) : Destination × Registry :=
  match (r.entry? s).filter (fun e => e.endpointReady && !e.stopped) with
  | some { endpoint := some endpoint, .. } => (.apply endpoint c, r)
  | _ => (.buffered, { r with buffer := r.buffer.push s c })

def finish : Except NegotiationFault Registry :=
  if (r.running? s a).isSome then .ok (r.modifyAttempt s a fun e => { e with phase := .ready })
  else .error .stopped

/-- Asks for a session to be taken down. Its waiting candidates are removed in any case. -/
def stop : StopAction × Registry :=
  let r := r.clearBuffer s
  match r.entry? s with
  | some e =>
    match e.phase with
    | .pending => (.marked, r.modifyEntry s fun e => { e with stopped := true })
    | .ready => (.teardown e, r.dropEntry s)
  | none => (.nothing, r)

/--
Removes the entry of an attempt. A superseded entry goes without touching the new negotiation of the
session or its waiting candidates.
-/
def remove : Option Entry × Registry :=
  if r.isCurrent s a then (r.entry? s, (r.clearBuffer s).dropEntry s)
  else (r.superseded.get? a, { r with superseded := r.superseded.erase a })

/-- The role of a session that was not stopped. -/
def activeRole? : Option Role := ((r.entry? s).filter fun e => !e.stopped).map Entry.role

/-- All sessions with an entry. -/
def sessions : List SessionId := r.presenters.keys ++ r.viewers.keys

end Registry

end Rostrum
