import Rostrum.Candidate
import Rostrum.Session
import Rostrum.Table

/-!
# Candidates that wait for their endpoint

Every session has a queue of its own. A queue that has run empty stays until it is removed.
-/

namespace Rostrum

/-- The waiting candidates of all sessions. -/
structure CandidateBuffer where
  queues : Table SessionId (List Candidate) := {}
deriving Repr, Inhabited

namespace CandidateBuffer

/-- The waiting candidates of a session, oldest first. -/
def waiting (b : CandidateBuffer) (s : SessionId) : List Candidate := (b.queues.get? s).getD []

def push (b : CandidateBuffer) (s : SessionId) (c : Candidate) : CandidateBuffer :=
  ⟨b.queues.put s (b.waiting s ++ [c])⟩

/-- Takes out the oldest candidate of a session. -/
def pop (b : CandidateBuffer) (s : SessionId) : Option (Candidate × CandidateBuffer) :=
  match b.waiting s with
  | [] => none
  | c :: rest => some (c, ⟨b.queues.put s rest⟩)

def clear (b : CandidateBuffer) (s : SessionId) : CandidateBuffer := ⟨b.queues.erase s⟩

def count (b : CandidateBuffer) (s : SessionId) : Nat := (b.waiting s).length

def hasQueue (b : CandidateBuffer) (s : SessionId) : Bool := b.queues.contains s

/-- How many sessions have a queue. -/
def sessions (b : CandidateBuffer) : Nat := b.queues.size

end CandidateBuffer

end Rostrum
