import Rostrum.Message.Server
import Rostrum.Number.Power
import Rostrum.Session
import Rostrum.Table

/-!
# Outbound queues

Every connected client has a bounded queue of messages. A client whose queue is full when a message
comes is deregistered: it still reads what is queued and then sees the end of the queue.
-/

namespace Rostrum

/-- The number of a queue. Registering a session again gives it a new queue. -/
structure QueueId where
  number : Nat
deriving DecidableEq, Repr, Inhabited

/-- The reading side of a queue. -/
structure Mailbox where
  /-- Messages that were sent and not read yet, oldest first. -/
  messages : List ServerMessage := []
  /-- Whether the reader is still there. -/
  isOpen : Bool := true
deriving Repr

/-- What a reader finds. -/
inductive Received where
  | message (m : ServerMessage)
  | empty
  /-- Nothing is left, and nobody can send any more. -/
  | closed
deriving Repr

/-- The queues of all clients. -/
structure Outbound where
  /-- How many messages a queue holds. -/
  capacity : Nat
  clients : Table SessionId QueueId := {}
  boxes : Table QueueId Mailbox := {}
  /-- The number of the next queue. -/
  nextQueue : Nat := 0
deriving Repr

namespace Outbound

/-- No queue can be made for more messages than that. -/
def maxCapacity : Nat := pow2 61 - 1

/-- No clients. A queue holds at least one message. -/
def ofSize (size : Nat) : Outbound := { capacity := max 1 size }

/-- Registers a client with a new queue; an old one gets no more messages. -/
def register (o : Outbound) (s : SessionId) : QueueId × Outbound :=
  let q : QueueId := ⟨o.nextQueue⟩
  (q, { o with
    clients := o.clients.put s q, boxes := o.boxes.put q {}, nextQueue := o.nextQueue + 1 })

def remove (o : Outbound) (s : SessionId) : Outbound := { o with clients := o.clients.erase s }

/-- Sends a message to a session; answers whether it was queued. -/
def send (o : Outbound) (s : SessionId) (m : ServerMessage) : Bool × Outbound :=
  match o.clients.get? s with
  | none => (false, o)
  | some q =>
    match o.boxes.get? q with
    | none => (false, o)
    | some box =>
      if !box.isOpen then (false, o)
      else if o.capacity ≤ box.messages.length then (false, o.remove s)
      else (true, { o with boxes := o.boxes.put q { box with messages := box.messages ++ [m] } })

/-- Whether anybody can send to a queue. -/
def hasSender (o : Outbound) (q : QueueId) : Bool := o.clients.values.contains q

/-- Reads the next message of a queue; `none` when its reader is gone. -/
def receive (o : Outbound) (q : QueueId) : Option (Received × Outbound) :=
  match o.boxes.get? q with
  | none => none
  | some box =>
    if !box.isOpen then none
    else match box.messages with
      | m :: rest => some (.message m, { o with boxes := o.boxes.put q { box with messages := rest } })
      | [] => some (if o.hasSender q then .empty else .closed, o)

/-- Drops the reader of a queue, and what it holds; answers whether there was one. -/
def close (o : Outbound) (q : QueueId) : Outbound :=
  { o with boxes := o.boxes.modify q fun _ => { messages := [], isOpen := false } }

/-- Reads all messages of a queue. -/
def drain (o : Outbound) (q : QueueId) : List ServerMessage × Outbound :=
  match o.boxes.get? q with
  | none => ([], o)
  | some box => (box.messages, { o with boxes := o.boxes.put q { box with messages := [] } })

def isRegistered (o : Outbound) (s : SessionId) : Bool := o.clients.contains s

end Outbound

end Rostrum
