import Rostrum.Number.Power

/-!
# Frames

Clients and the server talk in frames over a stream of bytes.
-/

namespace Rostrum

/-- The longest payload of a ping, a pong or a close frame, in bytes. -/
def maxControlPayload : Nat := 125

/-- The longest payload of a text or binary frame that the server reads, in bytes. -/
def maxPayload : Nat := pow2 24

/-- What a client sends. -/
inductive ClientFrame where
  | text (content : String)
  /-- Bytes, of which only the number counts. -/
  | binary (length : Nat)
  /-- A ping whose payload is so many bytes long. -/
  | ping (length : Nat)
  | pong (length : Nat)
  | close
deriving DecidableEq, Repr

/-- Whether a frame is so long that the server does not read it to its end. -/
def ClientFrame.isOversized : ClientFrame → Bool
  | .text content => maxPayload < content.utf8ByteSize
  | .binary length => maxPayload < length
  | _ => false

/-- What the server sends. -/
inductive ServerFrame where
  | text (content : String)
  | ping
  /-- The answer to a ping whose payload is so many bytes long. -/
  | pong (length : Nat)
  | close
deriving DecidableEq, Repr

namespace ServerFrame

/-- The number of bytes of the payload. -/
def payload : ServerFrame → Nat
  | .text content => content.utf8ByteSize
  | .ping | .close => 0
  | .pong length => length

/-- The number of bytes in front of a payload of some length. -/
def headerSize (payload : Nat) : Nat :=
  if payload ≤ 125 then 2 else if payload < 65536 then 4 else 10

/-- The number of bytes of a frame. -/
def size (f : ServerFrame) : Nat := headerSize f.payload + f.payload

end ServerFrame

/-- The number of bytes of some frames. -/
def framesSize (frames : List ServerFrame) : Nat := frames.foldl (fun n f => n + f.size) 0

end Rostrum
