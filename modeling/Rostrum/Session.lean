import Rostrum.Json.Record
import Rostrum.Json.Writer

/-!
# Sessions and their roles

A session is one connected client. It either presents, and is mixed into the common picture, or views.
-/

namespace Rostrum

/-- The number of a session. -/
structure SessionId where
  number : Nat
deriving DecidableEq, Repr, Inhabited

namespace SessionId

/-- Session numbers are 64-bit words. -/
def maxNumber : Nat := pow2 64 - 1

def text (s : SessionId) : String := "session:" ++ toString s.number

def toJson (s : SessionId) : Json := .ofNat s.number

/-- Reads a bare number. -/
def ofDocument? : Json.Document → Option SessionId
  | .number (.int n) => if 0 ≤ n ∧ n ≤ maxNumber then some ⟨n.toNat⟩ else none
  | _ => none

def ofText? (text : String) : Option SessionId :=
  (Json.Document.parse text).toOption.bind ofDocument?

end SessionId

/-- What a session does in the broadcast. -/
inductive Role where
  | presenter
  | viewer
deriving DecidableEq, Repr, Inhabited

namespace Role

def text : Role → String
  | .presenter => "presenter"
  | .viewer => "viewer"

def ofName? (name : String) : Option Role :=
  if name = Role.presenter.text then some .presenter
  else if name = Role.viewer.text then some .viewer
  else none

def toJson (r : Role) : Json := .string r.text

/-- A role is its name, or an object with its name as the only member and no content. -/
def ofDocument? (d : Json.Document) : Option Role := d.choice?.bind ofName?

def ofText? (text : String) : Option Role :=
  (Json.Document.parse text).toOption.bind ofDocument?

end Role

/--
Gives out session numbers, one after the other. The counter is a word of 64 bits in a machine; it does not
overflow with fewer than 2 ^ 64 sessions.
-/
structure SessionCounter where
  next : Nat := 1
deriving Repr

namespace SessionCounter

def take (c : SessionCounter) : SessionId × SessionCounter := (⟨c.next⟩, ⟨c.next + 1⟩)

/-- The next numbers, in order. -/
def takeMany (c : SessionCounter) : (count : Nat) → List SessionId
  | 0 => []
  | count + 1 => c.take.1 :: c.take.2.takeMany count

end SessionCounter

end Rostrum
