import Rostrum.Http
import Rostrum.Number.Digits
import Rostrum.Number.Power

/-!
# Addresses of web sockets

The address of a server that is reached over a web socket: `ws://`, perhaps the name of a user, a host
and a port, and what is asked for there.
-/

namespace Rostrum

structure WebAddress where
  host : String
  port : Nat
deriving DecidableEq, Repr

namespace WebAddress

def defaultPort : Nat := 80

/-- What stands behind the last sign in front of a host, or all if there is none. -/
def withoutUser (authority : List Char) : List Char :=
  (authority.reverse.takeWhile fun c => c ≠ '@').reverse

/-- A port, which may be left out. -/
def port? : List Char → Option Nat
  | [] => some defaultPort
  | [':'] => some defaultPort
  | ':' :: digits =>
    let port := numberOf 10 digits
    if digits.all Char.isDigit && port < pow2 16 then some port else none
  | _ => none

/-- Reads an address. A host in brackets is not among those that can be reached. -/
def ofText? (text : String) : Option WebAddress :=
  match text.toList with
  | 'w' :: 's' :: ':' :: '/' :: '/' :: cs => do
    let authority := RequestTarget.nameOf cs
    guard (authority.all RequestTarget.isNameChar)
    let asked := RequestTarget.behindHost cs
    guard (RequestTarget.isSoundPath asked && asked.head? ≠ some '?')
    let name := withoutUser authority
    let host := name.takeWhile fun c => c ≠ ':'
    guard !host.isEmpty
    return ⟨String.ofList host, ← port? (name.drop host.length)⟩
  | _ => none

/-- The names of the machine itself. -/
def ownNames : List String := ["localhost", "127.0.0.1", "0.0.0.0"]

/-- Whether an address leads to the machine itself. -/
def isOwn (a : WebAddress) : Bool :=
  ownNames.contains (String.ofList (a.host.toList.map Char.toLower))

end WebAddress

end Rostrum
