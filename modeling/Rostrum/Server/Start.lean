import Rostrum.Configuration.Reading
import Rostrum.Route
import Rostrum.SocketAddress
import Rostrum.WebAddress

/-!
# Starting the server

A server that starts looks at its addresses, connects to the media engine and listens. Each of these
steps may end the start.
-/

namespace Rostrum

/-- Why a server did not start, or stopped before it was told to. -/
inductive StartFault where
  | signalingAddress
  | engineUnreachable
  | observabilityAddress
  /-- Clients cannot be served at the configured path. -/
  | signalingBroken
  /-- The port for clients cannot be had. -/
  | signalingFailed
deriving DecidableEq, Repr

def StartFault.message : StartFault → String
  | .signalingAddress => "Ungueltige Signaling-Bind-Adresse"
  | .engineUnreachable => "Media-Engine nicht erreichbar"
  | .observabilityAddress => "Ungueltige Observability-Bind-Adresse"
  | .signalingBroken => "Signaling-Task abgebrochen"
  | .signalingFailed => "Signaling-Server fehlgeschlagen"

/-- What a server finds on its machine when it starts. -/
structure Surroundings where
  /-- The port at which a media engine listens, if one does. -/
  engine : Option Nat := none
  /-- The ports at which others listen. -/
  taken : List Nat := []
deriving Repr

namespace Surroundings

/-- Whether a media engine answers at an address. -/
def hasEngineAt (around : Surroundings) (uri : String) : Bool :=
  match WebAddress.ofText? uri, around.engine with
  | some address, some port => address.isOwn && address.port = port
  | _, _ => false

/-- Whether one can listen at an address. Any port is free that is asked for as zero. -/
def canListen (around : Surroundings) (a : SocketAddress) : Bool :=
  a.host.isOwn && (a.port = 0 || !(around.taken ++ around.engine.toList).contains a.port)

/-- The surroundings once somebody listens at an address. -/
def withListener (around : Surroundings) (a : SocketAddress) : Surroundings :=
  if a.port = 0 then around else { around with taken := a.port :: around.taken }

end Surroundings

/-- A server that has started. -/
structure Launched where
  signaling : SocketAddress
  /-- Where metrics and health are shown. -/
  observability : Option SocketAddress
deriving DecidableEq, Repr

namespace Configuration

/-- Where a configured server is to listen for clients. -/
def signalingSocket (c : Configuration) : Except StartFault SocketAddress :=
  match SocketAddress.ofText? c.signalingAddress with
  | some a => .ok a
  | none => .error .signalingAddress

/-- Where a configured server is to show metrics and health, if it is to. -/
def observabilitySocket (c : Configuration) : Except StartFault (Option SocketAddress) :=
  if c.observability.enabled then
    match SocketAddress.ofText? c.observabilityAddress with
    | some a => .ok (some a)
    | none => .error .observabilityAddress
  else .ok none

/--
Starts a server. It listens for those who ask for metrics and health first; that it cannot does not
keep it from running.
-/
def start (c : Configuration) (around : Surroundings) : Except StartFault Launched := do
  let signaling ← c.signalingSocket
  if !around.hasEngineAt c.media.uri || c.media.connectMillis = 0 then throw .engineUnreachable
  let observability := (← c.observabilitySocket).filter around.canListen
  let around := observability.elim around around.withListener
  if !around.canListen signaling then throw .signalingFailed
  if (Route.ofText? c.network.path).isNone then throw .signalingBroken
  return ⟨signaling, observability⟩

end Configuration

end Rostrum
