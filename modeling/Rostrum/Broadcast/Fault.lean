import Rostrum.Engine.Fault
import Rostrum.Session

/-!
# Why a negotiation fails
-/

namespace Rostrum

/-- Why a session does not get the role it asked for. -/
inductive NegotiationFault where
  /-- A viewer came while nothing was presented. -/
  | noPresenter
  | engine (fault : EngineFault)
  /-- The session has this role already. -/
  | roleTaken (held : Role)
  /-- The session was stopped meanwhile. -/
  | stopped
  /-- The shared mix was released meanwhile. -/
  | mixReleased
deriving DecidableEq, Repr

namespace NegotiationFault

def message : NegotiationFault → String
  | .noPresenter => "No active presenter. Try again later..."
  | .engine fault => fault.message
  | .roleTaken held => "Session is already registered as " ++ held.text
  | .stopped => "Session was stopped"
  | .mixReleased => "Mixer was released. Try again later..."

/-- Whether the client is told. A stopped session gets no more answers. -/
def isReported (f : NegotiationFault) : Bool := f ≠ .stopped

end NegotiationFault

end Rostrum
