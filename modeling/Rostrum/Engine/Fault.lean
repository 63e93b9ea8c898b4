/-!
# Faults of the media engine

Why a call to the media engine did not succeed. `EngineFault.message` is the wording that clients see.
-/

namespace Rostrum

/-- Why a call to the media engine failed. -/
inductive EngineFault where
  /-- There is no connection to the engine, or it was lost. -/
  | unreachable (cause : String)
  | timedOut (operation : String) (millis : Nat)
  /-- The engine answered the call with an error of its own. -/
  | refused (code : Int) (reason : String)
  | badAnswer (detail : String)
  | unknownObject (id : String)
deriving DecidableEq, Repr

def EngineFault.message : EngineFault → String
  | .unreachable cause => "Media server unreachable: " ++ cause
  | .timedOut operation millis =>
    "Media server call '" ++ operation ++ "' timed out after " ++ toString millis ++ " ms"
  | .refused code reason => "Media server error " ++ toString code ++ ": " ++ reason
  | .badAnswer detail => "Invalid media server response: " ++ detail
  | .unknownObject id => "Unknown media object: " ++ id

end Rostrum
