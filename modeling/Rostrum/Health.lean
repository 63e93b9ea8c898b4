import Rostrum.Http
import Rostrum.Json.Record
import Rostrum.Json.Writer

/-!
# Health

The server tells whether it can serve anybody, which it cannot without its media engine.
-/

namespace Rostrum

inductive HealthStatus where
  | healthy
  | degraded
  | unhealthy
deriving DecidableEq, Repr

namespace HealthStatus

def text : HealthStatus → String
  | .healthy => "healthy"
  | .degraded => "degraded"
  | .unhealthy => "unhealthy"

def all : List HealthStatus := [.healthy, .degraded, .unhealthy]

def ofName? (name : String) : Option HealthStatus := all.find? fun s => s.text = name

/-- The HTTP status a health status goes with. -/
def httpStatus : HealthStatus → Nat
  | .healthy | .degraded => 200
  | .unhealthy => 503

end HealthStatus

/-- What the server says about its health. -/
structure HealthReport where
  status : HealthStatus
  version : String
  uptimeSeconds : Nat
  engineConnected : Bool
deriving DecidableEq, Repr

namespace HealthReport

/-- The version of the server. -/
def serverVersion : String := "0.1.0"

/-- The report of a server that runs for some time and may have lost its engine. -/
def ofEngine (connected : Bool) (uptimeSeconds : Nat) : HealthReport :=
  { status := if connected then .healthy else .unhealthy
    version := serverVersion
    uptimeSeconds := uptimeSeconds
    engineConnected := connected }

def memberNames : List String := ["status", "version", "uptime_seconds", "engine_connected"]

def members (r : HealthReport) : List (String × Json) :=
  memberNames.zip [.string r.status.text, .string r.version, .ofNat r.uptimeSeconds,
    .bool r.engineConnected]

def text (r : HealthReport) : String := Json.orderedText r.members

/-- The longest time a report can give, in seconds. -/
def maxUptime : Int := (pow2 64 : Int) - 1

open Json.Document in
def ofDocument? (d : Json.Document) : Option HealthReport := do
  let members ← d.record? memberNames
  let status ← (← (← member? members "status").choice?) |> HealthStatus.ofName?
  let version ← (← member? members "version").string?
  let uptime ← (← member? members "uptime_seconds").integer? 0 maxUptime
  let connected ← (← member? members "engine_connected").bool?
  return ⟨status, version, uptime.toNat, connected⟩

def ofText? (text : String) : Option HealthReport :=
  (Json.Document.parseLoosely text).toOption.bind ofDocument?

def path : String := "/health"

/-- The answer to whoever asks for the health. -/
def reply (r : HealthReport) : HttpReply :=
  { status := r.status.httpStatus, contentType := "application/json", body := r.text }

end HealthReport

end Rostrum
