import Rostrum.Broadcast.Hub
import Rostrum.Log.Setup

/-!
# The configuration of the server

Every value has a default, so a server runs without being configured. `Configuration.check` finds the
values that no server can run with.
-/

namespace Rostrum

structure ServerSection where
  name : String := "Mixcast Server"
  /-- How many clients may be connected at a time. -/
  maxSessions : Nat := 512
deriving DecidableEq, Repr

/-- Where clients connect to. -/
structure NetworkSection where
  host : String := "0.0.0.0"
  port : Nat := 8080
  path : String := "/one2many"
deriving DecidableEq, Repr

/-- How the media engine is reached. -/
structure MediaSection where
  uri : String := "ws://localhost:8888/kurento"
  callMillis : Nat := 10000
  connectMillis : Nat := 5000
  /-- The seconds between two pings; no pings at zero. -/
  pingSeconds : Nat := 240
deriving DecidableEq, Repr

/-- How connections of clients are kept. -/
structure SignalingSection where
  keepaliveSeconds : Nat := 30
  timeoutSeconds : Nat := 90
  queueSize : Nat := 64
  maxMessage : Nat := ClientMessage.defaultLimit
deriving DecidableEq, Repr

structure LoggingSection where
  level : String := "info"
  format : String := "text"
deriving DecidableEq, Repr

/-- Whether and where metrics and health are shown. -/
structure ObservabilitySection where
  enabled : Bool := true
  port : Nat := 9300
deriving DecidableEq, Repr

/-- All that can be configured. -/
structure Configuration where
  server : ServerSection := {}
  network : NetworkSection := {}
  media : MediaSection := {}
  signaling : SignalingSection := {}
  logging : LoggingSection := {}
  observability : ObservabilitySection := {}
deriving DecidableEq, Repr

/-- Why there is no configuration to run with. -/
inductive ConfigurationFault where
  /-- The file is there and cannot be read. -/
  | unreadable
  /-- The text is no configuration. -/
  | malformed
  | relativePath (path : String)
  | noSessions
  | noCallTime
  | unknownFormat (format : String)
deriving DecidableEq, Repr

/--
The wording of a fault in the configuration at a path. What is said of a file that cannot be read, or of a
text that is no configuration, is not made here: it is given as the cause.
-/
def ConfigurationFault.message (path cause : String) : ConfigurationFault → String
  | .unreadable => "Konfigurationsdatei '" ++ path ++ "' nicht lesbar: " ++ cause
  | .malformed => "'" ++ path ++ "': " ++ cause
  | .relativePath path => "netzwerk.pfad muss mit '/' beginnen: '" ++ path ++ "'"
  | .noSessions => "server.max_sessions muss groesser als 0 sein"
  | .noCallTime => "media.aufruf_timeout_ms muss groesser als 0 sein"
  | .unknownFormat format => "logging.format muss 'text' oder 'json' sein: '" ++ format ++ "'"

/-- A fault of the server as a whole, with its cause. -/
inductive ServerFault where
  | configuration (cause : String)
  | io (cause : String)
deriving DecidableEq, Repr

def ServerFault.message : ServerFault → String
  | .configuration cause => "Konfigurationsfehler: " ++ cause
  | .io cause => "IO-Fehler: " ++ cause

def ConfigurationFault.toServerFault (f : ConfigurationFault) (path cause : String) : ServerFault :=
  .configuration (f.message path cause)

namespace Configuration

/-- Finds the first value that no server can run with. -/
def check (c : Configuration) : Except ConfigurationFault Unit :=
  if !c.network.path.startsWith "/" then .error (.relativePath c.network.path)
  else if c.server.maxSessions = 0 then .error .noSessions
  else if c.media.callMillis = 0 then .error .noCallTime
  else if (Log.Format.ofName? c.logging.format).isNone then .error (.unknownFormat c.logging.format)
  else .ok ()

/-- Where clients connect to, as text. -/
def signalingAddress (c : Configuration) : String :=
  c.network.host ++ ":" ++ toString c.network.port

/-- Where metrics and health are shown, as text. -/
def observabilityAddress (c : Configuration) : String :=
  c.network.host ++ ":" ++ toString c.observability.port

/-- The settings of the hub. -/
def settings (c : Configuration) : Settings :=
  { path := c.network.path
    maxSessions := c.server.maxSessions
    keepaliveSeconds := c.signaling.keepaliveSeconds
    timeoutSeconds := c.signaling.timeoutSeconds
    queueSize := c.signaling.queueSize
    maxMessage := c.signaling.maxMessage }

/-- The values of a configuration, section by section, under the names they are configured by. -/
def toJson (c : Configuration) : Json :=
  let (server, network, media) := (c.server, c.network, c.media)
  let (signaling, logging, observability) := (c.signaling, c.logging, c.observability)
  let listed (name : String) (members : List (String × Json)) := (name, Json.mkObject members)
  Json.mkObject [
    listed "server" [("name", .string server.name), ("max_sessions", .ofNat server.maxSessions)],
    listed "netzwerk" [("bind_adresse", .string network.host), ("port", .ofNat network.port),
      ("pfad", .string network.path)],
    listed "media" [("ws_uri", .string media.uri), ("aufruf_timeout_ms", .ofNat media.callMillis),
      ("verbindungs_timeout_ms", .ofNat media.connectMillis),
      ("ping_intervall_sek", .ofNat media.pingSeconds)],
    listed "signaling" [("keepalive_sek", .ofNat signaling.keepaliveSeconds),
      ("verbindungs_timeout_sek", .ofNat signaling.timeoutSeconds),
      ("sende_queue", .ofNat signaling.queueSize),
      ("max_nachricht_groesse", .ofNat signaling.maxMessage)],
    listed "logging" [("level", .string logging.level), ("format", .string logging.format)],
    listed "observability" [("aktiviert", .bool observability.enabled),
      ("port", .ofNat observability.port)]]

end Configuration

/-- The settings of the hub, under the names they are configured by. -/
def Settings.toJson (s : Settings) : Json :=
  Json.mkObject [("pfad", .string s.path), ("max_sessions", .ofNat s.maxSessions),
    ("keepalive_sek", .ofNat s.keepaliveSeconds), ("verbindungs_timeout_sek", .ofNat s.timeoutSeconds),
    ("sende_queue", .ofNat s.queueSize), ("max_nachricht_groesse", .ofNat s.maxMessage)]

end Rostrum
