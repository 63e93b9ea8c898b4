import Rostrum.Configuration.Basic
import Rostrum.Toml.Reader

/-!
# Reading the configuration

A configuration is read off the tables of a TOML document. What is not there keeps its default, names
nobody knows are passed over, and a value of the wrong type makes the whole document unusable.
-/

namespace Rostrum.Configuration

open Toml (Members Value)

/--
The values of a section by their names. A section may also be an array of its values in the order of
the names; a date has no value of any name.
-/
def sectionValues? (names : List String) : Value → Option Members
  | .table _ members => some members
  | .array items => some (names.zip items)
  | .tables items => some (names.zip (items.map (Value.table .header)))
  | .dateTime => some []
  | _ => none

/-- Reads the value of a name; without one the default counts. -/
def valueOr (default : α) (read : Value → Option α) (members : Members) (name : String) : Option α :=
  match members.get? name with
  | none => some default
  | some v => read v

def string? : Value → Option String
  | .string s => some s
  | _ => none

def bool? : Value → Option Bool
  | .boolean b => some b
  | _ => none

/-- A count or a duration; these are 64-bit words, of which a document can give those without sign. -/
def count? : Value → Option Nat
  | .integer n => if 0 ≤ n then some n.toNat else none
  | _ => none

def maxPort : Int := 65535

def port? : Value → Option Nat
  | .integer n => if 0 ≤ n ∧ n ≤ maxPort then some n.toNat else none
  | _ => none

def server? (d : ServerSection) (v : Value) : Option ServerSection := do
  let ms ← sectionValues? ["name", "max_sessions"] v
  return {
    name := ← valueOr d.name string? ms "name"
    maxSessions := ← valueOr d.maxSessions count? ms "max_sessions" }

def network? (d : NetworkSection) (v : Value) : Option NetworkSection := do
  let ms ← sectionValues? ["bind_adresse", "port", "pfad"] v
  return {
    host := ← valueOr d.host string? ms "bind_adresse"
    port := ← valueOr d.port port? ms "port"
    path := ← valueOr d.path string? ms "pfad" }

def media? (d : MediaSection) (v : Value) : Option MediaSection := do
  let ms ← sectionValues?
    ["ws_uri", "aufruf_timeout_ms", "verbindungs_timeout_ms", "ping_intervall_sek"] v
  return {
    uri := ← valueOr d.uri string? ms "ws_uri"
    callMillis := ← valueOr d.callMillis count? ms "aufruf_timeout_ms"
    connectMillis := ← valueOr d.connectMillis count? ms "verbindungs_timeout_ms"
    pingSeconds := ← valueOr d.pingSeconds count? ms "ping_intervall_sek" }

def signaling? (d : SignalingSection) (v : Value) : Option SignalingSection := do
  let ms ← sectionValues?
    ["keepalive_sek", "verbindungs_timeout_sek", "sende_queue", "max_nachricht_groesse"] v
  return {
    keepaliveSeconds := ← valueOr d.keepaliveSeconds count? ms "keepalive_sek"
    timeoutSeconds := ← valueOr d.timeoutSeconds count? ms "verbindungs_timeout_sek"
    queueSize := ← valueOr d.queueSize count? ms "sende_queue"
    maxMessage := ← valueOr d.maxMessage count? ms "max_nachricht_groesse" }

def logging? (d : LoggingSection) (v : Value) : Option LoggingSection := do
  let ms ← sectionValues? ["level", "format"] v
  return {
    level := ← valueOr d.level string? ms "level"
    format := ← valueOr d.format string? ms "format" }

def observability? (d : ObservabilitySection) (v : Value) : Option ObservabilitySection := do
  let ms ← sectionValues? ["aktiviert", "port"] v
  return {
    enabled := ← valueOr d.enabled bool? ms "aktiviert"
    port := ← valueOr d.port port? ms "port" }

/-- Reads a configuration off the tables of a document. -/
def ofMembers? (ms : Members) : Option Configuration := do
  let d : Configuration := {}
  return {
    server := ← valueOr d.server (server? d.server) ms "server"
    network := ← valueOr d.network (network? d.network) ms "netzwerk"
    media := ← valueOr d.media (media? d.media) ms "media"
    signaling := ← valueOr d.signaling (signaling? d.signaling) ms "signaling"
    logging := ← valueOr d.logging (logging? d.logging) ms "logging"
    observability := ← valueOr d.observability (observability? d.observability) ms "observability" }

def ofText? (text : String) : Option Configuration := (Toml.parse? text).bind ofMembers?

/-- What is found where the configuration should be. -/
inductive Source where
  | missing
  | unreadable
  | text (text : String)
deriving Repr

/-- Loads and checks a configuration; without a file the defaults count. -/
def load : Source → Except ConfigurationFault Configuration
  | .missing => do
    let c : Configuration := {}
    c.check
    return c
  | .unreadable => .error .unreadable
  | .text text =>
    match ofText? text with
    | none => .error .malformed
    | some c => do
      c.check
      return c

end Rostrum.Configuration
