import Rostrum.Server.Start
import Rostrum.Text.Lines

/-!
# The command line

The server takes no arguments. Its configuration is a file that an environment variable names; two
more variables override how it logs.
-/

namespace Rostrum.CommandLine

/-- The environment variable that names the configuration. -/
def configurationVariable : String := "MIXCAST_CONFIG"

def defaultConfiguration : String := "config.toml"

/-- What a run depends on. -/
structure Invocation where
  /-- Where the configuration should be. -/
  path : String := defaultConfiguration
  source : Configuration.Source
  /-- What is said of a configuration that cannot be read. -/
  cause : String := ""
  envLevel : Option String := none
  envFormat : Option String := none
  around : Surroundings := {}

/-- A line of the log. -/
inductive Line where
  | initialising
  | starting
deriving DecidableEq, Repr

/-- The part of the server that writes these lines. -/
def logTarget : String := "mixcast_server"

namespace Line

def text : Line → String
  | .initialising => "Mixcast Server wird initialisiert"
  | .starting => "Server startet"

/-- The names of what a line tells. -/
def fields : Line → List String
  | .initialising => ["message", "version", "config"]
  | .starting => ["message", "server_name", "adresse", "pfad", "media"]

def event (l : Line) : Log.Event := { target := logTarget, level := .info, fields := l.fields }

/-- A line of the log as it is written. -/
def written (l : Line) : Log.Format → String
  | .text => "INFO " ++ logTarget ++ ": " ++ l.text
  | .json =>
    Json.orderedText [("level", .string "INFO"),
      ("fields", Json.mkObject [("message", .string l.text)]), ("target", .string logTarget)]

end Line

/-- How a run ended at once. -/
inductive Ending where
  /-- It failed and said why. -/
  | failed (reason : String)
  /-- It broke off while the log was set up. -/
  | brokeOff
deriving DecidableEq, Repr

/-- What a run that ends at once has shown. -/
structure Run where
  /-- The format of the log, once it is set up. -/
  setup : Option Log.Setup := none
  lines : List Line := []
  /-- How the run ended, if it did. -/
  ending : Option Ending := none

namespace Run

/-- The lines the log shows. -/
def shown (r : Run) : List Line :=
  match r.setup with
  | some setup => r.lines.filter fun line => setup.filter.admits line.event
  | none => []

/-- The lines the log shows, as they are written. -/
def logged (r : Run) : List String :=
  match r.setup with
  | some setup => r.shown.map fun line => line.written setup.format
  | none => []

/-- The last words of a run that failed. -/
def complaint? (r : Run) : Option String :=
  match r.ending with
  | some (.failed reason) => some ("Error: " ++ reason)
  | _ => none

/-- The first line of the last words. -/
def headline? (r : Run) : Option String := r.complaint?.map Text.firstLine

def exitCode (r : Run) : UInt32 :=
  match r.ending with
  | some (.failed _) => 1
  | some .brokeOff => 101
  | none => 0

end Run

/-- Sets up the log and starts a server as it is configured. -/
def launch (i : Invocation) (c : Configuration) : Run :=
  match Log.Setup.of? i.envLevel i.envFormat c.logging.level c.logging.format with
  | none => { ending := some .brokeOff }
  | some setup =>
    match c.signalingSocket with
    | .error fault =>
      { setup := some setup, lines := [.initialising], ending := some (.failed fault.message) }
    | .ok _ =>
      let ending := match c.start i.around with
        | .error fault => some (.failed fault.message)
        | .ok _ => none
      { setup := some setup, lines := [.initialising, .starting], ending := ending }

/-- Loads the configuration, sets up the log and starts the server. -/
def run (i : Invocation) : Run :=
  match Configuration.load i.source with
  | .error fault => { ending := some (.failed (fault.toServerFault i.path i.cause).message) }
  | .ok c => launch i c

end Rostrum.CommandLine
