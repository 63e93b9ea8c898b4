import Rostrum.Server.CommandLine

/-!
# The program

It loads the configuration, sets up the log and starts the server. Only here the program touches the
world. It has no way to reach a media engine of its own, so a start ends where the engine is wanted.
-/

namespace Rostrum.CommandLine

/-- What stands at a path, and what there is to say if it is no configuration. -/
def sourceAt (path : String) : IO (Configuration.Source × String) := do
  try
    let bytes ← IO.FS.readBinFile path
    return match String.fromUTF8? bytes with
      | some text => (.text text, "TOML parse error")
      | none => (.unreadable, "stream did not contain valid UTF-8")
  catch
    | .noFileOrDirectory .. => return (.missing, "")
    | e => return (.unreadable, toString e)

/-- The invocation this process was given by its environment. -/
def invocation : IO Invocation := do
  let path := (← IO.getEnv configurationVariable).getD defaultConfiguration
  let (source, cause) ← sourceAt path
  return {
    path := path
    source := source
    cause := cause
    envLevel := ← IO.getEnv Log.levelVariable
    envFormat := ← IO.getEnv Log.formatVariable }

/-- Writes what a run has shown. -/
def report (r : Run) : IO UInt32 := do
  for line in r.logged do
    IO.println line
  for complaint in r.complaint? do
    IO.eprintln complaint
  return r.exitCode

end Rostrum.CommandLine

open Rostrum.CommandLine in
def main : IO UInt32 := do report (run (← invocation))
