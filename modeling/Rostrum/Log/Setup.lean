import Rostrum.Log.Filter

/-!
# Setting up the log

The filter and the format of the log are configured, and the environment may override both.
-/

namespace Rostrum.Log

inductive Format where
  | text
  | json
deriving DecidableEq, Repr

namespace Format

def name : Format → String
  | .text => "text"
  | .json => "json"

def ofName? (name : String) : Option Format :=
  if name = Format.text.name then some .text
  else if name = Format.json.name then some .json
  else none

end Format

/-- The environment variable that overrides the filter. -/
def levelVariable : String := "MIXCAST_LOG_LEVEL"

/-- The environment variable that overrides the format. -/
def formatVariable : String := "MIXCAST_LOG_FORMAT"

/-- How the log is written. -/
structure Setup where
  filter : Filter
  format : Format
deriving Repr

/--
The log as configured and overridden. A malformed filter is passed over, that of the environment in
favour of the configured one and that in favour of `Filter.info`; an unknown format is the text
format. No log can be set up with a filter that tears characters.
-/
def Setup.of? (envLevel envFormat : Option String) (level format : String) : Option Setup := do
  let filter ← Filter.firstOf (envLevel.toList ++ [level])
  return ⟨filter, (Format.ofName? (envFormat.getD format)).getD .text⟩

end Rostrum.Log
