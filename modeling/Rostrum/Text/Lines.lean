/-!
# Lines

A line ends with a line feed, in front of which there may be a carriage return.
-/

namespace Rostrum.Text

/-- The first line of a text. -/
def firstLine (text : String) : String :=
  let line := text.toList.takeWhile fun c => c ≠ '\n'
  String.ofList (if line.getLast? = some '\r' then line.dropLast else line)

end Rostrum.Text
