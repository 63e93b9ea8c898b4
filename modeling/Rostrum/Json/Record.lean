import Rostrum.Json.Reader

/-!
# Records in documents

A record is a value with a fixed list of named members. A document gives it by an object, which may
have further members, or by an array of the members in their order.
-/

namespace Rostrum.Json.Document

/--
The members a record is given by: those of an object in which no known name comes twice, or the items
of an array, in the order of the names.
-/
def record? (names : List String) : Document → Option (List (String × Document))
  | .object members =>
    if names.all fun name => occurrences name members ≤ 1 then some members else none
  | .array items => if items.length ≤ names.length then some (names.zip items) else none
  | _ => none

/-- The member of this name. -/
def member? (members : List (String × Document)) (name : String) : Option Document :=
  (members.find? fun m => m.1 = name).map Prod.snd

/-- The member of this name, if it is there and not null. -/
def given? (members : List (String × Document)) (name : String) : Option Document :=
  match member? members name with
  | some .null => none
  | found => found

/-- Reads a member that may be missing. -/
def optional (read : Document → Option α) : Option Document → Option (Option α)
  | none => some none
  | some d => (read d).map some

def string? : Document → Option String
  | .string s => some s
  | _ => none

def bool? : Document → Option Bool
  | .bool b => some b
  | _ => none

/-- An integer between two bounds. -/
def integer? (low high : Int) : Document → Option Int
  | .number (.int n) => if low ≤ n ∧ n ≤ high then some n else none
  | _ => none

/-- A name of a choice without content: the name, or an object with it as the only member. -/
def choice? : Document → Option String
  | .string name => some name
  | .object [(name, .null)] => some name
  | _ => none

end Rostrum.Json.Document
