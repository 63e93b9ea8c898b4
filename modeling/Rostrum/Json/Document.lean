import Rostrum.Json.Basic

/-!
# JSON documents

A `Document` is what a JSON text says, member by member: objects keep their members in the order of
the text, and a repeated name stays repeated. `Document.value?` forgets both.
-/

namespace Rostrum.Json

/-- A JSON text taken apart. -/
inductive Document where
  | null
  | bool (value : Bool)
  | number (value : Number)
  | string (value : String)
  | array (items : List Document)
  | object (members : List (String × Document))
  /-- Well-formed text without a value: a number out of range, or half of a surrogate pair. -/
  | faulty
deriving Repr, Inhabited

namespace Document

mutual

/-- The value of a document whose containers nest at most `levels` deep. -/
def value? : (levels : Nat) → Document → Option Json
  | _, .null => some .null
  | _, .bool b => some (.bool b)
  | _, .number n => some (.number n)
  | _, .string s => some (.string s)
  | 0, .array _ => none
  | levels + 1, .array items => do return .array (← values? levels items)
  | 0, .object _ => none
  | levels + 1, .object members => do return Json.mkObject (← memberValues? levels members)
  | _, .faulty => none

/-- The values of the items of an array. -/
def values? : (levels : Nat) → List Document → Option (List Json)
  | _, [] => some []
  | levels, d :: ds => do
    let v ← value? levels d
    return v :: (← values? levels ds)

/-- The values of the members of an object, in the order of the text. -/
def memberValues? : (levels : Nat) → List (String × Document) → Option (List (String × Json))
  | _, [] => some []
  | levels, (name, d) :: ds => do
    let v ← value? levels d
    return (name, v) :: (← memberValues? levels ds)

end

/-- How often a name occurs among members. -/
def occurrences (name : String) (members : List (String × Document)) : Nat :=
  members.countP fun m => m.1 = name

end Document

end Rostrum.Json
