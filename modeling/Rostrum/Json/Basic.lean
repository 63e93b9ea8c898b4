import Rostrum.Number.Numeral

/-!
# JSON values

The members of an object are kept in strictly increasing order of their names, so two objects with
the same members are the same value. Names are compared by code point, which is the order of their
UTF-8 bytes.
-/

namespace Rostrum

/-- A JSON value. -/
inductive Json where
  | null
  | bool (value : Bool)
  | number (value : Number)
  | string (value : String)
  | array (items : List Json)
  | object (members : List (String × Json))
deriving Repr, Inhabited

namespace Json

/-- The members of an object, by name. -/
abbrev Members := List (String × Json)

/-- Adds a member in its place; a member of the same name is replaced. -/
def Members.put (name : String) (value : Json) : Members → Members
  | [] => [(name, value)]
  | (k, v) :: rest =>
    if name < k then (name, value) :: (k, v) :: rest
    else if name = k then (name, value) :: rest
    else (k, v) :: Members.put name value rest

/-- The object with these members; of two members with one name the later one counts. -/
def Members.ofList (members : List (String × Json)) : Members :=
  members.foldl (fun ms m => ms.put m.1 m.2) []

/-- The members without the one of this name. -/
def Members.drop (name : String) (members : Members) : Members :=
  members.filter fun m => m.1 ≠ name

/-- The value of the member with this name. -/
def Members.get? (name : String) : Members → Option Json
  | [] => none
  | (k, v) :: rest => if k = name then some v else Members.get? name rest

/-- A member of an object; other values have none. -/
def get? (name : String) : Json → Option Json
  | .object members => Members.get? name members
  | _ => none

/-- An object with one more member, or another value in place of one; other values stay. -/
def withMember (j : Json) (name : String) (value : Json) : Json :=
  match j with
  | .object members => .object (Members.put name value members)
  | other => other

/-- An object without one of its members; other values stay. -/
def withoutMember (j : Json) (name : String) : Json :=
  match j with
  | .object members => .object (Members.drop name members)
  | other => other

/-- The text of a string value. -/
def asString? : Json → Option String
  | .string s => some s
  | _ => none

def ofNat (n : Nat) : Json := .number (.int n)

def ofInt (n : Int) : Json := .number (.int n)

/-- An object from members in any order. -/
def mkObject (members : List (String × Json)) : Json := .object (Members.ofList members)

end Json

end Rostrum
