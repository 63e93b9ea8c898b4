import Rostrum.Table

/-!
# TOML values

A document is a table. Tables remember how they came to be, because that decides whether later lines
may add to them: `addHeader`, `addListHeader` and `addPair` are the three ways in which lines add to a
document, and each refuses to define anything twice.
-/

namespace Rostrum.Toml

/-- How a table came to be. -/
inductive Origin where
  /-- It has a header of its own. -/
  | header
  /-- It was named in the header of a table below it. -/
  | implied
  /-- It was named in a dotted key. -/
  | dotted
  /-- It was written in braces, and is complete. -/
  | braces
deriving DecidableEq, Repr

inductive Value where
  | string (value : String)
  | integer (value : Int)
  | float
  | boolean (value : Bool)
  | dateTime
  | array (items : List Value)
  | table (origin : Origin) (members : List (String × Value))
  /-- The tables of one list header, each with its members. -/
  | tables (items : List (List (String × Value)))
deriving Repr, Inhabited

/-- The members of a table, by name. -/
abbrev Members := List (String × Value)

namespace Members

def get? (members : Members) (name : String) : Option Value := Table.find name members

def put (members : Members) (name : String) (value : Value) : Members :=
  Table.store name value members

end Members

/-- A table that dotted keys may go through. -/
def Origin.isOpen : Origin → Bool
  | .implied | .dotted => true
  | .header | .braces => false

/-- Changes the last one of some tables. -/
def changeLast (change : Members → Option Members) : List Members → Option (List Members)
  | [] => none
  | [last] => do return [← change last]
  | first :: rest => do return first :: (← changeLast change rest)

/-- Goes through the tables a header names and changes the one at the end, as `implied` if new. -/
def changeAt (change : Members → Option Members) : (path : List String) → Members → Option Members
  | [], members => change members
  | name :: path, members =>
    match members.get? name with
    | none => do return members.put name (.table .implied (← changeAt change path []))
    | some (.table .braces _) => none
    | some (.table origin inner) => do
      return members.put name (.table origin (← changeAt change path inner))
    | some (.tables items) => do
      return members.put name (.tables (← changeLast (changeAt change path) items))
    | some _ => none

/-- Gives a table a header of its own. -/
def openTable (name : String) (members : Members) : Option Members :=
  match members.get? name with
  | none => some (members.put name (.table .header []))
  | some (.table .implied inner) => some (members.put name (.table .header inner))
  | some _ => none

/-- Adds a table to those of a list header. -/
def openItem (name : String) (members : Members) : Option Members :=
  match members.get? name with
  | none => some (members.put name (.tables [[]]))
  | some (.tables items) => some (members.put name (.tables (items ++ [[]])))
  | some _ => none

/-- Adds the table of a header to a document. -/
def addHeader (path : List String) (name : String) : Members → Option Members :=
  changeAt (openTable name) path

/-- Adds the table of a list header to a document. -/
def addListHeader (path : List String) (name : String) : Members → Option Members :=
  changeAt (openItem name) path

/--
Adds a value under a key to a table; `path` are the tables that a dotted key names in front. The last
of these tables has to come from a dotted key as well.
-/
def addPair (name : String) (value : Value) : (path : List String) → Members → Option Members
  | [], members =>
    match members.get? name with
    | none => some (members.put name value)
    | some _ => none
  | next :: path, members =>
    match members.get? next with
    | none => do return members.put next (.table .dotted (← addPair name value path []))
    | some (.table origin inner) =>
      if !origin.isOpen ∨ (path.isEmpty ∧ origin ≠ .dotted) then none
      else do return members.put next (.table origin (← addPair name value path inner))
    | some (.tables items) =>
      if path.isEmpty then none
      else do return members.put next (.tables (← changeLast (addPair name value path) items))
    | some _ => none

/-- The table in braces with these pairs. -/
def ofPairs (pairs : List (List String × String × Value)) : Option Value := do
  let members ← pairs.foldlM (fun members pair => addPair pair.2.1 pair.2.2 pair.1 members) []
  return .table .braces members

end Rostrum.Toml
