import Rostrum.Json.Basic
import Rostrum.Text.Quoted

/-!
# Values of the wrong shape

A JSON value that is read as a record or as a member of one may have the wrong shape. The fault says
what was found and what was wanted.
-/

namespace Rostrum.Json

/-- What a reader of a value wants. -/
inductive Wanted where
  | string
  | word32
  | candidate
deriving DecidableEq, Repr

def Wanted.text : Wanted → String
  | .string => "a string"
  | .word32 => "u32"
  | .candidate => "struct CandidateRecord"

/-- Why a value cannot be read. -/
inductive ShapeFault where
  | missing (name : String)
  | wrongType (found : Json) (wanted : Wanted)
  | outOfRange (found : Int) (wanted : Wanted)
deriving Repr

/-- Names the kind of a value, and the value itself when it is a scalar. -/
def describe : Json → String
  | .null => "null"
  | .bool b => "boolean `" ++ toString b ++ "`"
  | .number (.int n) => "integer `" ++ toString n ++ "`"
  | .number (.float x) => "floating point `" ++ x.text ++ "`"
  | .string s => "string " ++ Text.quoted s
  | .array _ => "sequence"
  | .object _ => "map"

def ShapeFault.message : ShapeFault → String
  | .missing name => "missing field `" ++ name ++ "`"
  | .wrongType found wanted => "invalid type: " ++ found.describe ++ ", expected " ++ wanted.text
  | .outOfRange found wanted =>
    "invalid value: " ++ (Json.ofInt found).describe ++ ", expected " ++ wanted.text

/-- Reads a string. -/
def readString : Json → Except ShapeFault String
  | .string s => .ok s
  | other => .error (.wrongType other .string)

/-- The largest 32-bit word. -/
def maxWord32 : Nat := pow2 32 - 1

/-- Reads a 32-bit word. -/
def readWord32 : Json → Except ShapeFault Nat
  | .number (.int n) =>
    if 0 ≤ n ∧ n ≤ maxWord32 then .ok n.toNat else .error (.outOfRange n .word32)
  | other => .error (.wrongType other .word32)

/-- Reads a value that may be given as null. -/
def readOptional (read : Json → Except ShapeFault α) : Json → Except ShapeFault (Option α)
  | .null => .ok none
  | other => some <$> read other

end Rostrum.Json
