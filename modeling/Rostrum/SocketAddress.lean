import Rostrum.Number.Digits
import Rostrum.Number.Power

/-!
# Socket addresses

An address is four octets or eight groups, and a port. Octets are decimal without leading zeros;
groups are hexadecimal, stand in brackets, and one run of zero groups may be left out.
-/

namespace Rostrum

/-- The address of a host. -/
inductive HostAddress where
  | octets (a b c d : Nat)
  /-- Eight groups, and the zone they are valid in. -/
  | groups (groups : List Nat) (zone : Nat)
deriving DecidableEq, Repr

/-- Whether a server can listen at a host: at all addresses of its machine, or at one that stays on it. -/
def HostAddress.isOwn : HostAddress → Bool
  | .octets a b c d => a = 127 || (a = 0 && b = 0 && c = 0 && d = 0)
  | .groups gs _ => gs.dropLast.all (fun g => g = 0) && gs.getLast?.any (fun g => g ≤ 1)

/-- Where a server listens. -/
structure SocketAddress where
  host : HostAddress
  port : Nat
deriving DecidableEq, Repr

namespace SocketAddress

/-- A number of at most `limit` with at most `maxDigits` digits, and the rest of the text. -/
def number? (base limit maxDigits : Nat) (zeros : Bool) (cs : List Char) : Option (Nat × List Char) :=
  let digits := cs.takeWhile (isDigitOf base)
  let value := numberOf base digits
  if digits.isEmpty ∨ maxDigits < digits.length ∨ limit < value then none
  else if !zeros ∧ digits.head? = some '0' ∧ 1 < digits.length then none
  else some (value, cs.drop digits.length)

/-- The rest of a text after a character. -/
def after? (c : Char) : List Char → Option (List Char)
  | [] => none
  | d :: cs => if c = d then some cs else none

def octet? (cs : List Char) : Option (Nat × List Char) := number? 10 255 3 false cs

def octets? (cs : List Char) : Option ((Nat × Nat × Nat × Nat) × List Char) := do
  let (a, cs) ← octet? cs
  let (b, cs) ← octet? (← after? '.' cs)
  let (c, cs) ← octet? (← after? '.' cs)
  let (d, cs) ← octet? (← after? '.' cs)
  return ((a, b, c, d), cs)

/--
Up to `room` groups, separated by colons; `first` says whether a separator is due before the next
one. Octets stand for the last two groups. Answers the groups, whether octets were among them, and the
rest.
-/
def groups (first : Bool) (cs : List Char) : (room : Nat) → List Nat × Bool × List Char
  | 0 => ([], false, cs)
  | room + 1 =>
    let next := if first then some cs else after? ':' cs
    let mapped := if room = 0 then none else next.bind octets?
    match mapped with
    | some ((a, b, c, d), rest) => ([a * 256 + b, c * 256 + d], true, rest)
    | none =>
      match next.bind (number? 16 0xFFFF 4 true) with
      | some (g, rest) =>
        let (gs, mapped, rest) := groups false rest room
        (g :: gs, mapped, rest)
      | none => ([], false, cs)

/-- Eight groups, of which a run of zeros may be left out. -/
def eightGroups? (cs : List Char) : Option (List Nat × List Char) := do
  let (head, mapped, rest) := groups true cs 8
  if head.length = 8 then return (head, rest)
  if mapped then failure
  let rest ← after? ':' (← after? ':' rest)
  let (tail, _, rest) := groups true rest (7 - head.length)
  return (head ++ List.replicate (8 - head.length - tail.length) 0 ++ tail, rest)

def port? (cs : List Char) : Option Nat := do
  let (port, []) ← number? 10 0xFFFF cs.length true (← after? ':' cs) | failure
  return port

/-- Reads the zone of an address, if one is given. -/
def zone? (cs : List Char) : Option (Nat × List Char) :=
  match after? '%' cs with
  | some rest => number? 10 (pow2 32 - 1) rest.length true rest
  | none => some (0, cs)

def ofText? (text : String) : Option SocketAddress :=
  let cs := text.toList
  match after? '[' cs with
  | some rest => do
    let (groups, rest) ← eightGroups? rest
    let (zone, rest) ← zone? rest
    return ⟨.groups groups zone, ← port? (← after? ']' rest)⟩
  | none => do
    let ((a, b, c, d), rest) ← octets? cs
    return ⟨.octets a b c d, ← port? rest⟩

/-- The number of zero groups in front. -/
def zerosInFront (gs : List Nat) : Nat := (gs.takeWhile fun g => g = 0).length

/-- The first of the longest runs of zero groups: where it starts and how long it is. -/
def longestRun (gs : List Nat) : Nat × Nat :=
  (List.range gs.length).foldl (fun best i =>
    let length := zerosInFront (gs.drop i)
    if best.2 < length then (i, length) else best) (0, 0)

def hexText (n : Nat) : String := String.ofList (Nat.toDigits 16 n)

def dotted (ns : List Nat) : String := String.intercalate "." (ns.map toString)

/-- Writes eight groups; the longest run of at least two zeros is left out. -/
def groupsText (gs : List Nat) : String :=
  match gs with
  | [0, 0, 0, 0, 0, 0xFFFF, g, h] => "::ffff:" ++ dotted [g / 256, g % 256, h / 256, h % 256]
  | _ =>
    let join (part : List Nat) := String.intercalate ":" (part.map hexText)
    let (start, length) := longestRun gs
    if length < 2 then join gs
    else join (gs.take start) ++ "::" ++ join (gs.drop (start + length))

def text (a : SocketAddress) : String :=
  let host := match a.host with
    | .octets a b c d => dotted [a, b, c, d]
    | .groups gs zone =>
      "[" ++ groupsText gs ++ (if zone = 0 then "" else "%" ++ toString zone) ++ "]"
  host ++ ":" ++ toString a.port

end SocketAddress

end Rostrum
