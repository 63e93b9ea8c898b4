/-!
# Requests and answers over HTTP

The little of HTTP that shows: the path a request asks for, and the answer to it.
-/

namespace Rostrum

/-- What a request over HTTP is answered with. -/
structure HttpReply where
  status : Nat
  contentType : String := ""
  body : String := ""
deriving DecidableEq, Repr

namespace HttpReply

def badRequest : HttpReply := { status := 400 }

def notFound : HttpReply := { status := 404 }

def serverError : HttpReply := { status := 500 }

end HttpReply

namespace RequestTarget

/-- Whether a character may be in a path as it is. -/
def isPathChar (c : Char) : Bool := ' ' < c && c ≠ '<' && c ≠ '>' && c ≠ '\x60'

/-- Whether a character may be in a query as it is. -/
def isQueryChar (c : Char) : Bool := ' ' < c && c ≠ '<' && c ≠ '>' && c ≠ '"'

/-- Whether a character may be in the name of a user or a host. -/
def isNameChar (c : Char) : Bool := c.isAlphanum || "-._~!$&'()*+,;=:%@[]".toList.contains c

/-- Whether a path or the name of a host ends before a character. -/
def isDelimiter (c : Char) : Bool := c = '/' || c = '?' || c = '#'

/-- A path without the query and the fragment behind it. -/
def barePath (cs : List Char) : List Char := cs.takeWhile fun c => c ≠ '?' ∧ c ≠ '#'

/-- What stands behind the name of a host. -/
def behindHost (cs : List Char) : List Char := cs.dropWhile fun c => !isDelimiter c

/-- Whether a character may be in the name of a scheme. -/
def isSchemeChar (c : Char) : Bool := c.isAlphanum || c = '+' || c = '-' || c = '.'

/-- What stands behind a scheme, if a text starts with one. -/
def behindScheme? (cs : List Char) : Option (List Char) :=
  match cs.takeWhile isSchemeChar, cs.dropWhile isSchemeChar with
  | _ :: _, ':' :: '/' :: '/' :: rest => some rest
  | _, _ => none

/-- A path, or that of the root if it is empty. -/
def orRoot (path : List Char) : List Char := if path.isEmpty then ['/'] else path

/-- Whether a path may be asked for, with what follows it. -/
def isSoundPath (cs : List Char) : Bool :=
  (barePath cs).all isPathChar &&
    ((cs.drop (barePath cs).length).takeWhile fun c => c ≠ '#').all isQueryChar

/-- What stands in front of a path. -/
def nameOf (cs : List Char) : List Char := cs.take (cs.length - (behindHost cs).length)

/-- Whether a server takes a target at all: a path, an address with its scheme, or a host. -/
def isSound (target : String) : Bool :=
  let cs := (behindScheme? target.toList).getD target.toList
  let hasName := !(nameOf cs).isEmpty && (nameOf cs).all isNameChar
  if (behindScheme? target.toList).isSome then hasName && isSoundPath (behindHost cs)
  else if cs.head? = some '/' then isSoundPath cs
  else hasName && (behindHost cs).isEmpty

/-- The path of a target: a path itself, an address with its scheme, or a host, which has no path. -/
def path (target : String) : String :=
  let cs := target.toList
  String.ofList <| match behindScheme? cs with
    | some rest => orRoot (barePath (behindHost rest))
    | none => if cs.head? = some '/' ∨ cs = ['*'] then barePath cs else []

/--
The path of a target that a client puts behind the host it connects to. A query right behind the host
is sent without a path, which no server takes.
-/
def pathBehindHost? (target : String) : Option String :=
  match behindHost target.toList with
  | '?' :: _ => none
  | rest => some (String.ofList (orRoot (barePath rest)))

end RequestTarget

end Rostrum
