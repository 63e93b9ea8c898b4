/-!
# Places for connections

A connection needs a place, and there are only so many. Taking one counts it first and looks at the
limit afterwards, so a place that is refused has to be taken back. Each of `take`, `confirm`,
`takeBack` and `leave`, `unconfirm` is one step that nothing interrupts; several connections may be
between two of these steps at a time.
-/

namespace Rostrum

/-- The counter of places and the gauge that is shown for it. -/
structure Places where
  limit : Nat
  used : Nat := 0
  /-- The gauge of connected sessions. -/
  connected : Int := 0
deriving Repr

namespace Places

/-- Counts a place; answers whether it may be kept. -/
def take (p : Places) : Bool × Places := (p.used < p.limit, { p with used := p.used + 1 })

/-- Shows a place that is kept in the gauge. -/
def confirm (p : Places) : Places := { p with connected := p.connected + 1 }

/-- Takes back a place that was refused. -/
def takeBack (p : Places) : Places := { p with used := p.used - 1 }

/-- Gives a place back. -/
def leave (p : Places) : Places := { p with used := p.used - 1 }

/-- Removes a place that was given back from the gauge. -/
def unconfirm (p : Places) : Places := { p with connected := p.connected - 1 }

/-- A whole reservation. -/
def reserve (p : Places) : Bool × Places :=
  match p.take with
  | (true, p) => (true, p.confirm)
  | (false, p) => (false, p.takeBack)

/-- A whole return of a place. -/
def release (p : Places) : Places := p.leave.unconfirm

end Places

end Rostrum
