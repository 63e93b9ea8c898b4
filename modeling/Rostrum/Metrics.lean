import Rostrum.Table

/-!
# Metrics

Gauges and counters of the running server. `Metrics.families` lists what is exported.
-/

namespace Rostrum

/-- The labels of a counted negotiation. -/
structure NegotiationLabels where
  role : String
  verdict : String
deriving DecidableEq, Repr

/-- What counts are kept under: the labels run together, so some labels share a count. -/
def NegotiationLabels.key (l : NegotiationLabels) : String := l.role ++ l.verdict

/-- A count of negotiations, with the labels that came first under its key. -/
structure NegotiationCount where
  labels : NegotiationLabels
  count : Nat := 0
deriving DecidableEq, Repr

/-- The gauges and counters of the server. -/
structure Metrics where
  sessionsConnected : Int := 0
  presentersActive : Int := 0
  viewersActive : Int := 0
  negotiations : Table String NegotiationCount := {}
  /-- Candidates that arrived before their endpoint. -/
  candidatesBuffered : Nat := 0
  releaseFailures : Nat := 0
deriving Repr, Inhabited

namespace Metrics

/-- The count that some labels share in, zero before the first negotiation. -/
def counted (m : Metrics) (labels : NegotiationLabels) : NegotiationCount :=
  (m.negotiations.get? labels.key).getD { labels := labels }

/-- How many negotiations ended with these labels, or with labels of the same key. -/
def negotiated (m : Metrics) (labels : NegotiationLabels) : Nat := (m.counted labels).count

def countNegotiation (m : Metrics) (labels : NegotiationLabels) : Metrics :=
  let counted := m.counted labels
  { m with
    negotiations := m.negotiations.put labels.key { counted with count := counted.count + 1 } }

/-- Moves the gauge of a role; other names have none. -/
def addActive (m : Metrics) (role : String) (delta : Int) : Metrics :=
  if role = "presenter" then { m with presentersActive := m.presentersActive + delta }
  else if role = "viewer" then { m with viewersActive := m.viewersActive + delta }
  else m

def countBuffered (m : Metrics) (n : Nat) : Metrics :=
  { m with candidatesBuffered := m.candidatesBuffered + n }

def countReleaseFailures (m : Metrics) (n : Nat) : Metrics :=
  { m with releaseFailures := m.releaseFailures + n }

end Metrics

end Rostrum
