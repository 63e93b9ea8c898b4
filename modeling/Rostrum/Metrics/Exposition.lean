import Rostrum.Http
import Rostrum.Metrics
import Rostrum.Number.Shortest

/-!
# Exposition of the metrics

The metrics are shown as text: each family has a line of help, a line with its kind and a line for
every sample. Families come in the order of their names, the samples of a family in the order of their
labels' values. A sample is a binary64 number, so large counts are rounded.
-/

namespace Rostrum

inductive MetricKind where
  | counter
  | gauge
deriving DecidableEq, Repr

def MetricKind.text : MetricKind → String
  | .counter => "counter"
  | .gauge => "gauge"

/-- A value with its labels, which are in the order of their names. -/
structure Sample where
  labels : List (String × String) := []
  value : Int
deriving Repr

/-- All samples of one name. -/
structure MetricFamily where
  name : String
  help : String
  kind : MetricKind
  samples : List Sample
deriving Repr

/-- A character within the quotes of a label's value. -/
def labelChar : Char → List Char
  | '\\' => ['\\', '\\']
  | '"' => ['\\', '"']
  | '\n' => ['\\', 'n']
  | c => [c]

def labelText (label : String × String) : String :=
  label.1 ++ "=\"" ++ String.ofList (label.2.toList.flatMap labelChar) ++ "\""

/-- An integer as it is shown: the shortest decimal of its binary64 value, filled up with zeros. -/
def shownInteger (v : Int) : Int :=
  let d := (Binary64.ofNat v.natAbs).shortest
  v.sign * (d.digits * pow10 d.exponent.toNat : Nat)

namespace Sample

/-- The name of a sample with its labels. -/
def key (name : String) (s : Sample) : String :=
  match s.labels with
  | [] => name
  | labels => name ++ "\x7b" ++ String.intercalate "," (labels.map labelText) ++ "\x7d"

def line (name : String) (s : Sample) : String := s.key name ++ " " ++ toString (shownInteger s.value)

end Sample

namespace MetricFamily

def lines (f : MetricFamily) : List String :=
  ["# HELP " ++ f.name ++ " " ++ f.help, "# TYPE " ++ f.name ++ " " ++ f.kind.text] ++
    f.samples.map (Sample.line f.name)

/-- A family needs a name and a sample. -/
def isWritable (f : MetricFamily) : Bool := f.name ≠ "" && !f.samples.isEmpty

end MetricFamily

namespace Metrics

/-- Gauges are 64-bit words with a sign. -/
def gaugeWord (v : Int) : Int := v.bmod (pow2 64)

/-- Counters are 64-bit words. -/
def counterWord (n : Nat) : Nat := n % pow2 64

/-- The order of labels is that of their values, verdict first. -/
def labelsLe (a b : NegotiationLabels) : Bool :=
  a.verdict < b.verdict || (a.verdict = b.verdict && a.role ≤ b.role)

def negotiationSamples (m : Metrics) : List Sample :=
  let counted := m.negotiations.values.mergeSort fun a b => labelsLe a.labels b.labels
  counted.map fun c =>
    ⟨[("ergebnis", c.labels.verdict), ("rolle", c.labels.role)], counterWord c.count⟩

/-- The families, in the order of their names. One without samples is left out. -/
def families (m : Metrics) : List MetricFamily :=
  let all : List MetricFamily := [
    ⟨"mixcast_candidates_buffered_total", "ICE-Kandidaten die vor dem Endpunkt eintrafen", .counter,
      [⟨[], counterWord m.candidatesBuffered⟩]⟩,
    ⟨"mixcast_negotiations_total", "Gesamtanzahl abgeschlossener Verhandlungen", .counter,
      m.negotiationSamples⟩,
    ⟨"mixcast_presenters_active", "Anzahl aktiver Presenter", .gauge,
      [⟨[], gaugeWord m.presentersActive⟩]⟩,
    ⟨"mixcast_release_failures_total", "Fehlgeschlagene Freigaben von Media-Objekten", .counter,
      [⟨[], counterWord m.releaseFailures⟩]⟩,
    ⟨"mixcast_sessions_connected", "Anzahl aktuell verbundener Sitzungen", .gauge,
      [⟨[], gaugeWord m.sessionsConnected⟩]⟩,
    ⟨"mixcast_viewers_active", "Anzahl aktiver Viewer", .gauge, [⟨[], gaugeWord m.viewersActive⟩]⟩]
  all.filter fun f => !f.samples.isEmpty

end Metrics

namespace Exposition

/-- The lines of some families, or nothing when one of them cannot be written. -/
def lines? (families : List MetricFamily) : Option (List String) :=
  if families.all MetricFamily.isWritable then some (families.flatMap MetricFamily.lines) else none

/-- The samples of some families by their keys. -/
def samples? (families : List MetricFamily) : Option (List (String × Int)) :=
  if families.all MetricFamily.isWritable then
    some (families.flatMap fun f => f.samples.map fun s => (s.key f.name, shownInteger s.value))
  else none

def path : String := "/metrics"

/-- The answer to whoever asks for the metrics. -/
def reply (families : List MetricFamily) : HttpReply :=
  match lines? families with
  | some lines =>
    { status := 200, contentType := "text/plain; version=0.0.4"
      body := String.join (lines.map fun line => line ++ "\n") }
  | none => .serverError

end Exposition

end Rostrum
