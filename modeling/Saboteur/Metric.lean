import Saboteur.Decimal.Text
import Saboteur.Duration
import Saboteur.Table

/-!
# Metrics

Named values that the outside may read. A counter goes up, a gauge goes up and down, and a histogram
keeps how many values were observed and their sum. A metric may have labels; then it holds a series
of values, one for each choice of texts for the labels.

A registry takes a name once.
-/

namespace Saboteur

/-- A value of a metric. -/
inductive Sample where
  | count (n : Nat)
  | level (n : Int64)
  | observed (times : Nat) (sum : Float)

/-- What a metric measures. -/
inductive MetricKind where
  | counter
  | gauge
  | histogram
  deriving DecidableEq

/-- Reads the name of a kind. -/
def MetricKind.ofName? (s : String) : Option MetricKind :=
  match s with
  | "counter" => some counter
  | "gauge" => some gauge
  | "histogram" => some histogram
  | _ => none

/-- The value of a metric that has not been used. -/
def MetricKind.start : MetricKind → Sample
  | counter => .count 0
  | gauge => .level 0
  | histogram => .observed 0 0

namespace Sample

/-- One more. -/
def increment : Sample → Sample
  | count n => count (n + 1)
  | level n => level (n + 1)
  | s => s

/-- One less. Only a gauge goes down. -/
def decrement : Sample → Sample
  | level n => level (n - 1)
  | s => s

/-- Another level. Only a gauge is set. -/
def setLevel (n : Int64) : Sample → Sample
  | level _ => level n
  | s => s

/-- A value that was observed. -/
def observe (x : Float) : Sample → Sample
  | observed times sum => observed (times + 1) (sum + x)
  | s => s

end Sample

/-- The seconds of a duration: the whole ones and the fraction are added as doubles. -/
def Duration.toFloat (d : Duration) : Float :=
  (UInt64.ofNat d.seconds).toFloat + (UInt64.ofNat d.subsecNanos).toFloat / 1e9

/-! ## Registration -/

/-- A metric as it is asked for. -/
structure MetricDescription where
  name : String
  help : String
  kind : MetricKind
  labels : List String

namespace MetricDescription

/-- Whether a text is a name whose characters satisfy a condition. A name does not begin with a
digit. -/
def isName (allowed : Char → Bool) (s : String) : Bool :=
  match s.toList with
  | [] => false
  | c :: rest => allowed c && !c.isDigit && rest.all allowed

/-- Whether a character may stand in the name of a label. -/
def isLabelChar (c : Char) : Bool := c.isAlphanum || c = '_'

/-- Whether a character may stand in the name of a metric. -/
def isMetricChar (c : Char) : Bool := isLabelChar c || c = ':'

/-- Whether a metric may be registered under its name. -/
def isValid (d : MetricDescription) : Bool :=
  isName isMetricChar d.name && d.help ≠ "" && d.labels.all (isName isLabelChar) &&
    decide d.labels.Nodup

end MetricDescription

/-- A registered metric. -/
structure Metric where
  kind : MetricKind
  labels : List String
  samples : Table (List String) Sample

namespace Metric

/-- The label of the buckets of a histogram, which no other use may have. -/
def bucketLabel : String := "le"

/-- Whether there is a value for these texts of the labels. A histogram with a label for its own
buckets has no values. -/
def accepts (m : Metric) (texts : List String) : Bool :=
  texts.length = m.labels.length && !(m.kind = .histogram && m.labels.contains bucketLabel)

/-- Changes the value for some texts of the labels, and tells the new one. -/
def change? (m : Metric) (texts : List String) (f : Sample → Sample) : Option (Sample × Metric) :=
  if m.accepts texts then
    let s := f ((m.samples.get? texts).getD m.kind.start)
    some (s, { m with samples := m.samples.set texts s })
  else none

end Metric

/-- The names that are taken. -/
structure MetricRegistry where
  names : List String

namespace MetricRegistry

/-- The registry without metrics. -/
def empty : MetricRegistry := ⟨[]⟩

/-- Registers a metric, unless its name is taken or its description is not valid. -/
def register? (r : MetricRegistry) (d : MetricDescription) : Option (Metric × MetricRegistry) :=
  if d.isValid && !r.names.contains d.name then
    some (⟨d.kind, d.labels, Table.empty⟩, ⟨d.name :: r.names⟩)
  else none

end MetricRegistry

end Saboteur
