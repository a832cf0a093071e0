import MetricsProxy.Binary64.Basic

/-!
# Kinds of self-metrics

A metric is a counter, a gauge, a timer or a histogram. Each kind has its own
uses and one number as its snapshot: the count, the last value, the mean in
milliseconds, the mean. Words wrap at `2^64`.
-/
namespace MetricsProxy

/-- Running statistics of unsigned samples. -/
structure Histogram where
  count : UInt64
  sum : UInt64
  max : UInt64
  deriving DecidableEq

namespace Histogram

def empty : Histogram := ⟨0, 0, 0⟩

def record (h : Histogram) (sample : UInt64) : Histogram where
  count := h.count + 1
  sum := h.sum + sample
  max := if h.max < sample then sample else h.max

def mean (h : Histogram) : Binary64 :=
  if h.count = 0 then .zero
  else (Binary64.ofNat h.sum.toNat).div (Binary64.ofNat h.count.toNat)

end Histogram

/-- A timer is a histogram of whole microseconds; this is the sample of a
duration, cut to whole microseconds and to the largest word. -/
def timerSample (nanoseconds : Nat) : UInt64 :=
  UInt64.ofNat (min (nanoseconds / 1000) 0xffffffffffffffff)

inductive MetricKind where
  | counter
  | gauge
  | timer
  | histogram
  deriving DecidableEq, Repr

namespace MetricKind

def name : MetricKind → String
  | counter => "counter"
  | gauge => "gauge"
  | timer => "timer"
  | histogram => "histogram"

end MetricKind

inductive Metric where
  | counter (total : UInt64)
  | gauge (value : Binary64)
  | timer (micros : Histogram)
  | histogram (samples : Histogram)
  deriving DecidableEq

namespace Metric

def kind : Metric → MetricKind
  | counter _ => .counter
  | gauge _ => .gauge
  | timer _ => .timer
  | histogram _ => .histogram

def fresh : MetricKind → Metric
  | .counter => counter 0
  | .gauge => gauge .zero
  | .timer => timer .empty
  | .histogram => histogram .empty

@[simp] theorem kind_fresh (k : MetricKind) : (fresh k).kind = k := by cases k <;> rfl

def meanMillis (micros : Histogram) : Binary64 := micros.mean.div (Binary64.ofNat 1000)

/-- The number that stands for the metric in reports. -/
def snapshot : Metric → Binary64
  | counter total => Binary64.ofNat total.toNat
  | gauge value => value
  | timer micros => meanMillis micros
  | histogram samples => samples.mean

end Metric

/-- What a component does with a metric of one kind; `look` only fetches it. -/
inductive MetricUse where
  | look (kind : MetricKind)
  | count (n : UInt64)
  | setGauge (value : Binary64)
  | addGauge (delta : Binary64)
  | recordTime (nanoseconds : Nat)
  | recordSample (sample : UInt64)
  deriving DecidableEq

namespace MetricUse

def kind : MetricUse → MetricKind
  | look k => k
  | count _ => .counter
  | setGauge _ => .gauge
  | addGauge _ => .gauge
  | recordTime _ => .timer
  | recordSample _ => .histogram

/-- The metric after the use; a metric of another kind stays as it is. -/
def apply : MetricUse → Metric → Metric
  | count n, .counter total => .counter (total + n)
  | setGauge v, .gauge _ => .gauge v
  | addGauge d, .gauge v => .gauge (v.add d)
  | recordTime ns, .timer h => .timer (h.record (timerSample ns))
  | recordSample s, .histogram h => .histogram (h.record s)
  | _, m => m

@[simp] theorem kind_apply (u : MetricUse) (m : Metric) : (u.apply m).kind = m.kind := by
  cases u <;> cases m <;> rfl

end MetricUse
end MetricsProxy
