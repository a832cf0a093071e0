import MetricsProxy.Dict
import MetricsProxy.Binary64.Basic

/-!
# Points

A point is one observation of a metric: a value, a time in seconds and a set of
tags. Its source is the value of the tag `source`, else of the tag `host`, else
empty; the tags keep whatever was given.
-/
namespace MetricsProxy

/-- Tag keys with their values, in key order. -/
abbrev Tags := Dict String

structure Point where
  metric : String
  value : Binary64
  /-- Seconds since the epoch. -/
  timestamp : Int
  /-- Empty when there is neither a `source` nor a `host` tag. -/
  source : String
  tags : Tags
  deriving DecidableEq

namespace Point

def sourceKey : String := "source"
def hostKey : String := "host"

/-- Key of the tag that names the source, if any. -/
def sourceTag (tags : Tags) : Option String :=
  if tags.contains sourceKey then some sourceKey
  else if tags.contains hostKey then some hostKey
  else none

def sourceOf (tags : Tags) : String :=
  ((tags.find? sourceKey).or (tags.find? hostKey)).getD ""

/-- The only way points are made: the source follows from the tags. -/
def make (metric : String) (value : Binary64) (timestamp : Int) (tags : Tags) : Point where
  metric := metric
  value := value
  timestamp := timestamp
  source := sourceOf tags
  tags := tags

/-- Equality as observations: values compare as numbers. -/
def same (p q : Point) : Bool :=
  p.metric == q.metric && p.value.same q.value && p.timestamp == q.timestamp &&
    p.source == q.source && p.tags == q.tags

/-- The source written for a point: its own, or the default if that is empty. -/
def effectiveSource (p : Point) (default : String) : String :=
  if p.source = "" then default else p.source

/-- The tags written besides the source: all but the one that supplied it. -/
def otherTags (p : Point) : Tags :=
  match sourceTag p.tags with
  | none => p.tags
  | some key => p.tags.erase key

end Point

/-- Points that are delivered together, in order. -/
structure WorkUnit where
  points : List Point
  deriving DecidableEq

namespace WorkUnit

def size (u : WorkUnit) : Nat := u.points.length
def isEmpty (u : WorkUnit) : Bool := u.points.isEmpty

end WorkUnit
end MetricsProxy
