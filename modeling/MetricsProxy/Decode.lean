import MetricsProxy.Decode.Fields

/-!
# Line formats

A listener takes lines of one format. Graphite lines are `metric value
[timestamp] [key=value …]`, OpenTSDB lines are `put metric timestamp value
[key=value …]`. Decoding is a function of the line and, for a Graphite line
without a time, of the clock.
-/
namespace MetricsProxy

inductive Format where
  | graphite
  | openTsdb
  deriving DecidableEq, Repr

namespace Format

def name : Format → String
  | graphite => "graphite"
  | openTsdb => "opentsdb"

end Format

namespace Decode
open Text

/-- A third Graphite token without `=` is the time; otherwise the clock gives
it. The tokens that follow are tags. -/
def optionalTimestamp (now : Int) : List Token → Except DecodeError (Int × List Token)
  | [] => .ok (now, [])
  | t :: ts =>
      if '=' ∈ t then .ok (now, t :: ts)
      else (timestamp t).map fun seconds => (seconds, ts)

def graphiteTokens (now : Int) : List Token → Except DecodeError Point
  | [] => .error .empty
  | [_] => .error (.tokenCount 2 1)
  | m :: v :: rest => do
      let name ← metric m
      let x ← value v
      let (seconds, tagTokens) ← optionalTimestamp now rest
      let found ← tags tagTokens
      pure (Point.make name x seconds found)

def putWord : Token := ['p', 'u', 't']

def openTsdbTokens : List Token → Except DecodeError Point
  | [] => .error .empty
  | first :: rest =>
      if first ≠ putWord then .error (.missingPut (String.ofList first))
      else
        match rest with
        | m :: t :: v :: tagTokens => do
            let name ← metric m
            let seconds ← timestamp t
            let x ← value v
            let found ← tags tagTokens
            pure (Point.make name x seconds found)
        | _ => .error (.tokenCount 4 (rest.length + 1))

def tokens (line : String) : List Token := words line.toList

end Decode

def Format.decode (format : Format) (now : Int) (line : String) : Except DecodeError Point :=
  match format with
  | .graphite => Decode.graphiteTokens now (Decode.tokens line)
  | .openTsdb => Decode.openTsdbTokens (Decode.tokens line)

end MetricsProxy
