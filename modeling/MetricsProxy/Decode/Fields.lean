import MetricsProxy.Decode.Error
import MetricsProxy.Point
import MetricsProxy.Binary64.Numeral
import MetricsProxy.Text.Split

/-!
# Fields of a line

The parts that both line formats share: metric names, values, times and tags,
each read from one token. A token in double quotes loses them; quotes on one
side only are kept.
-/
namespace MetricsProxy.Decode
open Text

abbrev Token := List Char

def unquote (t : Token) : Token :=
  match t with
  | '"' :: rest => if rest.getLast? = some '"' then rest.dropLast else t
  | _ => t

def metric (t : Token) : Except DecodeError String :=
  if unquote t = [] then .error .emptyMetric else .ok (String.ofList (unquote t))

def value (t : Token) : Except DecodeError Binary64 :=
  match Binary64.parse? t with
  | none => .error (.invalidValue (String.ofList t))
  | some x => if x.isFinite then .ok x else .error (.nonFiniteValue (String.ofList t))

def int64Min : Int := -0x8000000000000000
def int64Max : Int := 0x7fffffffffffffff

/-- The whole seconds or milliseconds of a token: an integer numeral, or else
the integer part of a finite number, clamped to 64 bits. -/
def instant? (t : Token) : Option Int :=
  match int64? t with
  | some i => some i
  | none =>
      match Binary64.parse? t with
      | some x => if x.isFinite then some (x.truncate int64Min int64Max) else none
      | none => none

/-- Times from here on are taken for milliseconds. -/
def millisThreshold : Int := 1000000000000

/-- Times are never negative, and milliseconds are cut to seconds. -/
def timestamp (t : Token) : Except DecodeError Int :=
  match instant? t with
  | none => .error (.invalidTimestamp (String.ofList t))
  | some i =>
      if i < 0 then .error (.invalidTimestamp (String.ofList t))
      else if millisThreshold ≤ i then .ok (i / 1000)
      else .ok i

/-- A tag token is cut at its first `=`; key and value may be quoted, and the
key must not be empty. -/
def tag (t : Token) : Except DecodeError (String × String) :=
  match cutAt '=' t with
  | none => .error (.invalidTag (String.ofList t))
  | some (k, v) =>
      if unquote k = [] then .error (.invalidTag (String.ofList t))
      else .ok (String.ofList (unquote k), String.ofList (unquote v))

/-- Tag tokens from left to right: the first bad one is reported, the last
value of a repeated key stays. -/
def tags (ts : List Token) : Except DecodeError Tags :=
  (ts.mapM tag).map Dict.ofList

end MetricsProxy.Decode
