import MetricsProxy.Text.Integer
import MetricsProxy.Text.Split

/-!
# The log

Every line of the log has a level and a source. A filter is a list of
directives, each a level for one source and what is below it or for all; of the
directives that apply to a line the most specific one decides.
-/
namespace MetricsProxy
open Text

inductive LogLevel where
  | error
  | warn
  | info
  deriving DecidableEq, Repr

namespace LogLevel

def name : LogLevel → String
  | error => "ERROR"
  | warn => "WARN"
  | info => "INFO"

/-- How much detail a level is; none is zero. -/
def detail : LogLevel → Nat
  | error => 1
  | warn => 2
  | info => 3

end LogLevel

structure LogLine where
  level : LogLevel
  source : String
  text : String
  deriving DecidableEq, Repr

/-- Shows the lines of a source up to some detail; without a source it applies to all. -/
structure LogDirective where
  source : String
  detail : Nat
  deriving DecidableEq, Repr

namespace LogDirective

def detail? (s : String) : Option Nat :=
  match s.toLower with
  | "off" => some 0
  | "error" => some 1
  | "warn" => some 2
  | "info" => some 3
  | "debug" => some 4
  | "trace" => some 5
  | other => below? 6 other.toList

def parse? (cs : List Char) : Option LogDirective :=
  match cutAt '=' cs with
  | some (source, level) => (detail? (String.ofList level)).map fun d => ⟨String.ofList source, d⟩
  | none =>
      let s := String.ofList cs
      match detail? s with
      | some d => some ⟨"", d⟩
      | none => some ⟨s, 5⟩

/-- The directives of a filter; a filter that cannot be read shows what informs. -/
def parseAll (filter : String) : List LogDirective :=
  let entries := (pieces (· == ',') filter.toList).filter fun e => !e.isEmpty
  (entries.mapM parse?).getD [⟨"", 3⟩]

def applies (d : LogDirective) (line : LogLine) : Bool :=
  d.source.toList.isPrefixOf line.source.toList

def shows (ds : List LogDirective) (line : LogLine) : Bool :=
  let best := ds.foldl (fun (best : Option LogDirective) d =>
    if d.applies line && best.elim true fun b => decide (b.source.length ≤ d.source.length) then
      some d else best) none
  best.elim false fun d => decide (line.level.detail ≤ d.detail)

end LogDirective
end MetricsProxy
