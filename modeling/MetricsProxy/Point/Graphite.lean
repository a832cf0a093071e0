import MetricsProxy.Point
import MetricsProxy.Binary64.Layout
import MetricsProxy.Text.Quoted

/-!
# Graphite lines

A point is written as one line: quoted metric, value, time, quoted source and
the remaining tags with keys and values quoted, in key order.
-/
namespace MetricsProxy.Point
open Text

/-- Shortest digits, ties away from zero, never an exponent, no `.0`. -/
def valueLayout : Binary64.Layout where
  tie := .awayFromZero
  positional := none
  keepsFraction := false
  signsExponent := false
  nanText := "NaN"
  infinityText := "inf"

def valueText (x : Binary64) : List Char := valueLayout.text x

def quotedText (s : String) : List Char := quoted s.toList

def sourceField : List Char := " source=".toList

/-- A tag after the source: a blank, the quoted key, `=`, the quoted value. -/
def tagText (tag : String × String) : List Char :=
  ' ' :: quotedText tag.1 ++ '=' :: quotedText tag.2

/-- The line of a point with its newline; `default` stands for an empty source. -/
def lineChars (p : Point) (default : String) : List Char :=
  quotedText p.metric ++ ' ' :: valueText p.value ++ ' ' :: intDigits p.timestamp ++
    sourceField ++ quotedText (p.effectiveSource default) ++
    p.otherTags.toList.flatMap tagText ++ ['\n']

def line (p : Point) (default : String) : String := String.ofList (p.lineChars default)

end Point

namespace WorkUnit

def chars (u : WorkUnit) (default : String) : List Char :=
  u.points.flatMap fun p => p.lineChars default

/-- The body of a delivery: one line per point, in order. -/
def body (u : WorkUnit) (default : String) : String := String.ofList (u.chars default)

end WorkUnit

end MetricsProxy
