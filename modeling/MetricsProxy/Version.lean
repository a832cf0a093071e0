import MetricsProxy.Text.Split
import MetricsProxy.Text.Integer

/-!
# Version numbers

A dotted version is one number: major, minor and patch as digits of base 1000.
Parts that are missing or no numbers count as zero, parts after the patch do
not count.
-/
namespace MetricsProxy.Version
open Text

def parts (version : List Char) : List Int :=
  (pieces (· == '.') version).map fun p => (int64? p).getD 0

def encodeParts (ps : List Int) : Int :=
  ps.getD 0 0 * 1000000 + ps.getD 1 0 * 1000 + ps.getD 2 0

def encode (version : String) : Int := encodeParts (parts version.toList)

end MetricsProxy.Version
