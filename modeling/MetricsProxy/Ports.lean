import MetricsProxy.Text.Split
import MetricsProxy.Text.Integer

/-!
# Port lists

Ports are separated by commas. Blanks around an entry and blank entries are
ignored; any other entry that is no port makes the whole list invalid.
-/
namespace MetricsProxy.Ports
open Text

def limit : Nat := 65536

def entries (cs : List Char) : List (List Char) :=
  ((pieces (· == ',') cs).map trim).filter fun e => !e.isEmpty

def parseChars (cs : List Char) : Option (List Nat) := (entries cs).mapM (below? limit)

def parse? (text : String) : Option (List Nat) := parseChars text.toList

theorem entries_append_comma (xs ys : List Char) :
    entries (xs ++ ',' :: ys) = entries xs ++ entries ys := by
  simp [entries, pieces_append_cons]

end MetricsProxy.Ports
