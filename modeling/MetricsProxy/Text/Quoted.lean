/-!
# Quoted fields

Inside a quoted field a backslash makes the next character literal. Writing
puts a backslash before each quote and each backslash, so no text can end its
own field, and a reader recovers it whatever follows.
-/
namespace MetricsProxy.Text

def escape : List Char → List Char
  | [] => []
  | c :: cs => if c = '"' ∨ c = '\\' then '\\' :: c :: escape cs else c :: escape cs

def quoted (cs : List Char) : List Char := '"' :: escape cs ++ ['"']

/-- Reads up to the next quote that no backslash makes literal; gives the text
and what follows the quote. -/
def readEscaped : List Char → Option (List Char × List Char)
  | [] => none
  | '"' :: rest => some ([], rest)
  | ['\\'] => none
  | '\\' :: c :: rest => (readEscaped rest).map fun r => (c :: r.1, r.2)
  | c :: rest => (readEscaped rest).map fun r => (c :: r.1, r.2)

/-- Reads one quoted field at the start of a text. -/
def readQuoted : List Char → Option (List Char × List Char)
  | '"' :: rest => readEscaped rest
  | _ => none

theorem readEscaped_escape (cs rest : List Char) :
    readEscaped (escape cs ++ '"' :: rest) = some (cs, rest) := by
  induction cs with
  | nil => simp [escape, readEscaped]
  | cons c cs ih =>
      by_cases hq : c = '"'
      · subst hq
        simp [escape, readEscaped, ih]
      · by_cases hb : c = '\\'
        · subst hb
          simp [escape, readEscaped, ih]
        · simp [escape, readEscaped, hq, hb, ih]

theorem readQuoted_quoted (cs rest : List Char) :
    readQuoted (quoted cs ++ rest) = some (cs, rest) := by
  simp [quoted, readQuoted, readEscaped_escape]

end MetricsProxy.Text
