import MetricsProxy.Text.Radix
import MetricsProxy.Yaml.Scalar.Plain

/-!
# Quoted scalars

Between single quotes only a doubled quote stands for something else, between
double quotes there are escapes. Line breaks are joined as in plain scalars,
unless one is escaped; the mark of a document may not stand in a quoted scalar.
-/
namespace MetricsProxy.Yaml.Quoted
open Text

/-- The characters that one letter after a backslash stands for. -/
def escape? (c : Char) : Option Char :=
  match c with
  | '0' => some '\x00'
  | 'a' => some '\x07'
  | 'b' => some '\x08'
  | 't' => some '\t'
  | '\t' => some '\t'
  | 'n' => some '\n'
  | 'v' => some '\x0b'
  | 'f' => some '\x0c'
  | 'r' => some '\r'
  | 'e' => some '\x1b'
  | ' ' => some ' '
  | '"' => some '"'
  | '/' => some '/'
  | '\\' => some '\\'
  | 'N' => some '\u0085'
  | '_' => some '\u00a0'
  | 'L' => some '\u2028'
  | 'P' => some '\u2029'
  | _ => none

/-- How many hexadecimal digits follow a letter after a backslash. -/
def codeLength (c : Char) : Nat :=
  match c with
  | 'x' => 2
  | 'u' => 4
  | 'U' => 8
  | _ => 0

/-- A piece of a quoted scalar up to a quote, a space or a line break. -/
structure Piece where
  text : List Char
  /-- Whether an escaped line break ends it; the rest then begins on the next line. -/
  isEscaped : Bool
  rest : List Char

def Piece.push (c : Char) (p : Piece) : Piece := { p with text := c :: p.text }

def singlePiece : List Char → Piece
  | [] => ⟨[], false, []⟩
  | '\'' :: '\'' :: cs => (singlePiece cs).push '\''
  | c :: cs =>
      if c = '\'' ∨ isSpace c ∨ isBreak c then ⟨[], false, c :: cs⟩ else (singlePiece cs).push c

def doublePiece? : List Char → Option Piece
  | [] => some ⟨[], false, []⟩
  | '\\' :: e :: cs =>
      if isBreak e then some ⟨[], true, cs⟩
      else if codeLength e = 0 then
        (escape? e).bind fun c => (doublePiece? cs).map (Piece.push c)
      else
        (codePoint? (codeLength e) cs).bind fun c =>
          (doublePiece? (cs.drop (codeLength e))).map (Piece.push c)
  | c :: cs =>
      if c = '\\' then none
      else if c = '"' ∨ isSpace c ∨ isBreak c then some ⟨[], false, c :: cs⟩
      else (doublePiece? cs).map (Piece.push c)
termination_by cs => cs.length
decreasing_by all_goals (simp only [List.length_cons, List.length_drop]; omega)

def piece? (quote : Char) (cs : List Char) : Option Piece :=
  if quote = '\'' then some (singlePiece cs) else doublePiece? cs

def continue? (quote : Char) : Nat → List Char → Cursor → Option Scalar
  | 0, _, _ => none
  | fuel + 1, text, c =>
      if c.isAtMarker || c.rest.isEmpty then none
      else
        match piece? quote c.rest with
        | none => none
        | some p =>
            let text := text ++ p.text
            let next := if p.isEscaped then ⟨p.rest, c.line + 1, 0⟩ else c.upTo p.rest
            if next.rest.head? = some quote then some ⟨text, false, next.skip 1⟩
            else
              match next.gap? 0 (if p.isEscaped then .escaped else .none) with
              | none => none
              | some (gap, next) => continue? quote fuel (text ++ gap.text) next

/-- The quoted scalar at a cursor, which stands at the opening quote. -/
def read? (c : Cursor) : Option Scalar :=
  match c.rest with
  | [] => none
  | quote :: _ => continue? quote (c.rest.length + 1) [] (c.skip 1)

end MetricsProxy.Yaml.Quoted
