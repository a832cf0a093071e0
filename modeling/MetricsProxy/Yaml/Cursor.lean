/-!
# Places in a YAML text

A text is read from a cursor, which knows the line and the column that it stands
in, both counted from zero. Before reading every line break is made one
character: a line feed, except that the separators U+2028 and U+2029 stay what
they are, because joining lines keeps them.
-/
namespace MetricsProxy.Yaml

def isBreak (c : Char) : Bool := c = '\n' || c = '\u2028' || c = '\u2029'

def isSpace (c : Char) : Bool := c = ' ' || c = '\t'

/-- Whether a token can end here: at a space, at a line break or at the end of the text. -/
def endsToken : List Char → Bool
  | [] => true
  | c :: _ => isSpace c || isBreak c

/-- Characters that a text may hold: no controls but the tab and the line breaks, no
surrogates, none of the two last ones of the basic plane. -/
def isPrintable (c : Char) : Bool :=
  c = '\t' || c = '\n' || c = '\r' || c = '\u0085' ||
    decide (0x20 ≤ c.toNat ∧ c.toNat ≤ 0x7e) || decide (0xa0 ≤ c.toNat ∧ c.toNat ≤ 0xfffd) ||
    decide (0x10000 ≤ c.toNat)

/-- Makes every line break one character. -/
def unifyBreaks : List Char → List Char
  | [] => []
  | '\r' :: '\n' :: cs => '\n' :: unifyBreaks cs
  | '\r' :: cs => '\n' :: unifyBreaks cs
  | '\u0085' :: cs => '\n' :: unifyBreaks cs
  | c :: cs => c :: unifyBreaks cs

structure Cursor where
  rest : List Char
  line : Nat
  column : Nat
  deriving DecidableEq, Repr

namespace Cursor

/-- The beginning of a text. A byte order mark is passed over, but it takes up a column. -/
def start : List Char → Cursor
  | '\ufeff' :: cs => ⟨cs, 0, 1⟩
  | cs => ⟨cs, 0, 0⟩

/-- The cursor after what stands before `rest` on its line. -/
def upTo (c : Cursor) (rest : List Char) : Cursor :=
  ⟨rest, c.line, c.column + (c.rest.length - rest.length)⟩

def skip (c : Cursor) (n : Nat) : Cursor := c.upTo (c.rest.drop n)

/-- The cursor at the first character on its line that does not satisfy `p`. -/
def skipWhile (c : Cursor) (p : Char → Bool) : Cursor := c.upTo (c.rest.dropWhile p)

/-- The cursor behind a line break, if one stands here. -/
def skipBreak (c : Cursor) : Cursor :=
  match c.rest with
  | [] => c
  | b :: rest => if isBreak b then ⟨rest, c.line + 1, 0⟩ else c

/-- Whether a document begins or ends here: three dashes or three points at the
beginning of a line that end a token. -/
def isAtMarker (c : Cursor) : Bool :=
  c.column = 0 &&
    match c.rest with
    | '-' :: '-' :: '-' :: rest => endsToken rest
    | '.' :: '.' :: '.' :: rest => endsToken rest
    | _ => false

/-- The cursor behind the spaces and the comment on the rest of a line, and behind the
line break; nothing else may stand there. -/
def finishLine? (c : Cursor) : Option Cursor :=
  let c := c.skipWhile isSpace
  let c := match c.rest with
    | '#' :: _ => c.skipWhile fun x => !isBreak x
    | _ => c
  match c.rest with
  | [] => some c
  | b :: _ => if isBreak b then some c.skipBreak else none

end Cursor

/-- What stands between two pieces of a scalar: spaces, or line breaks. -/
structure Gap where
  spaces : List Char
  /-- Whether the piece before is cut off from here by a line break. -/
  isBroken : Bool
  /-- The line break after the piece before, unless that is escaped. -/
  first : Option Char
  more : List Char
  deriving DecidableEq, Repr

namespace Gap

def none : Gap := ⟨[], false, .none, []⟩

/-- The gap after an escaped line break. -/
def escaped : Gap := ⟨[], true, .none, []⟩

/-- What a gap contributes to a scalar: spaces on one line stay, one line feed becomes
a space, and of several the first one goes. -/
def text (g : Gap) : List Char :=
  if g.isBroken = false then g.spaces
  else
    match g.first with
    | some '\n' => if g.more = [] then [' '] else g.more
    | some b => b :: g.more
    | .none => g.more

/-- A line break more. -/
def addBreak (g : Gap) (b : Char) : Gap :=
  if g.isBroken then { g with more := g.more ++ [b] } else ⟨[], true, some b, []⟩

/-- Reads on from a gap as far as spaces and line breaks go. A line after the first may
not have a tab before the column `margin`. -/
def extend? (margin : Nat) (g : Gap) (line column : Nat) : List Char → Option (Gap × Cursor)
  | [] => some (g, ⟨[], line, column⟩)
  | c :: cs =>
      if isBreak c then extend? margin (g.addBreak c) (line + 1) 0 cs
      else if isSpace c then
        if g.isBroken = false then
          extend? margin { g with spaces := g.spaces ++ [c] } line (column + 1) cs
        else if c = '\t' ∧ column < margin then .none
        else extend? margin g line (column + 1) cs
      else some (g, ⟨c :: cs, line, column⟩)

end Gap

/-- The gap at a cursor that continues `g`, and the cursor behind it. -/
def Cursor.gap? (c : Cursor) (margin : Nat) (g : Gap) : Option (Gap × Cursor) :=
  g.extend? margin c.line c.column c.rest

end MetricsProxy.Yaml
