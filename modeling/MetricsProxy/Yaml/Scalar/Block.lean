import MetricsProxy.Yaml.Scalar.Plain

/-!
# Block scalars

A block scalar is the indented text below a line with `|` or `>`. Its
indentation is that of its first line that is not empty, or is given by a digit.
After `|` the lines stay, after `>` a single line feed between lines that begin
with no space is folded to a space. Of the line breaks at the end one is kept,
with `+` all and with `-` none.
-/
namespace MetricsProxy.Yaml.Block

inductive Chomp where
  | strip
  | clip
  | keep
  deriving DecidableEq, Repr

def chomp? : Char → Option Chomp
  | '+' => some .keep
  | '-' => some .strip
  | _ => none

structure Header where
  chomp : Chomp
  /-- The indentation as given, beyond that of the surroundings. -/
  indent : Option Nat
  rest : List Char

/-- A digit from 1 to 9, or nothing if there is no digit at all. -/
def indent? : List Char → Option (Option Nat × List Char)
  | [] => some (none, [])
  | c :: cs =>
      if c = '0' then none
      else if c.isDigit then some (some (c.toNat - '0'.toNat), cs)
      else some (none, c :: cs)

/-- What stands behind the sign of a block scalar: a digit and a sign for its end, both
optional and in any order. -/
def header? (cs : List Char) : Option Header :=
  match cs.head?.bind chomp? with
  | some chomp => (indent? (cs.drop 1)).map fun r => ⟨chomp, r.1, r.2⟩
  | none =>
      (indent? cs).map fun r =>
        match r.1, r.2.head?.bind chomp? with
        | some _, some chomp => ⟨chomp, r.1, r.2.drop 1⟩
        | _, _ => ⟨.clip, r.1, r.2⟩

/-- The empty lines before a line of a block scalar. -/
structure Lead where
  /-- The longest indentation on the way. -/
  widest : Nat
  breaks : List Char
  cursor : Cursor

/-- Passes over indentation, up to the column `known` if that is given, and over empty
lines. No tab may stand in the indentation. -/
def lead? (known : Option Nat) (widest : Nat) (breaks : List Char) (line column : Nat) :
    List Char → Option Lead
  | [] => some ⟨max widest column, breaks, ⟨[], line, column⟩⟩
  | c :: cs =>
      if c = ' ' ∧ known.all (column < ·) then lead? known widest breaks line (column + 1) cs
      else if c = '\t' ∧ known.all (column < ·) then none
      else if isBreak c then
        lead? known (max widest column) (breaks ++ [c]) (line + 1) 0 cs
      else some ⟨max widest column, breaks, ⟨c :: cs, line, column⟩⟩

def Lead.at? (c : Cursor) (known : Option Nat) : Option Lead :=
  lead? known 0 [] c.line c.column c.rest

/-- The line break that ends the text read so far, and whether its last line began with
a space. -/
structure Joint where
  lineBreak : Option Char
  wasSpaced : Bool

/-- What joins two lines: the line break and the empty lines between them. -/
def joined (isFolded : Bool) (j : Joint) (isSpaced : Bool) (empty : List Char) : List Char :=
  if isFolded ∧ j.lineBreak = some '\n' ∧ j.wasSpaced = false ∧ isSpaced = false then
    if empty = [] then [' '] else empty
  else j.lineBreak.toList ++ empty

def continue? (isFolded : Bool) (chomp : Chomp) (indent : Nat) :
    Nat → List Char → Joint → Lead → Option Scalar
  | 0, _, _, _ => none
  | fuel + 1, text, j, lead =>
      let c := lead.cursor
      if c.column = indent ∧ c.rest ≠ [] then
        let isSpaced := c.rest.head?.any isSpace
        let line := c.rest.takeWhile fun x => !isBreak x
        let stop := c.skipWhile fun x => !isBreak x
        let next := stop.skipBreak
        match Lead.at? next (some indent) with
        | none => none
        | some more =>
            continue? isFolded chomp indent fuel
              (text ++ joined isFolded j isSpaced lead.breaks ++ line)
              ⟨stop.rest.head?, isSpaced⟩ more
      else
        let tail := match chomp with
          | .strip => []
          | .clip => j.lineBreak.toList
          | .keep => j.lineBreak.toList ++ lead.breaks
        some ⟨text ++ tail, true, c⟩

/-- The block scalar at a cursor, which stands at its sign. Its lines are indented by
`margin` at least. -/
def read? (margin : Nat) (c : Cursor) : Option Scalar :=
  match header? (c.rest.drop 1) with
  | none => none
  | some h =>
      match (c.upTo h.rest).finishLine? with
      | none => none
      | some body =>
          let known := h.indent.map fun n => (margin - 1) + n
          match Lead.at? body known with
          | none => none
          | some lead =>
              let indent := known.getD (max (max lead.widest margin) 1)
              continue? (c.rest.head? == some '>') h.chomp indent (c.rest.length + 1) []
                ⟨none, false⟩ lead

end MetricsProxy.Yaml.Block
