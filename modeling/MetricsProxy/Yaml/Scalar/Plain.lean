import MetricsProxy.Yaml.Cursor

/-!
# Plain scalars

A plain scalar goes on over spaces and line breaks until something ends it: a
colon before a space, a comment, the mark of a document, a line that is not
indented enough, or within brackets any of their signs.
-/
namespace MetricsProxy.Yaml

/-- A scalar that has been read: its text, and where reading goes on. -/
structure Scalar where
  text : List Char
  /-- Whether the cursor is on a later line than the end of the text. -/
  endsLine : Bool
  cursor : Cursor
  deriving DecidableEq, Repr

namespace Plain

/-- The signs of lists and tables in brackets. -/
def isFlowSign (c : Char) : Bool := [',', '[', ']', '\x7b', '\x7d'].contains c

/-- The characters up to a space, a line break or a sign that ends the scalar. Within
brackets a colon directly before a sign is an error. -/
def run? (inFlow : Bool) : List Char → Option (List Char × List Char)
  | [] => some ([], [])
  | c :: cs =>
      if isSpace c || isBreak c then some ([], c :: cs)
      else if c = ':' ∧ inFlow ∧ cs.head?.any (fun d => isFlowSign d || d = '?') then none
      else if c = ':' ∧ endsToken cs then some ([], c :: cs)
      else if inFlow && isFlowSign c then some ([], c :: cs)
      else (run? inFlow cs).map fun r => (c :: r.1, r.2)

def continue? (inFlow : Bool) (margin : Nat) : Nat → List Char → Gap → Cursor → Option Scalar
  | 0, _, _, _ => none
  | fuel + 1, text, gap, c =>
      if c.isAtMarker || c.rest.head? == some '#' then some ⟨text, gap.isBroken, c⟩
      else
        match run? inFlow c.rest with
        | none => none
        | some ([], _) => some ⟨text, gap.isBroken, c⟩
        | some (run, rest) =>
            let text := text ++ gap.text ++ run
            match (c.upTo rest).gap? margin .none with
            | none => none
            | some (gap, next) =>
                if inFlow = false ∧ next.column < margin then some ⟨text, gap.isBroken, next⟩
                else continue? inFlow margin fuel text gap next

/-- The plain scalar at a cursor. Its later lines are indented by `margin` at least,
unless it stands within brackets. -/
def read? (inFlow : Bool) (margin : Nat) (c : Cursor) : Option Scalar :=
  continue? inFlow margin (c.rest.length + 1) [] .none c

end Plain
end MetricsProxy.Yaml
