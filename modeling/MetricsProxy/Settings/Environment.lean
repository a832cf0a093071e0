import MetricsProxy.Binary64.Numeral
import MetricsProxy.Json
import MetricsProxy.Text.Blank
import MetricsProxy.Text.Integer
import MetricsProxy.Text.Radix
import MetricsProxy.Text.Split

/-!
# Settings from the environment

A variable with the mark `WF_` is a setting; the rest of its name, in small
letters and without blanks around it, is the setting's name. The type of a value
is guessed from its text: a truth value, a list, a table, a quoted text, a
number, or a bare text without the blanks around it. A text that is none of these
from its first to its last character stands for itself, blanks included.
-/
namespace MetricsProxy.Environment
open Text

def isSeparator (c : Char) : Bool := [',', '\x7b', '\x7d', '[', ']'].contains c

/-- A whole number of 64 bits, signed or not, or else a text. -/
def guessWhole (cs : List Char) : Json :=
  match below? 0x10000000000000000 cs with
  | some n => .whole n
  | none =>
      match int64? cs with
      | some i => .whole i
      | none => .text (String.ofList cs)

/-- What a text without quotes means. Only a text with a point is a floating-point number. -/
def guess (cs : List Char) : Json :=
  if cs.contains '.' then
    match Binary64.parse? cs with
    | some x => .float x
    | none => guessWhole cs
  else guessWhole cs

/-- What follows `start` in `cs`, if `cs` begins with it. -/
def after? : List Char → List Char → Option (List Char)
  | [], cs => some cs
  | s :: ss, c :: cs => if s = c then after? ss cs else none
  | _ :: _, [] => none

/-- Characters that stand for themselves between quotes: no controls but the tab. -/
def isQuotable (c : Char) : Bool :=
  c = '\t' || (decide (' ' ≤ c) && c != '\x7f')

/-- The text up to the closing quote, with its escapes resolved, and what follows. -/
def quoted? : List Char → Option (List Char × List Char)
  | [] => none
  | '"' :: cs => some ([], cs)
  | '\\' :: 'b' :: cs => (quoted? cs).map fun r => ('\x08' :: r.1, r.2)
  | '\\' :: 't' :: cs => (quoted? cs).map fun r => ('\t' :: r.1, r.2)
  | '\\' :: 'n' :: cs => (quoted? cs).map fun r => ('\n' :: r.1, r.2)
  | '\\' :: 'f' :: cs => (quoted? cs).map fun r => ('\x0c' :: r.1, r.2)
  | '\\' :: 'r' :: cs => (quoted? cs).map fun r => ('\r' :: r.1, r.2)
  | '\\' :: '"' :: cs => (quoted? cs).map fun r => ('"' :: r.1, r.2)
  | '\\' :: '\\' :: cs => (quoted? cs).map fun r => ('\\' :: r.1, r.2)
  | '\\' :: 'u' :: cs =>
      (codePoint? 4 cs).bind fun c => (quoted? (cs.drop 4)).map fun r => (c :: r.1, r.2)
  | '\\' :: 'U' :: cs =>
      (codePoint? 8 cs).bind fun c => (quoted? (cs.drop 8)).map fun r => (c :: r.1, r.2)
  | '\\' :: _ => none
  | c :: cs => if isQuotable c then (quoted? cs).map fun r => (c :: r.1, r.2) else none
termination_by cs => cs.length
decreasing_by all_goals (simp only [List.length_cons, List.length_drop]; omega)

def skipBlanks (cs : List Char) : List Char := cs.dropWhile isAsciiBlank

/-- Letters, digits, `_` and `-` may stand in a member's name without quotes. -/
def isNameChar (c : Char) : Bool := c.isAlphanum || c = '_' || c = '-'

/-- The name of a member, quoted or bare, and what follows it. -/
def memberName? : List Char → Option (List Char × List Char)
  | '"' :: rest => quoted? rest
  | cs =>
      let name := cs.takeWhile isNameChar
      if name = [] then none else some (name, cs.drop name.length)

/-- A table: its members in key order, the last one of a repeated name. -/
def table (found : List (String × Json)) : Json :=
  .object (Dict.ofList found.reverse).toList

mutual

/-- A value at the beginning of a text and what follows it; `fuel` bounds the
nesting and the number of items. -/
def value? : Nat → List Char → Option (Json × List Char)
  | 0, _ => none
  | fuel + 1, cs =>
      let cs := skipBlanks cs
      let found : Option (Json × List Char) :=
        match after? ['t', 'r', 'u', 'e'] cs, after? ['f', 'a', 'l', 's', 'e'] cs, cs with
        | some rest, _, _ => some (.bool true, rest)
        | _, some rest, _ => some (.bool false, rest)
        | _, _, '\x7b' :: rest => members? fuel [] rest
        | _, _, '[' :: rest => items? fuel [] rest
        | _, _, '"' :: rest => (quoted? rest).map fun r => (.text (String.ofList r.1), r.2)
        | _, _, '\'' :: c :: '\'' :: rest => some (.text (String.singleton c), rest)
        | _, _, '\'' :: _ => none
        | _, _, _ =>
            let bare := cs.takeWhile fun c => !isSeparator c
            some (guess (trim bare), cs.drop bare.length)
      found.map fun r => (r.1, skipBlanks r.2)

/-- The items of a list up to its end; `found` holds those read, last one first. -/
def items? : Nat → List Json → List Char → Option (Json × List Char)
  | 0, _, _ => none
  | fuel + 1, found, cs =>
      match cs with
      | ']' :: rest => some (.array found.reverse, rest)
      | _ =>
          match value? fuel cs with
          | none => none
          | some (v, ',' :: rest) => items? fuel (v :: found) rest
          | some (v, ']' :: rest) => some (.array (v :: found).reverse, rest)
          | some _ => none

/-- The members of a table up to its end. -/
def members? : Nat → List (String × Json) → List Char → Option (Json × List Char)
  | 0, _, _ => none
  | fuel + 1, found, cs =>
      match cs with
      | '\x7d' :: rest => some (table found, rest)
      | _ =>
          match (memberName? (skipBlanks cs)).map fun r => (r.1, skipBlanks r.2) with
          | some (name, '=' :: rest) =>
              let key := String.ofList name
              match value? fuel rest with
              | some (v, ',' :: rest) => members? fuel ((key, v) :: found) rest
              | some (v, '\x7d' :: rest) => some (table ((key, v) :: found), rest)
              | _ => none
          | _ => none

end

/-- What the text of a variable means. A text that goes on after a value, or
breaks off within one, stands for itself. -/
def read (text : String) : Json :=
  match value? (2 * text.toList.length + 2) text.toList with
  | some (v, []) => v
  | _ => .text text

/-- The setting's name in a variable's name, if it has the mark. -/
def settingName? (name : String) : Option (List Char) :=
  (after? ['w', 'f', '_'] ((trim name.toList).map Char.toLower)).map trim

/-- A value under a name with points: every part but the last is a table. -/
def nested (parts : List (List Char)) (v : Json) : Json :=
  parts.foldr (fun part v => .object [(String.ofList part, v)]) v

/-- The settings in a list of variables. A name with points makes its first part
a table. The variable that names the settings file is no setting. -/
def settings (entries : List (String × String)) : List (String × Json) :=
  entries.filterMap fun (marked, text) =>
    (settingName? marked).bind fun name =>
      match pieces (· == '.') name with
      | [] => none
      | first :: rest =>
          if name = "config".toList ∨ first = [] ∨ rest.any List.isEmpty then none
          else some (String.ofList first, nested rest (read text))

end MetricsProxy.Environment
