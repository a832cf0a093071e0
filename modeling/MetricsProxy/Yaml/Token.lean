import MetricsProxy.Yaml.Scalar.Block
import MetricsProxy.Yaml.Scalar.Quoted
import MetricsProxy.Yaml.Tag

/-!
# Tokens

A text is cut into tokens, among them some that stand for no character: where
indentation begins or ends, and before a key that is only recognized by the
colon behind it. Such a key stands on one line, is no longer than 1024
characters, and every place where one might begin is remembered until then.
-/
namespace MetricsProxy.Yaml

inductive Token where
  | directive (d : Directive)
  | documentStart
  | documentEnd
  | blockSequenceStart
  | blockMappingStart
  | blockEnd
  | flowSequenceStart
  | flowSequenceEnd
  | flowMappingStart
  | flowMappingEnd
  | blockEntry
  | flowEntry
  | key
  | value
  | alias (name : List Char)
  | anchor (name : List Char)
  | tag (name : TagName)
  /-- Only a plain scalar can be other than a text. -/
  | scalar (isPlain : Bool) (text : List Char)
  deriving DecidableEq, Repr

/-- A place where a key may have begun. -/
structure KeyPlace where
  /-- The number of tokens before it. -/
  index : Nat
  line : Nat
  column : Nat
  /-- Whether nothing but a key can stand there. -/
  isRequired : Bool
  deriving DecidableEq, Repr

/-- How far a text has been cut. -/
structure Lexing where
  cursor : Cursor
  /-- The tokens so far, last one first. -/
  tokens : List Token
  /-- One more than the column of the innermost block, zero outside of all. -/
  margin : Nat
  /-- The margins around it, inner ones first. -/
  margins : List Nat
  /-- Where a key may have begun within the innermost brackets. -/
  keyPlace : Option KeyPlace
  /-- The same for the brackets around, inner ones first, and for what is outside of all. -/
  outerPlaces : List (Option KeyPlace)
  mayBeginKey : Bool
  deriving DecidableEq, Repr

namespace Lexing

def start (cs : List Char) : Lexing where
  cursor := .start cs
  tokens := []
  margin := 0
  margins := []
  keyPlace := none
  outerPlaces := []
  mayBeginKey := true

def inFlow (s : Lexing) : Bool := !s.outerPlaces.isEmpty

def push (s : Lexing) (t : Token) : Lexing := { s with tokens := t :: s.tokens }

def insert (s : Lexing) (n : Nat) (t : Token) : Lexing :=
  let later := s.tokens.length - n
  { s with tokens := s.tokens.take later ++ t :: s.tokens.drop later }

/-- The column after spaces and, unless they count as indentation, tabs; comments and
line breaks are passed over. Outside of brackets a key may begin on a new line. -/
def blankEnd (inFlow mayBeginKey inComment : Bool) (line column : Nat) :
    List Char → Bool × Cursor
  | [] => (mayBeginKey, ⟨[], line, column⟩)
  | c :: cs =>
      if isBreak c then blankEnd inFlow (mayBeginKey || !inFlow) false (line + 1) 0 cs
      else if inComment ∨ c = ' ' ∨ (c = '\t' ∧ (inFlow ∨ mayBeginKey = false)) then
        blankEnd inFlow mayBeginKey inComment line (column + 1) cs
      else if c = '#' then blankEnd inFlow mayBeginKey true line (column + 1) cs
      else (mayBeginKey, ⟨c :: cs, line, column⟩)

/-- Moves the cursor to the next token. -/
def skipBlanks (s : Lexing) : Lexing :=
  let (may, cursor) :=
    blankEnd s.inFlow s.mayBeginKey false s.cursor.line s.cursor.column s.cursor.rest
  { s with cursor := cursor, mayBeginKey := may }

/-- The longest way from the beginning of a key to its colon. -/
def longestKey : Nat := 1024

/-- A place is given up when no key can reach from there to the cursor. Where a key is
required that is an error. -/
def reachable? (c : Cursor) : Option KeyPlace → Option (Option KeyPlace)
  | none => some none
  | some k =>
      if k.line < c.line ∨ k.column + longestKey < c.column then
        if k.isRequired then none else some none
      else some (some k)

def dropStale? (s : Lexing) : Option Lexing := do
  let place ← reachable? s.cursor s.keyPlace
  let outer ← s.outerPlaces.mapM (reachable? s.cursor)
  return { s with keyPlace := place, outerPlaces := outer }

/-- Gives up the place within the innermost brackets. -/
def dropPlace? (s : Lexing) : Option Lexing :=
  if s.keyPlace.any (·.isRequired) then none else some { s with keyPlace := none }

/-- Remembers the cursor as a place where a key may begin. -/
def savePlace? (s : Lexing) : Option Lexing :=
  if s.mayBeginKey then
    s.dropPlace?.map fun s =>
      { s with keyPlace := some ⟨s.tokens.length, s.cursor.line, s.cursor.column,
          !s.inFlow && s.margin == s.cursor.column + 1⟩ }
  else some s

/-- Begins a block at a column to the right of the current one. -/
def indent (s : Lexing) (column index : Nat) (t : Token) : Lexing :=
  if s.inFlow ∨ column < s.margin then s
  else { s.insert index t with margin := column + 1, margins := s.margin :: s.margins }

/-- Ends the blocks whose margin is beyond `limit`. -/
def unindentAll (limit : Nat) : List Nat → Lexing → Lexing
  | [], s => s
  | m :: ms, s =>
      if limit < s.margin then
        unindentAll limit ms { s.push .blockEnd with margin := m, margins := ms }
      else s

def unindent (s : Lexing) (limit : Nat) : Lexing :=
  if s.inFlow then s else unindentAll limit s.margins s

/-- Takes a token of `n` characters. -/
def take (s : Lexing) (n : Nat) (t : Token) : Lexing :=
  { s.push t with cursor := s.cursor.skip n }

def allowKey (s : Lexing) (may : Bool) : Lexing := { s with mayBeginKey := may }

def documentMarker? (s : Lexing) (t : Token) : Option Lexing :=
  (s.unindent 0).dropPlace?.map fun s => (s.allowKey false).take 3 t

def directive? (s : Lexing) : Option Lexing := do
  let s ← (s.unindent 0).dropPlace?
  let (d, rest) ← Directive.read? (s.cursor.rest.drop 1)
  let cursor ← (s.cursor.upTo rest).finishLine?
  return { (s.allowKey false).push (.directive d) with cursor := cursor }

def flowStart? (s : Lexing) (t : Token) : Option Lexing :=
  s.savePlace?.map fun s =>
    { (s.allowKey true).take 1 t with
      keyPlace := none
      outerPlaces := s.keyPlace :: s.outerPlaces }

def flowEnd? (s : Lexing) (t : Token) : Option Lexing :=
  s.dropPlace?.map fun s =>
    let s := (s.allowKey false).take 1 t
    match s.outerPlaces with
    | [] => s
    | place :: outer => { s with keyPlace := place, outerPlaces := outer }

def flowEntry? (s : Lexing) : Option Lexing :=
  s.dropPlace?.map fun s => (s.allowKey true).take 1 .flowEntry

def blockEntry? (s : Lexing) : Option Lexing :=
  if s.inFlow = false ∧ s.mayBeginKey = false then none
  else
    (s.indent s.cursor.column s.tokens.length .blockSequenceStart).dropPlace?.map fun s =>
      (s.allowKey true).take 1 .blockEntry

def key? (s : Lexing) : Option Lexing :=
  if s.inFlow = false ∧ s.mayBeginKey = false then none
  else
    (s.indent s.cursor.column s.tokens.length .blockMappingStart).dropPlace?.map fun s =>
      (s.allowKey !s.inFlow).take 1 .key

/-- A colon. What stands between the remembered place and the colon becomes a key. -/
def value? (s : Lexing) : Option Lexing :=
  match s.keyPlace with
  | some k =>
      let s := (s.insert k.index .key).indent k.column k.index .blockMappingStart
      some (({ s with keyPlace := none }.allowKey false).take 1 .value)
  | none =>
      if s.inFlow = false ∧ s.mayBeginKey = false then none
      else
        let s := s.indent s.cursor.column s.tokens.length .blockMappingStart
        some ((s.allowKey !s.inFlow).take 1 .value)

/-- The signs that may follow a name directly. -/
def isNameEnd (c : Char) : Bool := ['?', ':', ',', ']', '\x7d', '%', '@', '\x60'].contains c

/-- An alias or an anchor: a name, behind which only some signs may stand. -/
def named? (s : Lexing) (t : List Char → Token) : Option Lexing := do
  let s ← s.savePlace?
  let name := (s.cursor.rest.drop 1).takeWhile isNameChar
  let rest := s.cursor.rest.drop (name.length + 1)
  if name = [] then none
  else if endsToken rest || rest.head?.any isNameEnd then
    return (s.allowKey false).take (name.length + 1) (t name)
  else none

def tag? (s : Lexing) : Option Lexing := do
  let s ← s.savePlace?
  let (t, rest) ← TagName.read? s.cursor.rest
  if endsToken rest || (s.inFlow && rest.head? == some ',') then
    return { (s.allowKey false).push (.tag t) with cursor := s.cursor.upTo rest }
  else none

def blockScalar? (s : Lexing) : Option Lexing := do
  let s ← s.dropPlace?
  let r ← Block.read? s.margin s.cursor
  return { (s.allowKey true).push (.scalar false r.text) with cursor := r.cursor }

def quotedScalar? (s : Lexing) : Option Lexing := do
  let s ← s.savePlace?
  let r ← Quoted.read? s.cursor
  return { (s.allowKey false).push (.scalar false r.text) with cursor := r.cursor }

def plainScalar? (s : Lexing) : Option Lexing := do
  let s ← s.savePlace?
  let r ← Plain.read? s.inFlow s.margin s.cursor
  return { (s.allowKey r.endsLine).push (.scalar true r.text) with cursor := r.cursor }

/-- Signs that begin no plain scalar. -/
def isIndicator (c : Char) : Bool :=
  ['-', '?', ':', ',', '[', ']', '\x7b', '\x7d', '#', '&', '*', '!', '|', '>', '\'', '"', '%', '@',
    '\x60'].contains c

/-- Whether a plain scalar begins with `c`, behind which `cs` stands. -/
def beginsPlain (inFlow : Bool) (c : Char) (cs : List Char) : Bool :=
  (!isSpace c && !isBreak c && !isIndicator c) ||
    (c == '-' && !cs.head?.any isSpace) ||
    (!inFlow && (c == '?' || c == ':') && !endsToken cs)

def token? (s : Lexing) (c : Char) (cs : List Char) : Option Lexing :=
  if s.cursor.column = 0 ∧ c = '%' then s.directive?
  else if s.cursor.isAtMarker then
    s.documentMarker? (if c = '-' then .documentStart else .documentEnd)
  else if c = '[' then s.flowStart? .flowSequenceStart
  else if c = '\x7b' then s.flowStart? .flowMappingStart
  else if c = ']' then s.flowEnd? .flowSequenceEnd
  else if c = '\x7d' then s.flowEnd? .flowMappingEnd
  else if c = ',' then s.flowEntry?
  else if c = '-' ∧ endsToken cs then s.blockEntry?
  else if c = '?' ∧ (s.inFlow ∨ endsToken cs) then s.key?
  else if c = ':' ∧ (s.inFlow ∨ endsToken cs) then s.value?
  else if c = '*' then s.named? .alias
  else if c = '&' then s.named? .anchor
  else if c = '!' then s.tag?
  else if (c = '|' ∨ c = '>') ∧ s.inFlow = false then s.blockScalar?
  else if c = '\'' ∨ c = '"' then s.quotedScalar?
  else if beginsPlain s.inFlow c cs then s.plainScalar?
  else none

/-- Cuts the rest of a text; every round but the last takes a character at least. -/
def finish? : Nat → Lexing → Option Lexing
  | 0, _ => none
  | fuel + 1, s =>
      match s.skipBlanks.dropStale? with
      | none => none
      | some s =>
          let s := s.unindent (s.cursor.column + 1)
          match s.cursor.rest with
          | [] => (s.unindent 0).dropPlace?
          | c :: cs => (s.token? c cs).bind (finish? fuel)

end Lexing

def Token.ofText? (text : String) : Option (List Token) :=
  let cs := text.toList
  if cs.all isPrintable then
    let cs := unifyBreaks cs
    (Lexing.finish? (cs.length + 1) (.start cs)).map fun s => s.tokens.reverse
  else none

end MetricsProxy.Yaml
