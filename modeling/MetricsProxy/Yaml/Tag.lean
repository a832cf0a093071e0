import MetricsProxy.Text.Radix
import MetricsProxy.Yaml.Cursor

/-!
# Tags and directives

A tag says what kind of value a node is. It is written out in full, or as a
handle and the rest, and the directives before a document say what its handles
stand for. Tags are kept as bytes, since their escapes name bytes.
-/
namespace MetricsProxy.Yaml

/-- Letters, digits, `_` and `-`: what names are made of. -/
def isNameChar (c : Char) : Bool := c.isAlphanum || c = '_' || c = '-'

abbrev Tag := List UInt8

/-- A tag as it is written. A tag without a handle is complete. -/
structure TagName where
  handle : List Char
  suffix : Tag
  deriving DecidableEq, Repr

namespace TagName

/-- Characters of a tag besides those of names and escapes; written out in full, a tag
also has commas and brackets. -/
def isTagChar (inFull : Bool) (c : Char) : Bool :=
  isNameChar c || ";/?:@&=+$.!~*'()".toList.contains c || (inFull && [',', '[', ']'].contains c)

/-- How many bytes a character has whose encoding begins with this byte. -/
def width (b : Nat) : Nat :=
  if b < 0x80 then 1
  else if 0xc0 ≤ b ∧ b < 0xe0 then 2
  else if 0xe0 ≤ b ∧ b < 0xf0 then 3
  else if 0xf0 ≤ b ∧ b < 0xf8 then 4
  else 0

/-- The bytes of a tag up to the first character that cannot belong to it. An escaped
character is escaped byte by byte; `pending` of its bytes are still to come. -/
def bytes? (inFull : Bool) (pending : Nat) : List Char → Option (List UInt8 × List Char)
  | [] => if pending = 0 then some ([], []) else none
  | '%' :: a :: b :: cs =>
      (Text.inBase? 16 [a, b]).bind fun v =>
        let more :=
          if pending ≠ 0 then if 0x80 ≤ v ∧ v < 0xc0 then some (pending - 1) else none
          else if width v = 0 then none
          else some (width v - 1)
        more.bind fun n => (bytes? inFull n cs).map fun r => (UInt8.ofNat v :: r.1, r.2)
  | c :: cs =>
      if pending ≠ 0 ∨ c = '%' then none
      else if isTagChar inFull c then
        (bytes? inFull 0 cs).map fun r => (UInt8.ofNat c.toNat :: r.1, r.2)
      else some ([], c :: cs)

/-- The bytes of a tag, at least one. -/
def someBytes? (inFull : Bool) (cs : List Char) : Option (List UInt8 × List Char) :=
  (bytes? inFull 0 cs).filter fun r => decide (r.2.length < cs.length)

def asciiBytes (cs : List Char) : List UInt8 := cs.map fun c => UInt8.ofNat c.toNat

/-- The tag at the beginning of a text, which begins with an exclamation mark: in full
between pointed brackets, with a handle between exclamation marks, or local to the
document. A single exclamation mark is a tag of its own. -/
def read? : List Char → Option (TagName × List Char)
  | '!' :: '<' :: cs =>
      match someBytes? true cs with
      | some (suffix, '>' :: rest) => some (⟨[], suffix⟩, rest)
      | _ => none
  | '!' :: cs =>
      let word := cs.takeWhile isNameChar
      match cs.drop word.length with
      | '!' :: rest =>
          (someBytes? false rest).map fun r => (⟨'!' :: word ++ ['!'], r.1⟩, r.2)
      | rest =>
          (bytes? false 0 rest).map fun r =>
            let suffix := asciiBytes word ++ r.1
            (if suffix = [] then ⟨[], asciiBytes ['!']⟩ else ⟨['!'], suffix⟩, r.2)
  | _ => none

end TagName

inductive Directive where
  | version (major minor : Nat)
  | handle (name : List Char) (start : List UInt8)
  deriving DecidableEq, Repr

namespace Directive

/-- A version number of at most nine digits. -/
def number? (cs : List Char) : Option (Nat × List Char) :=
  let ds := cs.takeWhile Char.isDigit
  if ds = [] ∨ 9 < ds.length then none
  else some (Nat.ofDigitChars 10 ds 0, cs.drop ds.length)

def readVersion? (cs : List Char) : Option (Directive × List Char) :=
  match number? (cs.dropWhile isSpace) with
  | some (major, '.' :: rest) => (number? rest).map fun r => (.version major r.1, r.2)
  | _ => none

/-- A handle: an exclamation mark, or a word between two. -/
def readName? : List Char → Option (List Char × List Char)
  | '!' :: cs =>
      let word := cs.takeWhile isNameChar
      match cs.drop word.length with
      | '!' :: rest => some ('!' :: word ++ ['!'], rest)
      | rest => if word = [] then some (['!'], rest) else none
  | _ => none

def readHandle? (cs : List Char) : Option (Directive × List Char) :=
  (readName? (cs.dropWhile isSpace)).bind fun (name, rest) =>
    if rest.head?.any isSpace then
      match TagName.someBytes? true (rest.dropWhile isSpace) with
      | some (start, rest) => if endsToken rest then some (.handle name start, rest) else none
      | none => none
    else none

/-- The directive at the beginning of a text, behind the percent sign. -/
def read? (cs : List Char) : Option (Directive × List Char) :=
  let name := cs.takeWhile isNameChar
  let rest := cs.drop name.length
  if endsToken rest = false then none
  else if name = "YAML".toList then readVersion? rest
  else if name = "TAG".toList then readHandle? rest
  else none

def version? : Directive → Option (Nat × Nat)
  | version major minor => some (major, minor)
  | handle _ _ => none

def name? : Directive → Option (List Char)
  | version _ _ => none
  | handle name _ => some name

/-- The directives of a document say no version but 1.1 and 1.2, and nothing twice. -/
def areValid (ds : List Directive) : Bool :=
  decide ((ds.filterMap version?).length ≤ 1) &&
    (ds.filterMap version?).all (fun v => v == (1, 1) || v == (1, 2)) &&
    decide (ds.filterMap name?).Nodup

/-- What a handle stands for, by the directives of the document or else by itself. -/
def meaning? (ds : List Directive) (name : List Char) : Option (List UInt8) :=
  let given := ds.findSome? fun d => match d with
    | .version _ _ => none
    | .handle n start => if n = name then some start else none
  match given with
  | some start => some start
  | none =>
      if name = ['!'] then some (TagName.asciiBytes ['!'])
      else if name = ['!', '!'] then some (TagName.asciiBytes "tag:yaml.org,2002:".toList)
      else none

end Directive

/-- The complete tag, if its handle stands for something. -/
def TagName.resolve? (t : TagName) (ds : List Directive) : Option Tag :=
  if t.handle = [] then some t.suffix
  else (Directive.meaning? ds t.handle).map (· ++ t.suffix)

end MetricsProxy.Yaml
