import MetricsProxy.Binary64.Numeral
import MetricsProxy.Json
import MetricsProxy.Text.Radix
import MetricsProxy.Yaml.Tag

/-!
# What scalars mean

A plain scalar without a tag may mean nothing, a truth value or a number, and
else means its text. Whole numbers may have a base mark; a numeral with needless
zeros in front is a text. Tags of the schema ask for one of these meanings, all
other tags but those of a document's own leave the text.
-/
namespace MetricsProxy.Yaml.Meaning
open Text

def null? (s : String) : Option Json :=
  if ["null", "Null", "NULL", "~"].contains s then some .null else none

def bool? (s : String) : Option Json :=
  if ["true", "True", "TRUE"].contains s then some (.bool true)
  else if ["false", "False", "FALSE"].contains s then some (.bool false)
  else none

/-- Several digits that begin with zero. -/
def isPadded : List Char → Bool
  | '0' :: c :: cs => (c :: cs).all Char.isDigit
  | _ => false

def unsigned : List Char → List Char
  | '+' :: cs => cs
  | '-' :: cs => cs
  | cs => cs

/-- The size of a whole number without its sign. -/
def size? : List Char → Option Nat
  | '0' :: 'x' :: cs => inBase? 16 cs
  | '0' :: 'o' :: cs => inBase? 8 cs
  | '0' :: 'b' :: cs => inBase? 2 cs
  | cs => if isPadded cs then none else digits? cs

/-- The least number that is too large, and the size of the smallest one. -/
def wholeLimit : Nat := 0x100000000000000000000000000000000
def wholeDepth : Nat := 0x80000000000000000000000000000000

/-- A whole number of 128 bits, signed or not. -/
def whole? : List Char → Option Int
  | '-' :: cs => ((size? cs).filter (· ≤ wholeDepth)).map fun n => -Int.ofNat n
  | cs =>
      ((size? (match cs with
        | '+' :: rest => rest
        | _ => cs)).filter (· < wholeLimit)).map Int.ofNat

/-- A floating-point number. A numeral beyond all numbers is none. -/
def float? (cs : List Char) : Option Binary64 :=
  let s := String.ofList cs
  if [".inf", ".Inf", ".INF", "+.inf", "+.Inf", "+.INF"].contains s then some (.infinite false)
  else if ["-.inf", "-.Inf", "-.INF"].contains s then some (.infinite true)
  else if [".nan", ".NaN", ".NAN"].contains s then some .nan
  else
    match cs with
    | '+' :: c :: rest =>
        if c = '+' ∨ c = '-' then none
        else (Binary64.parse? (c :: rest)).filter Binary64.isFinite
    | _ => (Binary64.parse? cs).filter Binary64.isFinite

/-- What a plain scalar means. -/
def ofPlain (cs : List Char) : Json :=
  let s := String.ofList cs
  if cs = [] then .null
  else
    match null? s, bool? s, whole? cs with
    | some v, _, _ => v
    | _, some v, _ => v
    | _, _, some i => .whole i
    | _, _, _ =>
        match if isPadded (unsigned cs) then none else float? cs with
        | some x => .float x
        | none => .text s

/-- A tag of the schema. -/
def schemaTag (name : String) : Tag := TagName.asciiBytes ("tag:yaml.org,2002:" ++ name).toList

/-- The name of a tag of the document's own. -/
def ownTag? : Option Tag → Option String
  | some (b :: rest) =>
      if b = 0x21 then
        String.fromUTF8? (ByteArray.mk (if rest = [] then [b] else rest).toArray)
      else none
  | _ => none

/-- What a scalar means whose tag is not of the document's own. -/
def ofScalar? (tag : Option Tag) (isPlain : Bool) (cs : List Char) : Option Json :=
  let s := String.ofList cs
  if tag = some (schemaTag "bool") then bool? s
  else if tag = some (schemaTag "int") then (whole? cs).map .whole
  else if tag = some (schemaTag "float") then (float? cs).map .float
  else if tag = some (schemaTag "null") then null? s
  else
    let isOpen := tag.elim true fun t => t.head? == some 0x21
    some (if isPlain && isOpen then ofPlain cs else .text s)

end MetricsProxy.Yaml.Meaning
