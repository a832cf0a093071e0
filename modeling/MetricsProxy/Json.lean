import MetricsProxy.Dict
import MetricsProxy.Binary64.Layout

/-!
# JSON values and their compact text

Objects list their members in key order. Numbers are whole or floating-point:
a floating-point one always shows a point or an exponent, and is `null` when it
is not finite.
-/
namespace MetricsProxy

inductive Json where
  | null
  | bool (value : Bool)
  | whole (value : Int)
  | float (value : Binary64)
  | text (value : String)
  | array (items : List Json)
  | object (members : List (String × Json))
  deriving Inhabited

namespace Json
open Text

/-- Shortest digits, ties to even, exponents outside `10^-5 … 10^15` only. -/
def floatLayout : Binary64.Layout where
  tie := .toEven
  positional := some (-5, 15)
  keepsFraction := true
  signsExponent := true
  nanText := "null"
  infinityText := "null"

def hexDigit (n : Nat) : Char := Nat.digitChar (n % 16)

def escapeChar (c : Char) : List Char :=
  if c = '"' then ['\\', '"']
  else if c = '\\' then ['\\', '\\']
  else if c = '\n' then ['\\', 'n']
  else if c = '\r' then ['\\', 'r']
  else if c = '\t' then ['\\', 't']
  else if c = '\x08' then ['\\', 'b']
  else if c = '\x0c' then ['\\', 'f']
  else if c.toNat < 0x20 then ['\\', 'u', '0', '0', hexDigit (c.toNat / 16), hexDigit c.toNat]
  else [c]

def stringText (s : String) : List Char := '"' :: s.toList.flatMap escapeChar ++ ['"']

def floatText (x : Binary64) : List Char :=
  if x.isFinite then floatLayout.text x else ['n', 'u', 'l', 'l']

mutual

def toChars : Json → List Char
  | null => ['n', 'u', 'l', 'l']
  | bool true => ['t', 'r', 'u', 'e']
  | bool false => ['f', 'a', 'l', 's', 'e']
  | whole i => intDigits i
  | float x => floatText x
  | text s => stringText s
  | array items => '[' :: itemsText items ++ [']']
  | object members => '\x7b' :: membersText members ++ ['\x7d']

def itemsText : List Json → List Char
  | [] => []
  | [v] => toChars v
  | v :: w :: vs => toChars v ++ ',' :: itemsText (w :: vs)

def membersText : List (String × Json) → List Char
  | [] => []
  | [(k, v)] => stringText k ++ ':' :: toChars v
  | (k, v) :: m :: ms => stringText k ++ ':' :: toChars v ++ ',' :: membersText (m :: ms)

end

def render (v : Json) : String := String.ofList v.toChars

end Json
end MetricsProxy
