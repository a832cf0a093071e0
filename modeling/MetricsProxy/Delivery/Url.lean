import MetricsProxy.Text.Split
import MetricsProxy.Text.Integer

/-!
# Addresses of the destination

An address is read as browsers read it: blanks at the ends and line breaks
anywhere are dropped, a backslash separates like a slash, `.` and `..` segments
are resolved, and what may not stand in a path or a query is percent-encoded.
Only `http` and `https` addresses are of use.
-/
namespace MetricsProxy.Delivery
open Text

structure Url where
  scheme : String
  /-- Host and port as they are written. -/
  authority : String
  path : List Char
  query : Option (List Char)
  deriving DecidableEq, Repr

namespace Url

def upperHex (n : Nat) : Char := (Nat.digitChar (n % 16)).toUpper

/-- The bytes of a character, each as `%` and two digits. -/
def percentEncode (c : Char) : List Char :=
  (String.singleton c).toUTF8.toList.flatMap fun b =>
    ['%', upperHex (b.toNat / 16), upperHex b.toNat]

def isPlain (c : Char) : Bool := decide (0x20 < c.toNat ∧ c.toNat < 0x7f)

def isPathChar (c : Char) : Bool :=
  isPlain c && !(['"', '#', '<', '>', '?', '^', '\x60', '\x7b', '\x7d'].contains c)

def isQueryChar (c : Char) : Bool := isPlain c && !(['"', '#', '<', '>', '\''].contains c)

def encodeWith (stays : Char → Bool) (cs : List Char) : List Char :=
  cs.flatMap fun c => if stays c then [c] else percentEncode c

/-- One value of a form: a blank becomes `+`. -/
def formEncode (s : String) : List Char :=
  s.toList.flatMap fun c =>
    if c = ' ' then ['+']
    else if c.isAlphanum || ['*', '-', '.', '_'].contains c then [c]
    else percentEncode c

def formText (pairs : List (String × String)) : List Char :=
  (['&'] : List Char).intercalate (pairs.map fun p => formEncode p.1 ++ '=' :: formEncode p.2)

def isSlash (c : Char) : Bool := c == '/' || c == '\\'

def lower (cs : List Char) : List Char := cs.map Char.toLower

def isSingleDot (segment : List Char) : Bool := [['.'], ['%', '2', 'e']].contains (lower segment)

def isDoubleDot (segment : List Char) : Bool :=
  [['.', '.'], ['.', '%', '2', 'e'], ['%', '2', 'e', '.'], ['%', '2', 'e', '%', '2', 'e']].contains
    (lower segment)

/-- The segments that remain, last one first. A dot segment at the end leaves an
empty segment behind. -/
def resolveSegments : List (List Char) → List (List Char) → List (List Char)
  | kept, [] => kept
  | kept, [s] =>
      if isDoubleDot s then [] :: kept.tail
      else if isSingleDot s then [] :: kept
      else s :: kept
  | kept, s :: rest =>
      if isDoubleDot s then resolveSegments kept.tail rest
      else if isSingleDot s then resolveSegments kept rest
      else resolveSegments (s :: kept) rest

/-- The path of an address; `cs` begins with a slash or is empty. -/
def pathOf (cs : List Char) : List Char :=
  let segments := (pieces isSlash cs).drop 1
  let kept := (resolveSegments [] (if segments.isEmpty then [[]] else segments)).reverse
  kept.flatMap fun s => '/' :: encodeWith isPathChar s

def isHostChar (c : Char) : Bool :=
  isPlain c && !(['"', '#', '%', '<', '>', '?', '^', '\x60', '|', '\x7b', '\x7d', '@'].contains c)

/-- Whether the text names a host, with a port perhaps. -/
def isAuthority (cs : List Char) : Bool :=
  let (host, port) := match cutAt ':' cs with
    | none => (cs, [])
    | some (host, port) => (host, port)
  !host.isEmpty && host.all isHostChar && (port.isEmpty || (below? 65536 port).isSome)

/-- Reads an address; `none` if it names no place to send requests to. -/
def parse? (text : String) : Option Url :=
  let isMargin := fun c : Char => decide (c.toNat ≤ 0x20)
  let cs := ((text.toList.dropWhile isMargin).reverse.dropWhile isMargin).reverse
  let cs := cs.filter fun c => !(c == '\t' || c == '\n' || c == '\r')
  match cutAt ':' cs with
  | none => none
  | some (scheme, rest) =>
      let scheme := String.ofList (lower scheme)
      if scheme = "http" ∨ scheme = "https" then
        let rest := (rest.dropWhile isSlash).takeWhile (· != '#')
        let authority := rest.takeWhile fun c => !(isSlash c || c == '?')
        let tail := rest.drop authority.length
        let path := tail.takeWhile (· != '?')
        let query := tail.drop path.length
        if isAuthority authority then
          some {
            scheme := scheme
            authority := String.ofList authority
            path := pathOf path
            query := if query.isEmpty then none else some (encodeWith isQueryChar (query.drop 1)) }
        else none
      else none

def withForm (u : Url) (pairs : List (String × String)) : Url :=
  let form := formText pairs
  { u with query := some (match u.query with
      | some q => if q.isEmpty then form else q ++ '&' :: form
      | none => form) }

def target (u : Url) : String :=
  String.ofList (u.path ++ u.query.elim [] fun q => '?' :: q)

end Url
end MetricsProxy.Delivery
