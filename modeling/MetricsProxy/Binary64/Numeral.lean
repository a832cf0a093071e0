import MetricsProxy.Binary64.Basic
import MetricsProxy.Text.Integer

/-!
# Reading decimal numerals

A numeral is an optional sign, digits with at most one point among or around
them, and an optional exponent; in its place stand `inf`, `infinity` or `nan`
in any case. Its exact value is kept as a whole number and a power of ten and
is rounded once, so reading is correctly rounded for every length.
-/
namespace MetricsProxy.Binary64
open Text

/-- The value `significand * 10 ^ exponent`. -/
structure Decimal where
  significand : Nat
  exponent : Int
  deriving DecidableEq, Repr

/-- Beyond these powers of ten every value overflows, or is nearest to zero. -/
def largestPower : Int := 310
def smallestPower : Int := -326

def ofDecimal (negative : Bool) (d : Decimal) : Binary64 :=
  let power := d.exponent + (natDigits d.significand).length
  if d.significand = 0 ∨ power < smallestPower then .finite negative zeroRank
  else if largestPower < power then .infinite negative
  else if 0 ≤ d.exponent then
    ofUnits negative (d.significand * Nat.pow 10 d.exponent.toNat * one) 1
  else
    ofUnits negative (d.significand * one) (Nat.pow 10 (-d.exponent).toNat)

/-- An exponent stops growing once it has passed this bound: it then decides alone. -/
def exponentBound : Nat := 0x10000

def boundedExponent (ds : List Char) : Nat :=
  ds.foldl (fun e c => if e < exponentBound then 10 * e + (c.toNat - '0'.toNat) else e) 0

/-- What follows the exponent mark: an optional sign and at least one digit. -/
def exponent? : List Char → Option Int
  | '+' :: ds => if (digits? ds).isSome then some (boundedExponent ds) else none
  | '-' :: ds => if (digits? ds).isSome then some (-(boundedExponent ds : Int)) else none
  | ds => if (digits? ds).isSome then some (boundedExponent ds) else none

/-- The exponent part, absent or introduced by `e` or `E`. -/
def exponentPart? : List Char → Option Int
  | [] => some 0
  | c :: cs => if c = 'e' ∨ c = 'E' then exponent? cs else none

def fraction : List Char → List Char × List Char
  | '.' :: cs => (cs.takeWhile Char.isDigit, cs.dropWhile Char.isDigit)
  | cs => ([], cs)

def decimal? (cs : List Char) : Option Decimal :=
  let whole := cs.takeWhile Char.isDigit
  let (part, rest) := fraction (cs.dropWhile Char.isDigit)
  if whole = [] ∧ part = [] then none
  else (exponentPart? rest).map fun e =>
    { significand := Nat.ofDigitChars 10 (whole ++ part) 0, exponent := e - part.length }

/-- The words for the values that no numeral denotes. -/
def special? (negative : Bool) (cs : List Char) : Option Binary64 :=
  match cs.map Char.toLower with
  | ['i', 'n', 'f'] => some (.infinite negative)
  | ['i', 'n', 'f', 'i', 'n', 'i', 't', 'y'] => some (.infinite negative)
  | ['n', 'a', 'n'] => some .nan
  | _ => none

/-- A numeral or special word without its sign. -/
def magnitude? (negative : Bool) (cs : List Char) : Option Binary64 :=
  match decimal? cs with
  | some d => some (ofDecimal negative d)
  | none => special? negative cs

def parse? : List Char → Option Binary64
  | '-' :: cs => magnitude? true cs
  | '+' :: cs => magnitude? false cs
  | cs => magnitude? false cs

end MetricsProxy.Binary64
