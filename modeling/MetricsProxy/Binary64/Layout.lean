import MetricsProxy.Binary64.Shortest

/-!
# Layouts of float text

A layout says which shortest decimal is taken on a tie and how it is written:
for which powers of ten without an exponent, whether a whole number keeps a
`.0`, and what stands for values that have no digits.
-/
namespace MetricsProxy.Binary64
open Text

structure Layout where
  tie : Tie
  /-- The leading powers written without an exponent; `none` means all of them. -/
  positional : Option (Int × Int)
  /-- Whether a whole number ends in `.0`. -/
  keepsFraction : Bool
  /-- Whether a positive exponent carries a sign. -/
  signsExponent : Bool
  nanText : String
  infinityText : String
  deriving DecidableEq, Repr

def zeros (n : Nat) : List Char := List.replicate n '0'

/-- Digits times a power of ten, written with a point only where needed. -/
def positionalText (keepsFraction : Bool) (d : Decimal) : List Char :=
  let ds := natDigits d.significand
  let shift := (-d.exponent).toNat
  if 0 ≤ d.exponent then
    ds ++ zeros d.exponent.toNat ++ (if keepsFraction then ['.', '0'] else [])
  else if shift < ds.length then
    ds.take (ds.length - shift) ++ '.' :: ds.drop (ds.length - shift)
  else '0' :: '.' :: zeros (shift - ds.length) ++ ds

/-- One digit before the point and an exponent after the mark `e`. -/
def exponentText (signsExponent : Bool) (d : Decimal) : List Char :=
  let ds := natDigits d.significand
  let power := d.exponent + (ds.length : Int) - 1
  let mantissa := if ds.length = 1 then ds else ds.take 1 ++ '.' :: ds.drop 1
  mantissa ++ 'e' :: (if signsExponent ∧ 0 ≤ power then ['+'] else []) ++ intDigits power

/-- Writes a decimal value by the layout. -/
def Layout.decimalText (layout : Layout) (d : Decimal) : List Char :=
  let power := d.exponent + ((natDigits d.significand).length : Int) - 1
  match layout.positional with
  | none => positionalText layout.keepsFraction d
  | some (lo, hi) =>
      if d.significand = 0 ∨ (lo ≤ power ∧ power ≤ hi) then positionalText layout.keepsFraction d
      else exponentText layout.signsExponent d

def signText (negative : Bool) : List Char := if negative then ['-'] else []

/-- Writes a number by the layout; a negative zero keeps its sign. -/
def Layout.text (layout : Layout) : Binary64 → List Char
  | .nan => layout.nanText.toList
  | .infinite s => signText s ++ layout.infinityText.toList
  | .finite s r => signText s ++ layout.decimalText (shortest layout.tie r)

end MetricsProxy.Binary64
