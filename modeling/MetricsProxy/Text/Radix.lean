/-!
# Digits in other bases

Digits up to sixteen, the letters among them in either case. A number is a
non-empty run of digits of its base, and a character can be named by the digits
of its code.
-/
namespace MetricsProxy.Text

def hexDigit? (c : Char) : Option Nat :=
  if c.isDigit then some (c.toNat - '0'.toNat)
  else if 'a' ≤ c ∧ c ≤ 'f' then some (c.toNat - 'a'.toNat + 10)
  else if 'A' ≤ c ∧ c ≤ 'F' then some (c.toNat - 'A'.toNat + 10)
  else none

def digitIn? (base : Nat) (c : Char) : Option Nat := (hexDigit? c).filter (· < base)

def appendDigits? (base n : Nat) (cs : List Char) : Option Nat :=
  cs.foldlM (fun n c => (digitIn? base c).map fun d => n * base + d) n

def inBase? (base : Nat) (cs : List Char) : Option Nat :=
  if cs = [] then none else appendDigits? base 0 cs

/-- The character with the code that the first `n` characters name in hexadecimal. -/
def codePoint? (n : Nat) (cs : List Char) : Option Char :=
  if cs.length < n then none
  else (inBase? 16 (cs.take n)).bind fun v => if v.isValidChar then some (Char.ofNat v) else none

end MetricsProxy.Text
