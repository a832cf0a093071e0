/-!
# Binary floating-point numbers of 64 bits

A number is not-a-number, an infinity, or a sign with the rank of its magnitude
among the non-negative finite numbers in increasing order. That rank is the
number's bit pattern without the sign. Every finite magnitude is a whole
number of units of `2^-1074`, so sums are exact integers and quotients are
exact ratios until the one rounding in `nearestRank`.
-/
namespace MetricsProxy

/-- Rank of infinity, `2047 * 2^52`: one more than the largest finite rank. -/
abbrev infinityRank : Nat := 0x7ff0000000000000

inductive Binary64 where
  | nan
  | infinite (negative : Bool)
  | finite (negative : Bool) (rank : Fin infinityRank)
  deriving DecidableEq

namespace Binary64

/-- How many ranks lie between one power of two and the next: `2^52`. -/
abbrev binade : Nat := 0x10000000000000

/-- The weight of the sign bit: `2^63`. -/
abbrev signWeight : Nat := 0x8000000000000000

/-- The `rank`-th magnitude in units of `2^-1074`: the first `2^53` ranks are
one unit apart, and after that the distance doubles every `2^52` ranks. -/
def units (rank : Nat) : Nat :=
  if rank < binade then rank
  else (rank % binade + binade) * Nat.pow 2 (rank / binade - 1)

/-- The quotient rounded to the nearest whole number, a tie to the even one. -/
def roundQuotient (num den : Nat) : Nat :=
  let q := num / den
  let r := num % den
  if den < 2 * r ∨ (2 * r = den ∧ q % 2 = 1) then q + 1 else q

/-- The rank whose magnitude is nearest to `num / den` units, a tie to the even
rank. Ranks from `infinityRank` on stand for an overflow. -/
def nearestRank (num den : Nat) : Nat :=
  let spread := (num / den).log2 - 52
  spread * binade + roundQuotient num (den * Nat.pow 2 spread)

/-- The number of this sign nearest to `num / den` units. -/
def ofUnits (negative : Bool) (num den : Nat) : Binary64 :=
  if h : nearestRank num den < infinityRank then .finite negative ⟨nearestRank num den, h⟩
  else .infinite negative

def zeroRank : Fin infinityRank := ⟨0, by decide⟩

def zero : Binary64 := .finite false zeroRank

instance : Inhabited Binary64 := ⟨zero⟩

abbrev one : Nat := Nat.pow 2 1074

def ofNat (n : Nat) : Binary64 := ofUnits false (n * one) 1

def ofInt (i : Int) : Binary64 := ofUnits (decide (i < 0)) (i.natAbs * one) 1

def isFinite : Binary64 → Bool
  | .finite _ _ => true
  | _ => false

def neg : Binary64 → Binary64
  | .nan => .nan
  | .infinite s => .infinite (!s)
  | .finite s r => .finite (!s) r

/-- The exact value of a finite number in units. -/
def signedUnits (negative : Bool) (rank : Nat) : Int :=
  if negative then -(units rank : Int) else units rank

/-- A sum, rounded once. An exact zero is positive unless both terms are negative. -/
def add : Binary64 → Binary64 → Binary64
  | .nan, _ => .nan
  | _, .nan => .nan
  | .infinite s, .infinite t => if s = t then .infinite s else .nan
  | .infinite s, .finite _ _ => .infinite s
  | .finite _ _, .infinite t => .infinite t
  | .finite s a, .finite t b =>
      let sum := signedUnits s a + signedUnits t b
      if sum = 0 then .finite (s && t) zeroRank
      else ofUnits (decide (sum < 0)) sum.natAbs 1

def sub (x y : Binary64) : Binary64 := add x (neg y)

def div : Binary64 → Binary64 → Binary64
  | .nan, _ => .nan
  | _, .nan => .nan
  | .infinite _, .infinite _ => .nan
  | .infinite s, .finite t _ => .infinite (s != t)
  | .finite s _, .infinite t => .finite (s != t) zeroRank
  | .finite s a, .finite t b =>
      if b.val = 0 then
        if a.val = 0 then .nan else .infinite (s != t)
      else ofUnits (s != t) (units a * one) (units b)

/-- Numeric equality: not-a-number differs from itself, the two zeros are equal. -/
def same : Binary64 → Binary64 → Bool
  | .nan, _ => false
  | _, .nan => false
  | .finite s a, .finite t b => a == b && (s == t || a.val == 0)
  | x, y => x == y

/-- The integer part, clamped to `lo … hi`. An infinity is clamped, not-a-number gives zero. -/
def truncate (lo hi : Int) : Binary64 → Int
  | .nan => 0
  | .infinite true => lo
  | .infinite false => hi
  | .finite s r =>
      let whole : Int := (units r / one : Nat)
      max lo (min hi (if s then -whole else whole))

/-- The interchange pattern: sign bit, then the rank. -/
def toBits : Binary64 → Nat
  | .nan => 0x7ff8000000000000
  | .infinite s => s.toNat * signWeight + infinityRank
  | .finite s r => s.toNat * signWeight + r

/-- Reads an interchange pattern; every pattern above infinity is not a number. -/
def ofBits (bits : Nat) : Binary64 :=
  let negative := bits / signWeight % 2 == 1
  let rank := bits % signWeight
  if h : rank < infinityRank then .finite negative ⟨rank, h⟩
  else if rank = infinityRank then .infinite negative
  else .nan

theorem neg_neg (x : Binary64) : x.neg.neg = x := by cases x <;> simp [neg]

theorem same_self_iff (x : Binary64) : x.same x = true ↔ x ≠ .nan := by
  cases x <;> simp [same]

theorem ofBits_toBits (x : Binary64) : ofBits x.toBits = x := by
  cases x with
  | nan => decide
  | infinite s => cases s <;> decide
  | finite s r =>
      have hr := r.isLt
      simp only [infinityRank] at hr
      have hmod : (s.toNat * signWeight + r.val) % signWeight = r.val := by
        simp only [signWeight]; omega
      have hdiv : (s.toNat * signWeight + r.val) / signWeight % 2 = s.toNat := by
        simp only [signWeight]; cases s <;> simp <;> omega
      simp only [ofBits, toBits, hmod, hdiv]
      rw [dif_pos r.isLt]
      cases s <;> simp

end Binary64
end MetricsProxy
