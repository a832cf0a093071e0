import MetricsProxy.Binary64.Numeral

/-!
# The fewest digits that read back

Among the decimals that round to a number, `shortest` takes one of the fewest
digits, and among those the nearest. The search tries the two neighbours of the
number on the grid of one digit, two digits and so on, in exact integers;
seventeen digits always suffice.
-/
namespace MetricsProxy.Binary64
open Text

/-- Which of two equally near decimals of the same length is taken. -/
inductive Tie where
  | toEven
  | awayFromZero
  deriving DecidableEq, Repr

/-- The decimals that round to the number of rank `rank` lie between the
midpoints to its neighbours, the midpoints included when the rank is even. The
decimal is `m * num / den` half units. -/
def readsBack (rank m num den : Nat) : Bool :=
  let low := (units (rank - 1) + units rank) * den
  let high := (units rank + units (rank + 1)) * den
  let x := m * num
  if rank % 2 = 0 then decide (low ≤ x ∧ x ≤ high) else decide (low < x ∧ x < high)

/-- The neighbour of the number on the grid of multiples of `10 ^ exponent`
that reads back, the nearer one if both do. -/
def onGrid (tie : Tie) (rank : Nat) (exponent : Int) : Option Decimal :=
  let num := 2 * one * Nat.pow 10 exponent.toNat
  let den := Nat.pow 10 (-exponent).toNat
  let value := 2 * units rank * den
  let below := value / num
  let rest := value % num
  let up := num < 2 * rest ∨ (2 * rest = num ∧ (tie = .awayFromZero ∨ below % 2 = 1))
  match readsBack rank below num den, readsBack rank (below + 1) num den with
  | true, true => some ⟨if up then below + 1 else below, exponent⟩
  | true, false => some ⟨below, exponent⟩
  | false, true => some ⟨below + 1, exponent⟩
  | false, false => none

/-- The power of ten just above the number: `10 ^ (p - 1) ≤ value < 10 ^ p`. -/
def leadingPower (rank : Nat) : Int :=
  let u := units rank
  if one ≤ u then (natDigits (u / one)).length
  else 1 - ((natDigits (one / u)).length : Int)

/-- Zeros at the end move into the exponent. -/
def Decimal.normalize (d : Decimal) : Decimal :=
  let ds := natDigits d.significand
  let zeros := (ds.reverse.takeWhile (· = '0')).length
  if d.significand = 0 then ⟨0, 0⟩
  else ⟨d.significand / Nat.pow 10 zeros, d.exponent + zeros⟩

/-- The shortest decimal of a magnitude, without zeros at its end. -/
def shortest (tie : Tie) (rank : Nat) : Decimal :=
  if rank = 0 then ⟨0, 0⟩
  else
    let p := leadingPower rank
    let found := (List.range 17).findSome? fun i : Nat => onGrid tie rank (p - 1 - (i : Int))
    (found.getD ⟨0, 0⟩).normalize

end MetricsProxy.Binary64
