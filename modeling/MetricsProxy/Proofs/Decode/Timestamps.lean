import MetricsProxy.Proofs.Binary64.Whole
import MetricsProxy.Proofs.Decode.Grammar
import MetricsProxy.Proofs.Text

/-!
# Times of points

A time is the value of a whole number of 64 bits, or else of a finite number, cut to an
integer and clamped to 64 bits (`IsInstant`). It is in seconds below `10 ^ 12` and in
milliseconds from there on, once: what is left of milliseconds is written as a time again,
and read as that time only if it is below `10 ^ 12` itself (`timestamp_intDigits_iff`).
Whole numbers below `2 ^ 53` are numbers, so it makes no difference whether they are read
as the one or the other (`isInstant_point`).
-/
namespace MetricsProxy
open Text

namespace Text

theorem digits_natDigits (leading n : Nat) : Digits (Binary64.zeros leading ++ natDigits n) n where
  nonempty := by simp [natDigits, Nat.toDigits_ne_nil]
  digits c hc := by
    rcases List.mem_append.mp hc with hc | hc
    · exact Binary64.isDigit_of_mem_zeros hc
    · exact Binary64.isDigit_of_mem_natDigits hc
  value := by
    rw [Nat.ofDigitChars_append, Binary64.ofDigitChars_zeros, Nat.zero_mul,
      Binary64.ofDigitChars_natDigits]

end Text

namespace Binary64

theorem parse?_of_isDigit {c : Char} (h : c.isDigit = true) (cs : List Char) :
    parse? (c :: cs) = magnitude? false (c :: cs) := by
  unfold parse?
  split
  · rename_i heq
    obtain rfl := (List.cons.inj heq).1
    exact absurd h (by decide)
  · rename_i heq
    obtain rfl := (List.cons.inj heq).1
    exact absurd h (by decide)
  · rfl

/-- A decimal that is a whole number up to the limit is read as that number. -/
theorem ofDecimal_whole {n : Nat} (small : n ≤ wholeLimit) {d : Decimal}
    (padded : Decimal.Padded ⟨n, 0⟩ d) :
    ∃ rank : Fin infinityRank, ofDecimal false d = .finite false rank ∧ units rank = n * one := by
  obtain ⟨rank, hunits⟩ := exists_units_eq small
  rcases Nat.eq_zero_or_pos n with rfl | positive
  · obtain ⟨written, hsignificand, -⟩ := padded
    rw [Nat.zero_mul] at hsignificand
    exact ⟨zeroRank, by simp [ofDecimal, hsignificand], (Nat.zero_mul _).symm⟩
  · have hwhole : Decimal.Denotes ⟨n, 0⟩ rank := by
      have hnearest := nearest_units rank
      rw [hunits] at hnearest
      change Nearest rank (n * 10 ^ 0 * one) (10 ^ 0)
      rwa [Nat.pow_zero, Nat.mul_one]
    have hrank : 0 < rank.val := by
      refine Nat.pos_of_ne_zero fun hzero => ?_
      rw [hzero, units_zero] at hunits
      exact absurd hunits.symm (Nat.mul_ne_zero (Nat.ne_of_gt positive) (Nat.ne_of_gt one_pos))
    exact ⟨rank, ofDecimal_of_denotes ((padded.denotes_iff rank).mp hwhole) hrank false, hunits⟩

theorem parse?_point {ds : List Char} {n : Nat} (h : Digits ds n) (small : n ≤ wholeLimit)
    (trailing : Nat) : ∃ rank : Fin infinityRank,
      parse? (ds ++ '.' :: zeros trailing) = some (.finite false rank) ∧ units rank = n * one := by
  have hread := decimal?_point ds (zeros trailing) h.digits (fun c => isDigit_of_mem_zeros) h.nonempty
  rw [Nat.ofDigitChars_append, h.value, ofDigitChars_zeros] at hread
  have hpadded : Decimal.Padded ⟨n, 0⟩ ⟨n * 10 ^ trailing, -((zeros trailing).length : Int)⟩ :=
    ⟨trailing, rfl, by simp [zeros]⟩
  obtain ⟨rank, hrank, hunits⟩ := ofDecimal_whole small hpadded
  obtain ⟨c, cs, rfl, hc⟩ := h.exists_cons
  refine ⟨rank, ?_, hunits⟩
  rw [List.cons_append, parse?_of_isDigit hc, ← List.cons_append, magnitude?, hread]
  exact congrArg some hrank

/-- The integer part of a number is cut towards zero. -/
theorem truncate_finite (lo hi : Int) (negative : Bool) (rank : Fin infinityRank) :
    truncate lo hi (.finite negative rank) =
      max lo (min hi ((signedUnits negative rank).tdiv one)) := by
  unfold truncate signedUnits
  cases negative with
  | false => simp only [Bool.false_eq_true, if_false, Int.ofNat_tdiv]
  | true => simp only [if_true, Int.neg_tdiv, Int.ofNat_tdiv]

end Binary64

namespace Decode
open Binary64

def Fits (i : Int) : Prop := int64Min ≤ i ∧ i ≤ int64Max

def clamped (i : Int) : Int := max int64Min (min int64Max i)

/-- The time that a token says: its value, if it is a whole number of 64 bits, and else the
finite number that it is, cut towards zero and clamped. -/
inductive IsInstant : Token → Int → Prop where
  | whole {t : Token} {s : Int} (numeral : Numeral t s) (fits : Fits s) : IsInstant t s
  | cut {t : Token} {negative : Bool} {rank : Fin infinityRank}
      (other : ∀ s, Numeral t s → ¬ Fits s) (number : parse? t = some (.finite negative rank)) :
      IsInstant t (clamped ((signedUnits negative rank).tdiv one))

/-- A time in seconds; from `10 ^ 12` on it was in milliseconds. -/
def inSeconds (s : Int) : Int := if s < 10 ^ 12 then s else s / 1000

variable {t : Token} {r s : Int}

theorem int64?_eq_some_iff : int64? t = some s ↔ Numeral t s ∧ Fits s := by
  rw [int64?, Option.filter_eq_some_iff, integer?_eq_some_iff, decide_eq_true_eq]
  unfold Fits int64Min int64Max
  exact and_congr_right fun _ => by omega

theorem instant?_of_none (h : int64? t = none) :
    instant? t = some s ↔ ∃ negative rank, parse? t = some (.finite negative rank) ∧
      s = clamped ((signedUnits negative rank).tdiv one) := by
  unfold instant?
  rw [h]
  cases parse? t with
  | none => exact iff_of_false nofun (by rintro ⟨_, _, h, -⟩; cases h)
  | some x =>
      cases x with
      | nan => exact iff_of_false nofun (by rintro ⟨_, _, h, -⟩; cases h)
      | infinite => exact iff_of_false nofun (by rintro ⟨_, _, h, -⟩; cases h)
      | finite negative rank =>
          change some (truncate int64Min int64Max (.finite negative rank)) = some s ↔ _
          rw [truncate_finite, Option.some.injEq]
          constructor
          · rintro rfl
            exact ⟨negative, rank, rfl, rfl⟩
          · rintro ⟨_, _, h, rfl⟩
            cases h
            rfl

theorem instant?_eq_some_iff : instant? t = some s ↔ IsInstant t s := by
  cases hint : int64? t with
  | some i =>
      obtain ⟨numeral, fits⟩ := int64?_eq_some_iff.mp hint
      simp only [instant?, hint, Option.some.injEq]
      constructor
      · rintro rfl
        exact .whole numeral fits
      · intro h
        cases h with
        | whole numeral' fits' =>
            exact Option.some.inj (hint.symm.trans (int64?_eq_some_iff.mpr ⟨numeral', fits'⟩))
        | cut other => exact absurd fits (other i numeral)
  | none =>
      have other (s : Int) (numeral : Numeral t s) : ¬ Fits s := fun fits => by
        rw [int64?_eq_some_iff.mpr ⟨numeral, fits⟩] at hint
        cases hint
      rw [instant?_of_none hint]
      constructor
      · rintro ⟨negative, rank, number, rfl⟩
        exact .cut other number
      · intro h
        cases h with
        | whole numeral fits => exact absurd fits (other s numeral)
        | cut _ number => exact ⟨_, _, number, rfl⟩

theorem IsInstant.fits (h : IsInstant t s) : Fits s := by
  cases h with
  | whole _ fits => exact fits
  | cut =>
      unfold Fits clamped int64Min int64Max
      omega

theorem timestamp_iff : timestamp t = .ok r ↔ ∃ s, IsInstant t s ∧ 0 ≤ s ∧ r = inSeconds s := by
  rw [timestamp_eq_ok_iff]
  constructor
  · intro h
    cases h with
    | seconds instant nonnegative few =>
        exact ⟨r, instant?_eq_some_iff.mp instant, nonnegative, (if_pos few).symm⟩
    | @milliseconds s instant many =>
        unfold millisThreshold at many
        exact ⟨s, instant?_eq_some_iff.mp instant, by omega, (if_neg (by omega)).symm⟩
  · rintro ⟨s, instant, nonnegative, rfl⟩
    by_cases few : s < 10 ^ 12
    · rw [inSeconds, if_pos few]
      exact .seconds (instant?_eq_some_iff.mpr instant) nonnegative few
    · rw [inSeconds, if_neg few]
      exact .milliseconds (instant?_eq_some_iff.mpr instant) (Int.not_lt.mp few)

/-! ## Times that are read again -/

theorem inSeconds_bounds (nonnegative : 0 ≤ s) (fits : Fits s) :
    0 ≤ inSeconds s ∧ inSeconds s ≤ 9223372036854775 := by
  unfold Fits int64Max at fits
  unfold inSeconds
  split <;> omega

theorem inSeconds_lt_iff (nonnegative : 0 ≤ s) : inSeconds s < 10 ^ 12 ↔ s < 10 ^ 15 := by
  unfold inSeconds
  split <;> omega

/-- Seconds are read as they were written unless there are so many that they look like
milliseconds. -/
theorem timestamp_intDigits_iff (nonnegative : 0 ≤ r) (small : r ≤ 9223372036854775) :
    timestamp (intDigits r) = .ok r ↔ r < 10 ^ 12 := by
  have hinstant : instant? (intDigits r) = some r := instant?_intDigits ⟨by omega, by omega⟩
  rw [timestamp_iff]
  constructor
  · rintro ⟨s, hs, -, hr⟩
    obtain rfl := Option.some.inj (hinstant.symm.trans (instant?_eq_some_iff.mpr hs))
    unfold inSeconds at hr
    split at hr <;> omega
  · intro few
    exact ⟨r, instant?_eq_some_iff.mp hinstant, nonnegative, (if_pos few).symm⟩

/-! ## Whole numbers with and without a point -/

variable {ds : Token} {n : Nat}

theorem fits_of_small (small : n < 2 ^ 53) : Fits n := by
  unfold Fits int64Min int64Max
  omega

theorem isInstant_plain (h : Digits ds n) (small : n < 2 ^ 53) : IsInstant ds n :=
  .whole (.plain h) (fits_of_small small)

theorem isInstant_plus (h : Digits ds n) (small : n < 2 ^ 53) : IsInstant ('+' :: ds) n :=
  .whole (.plus h) (fits_of_small small)

theorem isInstant_point (h : Digits ds n) (small : n < 2 ^ 53) (trailing : Nat) :
    IsInstant (ds ++ '.' :: zeros trailing) n := by
  have other (s : Int) (numeral : Numeral (ds ++ '.' :: zeros trailing) s) : ¬ Fits s := by
    rw [← integer?_eq_some_iff] at numeral
    obtain ⟨c, cs, rfl, hc⟩ := h.exists_cons
    rw [List.cons_append, integer?_of_isDigit hc, ← List.cons_append, digits?_point] at numeral
    cases numeral
  obtain ⟨rank, hparse, hunits⟩ := parse?_point h (Nat.le_of_lt small) trailing
  have hvalue : clamped ((signedUnits false rank).tdiv one) = n := by
    have hwhole : (signedUnits false rank).tdiv one = n := by
      rw [signedUnits, if_neg Bool.false_ne_true, ← Int.ofNat_tdiv, hunits,
        Nat.mul_div_cancel n Binary64.one_pos]
    rw [hwhole]
    unfold clamped int64Min int64Max
    omega
  rw [← hvalue]
  exact .cut other hparse

theorem timestamp_of_isInstant (h : IsInstant t s) (nonnegative : 0 ≤ s) :
    timestamp t = .ok (inSeconds s) := timestamp_iff.mpr ⟨s, h, nonnegative, rfl⟩

/-- A time is accepted if it is not negative, and it is in milliseconds from `10 ^ 12` on. What
is accepted is read again as it is exactly if it was below `10 ^ 15`. Whole numbers below
`2 ^ 53` give the same time with a sign, with zeros before them and with zeros after a point. -/
theorem timestamp_normalises :
    (∀ t r, timestamp t = .ok r ↔ ∃ s, IsInstant t s ∧ 0 ≤ s ∧ r = inSeconds s) ∧
      (∀ t r, timestamp t = .ok r → 0 ≤ r ∧ r ≤ 9223372036854775 ∧
        ∀ s, IsInstant t s → (timestamp (intDigits r) = .ok r ↔ s < 10 ^ 15)) ∧
      ∀ n : Nat, n < 2 ^ 53 → ∀ leading trailing,
        let ds := zeros leading ++ natDigits n
        timestamp ds = .ok (inSeconds n) ∧ timestamp ('+' :: ds) = timestamp ds ∧
          timestamp (ds ++ '.' :: zeros trailing) = timestamp ds := by
  refine ⟨fun t r => timestamp_iff, fun t r h => ?_, fun n small leading trailing => ?_⟩
  · obtain ⟨s, hs, nonnegative, rfl⟩ := timestamp_iff.mp h
    obtain ⟨hlow, hhigh⟩ := inSeconds_bounds nonnegative hs.fits
    refine ⟨hlow, hhigh, fun s' hs' => ?_⟩
    obtain rfl : s = s' := Option.some.inj
      ((instant?_eq_some_iff.mpr hs).symm.trans (instant?_eq_some_iff.mpr hs'))
    rw [timestamp_intDigits_iff hlow hhigh, inSeconds_lt_iff nonnegative]
  · intro ds
    have hdigits : Digits ds n := digits_natDigits leading n
    have hplain := timestamp_of_isInstant (isInstant_plain hdigits small) (Int.natCast_nonneg n)
    have hplus := timestamp_of_isInstant (isInstant_plus hdigits small) (Int.natCast_nonneg n)
    have hpoint :=
      timestamp_of_isInstant (isInstant_point hdigits small trailing) (Int.natCast_nonneg n)
    exact ⟨hplain, hplus.trans hplain.symm, hpoint.trans hplain.symm⟩

end Decode
end MetricsProxy
