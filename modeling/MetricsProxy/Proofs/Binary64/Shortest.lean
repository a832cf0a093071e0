import MetricsProxy.Binary64.Shortest
import MetricsProxy.Proofs.Binary64.Rounding

/-!
# The shortest decimal reads back

A decimal denotes a number if it lies in the range of the number
(`Decimal.Denotes`). Every neighbour on a grid that the search takes does
(`denotes_of_onGrid`), and on the grid of seventeen digits one of the two
neighbours does, since that grid is finer than the range of any number is wide
(`onGrid_seventeen`). So `shortest` denotes its number, and reading a decimal
that denotes a number gives that number (`ofDecimal_of_denotes`): it is neither
too large nor too small for the reader.
-/
namespace MetricsProxy.Binary64
open Text

namespace Decimal

/-- The value in units is `num / den`. -/
def num (d : Decimal) : Nat := d.significand * 10 ^ d.exponent.toNat * one

def den (d : Decimal) : Nat := 10 ^ (-d.exponent).toNat

theorem den_pos (d : Decimal) : 0 < d.den := Nat.pow_pos (by decide)

def Denotes (d : Decimal) (rank : Nat) : Prop := Nearest rank d.num d.den

/-- The same value with zeros of the exponent written out. -/
def Padded (d d' : Decimal) : Prop :=
  ∃ zeros : Nat, d'.significand = d.significand * 10 ^ zeros ∧ d.exponent = d'.exponent + zeros

theorem Padded.same_value {d d' : Decimal} (h : d.Padded d') : d.num * d'.den = d'.num * d.den := by
  obtain ⟨zeros, significand, exponent⟩ := h
  have hpow : 10 ^ (zeros + d'.exponent.toNat + (-d.exponent).toNat) =
      10 ^ (d.exponent.toNat + (-d'.exponent).toNat) := by
    congr 1
    omega
  simp only [Nat.pow_add] at hpow
  unfold num den
  rw [significand]
  calc d.significand * 10 ^ d.exponent.toNat * one * 10 ^ (-d'.exponent).toNat
      = d.significand * (10 ^ d.exponent.toNat * 10 ^ (-d'.exponent).toNat) * one := by ring
    _ = d.significand * 10 ^ zeros * 10 ^ d'.exponent.toNat * one * 10 ^ (-d.exponent).toNat := by
        rw [← hpow]
        ring

theorem Padded.denotes_iff {d d' : Decimal} (h : d.Padded d') (rank : Nat) :
    d.Denotes rank ↔ d'.Denotes rank :=
  ⟨fun hd => hd.congr d.den_pos d'.den_pos h.same_value,
    fun hd => hd.congr d'.den_pos d.den_pos h.same_value.symm⟩

end Decimal

/-! ## The search -/

theorem nearest_of_readsBack {rank m num den : Nat} (h : readsBack rank m (2 * num) den = true) :
    Nearest rank (m * num) den := by
  have hx : m * (2 * num) = 2 * (m * num) := Nat.mul_left_comm m 2 num
  unfold readsBack at h
  dsimp only at h
  rw [hx] at h
  split at h
  · simp only [decide_eq_true_eq] at h
    exact ⟨h.1, h.2, fun odd => by omega⟩
  · simp only [decide_eq_true_eq] at h
    exact ⟨Nat.le_of_lt h.1, Nat.le_of_lt h.2, fun _ => ⟨Nat.ne_of_lt h.1, Nat.ne_of_lt h.2⟩⟩

theorem denotes_of_readsBack {rank m : Nat} {exponent : Int}
    (h : readsBack rank m (2 * one * Nat.pow 10 exponent.toNat) (Nat.pow 10 (-exponent).toNat) =
      true) : Decimal.Denotes ⟨m, exponent⟩ rank := by
  rw [Nat.mul_assoc] at h
  have hnum : Decimal.num ⟨m, exponent⟩ = m * (one * Nat.pow 10 exponent.toNat) := by
    unfold Decimal.num
    rw [Nat.pow_eq, Nat.mul_assoc, Nat.mul_comm one]
  rw [Decimal.Denotes, hnum]
  exact nearest_of_readsBack h

theorem denotes_of_onGrid {tie : Tie} {rank : Nat} {exponent : Int} {d : Decimal}
    (h : onGrid tie rank exponent = some d) : d.Denotes rank := by
  unfold onGrid at h
  dsimp only at h
  split at h
  · rename_i hbelow habove
    obtain rfl := Option.some.inj h
    split
    · exact denotes_of_readsBack habove
    · exact denotes_of_readsBack hbelow
  · rename_i hbelow habove
    obtain rfl := Option.some.inj h
    exact denotes_of_readsBack hbelow
  · rename_i hbelow habove
    obtain rfl := Option.some.inj h
    exact denotes_of_readsBack habove
  · cases h

/-- A grid finer than the range of a number has a neighbour of the number in it. -/
theorem onGrid_ne_none {rank : Nat} {exponent : Int} (positive : 0 < rank)
    (fine : 2 * one * 10 ^ exponent.toNat <
      (units (rank + 1) - units (rank - 1)) * 10 ^ (-exponent).toNat) (tie : Tie) :
    onGrid tie rank exponent ≠ none := by
  have hprevious : units (rank - 1) < units rank := units_strictMono (by omega)
  have hnext : units rank < units (rank + 1) := units_strictMono (Nat.lt_succ_self rank)
  unfold onGrid
  dsimp only
  rw [Nat.pow_eq, Nat.pow_eq]
  have hden : 0 < 10 ^ (-exponent).toNat := Nat.pow_pos (by decide)
  have hnum : 0 < 2 * one * 10 ^ exponent.toNat :=
    Nat.mul_pos (Nat.mul_pos (by decide) one_pos) (Nat.pow_pos (by decide))
  generalize 10 ^ (-exponent).toNat = den at fine hden ⊢
  generalize 2 * one * 10 ^ exponent.toNat = num at fine hnum ⊢
  have hdiv := Nat.div_add_mod' (2 * units rank * den) num
  have hmod : 2 * units rank * den % num < num := Nat.mod_lt _ hnum
  have hlow : (units (rank - 1) + units rank) * den < 2 * units rank * den :=
    Nat.mul_lt_mul_of_pos_right (by omega) hden
  have hhigh : 2 * units rank * den < (units rank + units (rank + 1)) * den :=
    Nat.mul_lt_mul_of_pos_right (by omega) hden
  have hwidth : (units (rank - 1) + units rank) * den + num <
      (units rank + units (rank + 1)) * den := by
    calc (units (rank - 1) + units rank) * den + num
        < (units (rank - 1) + units rank) * den + (units (rank + 1) - units (rank - 1)) * den :=
          Nat.add_lt_add_left fine _
      _ = (units rank + units (rank + 1)) * den := by
          rw [← Nat.add_mul]
          congr 1
          omega
  generalize 2 * units rank * den / num = below at hdiv ⊢
  have hsucc : (below + 1) * num = below * num + num := Nat.succ_mul _ _
  have hone : readsBack rank below num den = true ∨ readsBack rank (below + 1) num den = true := by
    unfold readsBack
    dsimp only
    rw [hsucc]
    split
    · simp only [decide_eq_true_eq]
      omega
    · simp only [decide_eq_true_eq]
      omega
  split <;> simp_all

/-! ## Seventeen digits -/

/-- The range of a number is wider than the number divided by `10 ^ 16`. -/
theorem units_lt_width {rank : Nat} (positive : 0 < rank) :
    2 * units rank < (units (rank + 1) - units (rank - 1)) * 10 ^ 16 := by
  obtain ⟨e, m, rfl, hm, normal⟩ := exists_binades rank
  have hpow : 0 < 2 ^ e := Nat.two_pow_pos e
  have hnext := units_succ hm normal
  have hunits := units_binades (Nat.le_of_lt hm) normal
  have hbound : m * 2 ^ e ≤ 0x20000000000000 * 2 ^ e :=
    Nat.mul_le_mul_right _ (Nat.le_of_lt hm)
  rw [hnext, hunits]
  by_cases hlowest : e = 0 ∨ binade < m
  · obtain ⟨k, rfl⟩ : ∃ k, m = k + 1 := by
      refine Nat.exists_eq_succ_of_ne_zero ?_
      rintro rfl
      rcases hlowest with rfl | hlt
      · simp at positive
      · exact absurd hlt (Nat.not_lt_zero _)
    have hgap : units (e * binade + k + 1) = units (e * binade + k) + 2 ^ e :=
      units_succ (Nat.lt_of_succ_lt hm) (hlowest.imp_right Nat.le_of_lt_succ)
    rw [Nat.add_assoc, hunits] at hgap
    rw [← Nat.add_assoc, Nat.add_sub_cancel]
    omega
  · obtain rfl : m = binade := by omega
    obtain ⟨f, rfl⟩ : ∃ f, e = f + 1 := ⟨e - 1, by omega⟩
    have hprevious : (f + 1) * binade + binade - 1 = f * binade + (2 * binade - 1) := by
      have hsum : (f + 1) * binade = f * binade + binade := Nat.succ_mul _ _
      have hbinade : 0 < binade := by decide
      omega
    rw [hprevious, units_binades (Nat.sub_le _ _) (.inr (by decide)), Nat.pow_succ]
    simp only [binade]
    omega

theorem lt_pow_length_natDigits (n : Nat) : n < 10 ^ (natDigits n).length :=
  (Nat.length_toDigits_le_iff (by decide) Nat.length_toDigits_pos).mp (Nat.le_refl _)

theorem pow_length_natDigits_le {n : Nat} (positive : 0 < n) :
    10 ^ ((natDigits n).length - 1) ≤ n := by
  by_contra hlt
  have hlength : 0 < (natDigits n).length := Nat.length_toDigits_pos
  rcases Nat.eq_zero_or_pos ((natDigits n).length - 1) with hzero | hpos
  · rw [hzero] at hlt
    omega
  · have hle := (Nat.length_toDigits_le_iff (b := 10) (by decide) hpos).mpr (Nat.lt_of_not_le hlt)
    unfold natDigits at hle hlength
    omega

theorem leadingPower_le {rank : Nat} (positive : 0 < rank) :
    one * 10 ^ (leadingPower rank - 1).toNat ≤
      units rank * 10 ^ (-(leadingPower rank - 1)).toNat := by
  have hunits := units_pos positive
  have hone := one_pos
  unfold leadingPower
  dsimp only
  generalize units rank = u at hunits ⊢
  generalize one = unit at hone ⊢
  split
  · rename_i hlarge
    have hlength : 0 < (natDigits (u / unit)).length := Nat.length_toDigits_pos
    have hle := pow_length_natDigits_le ((Nat.div_pos_iff).mpr ⟨hone, hlarge⟩)
    have hpower : ((natDigits (u / unit)).length : Int) - 1 =
        ((natDigits (u / unit)).length - 1 : Nat) := by omega
    rw [hpower, Int.toNat_natCast, Int.toNat_neg_natCast, Nat.pow_zero, Nat.mul_one, Nat.mul_comm]
    exact (Nat.le_div_iff_mul_le hone).mp hle
  · have hlt := lt_pow_length_natDigits (unit / u)
    have hpower : 1 - ((natDigits (unit / u)).length : Int) - 1 =
        -((natDigits (unit / u)).length : Int) := by omega
    rw [hpower, Int.neg_neg, Int.toNat_natCast, Int.toNat_neg_natCast, Nat.pow_zero, Nat.mul_one,
      Nat.mul_comm u]
    exact Nat.le_of_lt ((Nat.div_lt_iff_lt_mul hunits).mp hlt)

/-- The grid of seventeen digits is fine enough for every number. -/
theorem onGrid_seventeen (tie : Tie) {rank : Nat} (positive : 0 < rank) :
    onGrid tie rank (leadingPower rank - 1 - (16 : Nat)) ≠ none := by
  refine onGrid_ne_none positive ?_ tie
  have hlead := leadingPower_le positive
  have hwidth := units_lt_width positive
  generalize leadingPower rank - 1 = q at hlead ⊢
  generalize units (rank + 1) - units (rank - 1) = width at hwidth ⊢
  have hpow : 10 ^ ((q - (16 : Nat)).toNat + 16 + (-q).toNat) =
      10 ^ (q.toNat + (-(q - (16 : Nat))).toNat) := by
    congr 1
    omega
  simp only [Nat.pow_add] at hpow
  generalize 10 ^ (q - (16 : Nat)).toNat = up at hpow ⊢
  have hden : 0 < 10 ^ (-(q - (16 : Nat))).toNat := Nat.pow_pos (by decide)
  generalize 10 ^ (-(q - (16 : Nat))).toNat = down at hpow hden ⊢
  have hscale : one * up * 10 ^ 16 ≤ units rank * down := by
    refine Nat.le_of_mul_le_mul_right ?_ (Nat.pow_pos (n := (-q).toNat) (by decide : 0 < 10))
    calc one * up * 10 ^ 16 * 10 ^ (-q).toNat = one * (up * 10 ^ 16 * 10 ^ (-q).toNat) := by ring
      _ = one * 10 ^ q.toNat * down := by rw [hpow, Nat.mul_assoc]
      _ ≤ units rank * 10 ^ (-q).toNat * down := Nat.mul_le_mul_right down hlead
      _ = units rank * down * 10 ^ (-q).toNat := by ring
  refine Nat.lt_of_mul_lt_mul_right (a := 10 ^ 16) ?_
  calc 2 * one * up * 10 ^ 16 = 2 * (one * up * 10 ^ 16) := by ring
    _ ≤ 2 * (units rank * down) := Nat.mul_le_mul_left 2 hscale
    _ = 2 * units rank * down := (Nat.mul_assoc 2 _ _).symm
    _ < width * 10 ^ 16 * down := Nat.mul_lt_mul_of_pos_right hwidth hden
    _ = width * down * 10 ^ 16 := by ring

/-! ## The result -/

/-- A number ends in as many zeros as its digits do. -/
theorem pow_zeros_dvd (n : Nat) :
    10 ^ ((natDigits n).reverse.takeWhile (· = '0')).length ∣ n := by
  have hsplit := List.takeWhile_append_dropWhile (p := fun c : Char => decide (c = '0'))
    (l := (natDigits n).reverse)
  have hzeros : (natDigits n).reverse.takeWhile (· = '0') =
      List.replicate ((natDigits n).reverse.takeWhile (· = '0')).length '0' := by
    rw [List.eq_replicate_iff]
    exact ⟨rfl, fun c hc => by simpa using List.all_eq_true.mp List.all_takeWhile c hc⟩
  rw [hzeros] at hsplit
  have hdigits := congrArg List.reverse hsplit
  rw [List.reverse_append, List.reverse_replicate, List.reverse_reverse] at hdigits
  have hvalue : Nat.ofDigitChars 10 (natDigits n) 0 = n :=
    Nat.ofDigitChars_toDigits (by decide) (by decide)
  rw [← hdigits, Nat.ofDigitChars_append, Nat.ofDigitChars_replicate_zero] at hvalue
  exact ⟨_, hvalue.symm⟩

theorem Decimal.normalize_padded {d : Decimal} (nonzero : d.significand ≠ 0) :
    d.normalize.Padded d := by
  refine ⟨((natDigits d.significand).reverse.takeWhile (· = '0')).length, ?_, ?_⟩
  · simp only [Decimal.normalize, if_neg nonzero]
    rw [Nat.pow_eq, Nat.div_mul_cancel (pow_zeros_dvd _)]
  · simp only [Decimal.normalize, if_neg nonzero]

/-- Zero lies in the range of no other number. -/
theorem Decimal.Denotes.significand_ne_zero {d : Decimal} {rank : Nat} (h : d.Denotes rank)
    (positive : 0 < rank) : d.significand ≠ 0 := by
  intro hzero
  have hbelow := h.1
  rw [Decimal.num, hzero, Nat.zero_mul, Nat.zero_mul] at hbelow
  have hpos : 0 < (units (rank - 1) + units rank) * d.den :=
    Nat.mul_pos (Nat.add_pos_right _ (units_pos positive)) d.den_pos
  omega

theorem denotes_shortest (tie : Tie) {rank : Nat} (positive : 0 < rank) :
    (shortest tie rank).Denotes rank := by
  unfold shortest
  rw [if_neg (Nat.ne_of_gt positive)]
  dsimp only
  cases hfound : (List.range 17).findSome? fun i : Nat =>
      onGrid tie rank (leadingPower rank - 1 - (i : Int)) with
  | none =>
      have hlast := List.findSome?_eq_none_iff.mp hfound 16 (by decide)
      exact absurd hlast (onGrid_seventeen tie positive)
  | some d =>
      obtain ⟨i, -, hi⟩ := List.exists_of_findSome?_eq_some hfound
      have hd := denotes_of_onGrid hi
      have hpadded := Decimal.normalize_padded (hd.significand_ne_zero positive)
      exact (hpadded.denotes_iff rank).mpr hd

/-! ## Reading it back -/

theorem smallestPower_le {d : Decimal} {rank : Nat} (h : d.Denotes rank) (positive : 0 < rank) :
    smallestPower ≤ d.exponent + (natDigits d.significand).length := by
  by_contra hsmall
  have hbelow : d.den ≤ 2 * d.num :=
    Nat.le_trans (Nat.le_mul_of_pos_left d.den (Nat.add_pos_right _ (units_pos positive))) h.1
  have hsignificand := lt_pow_length_natDigits d.significand
  have hone : 2 * one ≤ 10 ^ 327 := by decide +kernel
  have hnum : 2 * d.num < 10 ^ ((natDigits d.significand).length + d.exponent.toNat + 327) := by
    have hpow : 0 < 10 ^ d.exponent.toNat := Nat.pow_pos (by decide)
    calc 2 * d.num = d.significand * 10 ^ d.exponent.toNat * (2 * one) := by
          rw [Decimal.num, Nat.mul_left_comm]
      _ < 10 ^ (natDigits d.significand).length * 10 ^ d.exponent.toNat * (2 * one) :=
          Nat.mul_lt_mul_of_pos_right (Nat.mul_lt_mul_of_pos_right hsignificand hpow)
            (Nat.mul_pos (by decide) one_pos)
      _ ≤ 10 ^ (natDigits d.significand).length * 10 ^ d.exponent.toNat * 10 ^ 327 :=
          Nat.mul_le_mul_left _ hone
      _ = 10 ^ ((natDigits d.significand).length + d.exponent.toNat + 327) := by
          rw [Nat.pow_add, Nat.pow_add]
  have hden : 10 ^ ((natDigits d.significand).length + d.exponent.toNat + 327) ≤ d.den :=
    Nat.pow_le_pow_right (by decide) (by unfold smallestPower at hsmall; omega)
  omega

theorem le_largestPower {d : Decimal} {rank : Nat} (h : d.Denotes rank)
    (nonzero : d.significand ≠ 0) (finite : rank < infinityRank) :
    d.exponent + (natDigits d.significand).length ≤ largestPower := by
  by_contra hlarge
  have hsignificand := pow_length_natDigits_le (Nat.pos_of_ne_zero nonzero)
  have hlast : units infinityRank < 10 ^ 310 * one := by decide +kernel
  have habove : d.num < 10 ^ 310 * one * d.den := by
    have hrank : units rank ≤ units infinityRank := units_strictMono.monotone (Nat.le_of_lt finite)
    have hnext : units (rank + 1) ≤ units infinityRank := units_strictMono.monotone finite
    have hsum : (units rank + units (rank + 1)) * d.den ≤
        (units infinityRank + units infinityRank) * d.den :=
      Nat.mul_le_mul_right _ (Nat.add_le_add hrank hnext)
    have hlt : units infinityRank * d.den < 10 ^ 310 * one * d.den :=
      Nat.mul_lt_mul_of_pos_right hlast d.den_pos
    have hhigh : 2 * d.num ≤ (units rank + units (rank + 1)) * d.den := h.2.1
    have hdouble : (units infinityRank + units infinityRank) * d.den =
        units infinityRank * d.den + units infinityRank * d.den := Nat.add_mul _ _ _
    omega
  have hnum : 10 ^ ((natDigits d.significand).length - 1 + d.exponent.toNat) * one ≤ d.num := by
    rw [Nat.pow_add, Decimal.num]
    exact Nat.mul_le_mul_right _ (Nat.mul_le_mul_right _ hsignificand)
  have hden : 10 ^ 310 * d.den ≤
      10 ^ ((natDigits d.significand).length - 1 + d.exponent.toNat) := by
    rw [Decimal.den, ← Nat.pow_add]
    exact Nat.pow_le_pow_right (by decide) (by unfold largestPower at hlarge; omega)
  have hscaled := Nat.mul_le_mul_right one hden
  rw [Nat.mul_right_comm] at hscaled
  omega

/-- A decimal that denotes a number is read as that number. -/
theorem ofDecimal_of_denotes {d : Decimal} {rank : Fin infinityRank} (h : d.Denotes rank)
    (positive : 0 < rank.val) (negative : Bool) : ofDecimal negative d = .finite negative rank := by
  have hnonzero := h.significand_ne_zero positive
  have hsmall := smallestPower_le h positive
  have hlarge := le_largestPower h hnonzero rank.isLt
  unfold ofDecimal
  dsimp only
  rw [if_neg (by omega), if_neg (by omega)]
  have hnearest : Nearest rank d.num d.den := h
  split
  · rename_i hwhole
    have hden : d.den = 1 := by
      rw [Decimal.den, Int.toNat_eq_zero.mpr (by omega), Nat.pow_zero]
    rw [hden] at hnearest
    rw [Nat.pow_eq]
    exact ofUnits_of_nearest hnearest Nat.one_pos negative
  · rename_i hfraction
    have hnum : d.num = d.significand * one := by
      rw [Decimal.num, Int.toNat_eq_zero.mpr (by omega), Nat.pow_zero, Nat.mul_one]
    rw [hnum] at hnearest
    rw [Nat.pow_eq]
    exact ofUnits_of_nearest hnearest d.den_pos negative

end MetricsProxy.Binary64
