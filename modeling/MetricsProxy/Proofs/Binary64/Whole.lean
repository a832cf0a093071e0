import MetricsProxy.Proofs.Binary64.Rounding

/-!
# Whole numbers

A number is its own rounding (`ofUnits_units`), and every whole number up to
`2 ^ 53` is among the numbers (`exists_units_eq`). So the sum of two of them is
rounded once, as the sum of integers (`add_whole`), and is exact as long as it
does not leave that range.
-/
namespace MetricsProxy.Binary64

/-- The largest whole number up to which all whole numbers are numbers. -/
abbrev wholeLimit : Nat := 2 ^ 53

theorem nearest_units (rank : Nat) : Nearest rank (units rank) 1 := by
  have hbelow : units (rank - 1) ≤ units rank := units_strictMono.monotone (Nat.sub_le _ _)
  have habove : units rank < units (rank + 1) := units_strictMono (Nat.lt_succ_self _)
  refine ⟨by omega, by omega, fun odd => ?_⟩
  have hstrict : units (rank - 1) < units rank := units_strictMono (by omega)
  omega

/-- A number is rounded to itself. -/
theorem ofUnits_units (negative : Bool) (rank : Fin infinityRank) :
    ofUnits negative (units rank) 1 = .finite negative rank :=
  ofUnits_of_nearest (nearest_units rank) Nat.one_pos negative

/-- Positive whole numbers up to the limit lie between two powers of two that are not
far apart for a significand. -/
theorem exists_power_le {n : Nat} (positive : 0 < n) (small : n ≤ wholeLimit) :
    ∃ k, k ≤ 52 ∧ 2 ^ k ≤ n ∧ n ≤ 2 ^ (k + 1) := by
  rcases Nat.lt_or_eq_of_le small with hlt | rfl
  · have hlog : n.log2 < 53 := (Nat.log2_lt (Nat.ne_of_gt positive)).mpr hlt
    exact ⟨n.log2, by omega, Nat.log2_self_le (Nat.ne_of_gt positive), Nat.lt_log2_self.le⟩
  · exact ⟨52, Nat.le_refl _, by decide, Nat.le_refl _⟩

theorem exists_units_eq {n : Nat} (small : n ≤ wholeLimit) :
    ∃ rank : Fin infinityRank, units rank = n * one := by
  rcases Nat.eq_zero_or_pos n with rfl | positive
  · exact ⟨zeroRank, (Nat.zero_mul _).symm⟩
  obtain ⟨k, hk, hlow, hhigh⟩ := exists_power_le positive small
  have hshift : 2 ^ k * 2 ^ (52 - k) = binade := by
    rw [← Nat.pow_add, Nat.add_sub_cancel' hk]
  have hleast : binade ≤ n * 2 ^ (52 - k) := by
    rw [← hshift]
    exact Nat.mul_le_mul_right _ hlow
  have hmost : n * 2 ^ (52 - k) ≤ 2 * binade := by
    calc n * 2 ^ (52 - k) ≤ 2 ^ (k + 1) * 2 ^ (52 - k) := Nat.mul_le_mul_right _ hhigh
      _ = 2 * binade := by rw [← hshift, Nat.pow_succ]; ring
  have hone : 2 ^ (52 - k) * 2 ^ (1022 + k) = one := by
    rw [← Nat.pow_add, ← Nat.pow_eq]
    apply congrArg
    omega
  have hvalue : units ((1022 + k) * binade + n * 2 ^ (52 - k)) = n * one := by
    rw [units_binades hmost (.inr hleast), Nat.mul_assoc, hone]
  refine ⟨⟨(1022 + k) * binade + n * 2 ^ (52 - k), ?_⟩, hvalue⟩
  have hexponent : (1022 + k) * binade ≤ 1074 * binade := Nat.mul_le_mul_right _ (by omega)
  exact Nat.lt_of_le_of_lt (Nat.add_le_add hexponent hmost) (by decide)

theorem ofNat_zero : ofNat 0 = zero := by
  rw [ofNat, Nat.zero_mul]
  exact ofUnits_units false zeroRank

theorem ofInt_natCast (n : Nat) : ofInt n = ofNat n := by
  rw [ofInt, ofNat, decide_eq_false (by omega)]
  rfl

theorem ofInt_eq {i : Int} (small : i.natAbs ≤ wholeLimit) :
    ∃ rank : Fin infinityRank, ofInt i = .finite (decide (i < 0)) rank ∧
      signedUnits (decide (i < 0)) rank = i * one := by
  obtain ⟨rank, hunits⟩ := exists_units_eq small
  refine ⟨rank, by rw [ofInt, ← hunits, ofUnits_units], ?_⟩
  unfold signedUnits
  rw [hunits]
  by_cases hi : i < 0
  · rw [decide_eq_true hi, if_pos rfl, Int.natCast_mul, Int.ofNat_natAbs_of_nonpos hi.le]
    ring
  · rw [decide_eq_false hi, if_neg Bool.false_ne_true, Int.natCast_mul,
      Int.natAbs_of_nonneg (by omega)]

theorem add_finite {s t : Bool} {a b : Fin infinityRank} {sum : Int}
    (h : signedUnits s a + signedUnits t b = sum) :
    (finite s a).add (finite t b) =
      if sum = 0 then .finite (s && t) zeroRank else ofUnits (decide (sum < 0)) sum.natAbs 1 := by
  rw [add, h]

/-- The sum of whole numbers is their sum as integers, rounded once. A sum of zero is
positive unless both numbers are negative. -/
theorem add_whole {s t : Bool} {a b : Fin infinityRank} {i j : Int}
    (ha : signedUnits s a = i * one) (hb : signedUnits t b = j * one)
    (signs : i + j = 0 → (s && t) = false) :
    (finite s a).add (finite t b) = ofInt (i + j) := by
  have hone : (0 : Int) < one := Int.natCast_pos.mpr one_pos
  have hsum : signedUnits s a + signedUnits t b = (i + j) * one := by
    rw [ha, hb, Int.add_mul]
  rw [add_finite hsum]
  by_cases hzero : i + j = 0
  · rw [hzero, Int.zero_mul, if_pos rfl, signs hzero, ofInt, Int.natAbs_zero, Nat.zero_mul]
    exact (ofUnits_units false zeroRank).symm
  · have hnonzero : (i + j) * one ≠ 0 := Int.mul_ne_zero hzero hone.ne'
    have hsign : ((i + j) * one < 0) ↔ i + j < 0 := by
      constructor
      · intro h
        by_contra hle
        exact absurd h (Int.not_lt.mpr (Int.mul_nonneg (by omega) hone.le))
      · exact fun h => Int.mul_neg_of_neg_of_pos h hone
    rw [if_neg hnonzero, ofInt, Int.natAbs_mul, Int.natAbs_natCast]
    simp only [hsign]

theorem add_ofInt {i j : Int} (hi : i.natAbs ≤ wholeLimit) (hj : j.natAbs ≤ wholeLimit) :
    (ofInt i).add (ofInt j) = ofInt (i + j) := by
  obtain ⟨a, ha, haunits⟩ := ofInt_eq hi
  obtain ⟨b, hb, hbunits⟩ := ofInt_eq hj
  rw [ha, hb]
  refine add_whole haunits hbunits fun hzero => ?_
  rw [← Bool.decide_and]
  exact decide_eq_false (by omega)

/-- A difference of whole numbers. The negative of zero is no obstacle: it is not zero
as a number, but it adds nothing. -/
theorem add_neg_ofNat {i : Int} {n : Nat} (hi : i.natAbs ≤ wholeLimit) (hn : n ≤ wholeLimit) :
    (ofInt i).add (ofNat n).neg = ofInt (i - n) := by
  obtain ⟨a, ha, haunits⟩ := ofInt_eq hi
  obtain ⟨b, hb⟩ := exists_units_eq hn
  have hneg : signedUnits true b = -(n : Int) * one := by
    unfold signedUnits
    rw [hb, if_pos rfl, Int.natCast_mul, Int.neg_mul]
  rw [ha, ofNat, ← hb, ofUnits_units, Int.sub_eq_add_neg]
  refine add_whole haunits hneg fun hzero => ?_
  rw [Bool.not_false, Bool.and_true]
  exact decide_eq_false (by omega)

theorem neg_ofInt {i : Int} (nonzero : i ≠ 0) (small : i.natAbs ≤ wholeLimit) :
    (ofInt i).neg = ofInt (-i) := by
  obtain ⟨rank, hunits⟩ := exists_units_eq small
  have hsign : (!decide (i < 0)) = decide (-i < 0) := by
    rw [← decide_not]
    exact decide_eq_decide.mpr (by omega)
  rw [ofInt, ofInt, Int.natAbs_neg, ← hunits, ofUnits_units, ofUnits_units, neg, hsign]

theorem add_one {n : Nat} (small : n ≤ wholeLimit) :
    (ofNat n).add (ofNat 1) = ofNat (n + 1) := by
  rw [← ofInt_natCast, ← ofInt_natCast, ← ofInt_natCast,
    add_ofInt (by rwa [Int.natAbs_natCast]) (by decide), Int.natCast_succ]
  rfl

theorem add_neg_one {n : Nat} (small : n + 1 ≤ wholeLimit) :
    (ofNat (n + 1)).add (ofNat 1).neg = ofNat n := by
  rw [← ofInt_natCast, ← ofInt_natCast, ← ofInt_natCast, neg_ofInt (by decide) (by decide),
    add_ofInt (by rwa [Int.natAbs_natCast]) (by decide), Int.natCast_succ]
  congr 1
  omega

theorem add_neg {m b : Nat} (part : b ≤ m) (small : m ≤ wholeLimit) :
    (ofNat m).add (ofNat b).neg = ofNat (m - b) := by
  rw [← ofInt_natCast m, add_neg_ofNat (by rwa [Int.natAbs_natCast]) (part.trans small),
    ← Int.natCast_sub part, ofInt_natCast]

theorem add_sub {m b n : Nat} (part : b ≤ m) (small : m ≤ wholeLimit) (hn : n ≤ wholeLimit) :
    (ofNat m).add ((ofNat n).sub (ofNat b)) = ofNat (m - b + n) := by
  have hdelta : (ofNat n).sub (ofNat b) = ofInt (n - b) := by
    rw [sub, ← ofInt_natCast n, add_neg_ofNat (by rwa [Int.natAbs_natCast]) (part.trans small)]
  have hsum : (m : Int) + (n - b) = ((m - b + n : Nat) : Int) := by omega
  rw [hdelta, ← ofInt_natCast m, add_ofInt (by rwa [Int.natAbs_natCast]) (by omega), hsum,
    ofInt_natCast]

end MetricsProxy.Binary64
