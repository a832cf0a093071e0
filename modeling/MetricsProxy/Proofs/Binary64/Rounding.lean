import Mathlib.Order.Monotone.Basic
import Mathlib.Tactic.Linarith
import Mathlib.Tactic.Ring
import MetricsProxy.Binary64.Basic

/-!
# Rounding to the nearest number

A quotient is nearest to a number if it lies between the midpoints to its
neighbours, the midpoints themselves included when the rank is even (`Nearest`).
No quotient is nearest to two numbers (`Nearest.unique`), and `nearestRank` finds
the one (`nearest_nearestRank`). So whatever is shown to lie in the range of a
number is rounded to it, whichever fraction it is written as.
-/
namespace MetricsProxy.Binary64

/-! ## Magnitudes in order -/

theorem one_pos : 0 < one := by decide +kernel

/-- Where the exponent is `e`, ranks are `2 ^ e` units apart. -/
theorem units_binades {e m : Nat} (hm : m ≤ 2 * binade) (normal : e = 0 ∨ binade ≤ m) :
    units (e * binade + m) = m * 2 ^ e := by
  have hpos : 0 < binade := by decide
  by_cases hsmall : m < binade
  · have hzero : e = 0 := normal.resolve_right (Nat.not_le_of_lt hsmall)
    simp [units, hzero, hsmall]
  obtain ⟨k, rfl⟩ := Nat.exists_eq_add_of_le (Nat.le_of_not_lt hsmall)
  have hlarge : ¬ e * binade + (binade + k) < binade := by omega
  rw [units, if_neg hlarge, Nat.pow_eq]
  rcases Nat.lt_or_eq_of_le (show k ≤ binade by omega) with hk | rfl
  · have hsum : e * binade + (binade + k) = k + (e + 1) * binade := by ring
    rw [hsum, Nat.add_mul_mod_self_right, Nat.mod_eq_of_lt hk, Nat.add_mul_div_right _ _ hpos,
      Nat.div_eq_of_lt hk, Nat.add_comm k, Nat.zero_add, Nat.add_sub_cancel]
  · have hsum : e * binade + (binade + binade) = (e + 2) * binade := by ring
    rw [hsum, Nat.mul_mod_left, Nat.mul_div_cancel _ hpos, Nat.zero_add,
      show e + 2 - 1 = e + 1 from rfl, Nat.pow_succ]
    ring

theorem exists_binades (rank : Nat) :
    ∃ e m, rank = e * binade + m ∧ m < 2 * binade ∧ (e = 0 ∨ binade ≤ m) := by
  by_cases hsmall : rank < binade
  · exact ⟨0, rank, by omega, by omega, .inl rfl⟩
  · have hdiv : binade * (rank / binade) + rank % binade = rank := Nat.div_add_mod _ _
    have hmod : rank % binade < binade := Nat.mod_lt _ (by decide)
    have hone : 1 ≤ rank / binade := (Nat.one_le_div_iff (by decide)).mpr (Nat.le_of_not_lt hsmall)
    obtain ⟨e, he⟩ := Nat.exists_eq_add_of_le' hone
    refine ⟨e, binade + rank % binade, ?_, by omega, .inr (Nat.le_add_right _ _)⟩
    rw [he] at hdiv
    calc rank = binade * (e + 1) + rank % binade := hdiv.symm
      _ = e * binade + (binade + rank % binade) := by ring

theorem units_succ {e m : Nat} (hm : m < 2 * binade) (normal : e = 0 ∨ binade ≤ m) :
    units (e * binade + m + 1) = units (e * binade + m) + 2 ^ e := by
  rw [Nat.add_assoc, units_binades hm (by omega), units_binades (Nat.le_of_lt hm) normal,
    Nat.succ_mul]

theorem units_strictMono : StrictMono units := by
  refine strictMono_nat_of_lt_succ fun rank => ?_
  obtain ⟨e, m, rfl, hm, normal⟩ := exists_binades rank
  rw [units_succ hm normal]
  exact Nat.lt_add_of_pos_right (Nat.two_pow_pos e)

@[simp] theorem units_zero : units 0 = 0 := rfl

theorem units_pos {rank : Nat} (h : 0 < rank) : 0 < units rank := units_strictMono h

/-! ## Quotients between midpoints -/

/-- The quotient `num / den`, in units, lies in the range of the number of this rank. -/
def Nearest (rank num den : Nat) : Prop :=
  (units (rank - 1) + units rank) * den ≤ 2 * num ∧
    2 * num ≤ (units rank + units (rank + 1)) * den ∧
    (rank % 2 = 1 → (units (rank - 1) + units rank) * den ≠ 2 * num ∧
      2 * num ≠ (units rank + units (rank + 1)) * den)

/-- The ranges of two numbers do not meet: between neighbours the midpoint
belongs to the even one. -/
theorem Nearest.not_lt {a b num den : Nat} (ha : Nearest a num den) (hb : Nearest b num den)
    (positive : 0 < den) : ¬ a < b := by
  intro hab
  have hfirst : units a ≤ units (b - 1) := units_strictMono.monotone (by omega)
  have hsecond : units (a + 1) ≤ units b := units_strictMono.monotone hab
  have hmid : (units a + units (a + 1)) * den ≤ (units (b - 1) + units b) * den :=
    Nat.mul_le_mul_right den (Nat.add_le_add hfirst hsecond)
  have habove := ha.2.1
  have hbelow := hb.1
  have hevena : a % 2 = 0 := by
    by_contra hodd
    exact (ha.2.2 (by omega)).2 (by omega)
  have hevenb : b % 2 = 0 := by
    by_contra hodd
    exact (hb.2.2 (by omega)).1 (by omega)
  have hgap : units a < units (b - 1) := units_strictMono (by omega)
  have hstrict : (units a + units (a + 1)) * den < (units (b - 1) + units b) * den :=
    Nat.mul_lt_mul_of_pos_right (Nat.add_lt_add_of_lt_of_le hgap hsecond) positive
  omega

theorem Nearest.unique {a b num den : Nat} (ha : Nearest a num den) (hb : Nearest b num den)
    (positive : 0 < den) : a = b := by
  have hnot := ha.not_lt hb positive
  have hnot' := hb.not_lt ha positive
  omega

theorem Nearest.congr {rank num den num' den' : Nat} (h : Nearest rank num den)
    (positive : 0 < den) (positive' : 0 < den') (same : num * den' = num' * den) :
    Nearest rank num' den' := by
  obtain ⟨hbelow, habove, hodd⟩ := h
  have hscale (bound : Nat) : bound * den' * den = bound * den * den' := Nat.mul_right_comm _ _ _
  have hnum : 2 * num' * den = 2 * num * den' := by rw [Nat.mul_assoc, Nat.mul_assoc, same]
  refine ⟨?_, ?_, fun odd => ⟨fun heq => (hodd odd).1 ?_, fun heq => (hodd odd).2 ?_⟩⟩
  · refine Nat.le_of_mul_le_mul_right ?_ positive
    rw [hscale, hnum]
    exact Nat.mul_le_mul_right den' hbelow
  · refine Nat.le_of_mul_le_mul_right ?_ positive
    rw [hscale, hnum]
    exact Nat.mul_le_mul_right den' habove
  · refine Nat.eq_of_mul_eq_mul_right positive' ?_
    rw [← hscale, heq, hnum]
  · refine Nat.eq_of_mul_eq_mul_right positive' ?_
    rw [← hscale, ← heq, hnum]

/-! ## The nearest rank -/

/-- A quotient is rounded by half of one at most, and only to an even number by
exactly one half. -/
theorem roundQuotient_spec (num : Nat) {den : Nat} (positive : 0 < den) :
    2 * (roundQuotient num den * den) ≤ 2 * num + den ∧
      2 * num ≤ 2 * (roundQuotient num den * den) + den ∧
      (roundQuotient num den % 2 = 1 →
        2 * (roundQuotient num den * den) ≠ 2 * num + den ∧
          2 * num ≠ 2 * (roundQuotient num den * den) + den) := by
  have hdiv : num / den * den + num % den = num := Nat.div_add_mod' num den
  unfold roundQuotient
  dsimp only
  split
  · rename_i hup
    have hmod : num % den < den := Nat.mod_lt num positive
    have hsucc : (num / den + 1) * den = num / den * den + den := Nat.succ_mul _ _
    omega
  · omega

theorem le_roundQuotient {k num den : Nat} (positive : 0 < den) (h : k * den ≤ num) :
    k ≤ roundQuotient num den := by
  have hk : k ≤ num / den := (Nat.le_div_iff_mul_le positive).mpr h
  unfold roundQuotient
  dsimp only
  split <;> omega

theorem roundQuotient_le {k num den : Nat} (positive : 0 < den) (h : num < k * den) :
    roundQuotient num den ≤ k := by
  have hk : num / den < k := (Nat.div_lt_iff_lt_mul positive).mpr h
  unfold roundQuotient
  dsimp only
  split <;> omega

/-- The spread is chosen such that the rounded quotient is a significand. -/
theorem nearestRank_normal (num : Nat) {den : Nat} (positive : 0 < den) :
    ∃ e, nearestRank num den = e * binade + roundQuotient num (den * 2 ^ e) ∧
      roundQuotient num (den * 2 ^ e) ≤ 2 * binade ∧
      (e = 0 ∨ binade * (den * 2 ^ e) ≤ num) := by
  have hpow : 0 < 2 ^ ((num / den).log2 - 52) := Nat.two_pow_pos _
  refine ⟨(num / den).log2 - 52, by rw [nearestRank, Nat.pow_eq], ?_, ?_⟩
  · refine roundQuotient_le (Nat.mul_pos positive hpow) ?_
    have hlog : num / den < 2 ^ ((num / den).log2 + 1) := Nat.lt_log2_self
    have hexp : 2 ^ ((num / den).log2 + 1) ≤ 2 * binade * 2 ^ ((num / den).log2 - 52) := by
      rw [show 2 * binade = 2 ^ 53 from rfl, ← Nat.pow_add]
      exact Nat.pow_le_pow_right (by decide) (by omega)
    have hlt := (Nat.div_lt_iff_lt_mul positive).mp (Nat.lt_of_lt_of_le hlog hexp)
    rwa [Nat.mul_assoc, Nat.mul_comm (2 ^ _)] at hlt
  · rcases Nat.eq_zero_or_pos ((num / den).log2 - 52) with hzero | hspread
    · exact .inl hzero
    · right
      have hne : num / den ≠ 0 := by
        rintro hzero
        rw [hzero] at hspread
        exact absurd hspread (by decide)
      have hlog : 2 ^ (num / den).log2 ≤ num / den := Nat.log2_self_le hne
      have hexp : binade * 2 ^ ((num / den).log2 - 52) = 2 ^ (num / den).log2 := by
        rw [show binade = 2 ^ 52 from rfl, ← Nat.pow_add]
        congr 1
        omega
      rw [← hexp] at hlog
      have hle := (Nat.le_div_iff_mul_le positive).mp hlog
      rwa [Nat.mul_assoc, Nat.mul_comm (2 ^ _)] at hle

/-- Ranks are at least `2 ^ e` units apart above a significand of this exponent. -/
theorem units_add_spread_le {e m : Nat} (hm : m ≤ 2 * binade) (normal : e = 0 ∨ binade ≤ m) :
    m * 2 ^ e + 2 ^ e ≤ units (e * binade + m + 1) := by
  rcases Nat.lt_or_eq_of_le hm with hlt | rfl
  · rw [units_succ hlt normal, units_binades hm normal]
  · have hshift : e * binade + 2 * binade = (e + 1) * binade + binade := by ring
    rw [hshift, units_succ (by decide) (.inr (Nat.le_refl _)), ← hshift, units_binades hm normal,
      Nat.pow_succ]
    omega

theorem le_midpoint_above {e m : Nat} (den : Nat) (hm : m ≤ 2 * binade)
    (normal : e = 0 ∨ binade ≤ m) : 2 * (m * (den * 2 ^ e)) + den * 2 ^ e ≤
      (units (e * binade + m) + units (e * binade + m + 1)) * den := by
  rw [units_binades hm normal]
  calc 2 * (m * (den * 2 ^ e)) + den * 2 ^ e = (m * 2 ^ e + (m * 2 ^ e + 2 ^ e)) * den := by ring
    _ ≤ (m * 2 ^ e + units (e * binade + m + 1)) * den :=
      Nat.mul_le_mul_right den (Nat.add_le_add_left (units_add_spread_le hm normal) _)

/-- Below a significand, ranks are `2 ^ e` units apart, too, but for the lowest
of an exponent, which is even and not above the quotient. -/
theorem midpoint_below_le {e m num den : Nat} (hm : m ≤ 2 * binade) (normal : e = 0 ∨ binade ≤ m)
    (spread : e = 0 ∨ binade * (den * 2 ^ e) ≤ num) :
    (units (e * binade + m - 1) + units (e * binade + m)) * den + den * 2 ^ e ≤
        2 * (m * (den * 2 ^ e)) ∨
      m % 2 = 0 ∧ (units (e * binade + m - 1) + units (e * binade + m)) * den ≤ 2 * num := by
  rcases m with - | k
  · have hzero : e = 0 := normal.resolve_right (by decide)
    right
    simp [hzero]
  by_cases hlowest : e = 0 ∨ binade ≤ k
  · left
    have hgap : units (e * binade + k + 1) = units (e * binade + k) + 2 ^ e :=
      units_succ (Nat.lt_of_succ_le hm) hlowest
    rw [Nat.add_assoc, units_binades hm normal] at hgap
    rw [← Nat.add_assoc, Nat.add_sub_cancel, Nat.add_assoc, units_binades hm normal]
    refine Nat.le_of_eq ?_
    calc (units (e * binade + k) + (k + 1) * 2 ^ e) * den + den * 2 ^ e
        = (units (e * binade + k) + 2 ^ e + (k + 1) * 2 ^ e) * den := by ring
      _ = ((k + 1) * 2 ^ e + (k + 1) * 2 ^ e) * den := by rw [← hgap]
      _ = 2 * ((k + 1) * (den * 2 ^ e)) := by ring
  · right
    have hlow : k + 1 = binade := by omega
    have hnum : (k + 1) * (den * 2 ^ e) ≤ num := by
      rw [hlow]
      exact spread.resolve_left (by omega)
    have hprevious : units (e * binade + (k + 1) - 1) ≤ (k + 1) * 2 ^ e := by
      rw [← units_binades hm normal]
      exact units_strictMono.monotone (Nat.sub_le _ _)
    refine ⟨by rw [hlow]; rfl, ?_⟩
    calc (units (e * binade + (k + 1) - 1) + units (e * binade + (k + 1))) * den
        ≤ ((k + 1) * 2 ^ e + (k + 1) * 2 ^ e) * den := by
          rw [units_binades hm normal]
          exact Nat.mul_le_mul_right den (Nat.add_le_add_right hprevious _)
      _ = 2 * ((k + 1) * (den * 2 ^ e)) := by ring
      _ ≤ 2 * num := Nat.mul_le_mul_left 2 hnum

theorem nearest_nearestRank (num : Nat) {den : Nat} (positive : 0 < den) :
    Nearest (nearestRank num den) num den := by
  obtain ⟨e, hrank, hm, spread⟩ := nearestRank_normal num positive
  have positive' : 0 < den * 2 ^ e := Nat.mul_pos positive (Nat.two_pow_pos e)
  obtain ⟨hlow, hhigh, hodd⟩ := roundQuotient_spec num positive'
  have normal : e = 0 ∨ binade ≤ roundQuotient num (den * 2 ^ e) :=
    spread.imp_right (le_roundQuotient positive')
  rw [hrank]
  generalize roundQuotient num (den * 2 ^ e) = m at hm hlow hhigh hodd normal ⊢
  have hparity : (e * binade + m) % 2 = m % 2 := by
    have heven : e * binade % 2 = 0 := by
      rw [Nat.mul_mod, show binade % 2 = 0 from rfl, Nat.mul_zero]
    rw [Nat.add_mod, heven, Nat.zero_add, Nat.mod_mod]
  have habove := le_midpoint_above den hm normal
  have hbelow := midpoint_below_le hm normal spread
  refine ⟨by omega, by omega, fun odd => ?_⟩
  rw [hparity] at odd
  have hne := hodd odd
  omega

/-- What lies in the range of a number is rounded to it. -/
theorem ofUnits_of_nearest {rank : Fin infinityRank} {num den : Nat} (h : Nearest rank num den)
    (positive : 0 < den) (negative : Bool) : ofUnits negative num den = .finite negative rank := by
  have heq : nearestRank num den = rank := (nearest_nearestRank num positive).unique h positive
  simp [ofUnits, heq]

end MetricsProxy.Binary64
