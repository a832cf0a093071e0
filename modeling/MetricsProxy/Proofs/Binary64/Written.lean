import MetricsProxy.Point.Graphite
import MetricsProxy.Proofs.Binary64.Shortest

/-!
# Written numbers read back

Text without an exponent is digits with at most one point, and the reader finds
the decimal it was written from up to zeros (`decimal?_positionalText`). With
the decimal that `shortest` gives, the number itself comes back
(`parse?_valueText`), the sign of a zero included. What numbers are written with
(`isNumberChar`) has no blank, no quote and no `=` in it.
-/
namespace MetricsProxy
open Text

namespace Binary64

/-! ## Digits and a point -/

theorem takeWhile_isDigit {ds : List Char} (rest : List Char)
    (digits : ∀ c ∈ ds, c.isDigit = true) (stop : rest.head?.any Char.isDigit = false) :
    (ds ++ rest).takeWhile Char.isDigit = ds ∧ (ds ++ rest).dropWhile Char.isDigit = rest := by
  rw [List.takeWhile_append_of_pos digits, List.dropWhile_append_of_pos digits]
  cases rest with
  | nil => simp
  | cons c cs =>
      have hc : c.isDigit = false := by simpa using stop
      simp [hc]

theorem decimal?_digits {ds : List Char} (digits : ∀ c ∈ ds, c.isDigit = true) (nonempty : ds ≠ []) :
    decimal? ds = some ⟨Nat.ofDigitChars 10 ds 0, 0⟩ := by
  have hsplit := takeWhile_isDigit [] digits rfl
  rw [List.append_nil] at hsplit
  simp [decimal?, hsplit, fraction, exponentPart?, nonempty]

/-- The digits after the point count against the exponent. -/
theorem decimal?_point (whole part : List Char) (wholeDigits : ∀ c ∈ whole, c.isDigit = true)
    (partDigits : ∀ c ∈ part, c.isDigit = true) (nonempty : whole ≠ []) :
    decimal? (whole ++ '.' :: part) =
      some ⟨Nat.ofDigitChars 10 (whole ++ part) 0, -(part.length : Int)⟩ := by
  have hwhole := takeWhile_isDigit ('.' :: part) wholeDigits (by simp)
  have hpart := takeWhile_isDigit [] partDigits rfl
  rw [List.append_nil] at hpart
  simp [decimal?, hwhole, hpart, fraction, exponentPart?, nonempty]

theorem isDigit_of_mem_natDigits {n : Nat} {c : Char} (h : c ∈ natDigits n) : c.isDigit = true :=
  Nat.isDigit_of_mem_toDigits (by decide) (by decide) h

theorem isDigit_of_mem_zeros {n : Nat} {c : Char} (h : c ∈ zeros n) : c.isDigit = true := by
  rw [List.eq_of_mem_replicate h]
  rfl

theorem ofDigitChars_natDigits (n : Nat) : Nat.ofDigitChars 10 (natDigits n) 0 = n :=
  Nat.ofDigitChars_toDigits (by decide) (by decide)

theorem ofDigitChars_zeros (n start : Nat) :
    Nat.ofDigitChars 10 (zeros n) start = start * 10 ^ n := by
  rw [zeros, Nat.ofDigitChars_replicate_zero, Nat.mul_comm]

/-- What is read is the decimal that was written, up to zeros. -/
theorem decimal?_positionalText (keepsFraction : Bool) (d : Decimal) :
    ∃ d', decimal? (positionalText keepsFraction d) = some d' ∧ d.Padded d' := by
  have hdigits : ∀ c ∈ natDigits d.significand, c.isDigit = true := fun c => isDigit_of_mem_natDigits
  unfold positionalText
  dsimp only
  split
  · -- A whole number, its zeros written out.
    have hwhole : ∀ c ∈ natDigits d.significand ++ zeros d.exponent.toNat, c.isDigit = true := by
      intro c hc
      rcases List.mem_append.mp hc with hc | hc
      · exact hdigits c hc
      · exact isDigit_of_mem_zeros hc
    have hne : natDigits d.significand ++ zeros d.exponent.toNat ≠ [] := by
      simp [natDigits, Nat.toDigits_ne_nil]
    have hvalue : Nat.ofDigitChars 10 (natDigits d.significand ++ zeros d.exponent.toNat) 0 =
        d.significand * 10 ^ d.exponent.toNat := by
      rw [Nat.ofDigitChars_append, ofDigitChars_natDigits, ofDigitChars_zeros]
    cases keepsFraction with
    | false =>
        have hread := decimal?_digits hwhole hne
        rw [hvalue] at hread
        refine ⟨_, by simpa using hread, d.exponent.toNat, rfl, ?_⟩
        dsimp only
        omega
    | true =>
        have hread := decimal?_point _ ['0'] hwhole (by simp) hne
        rw [Nat.ofDigitChars_append, hvalue] at hread
        refine ⟨_, hread, d.exponent.toNat + 1, ?_, ?_⟩
        · rw [Nat.pow_succ, ← Nat.mul_assoc]
          exact ofDigitChars_zeros 1 _
        · dsimp only [List.length_singleton]
          omega
  · split
    · -- The point stands among the digits.
      rename_i hfraction hshift
      have hread := decimal?_point
        ((natDigits d.significand).take ((natDigits d.significand).length - (-d.exponent).toNat))
        ((natDigits d.significand).drop ((natDigits d.significand).length - (-d.exponent).toNat))
        (fun c hc => hdigits c (List.mem_of_mem_take hc))
        (fun c hc => hdigits c (List.mem_of_mem_drop hc))
        (by
          simp only [ne_eq, List.take_eq_nil_iff, not_or]
          exact ⟨by omega, Nat.toDigits_ne_nil⟩)
      rw [List.take_append_drop, ofDigitChars_natDigits, List.length_drop] at hread
      refine ⟨_, hread, 0, (Nat.mul_one _).symm, ?_⟩
      dsimp only
      omega
    · -- Zeros stand between the point and the digits.
      rename_i hfraction hshift
      have hread := decimal?_point ['0']
        (zeros ((-d.exponent).toNat - (natDigits d.significand).length) ++
          natDigits d.significand) (by simp)
        (by
          intro c hc
          rcases List.mem_append.mp hc with hc | hc
          · exact isDigit_of_mem_zeros hc
          · exact hdigits c hc)
        (by simp)
      have hzero : Nat.ofDigitChars 10 ['0'] 0 = 0 := rfl
      rw [Nat.ofDigitChars_append, hzero, Nat.ofDigitChars_append, ofDigitChars_zeros, Nat.zero_mul,
        ofDigitChars_natDigits, List.length_append, zeros, List.length_replicate] at hread
      refine ⟨_, hread, 0, (Nat.mul_one _).symm, ?_⟩
      dsimp only
      omega

/-- Text without an exponent reads back as any number its decimal denotes. -/
theorem magnitude?_positionalText {d : Decimal} {rank : Fin infinityRank} (h : d.Denotes rank)
    (positive : 0 < rank.val) (negative keepsFraction : Bool) :
    magnitude? negative (positionalText keepsFraction d) = some (.finite negative rank) := by
  obtain ⟨d', hread, hpadded⟩ := decimal?_positionalText keepsFraction d
  have hd' : d'.Denotes rank := (hpadded.denotes_iff rank).mp h
  simp [magnitude?, hread, ofDecimal_of_denotes hd' positive negative]

/-- The shortest decimal written without an exponent reads back, zero as well. -/
theorem magnitude?_shortest (tie : Tie) (rank : Fin infinityRank) (negative keepsFraction : Bool) :
    magnitude? negative (positionalText keepsFraction (shortest tie rank)) =
      some (.finite negative rank) := by
  rcases Nat.eq_zero_or_pos rank.val with hzero | hpositive
  · obtain rfl : rank = zeroRank := Fin.ext hzero
    obtain ⟨d, hread, written, hsignificand, -⟩ :=
      decimal?_positionalText keepsFraction (shortest tie zeroRank)
    have hdecimal : shortest tie zeroRank = ⟨0, 0⟩ := rfl
    rw [hdecimal, Nat.zero_mul] at hsignificand
    simp [magnitude?, hread, ofDecimal, hsignificand]
  · exact magnitude?_positionalText (denotes_shortest tie hpositive) hpositive negative keepsFraction

/-! ## What numbers are written with -/

/-- Digits, the point, the sign and the letters of `NaN` and `inf`. -/
def isNumberChar (c : Char) : Bool := c.isDigit || ['-', '.', 'N', 'a', 'i', 'n', 'f'].contains c

theorem isNumberChar_of_isDigit {c : Char} (h : c.isDigit = true) : isNumberChar c = true := by
  simp [isNumberChar, h]

theorem ne_of_isNumberChar {c d : Char} (h : isNumberChar c = true) (hd : isNumberChar d = false) :
    c ≠ d := by
  rintro rfl
  rw [h] at hd
  cases hd

theorem isNumberChar_intDigits (i : Int) : ∀ c ∈ intDigits i, isNumberChar c = true := by
  have hdigits : ∀ c ∈ natDigits i.natAbs, isNumberChar c = true :=
    fun c hc => isNumberChar_of_isDigit (isDigit_of_mem_natDigits hc)
  unfold intDigits
  split
  · intro c hc
    rcases List.mem_cons.mp hc with rfl | hc
    · rfl
    · exact hdigits c hc
  · exact hdigits

theorem of_mem_positionalText {keepsFraction : Bool} {d : Decimal} {c : Char}
    (h : c ∈ positionalText keepsFraction d) : c.isDigit = true ∨ c = '.' := by
  have hdigits : ∀ c ∈ natDigits d.significand, c.isDigit = true := fun c => isDigit_of_mem_natDigits
  have hzeros : ∀ n, ∀ c ∈ zeros n, c.isDigit = true := fun n c => isDigit_of_mem_zeros
  unfold positionalText at h
  dsimp only at h
  split at h
  · simp only [List.mem_append, or_assoc] at h
    rcases h with h | h | h
    · exact .inl (hdigits c h)
    · exact .inl (hzeros _ c h)
    · split at h
      · simp only [List.mem_cons, List.not_mem_nil, or_false] at h
        rcases h with rfl | rfl
        · exact .inr rfl
        · exact .inl rfl
      · cases h
  · split at h
    · simp only [List.mem_append, List.mem_cons] at h
      rcases h with h | h | h
      · exact .inl (hdigits c (List.mem_of_mem_take h))
      · exact .inr h
      · exact .inl (hdigits c (List.mem_of_mem_drop h))
    · simp only [List.mem_append, List.mem_cons] at h
      rcases h with (h | h | h) | h
      · exact .inl (h ▸ rfl)
      · exact .inr h
      · exact .inl (hzeros _ c h)
      · exact .inl (hdigits c h)

theorem of_mem_exponentText {signsExponent : Bool} {d : Decimal} {c : Char}
    (h : c ∈ exponentText signsExponent d) : isNumberChar c = true ∨ c ∈ ['e', '+'] := by
  have hdigits (hc : c ∈ natDigits d.significand) : isNumberChar c = true :=
    isNumberChar_of_isDigit (isDigit_of_mem_natDigits hc)
  unfold exponentText at h
  dsimp only at h
  simp only [List.mem_append, List.mem_cons, or_assoc] at h
  rcases h with h | rfl | h | h
  · left
    split at h
    · exact hdigits h
    · simp only [List.mem_append, List.mem_cons] at h
      rcases h with h | rfl | h
      · exact hdigits (List.mem_of_mem_take h)
      · rfl
      · exact hdigits (List.mem_of_mem_drop h)
  · exact .inr (by decide)
  · split at h
    · rw [List.mem_singleton.mp h]
      exact .inr (by decide)
    · cases h
  · exact .inl (isNumberChar_intDigits _ c h)

theorem of_mem_text {layout : Layout} {x : Binary64} (finite : x.isFinite = true) {c : Char}
    (h : c ∈ layout.text x) : isNumberChar c = true ∨ c ∈ ['e', '+'] := by
  have hpositional {d : Decimal} (hc : c ∈ positionalText layout.keepsFraction d) :
      isNumberChar c = true ∨ c ∈ ['e', '+'] := by
    rcases of_mem_positionalText hc with hc | rfl
    · exact .inl (isNumberChar_of_isDigit hc)
    · exact .inl rfl
  cases x with
  | nan => cases finite
  | infinite => cases finite
  | finite negative rank =>
      rcases List.mem_append.mp h with h | h
      · cases negative with
        | false => cases h
        | true =>
            rw [List.mem_singleton.mp h]
            exact .inl rfl
      · unfold Layout.decimalText at h
        dsimp only at h
        split at h
        · exact hpositional h
        · split at h
          · exact hpositional h
          · exact of_mem_exponentText h

end Binary64

namespace Point
open Binary64

theorem isNumberChar_valueText (x : Binary64) : ∀ c ∈ valueText x, isNumberChar c = true := by
  intro c hc
  cases x with
  | nan =>
      have hall : (valueText .nan).all isNumberChar = true := by decide
      exact List.all_eq_true.mp hall c hc
  | infinite negative =>
      have hall : (valueText (.infinite negative)).all isNumberChar = true := by
        cases negative <;> decide
      exact List.all_eq_true.mp hall c hc
  | finite negative rank =>
      rcases List.mem_append.mp hc with hc | hc
      · cases negative with
        | false => cases hc
        | true => rw [List.mem_singleton.mp hc]; rfl
      · rcases of_mem_positionalText hc with hc | rfl
        · exact isNumberChar_of_isDigit hc
        · rfl

/-- A finite value reads back from its text. -/
theorem parse?_valueText {x : Binary64} (finite : x.isFinite = true) :
    parse? (valueText x) = some x := by
  cases x with
  | nan => cases finite
  | infinite negative => cases finite
  | finite negative rank =>
      have hread := magnitude?_shortest valueLayout.tie rank negative false
      cases negative with
      | true => exact hread
      | false =>
          have htext : valueText (.finite false rank) =
              positionalText false (shortest valueLayout.tie rank) := rfl
          rw [htext]
          unfold parse?
          -- The text begins with a digit or a point, so no sign is taken off.
          split
          · rename_i heq
            have hsign := of_mem_positionalText (heq ▸ List.mem_cons_self)
            exact absurd hsign (by decide)
          · rename_i heq
            have hsign := of_mem_positionalText (heq ▸ List.mem_cons_self)
            exact absurd hsign (by decide)
          · exact hread

end Point
end MetricsProxy
