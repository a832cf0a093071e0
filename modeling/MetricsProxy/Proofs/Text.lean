import Mathlib.Data.List.Basic
import MetricsProxy.Text.Integer
import MetricsProxy.Text.Split

/-!
# Texts taken apart

What the pieces of a text are is said by where they stand in it (`mem_pieces_iff`), and
cutting and joining undo each other (`pieces_intercalate`, `intercalate_pieces`). Blanks at
the ends of a text make no difference to what is left of it (`trim_pad`), which has none
(`trimmed_trim`). A numeral is a run of digits after a sign or none (`Numeral`), and the
readers of whole numbers take these and nothing else (`integer?_eq_some_iff`).
-/
namespace MetricsProxy.Text

/-! ## Pieces of a text -/

section
variable {α : Type} {p : α → Bool} {as w : List α}

/-- Nothing, or what a separator begins. -/
def CutOff (p : α → Bool) (after : List α) : Prop :=
  after = [] ∨ ∃ s rest, after = s :: rest ∧ p s = true

/-- `w` stands between two separators of `as`, or between one of them and an end of it. -/
def IsPiece (p : α → Bool) (as w : List α) : Prop :=
  (∀ a ∈ w, p a = false) ∧ ∃ before after, as = before ++ w ++ after ∧
    (before = [] ∨ ∃ first s, before = first ++ [s] ∧ p s = true) ∧ CutOff p after

theorem exists_pieces (p : α → Bool) (as : List α) :
    ∃ v vs, pieces p as = v :: vs ∧ (∃ after, as = v ++ after ∧ CutOff p after) ∧
      ∀ w ∈ vs, ∃ first s after, as = first ++ s :: (w ++ after) ∧ p s = true ∧
        CutOff p after := by
  induction as with
  | nil => exact ⟨[], [], rfl, ⟨[], rfl, .inl rfl⟩, nofun⟩
  | cons a as ih =>
      obtain ⟨v, vs, hpieces, ⟨after, heq, cut⟩, hvs⟩ := ih
      have hrest : ∀ w ∈ vs, ∃ first s after, a :: as = first ++ s :: (w ++ after) ∧ p s = true ∧
          CutOff p after := by
        intro w hw
        obtain ⟨first, s, after, heq, hs, cut⟩ := hvs w hw
        exact ⟨a :: first, s, after, by rw [heq]; rfl, hs, cut⟩
      by_cases ha : p a = true
      · refine ⟨[], v :: vs, by rw [pieces, if_pos ha, hpieces], ⟨a :: as, rfl, ?_⟩, ?_⟩
        · exact .inr ⟨a, as, rfl, ha⟩
        · exact List.forall_mem_cons.mpr ⟨⟨[], a, after, by rw [heq]; rfl, ha, cut⟩, hrest⟩
      · refine ⟨a :: v, vs, by rw [pieces, if_neg ha, hpieces], ⟨after, by rw [heq]; rfl, cut⟩,
          hrest⟩

theorem mem_pieces_append (free : ∀ a ∈ w, p a = false) {after : List α} (cut : CutOff p after) :
    w ∈ pieces p (w ++ after) := by
  have hone : pieces p w = [w] := pieces_eq_singleton free
  rcases cut with rfl | ⟨s, rest, rfl, hs⟩
  · rw [List.append_nil, hone]
    exact List.mem_singleton_self w
  · rw [pieces_append_cons p w rest s hs, hone]
    exact List.mem_append_left _ (List.mem_singleton_self w)

theorem mem_pieces_iff : w ∈ pieces p as ↔ IsPiece p as w := by
  constructor
  · intro hw
    refine ⟨not_of_mem_pieces hw, ?_⟩
    obtain ⟨v, vs, hpieces, ⟨after, heq, cut⟩, hvs⟩ := exists_pieces p as
    rw [hpieces] at hw
    rcases List.mem_cons.mp hw with rfl | hw
    · exact ⟨[], after, heq, .inl rfl, cut⟩
    · obtain ⟨first, s, after, heq, hs, cut⟩ := hvs w hw
      exact ⟨first ++ [s], after, by simp [heq], .inr ⟨first, s, rfl, hs⟩, cut⟩
  · rintro ⟨free, before, after, rfl, rfl | ⟨first, s, rfl, hs⟩, cut⟩
    · exact mem_pieces_append free cut
    · rw [show first ++ [s] ++ w ++ after = first ++ s :: (w ++ after) by simp,
        pieces_append_cons p first _ s hs]
      exact List.mem_append_right _ (mem_pieces_append free cut)

theorem pieces_append_left {l : List α} (free : ∀ a ∈ l, p a = false) (as : List α) :
    ∃ v vs, pieces p as = v :: vs ∧ pieces p (l ++ as) = (l ++ v) :: vs := by
  induction l with
  | nil =>
      obtain ⟨v, vs, hpieces⟩ := List.exists_cons_of_ne_nil (pieces_ne_nil p as)
      exact ⟨v, vs, hpieces, hpieces⟩
  | cons a l ih =>
      obtain ⟨ha, hl⟩ := List.forall_mem_cons.mp free
      obtain ⟨v, vs, hpieces, happend⟩ := ih hl
      refine ⟨v, vs, hpieces, ?_⟩
      rw [List.cons_append, pieces, if_neg (by rw [ha]; exact Bool.false_ne_true), happend]
      rfl

theorem pieces_append_right {r : List α} (free : ∀ a ∈ r, p a = false) (as : List α) :
    ∃ vs v, pieces p as = vs ++ [v] ∧ pieces p (as ++ r) = vs ++ [v ++ r] := by
  induction as with
  | nil => exact ⟨[], [], rfl, pieces_eq_singleton free⟩
  | cons a as ih =>
      obtain ⟨vs, v, hpieces, happend⟩ := ih
      by_cases ha : p a = true
      · refine ⟨[] :: vs, v, by rw [pieces, if_pos ha, hpieces]; rfl, ?_⟩
        rw [List.cons_append, pieces, if_pos ha, happend]
        rfl
      · cases vs with
        | nil =>
            refine ⟨[], a :: v, by rw [pieces, if_neg ha, hpieces]; rfl, ?_⟩
            rw [List.cons_append, pieces, if_neg ha, happend]
            rfl
        | cons u us =>
            refine ⟨(a :: u) :: us, v, by rw [pieces, if_neg ha, hpieces]; rfl, ?_⟩
            rw [List.cons_append, pieces, if_neg ha, happend]
            rfl

end

/-- Cutting undoes a join at a separator, if there is none in what is joined. -/
theorem pieces_intercalate {α : Type} {p : α → Bool} {s : α} (hs : p s = true) {ws : List (List α)}
    (nonempty : ws ≠ []) (free : ∀ w ∈ ws, ∀ a ∈ w, p a = false) :
    pieces p (([s] : List α).intercalate ws) = ws := by
  induction ws with
  | nil => exact absurd rfl nonempty
  | cons w ws ih =>
      obtain ⟨hw, hws⟩ := List.forall_mem_cons.mp free
      cases ws with
      | nil => simpa using pieces_eq_singleton hw
      | cons v vs =>
          rw [List.intercalate_cons_cons, List.append_assoc, List.singleton_append,
            pieces_append_cons p w _ s hs, pieces_eq_singleton hw, ih (by simp) hws]
          rfl

/-- Joining undoes a cut. -/
theorem intercalate_pieces (s : Char) (cs : List Char) :
    ([s] : List Char).intercalate (pieces (· == s) cs) = cs := by
  induction cs with
  | nil => simp [pieces]
  | cons c cs ih =>
      obtain ⟨v, vs, hpieces⟩ := List.exists_cons_of_ne_nil (pieces_ne_nil (· == s) cs)
      rw [hpieces] at ih
      by_cases hc : c = s
      · simp [pieces, hc, hpieces, List.intercalate_cons_cons, ih]
      · simp only [pieces, hpieces, beq_iff_eq, hc, if_false]
        cases vs with
        | nil => simpa using ih
        | cons u us =>
            rw [List.intercalate_cons_cons] at ih ⊢
            simpa using ih

/-! ## Blanks at the ends -/

section
variable {l r cs : List Char}

theorem trimEnd_append (blank : ∀ c ∈ r, isBlank c = true) (cs : List Char) :
    trimEnd (cs ++ r) = trimEnd cs := by
  induction cs with
  | nil => exact (trimEnd_eq_nil_iff r).mpr blank
  | cons c cs ih => rw [List.cons_append, trimEnd, trimEnd, ih]

/-- Blanks at either end make no difference. -/
theorem trim_pad (left : ∀ c ∈ l, isBlank c = true) (right : ∀ c ∈ r, isBlank c = true)
    (cs : List Char) : trim (l ++ cs ++ r) = trim cs := by
  rw [List.append_assoc, trim, trimStart, List.dropWhile_append_of_pos left,
    List.dropWhile_append]
  split
  · rename_i hcs
    have hblank : trim cs = [] := by rw [trim, trimStart, List.isEmpty_iff.mp hcs]; rfl
    rw [hblank, trimEnd_eq_nil_iff]
    exact fun c hc => right c ((List.dropWhile_sublist isBlank).subset hc)
  · exact trimEnd_append right _

theorem exists_trimEnd (cs : List Char) :
    ∃ r, (∀ c ∈ r, isBlank c = true) ∧ cs = trimEnd cs ++ r := by
  induction cs with
  | nil => exact ⟨[], nofun, rfl⟩
  | cons c cs ih =>
      obtain ⟨r, blank, heq⟩ := ih
      rw [trimEnd]
      split
      · rename_i hnil
        rw [hnil] at heq
        split
        · rename_i hc
          exact ⟨c :: cs, List.forall_mem_cons.mpr ⟨hc, heq ▸ blank⟩, rfl⟩
        · exact ⟨cs, heq ▸ blank, rfl⟩
      · rename_i hcons
        refine ⟨r, blank, ?_⟩
        rw [hcons] at heq
        exact congrArg (c :: ·) heq

theorem exists_trim (cs : List Char) :
    ∃ l r, (∀ c ∈ l, isBlank c = true) ∧ (∀ c ∈ r, isBlank c = true) ∧ cs = l ++ trim cs ++ r := by
  obtain ⟨r, blank, heq⟩ := exists_trimEnd (trimStart cs)
  refine ⟨cs.takeWhile isBlank, r, List.all_eq_true.mp List.all_takeWhile, blank, ?_⟩
  rw [trim, List.append_assoc, ← heq, trimStart, List.takeWhile_append_dropWhile]

/-- No blank stands at either end. -/
structure Trimmed (cs : List Char) : Prop where
  first : ∀ c, cs.head? = some c → isBlank c = false
  last : ∀ c, cs.getLast? = some c → isBlank c = false

theorem trimmed_of_solid (solid : ∀ c ∈ cs, isBlank c = false) : Trimmed cs where
  first c hc := solid c (List.mem_of_mem_head? hc)
  last c hc := solid c (List.mem_of_getLast? hc)

theorem getLast?_trimEnd {c : Char} (h : (trimEnd cs).getLast? = some c) : isBlank c = false := by
  induction cs with
  | nil => simp [trimEnd] at h
  | cons d ds ih =>
      rw [trimEnd] at h
      split at h
      · split at h
        · simp at h
        · rename_i hd
          simpa [← Option.some.inj h] using hd
      · rename_i hrest
        rw [hrest] at ih
        exact ih (by simpa using h)

theorem trimEnd_eq_self (last : ∀ c, cs.getLast? = some c → isBlank c = false) :
    trimEnd cs = cs := by
  induction cs with
  | nil => rfl
  | cons d ds ih =>
      cases ds with
      | nil => simp [trimEnd, last d rfl]
      | cons e es =>
          have hrest := ih fun c hc => last c (by simpa using hc)
          rw [trimEnd, hrest]

theorem trimmed_trim (cs : List Char) : Trimmed (trim cs) where
  first c hc := by
    obtain ⟨r, -, heq⟩ := exists_trimEnd (trimStart cs)
    have hhead : (trimStart cs).head? = some c := by
      rw [trim] at hc
      rw [heq, List.head?_append, hc, Option.some_or]
    have hblank := List.head?_dropWhile_not isBlank cs
    rw [← trimStart, hhead] at hblank
    simpa using hblank
  last c hc := getLast?_trimEnd hc

theorem Trimmed.trim_eq (h : Trimmed cs) : trim cs = cs := by
  cases cs with
  | nil => rfl
  | cons c cs =>
      have hc := h.first c rfl
      rw [trim, trimStart, List.dropWhile_cons_of_neg (by simp [hc]), trimEnd_eq_self h.last]

end

/-! ## Numerals -/

structure Digits (ds : List Char) (n : Nat) : Prop where
  nonempty : ds ≠ []
  digits : ∀ c ∈ ds, c.isDigit = true
  value : Nat.ofDigitChars 10 ds 0 = n

/-- A whole number in decimal, after a sign or none. -/
inductive Numeral : List Char → Int → Prop where
  | plain {ds : List Char} {n : Nat} (digits : Digits ds n) : Numeral ds n
  | plus {ds : List Char} {n : Nat} (digits : Digits ds n) : Numeral ('+' :: ds) n
  | minus {ds : List Char} {n : Nat} (digits : Digits ds n) : Numeral ('-' :: ds) (-n)

variable {ds cs : List Char} {n : Nat} {i : Int}

theorem digits?_eq_some_iff : digits? ds = some n ↔ Digits ds n := by
  unfold digits?
  constructor
  · intro h
    split at h
    · rename_i hdigits
      exact ⟨hdigits.1, List.all_eq_true.mp hdigits.2, Option.some.inj h⟩
    · cases h
  · rintro ⟨nonempty, digits, rfl⟩
    rw [if_pos ⟨nonempty, List.all_eq_true.mpr digits⟩]

theorem Digits.exists_cons (h : Digits ds n) : ∃ c cs, ds = c :: cs ∧ c.isDigit = true := by
  cases ds with
  | nil => exact absurd rfl h.nonempty
  | cons c cs => exact ⟨c, cs, rfl, h.digits c List.mem_cons_self⟩

theorem integer?_of_isDigit {c : Char} (h : c.isDigit = true) (cs : List Char) :
    integer? (c :: cs) = (digits? (c :: cs)).map Int.ofNat := by
  unfold integer?
  split
  · rename_i heq
    obtain rfl := (List.cons.inj heq).1
    exact absurd h (by decide)
  · rename_i heq
    obtain rfl := (List.cons.inj heq).1
    exact absurd h (by decide)
  · rfl

theorem integer?_eq_some_iff : integer? cs = some i ↔ Numeral cs i := by
  constructor
  · intro h
    unfold integer? at h
    split at h
    · obtain ⟨n, hn, rfl⟩ := Option.map_eq_some_iff.mp h
      exact .plus (digits?_eq_some_iff.mp hn)
    · obtain ⟨n, hn, rfl⟩ := Option.map_eq_some_iff.mp h
      exact .minus (digits?_eq_some_iff.mp hn)
    · obtain ⟨n, hn, rfl⟩ := Option.map_eq_some_iff.mp h
      exact .plain (digits?_eq_some_iff.mp hn)
  · intro h
    cases h with
    | plus digits => simp [integer?, digits?_eq_some_iff.mpr digits]
    | minus digits => simp [integer?, digits?_eq_some_iff.mpr digits]
    | plain digits =>
        obtain ⟨c, cs, rfl, hc⟩ := digits.exists_cons
        simp [integer?_of_isDigit hc, digits?_eq_some_iff.mpr digits]

theorem digits?_point (cs ds : List Char) : digits? (cs ++ '.' :: ds) = none := by
  refine if_neg fun h => ?_
  have hpoint := List.all_eq_true.mp h.2 '.' (List.mem_append_right cs List.mem_cons_self)
  exact absurd hpoint (by decide)

theorem natural?_of_isDigit {c : Char} (h : c.isDigit = true) (cs : List Char) :
    natural? (c :: cs) = digits? (c :: cs) := by
  unfold natural?
  split
  · rename_i heq
    obtain rfl := (List.cons.inj heq).1
    exact absurd h (by decide)
  · rfl

theorem natural?_eq_some_iff :
    natural? cs = some n ↔ Digits cs n ∨ ∃ ds, cs = '+' :: ds ∧ Digits ds n := by
  constructor
  · intro h
    unfold natural? at h
    split at h
    · exact .inr ⟨_, rfl, digits?_eq_some_iff.mp h⟩
    · exact .inl (digits?_eq_some_iff.mp h)
  · rintro (digits | ⟨ds, rfl, digits⟩)
    · obtain ⟨c, cs, rfl, hc⟩ := digits.exists_cons
      exact (natural?_of_isDigit hc cs).trans (digits?_eq_some_iff.mpr digits)
    · exact digits?_eq_some_iff.mpr digits

/-! ## Numerals as they are written -/

theorem natDigits_digit {c : Char} (h : c.isDigit = true) :
    c.toNat - '0'.toNat < 10 ∧ natDigits (c.toNat - '0'.toNat) = [c] := by
  have hbounds := Char.isDigit_iff_toNat.mp h
  have hzero : '0'.toNat = 48 := rfl
  have hnine : '9'.toNat = 57 := rfl
  have hsmall : c.toNat - '0'.toNat < 10 := by omega
  have hchar : (c.toNat - '0'.toNat).digitChar = c := by
    apply Char.toNat_inj.mp
    rw [Nat.toNat_digitChar_of_lt_ten hsmall]
    omega
  exact ⟨hsmall, by rw [natDigits, Nat.toDigits_of_lt_base hsmall, hchar]⟩

/-- Digits that are read after a number stand behind its own, unless it is zero. -/
theorem natDigits_ofDigitChars (digits : ∀ c ∈ ds, c.isDigit = true) (positive : 0 < n) :
    natDigits (Nat.ofDigitChars 10 ds n) = natDigits n ++ ds := by
  induction ds generalizing n with
  | nil => simp
  | cons d ds ih =>
      obtain ⟨hd, hds⟩ := List.forall_mem_cons.mp digits
      obtain ⟨hsmall, hdigit⟩ := natDigits_digit hd
      rw [Nat.ofDigitChars_cons]
      calc
        natDigits (Nat.ofDigitChars 10 ds (10 * n + (d.toNat - '0'.toNat)))
          = natDigits (10 * n + (d.toNat - '0'.toNat)) ++ ds := ih hds (by omega)
        _ = natDigits n ++ natDigits (d.toNat - '0'.toNat) ++ ds := by
            rw [natDigits, natDigits, natDigits,
              Nat.toDigits_append_toDigits (by decide) positive hsmall]
        _ = natDigits n ++ d :: ds := by rw [hdigit, List.append_assoc, List.singleton_append]

theorem natDigits_ofDigitChars_cons {d : Char} (digits : ∀ c ∈ d :: ds, c.isDigit = true)
    (leads : d ≠ '0') : natDigits (Nat.ofDigitChars 10 (d :: ds) 0) = d :: ds := by
  obtain ⟨hd, hds⟩ := List.forall_mem_cons.mp digits
  have hdigit := (natDigits_digit hd).2
  have hpositive : 0 < d.toNat - '0'.toNat := by
    have hbounds := Char.isDigit_iff_toNat.mp hd
    have hne : d.toNat ≠ '0'.toNat := fun h => leads (Char.toNat_inj.mp h)
    omega
  rw [Nat.ofDigitChars_cons, Nat.mul_zero, Nat.zero_add, natDigits_ofDigitChars hds hpositive,
    hdigit, List.singleton_append]

theorem ofDigitChars_zero_cons (ds : List Char) :
    Nat.ofDigitChars 10 ('0' :: ds) 0 = Nat.ofDigitChars 10 ds 0 := by
  rw [Nat.ofDigitChars_cons]
  rfl

theorem length_natDigits_le (digits : ∀ c ∈ ds, c.isDigit = true) (nonempty : ds ≠ []) :
    (natDigits (Nat.ofDigitChars 10 ds 0)).length ≤ ds.length := by
  induction ds with
  | nil => exact absurd rfl nonempty
  | cons d ds ih =>
      by_cases zero : d = '0'
      · rw [zero, ofDigitChars_zero_cons]
        cases ds with
        | nil => exact Nat.le_refl 1
        | cons e es =>
            have hrest := ih (List.forall_mem_cons.mp digits).2 (List.cons_ne_nil e es)
            exact Nat.le_succ_of_le hrest
      · exact Nat.le_of_eq (congrArg List.length (natDigits_ofDigitChars_cons digits zero))

/-- Digits are those of the number itself when no zero leads them. -/
theorem Digits.natDigits_eq_iff (h : Digits ds n) :
    natDigits n = ds ↔ ds = ['0'] ∨ ds.head? ≠ some '0' := by
  obtain ⟨nonempty, digits, rfl⟩ := h
  cases ds with
  | nil => exact absurd rfl nonempty
  | cons d ds =>
      by_cases zero : d = '0'
      · subst zero
        cases ds with
        | nil => simp [Nat.ofDigitChars_cons, natDigits]
        | cons e es =>
            have hshort := length_natDigits_le (List.forall_mem_cons.mp digits).2
              (List.cons_ne_nil e es)
            have hne : natDigits (Nat.ofDigitChars 10 (e :: es) 0) ≠ '0' :: e :: es := by
              intro heq
              rw [heq] at hshort
              exact absurd hshort (by simp)
            simp [ofDigitChars_zero_cons, hne]
      · simp [natDigits_ofDigitChars_cons digits zero, zero]

/-- No `+`, no leading zero and no zero with a sign. -/
def isCanonical : List Char → Bool
  | '+' :: _ => false
  | '-' :: ds => ds.head? != some '0'
  | ds => ds == ['0'] || ds.head? != some '0'

theorem Numeral.intDigits_eq_iff (h : Numeral cs i) : intDigits i = cs ↔ isCanonical cs = true := by
  cases h with
  | @plain ds n digits =>
      obtain ⟨c, cs, rfl, hc⟩ := digits.exists_cons
      have hcanonical : isCanonical (c :: cs) =
          (c :: cs == ['0'] || (c :: cs).head? != some '0') := by
        unfold isCanonical
        split <;> simp_all
      rw [hcanonical, intDigits, if_neg (by omega), Int.natAbs_natCast, digits.natDigits_eq_iff]
      simp
  | @plus ds n digits =>
      have hne : natDigits n ≠ '+' :: ds := fun heq => (natDigits_ne_sign n heq).1 rfl
      rw [intDigits, if_neg (by omega), Int.natAbs_natCast]
      simp [hne, isCanonical]
  | @minus ds n digits =>
      have hcanonical : isCanonical ('-' :: ds) = true ↔ ds.head? ≠ some '0' := by
        simp [isCanonical]
      rw [hcanonical]
      by_cases hn : n = 0
      · subst hn
        -- Digits of zero have a zero in front.
        have hhead : ds.head? = some '0' := by
          by_contra leads
          obtain rfl := digits.natDigits_eq_iff.mpr (.inr leads)
          exact leads rfl
        simp [hhead, intDigits, natDigits]
      · have hzero : ds ≠ ['0'] := by
          rintro rfl
          exact hn digits.value.symm
        rw [intDigits, if_pos (by omega), Int.natAbs_neg, Int.natAbs_natCast, List.cons.injEq,
          digits.natDigits_eq_iff]
        simp [hzero]

/-! ## Letters and digits -/

/-- What is true of all letters and digits can be tried out. -/
theorem of_isAlphanum {P : Char → Prop}
    (all : ∀ n < 128, (Char.ofNat n).isAlphanum = true → P (Char.ofNat n)) {c : Char}
    (h : c.isAlphanum = true) : P c := by
  have hranges : (decide ('A'.val ≤ c.val ∧ c.val ≤ 'Z'.val) ||
      ('a'.val ≤ c.val && c.val ≤ 'z'.val) || ('0'.val ≤ c.val && c.val ≤ '9'.val)) = true := h
  have hsmall : c.val.toNat < 128 := by
    simp only [Bool.or_eq_true, Bool.and_eq_true, decide_eq_true_eq] at hranges
    rcases hranges with (⟨-, h⟩ | ⟨-, h⟩) | ⟨-, h⟩ <;>
      exact Nat.lt_of_le_of_lt (UInt32.le_iff_toNat_le.mp h) (by decide)
  have hc := all c.toNat hsmall
  rw [Char.ofNat_toNat] at hc
  exact hc h

end MetricsProxy.Text
