import Mathlib.Data.List.TakeWhile
import MetricsProxy.Proofs.Decode.Timestamps
import MetricsProxy.Settings
import MetricsProxy.Settings.Environment

/-!
# Plain texts in the environment

A text is plain if there is nothing in it that cuts it up: no blank, no separator and no
quote. The type of a plain text is still guessed (`read_plain`), and what becomes of it
where a text is wanted is said by its form (`Arrives`): a truth value counts as nothing,
a number is written anew, all else is left as it is. So it is the texts of numbers as the
program itself writes them that stay as they are, and those that are no numbers (`Unaltered`).
-/
namespace MetricsProxy.Environment
open Text
open RawSettings (textOrNumber?)
open Decode (Fits int64?_eq_some_iff)

def isPlain (c : Char) : Bool := !isBlank c && !isSeparator c && c != '"' && c != '\''

variable {c : Char} {cs ss rest : List Char} {s : String} {i : Int} {o : Option String}

/-! ## Plain texts -/

theorem isPlain_iff : isPlain c = true ↔
    isBlank c = false ∧ isSeparator c = false ∧ c ≠ '"' ∧ c ≠ '\'' := by
  simp [isPlain, and_assoc]

/-- Letters and digits are plain, and so is what stands between them in names and numbers. -/
theorem isPlain_of_isAlphanum (h : c.isAlphanum = true ∨ c ∈ ['.', '-', '+']) :
    isPlain c = true := by
  rcases h with h | h
  · exact of_isAlphanum (P := fun c => isPlain c = true) (by decide +kernel) h
  · simp only [List.mem_cons, List.not_mem_nil, or_false] at h
    rcases h with rfl | rfl | rfl <;> rfl

theorem after?_eq_some_iff : after? ss cs = some rest ↔ cs = ss ++ rest := by
  induction ss generalizing cs with
  | nil => simp [after?, eq_comm]
  | cons s ss ih =>
      cases cs with
      | nil => simp [after?]
      | cons c cs =>
          by_cases h : s = c
          · simp [after?, h, ih]
          · simp [after?, h, Ne.symm h]

theorem skipBlanks_of_plain (plain : ∀ c ∈ cs, isPlain c = true) : skipBlanks cs = cs := by
  cases cs with
  | nil => rfl
  | cons c cs =>
      have hblank : isBlank c = false := (isPlain_iff.mp (plain c List.mem_cons_self)).1
      have hascii : isAsciiBlank c = false := by
        by_contra h
        have hblank' := isBlank_of_isAsciiBlank (Bool.of_not_eq_false h)
        rw [hblank] at hblank'
        cases hblank'
      rw [skipBlanks, List.dropWhile_cons_of_neg (by simp [hascii])]

theorem value?_plain (fuel : Nat) (plain : ∀ c ∈ cs, isPlain c = true) :
    value? (fuel + 1) cs =
      match after? ['t', 'r', 'u', 'e'] cs, after? ['f', 'a', 'l', 's', 'e'] cs with
      | some rest, _ => some (.bool true, skipBlanks rest)
      | none, some rest => some (.bool false, skipBlanks rest)
      | none, none => some (guess cs, []) := by
  rw [value?]
  simp only [skipBlanks_of_plain plain]
  cases htrue : after? ['t', 'r', 'u', 'e'] cs with
  | some rest => rfl
  | none =>
      cases hfalse : after? ['f', 'a', 'l', 's', 'e'] cs with
      | some rest => rfl
      | none =>
          have hbare : (cs.takeWhile fun c => !isSeparator c) = cs := by
            rw [List.takeWhile_eq_self_iff]
            intro c hc
            simp [(isPlain_iff.mp (plain c hc)).2.1]
          have htrim : trim cs = cs :=
            (trimmed_of_solid fun c hc => (isPlain_iff.mp (plain c hc)).1).trim_eq
          dsimp only
          rw [hbare, htrim]
          split
          case h_1 | h_2 => contradiction
          -- Nothing in the text opens a table, a list or a quoted text.
          case h_3 | h_4 | h_5 | h_6 | h_7 =>
            exact absurd (plain _ List.mem_cons_self) (by decide)
          case h_8 => simp [skipBlanks]

theorem guess_letter (h : c = 't' ∨ c = 'f') :
    guess (c :: cs) = .text (String.ofList (c :: cs)) := by
  have hnumber : Binary64.parse? (c :: cs) = none := by
    rcases h with rfl | rfl <;>
      simp [Binary64.parse?, Binary64.magnitude?, Binary64.decimal?, Binary64.fraction,
        Binary64.special?]
  have hdigits : digits? (c :: cs) = none := by
    rcases h with rfl | rfl <;> simp [digits?]
  have hnatural : natural? (c :: cs) = none := by
    rcases h with rfl | rfl <;> exact hdigits
  have hinteger : integer? (c :: cs) = none := by
    rcases h with rfl | rfl <;> simp [integer?, hdigits]
  simp [guess, guessWhole, hnumber, below?, hnatural, int64?, hinteger]

/-- Truth values are read as such only if nothing follows them. -/
theorem read_plain (plain : ∀ c ∈ s.toList, isPlain c = true) :
    read s = if s = "true" then .bool true else if s = "false" then .bool false
      else guess s.toList := by
  have hword (w : String) : s = w ↔ s.toList = w.toList := String.toList_inj.symm
  have htext : String.ofList s.toList = s := String.ofList_toList
  rw [read, value?_plain _ plain]
  simp only [hword]
  clear hword
  generalize s.toList = cs at *
  cases htrue : after? ['t', 'r', 'u', 'e'] cs with
  | some rest =>
      obtain rfl := after?_eq_some_iff.mp htrue
      have hrest := skipBlanks_of_plain fun c hc => plain c (List.mem_append_right _ hc)
      cases rest with
      | nil => rfl
      | cons d ds => simp [hrest, guess_letter, ← htext]
  | none =>
      cases hfalse : after? ['f', 'a', 'l', 's', 'e'] cs with
      | some rest =>
          obtain rfl := after?_eq_some_iff.mp hfalse
          have hrest := skipBlanks_of_plain fun c hc => plain c (List.mem_append_right _ hc)
          cases rest with
          | nil => rfl
          | cons d ds => simp [hrest, guess_letter, ← htext]
      | none =>
          have hne₁ : cs ≠ "true".toList := by
            rintro rfl
            cases htrue
          have hne₂ : cs ≠ "false".toList := by
            rintro rfl
            cases hfalse
          simp only [hne₁, hne₂, if_false]

/-! ## What becomes of them -/

def IsWord (i : Int) : Prop := -0x8000000000000000 ≤ i ∧ i < 0x10000000000000000

theorem guessWhole_of_numeral (numeral : Numeral cs i) (word : IsWord i) :
    guessWhole cs = .whole i := by
  cases numeral with
  | @plain _ n digits =>
      have hread : natural? cs = some n := natural?_eq_some_iff.mpr (.inl digits)
      have hsmall : n < 0x10000000000000000 := by exact_mod_cast word.2
      simp [guessWhole, below?, hread, Option.filter, hsmall]
  | @plus ds n digits =>
      have hread : natural? ('+' :: ds) = some n := digits?_eq_some_iff.mpr digits
      have hsmall : n < 0x10000000000000000 := by exact_mod_cast word.2
      simp [guessWhole, below?, hread, Option.filter, hsmall]
  | @minus ds n digits =>
      have hread : natural? ('-' :: ds) = none := by simp [natural?, digits?]
      have hsigned : int64? ('-' :: ds) = some (-(n : Int)) := by
        refine int64?_eq_some_iff.mpr ⟨.minus digits, ?_⟩
        have := word.1
        unfold Fits Decode.int64Min Decode.int64Max
        omega
      simp [guessWhole, below?, hread, hsigned]

theorem guessWhole_of_other (other : ∀ i, Numeral cs i → ¬ IsWord i) :
    guessWhole cs = .text (String.ofList cs) := by
  have hunsigned : below? 0x10000000000000000 cs = none := by
    cases h : below? 0x10000000000000000 cs with
    | none => rfl
    | some n =>
        obtain ⟨hread, hsmall⟩ := Option.filter_eq_some_iff.mp h
        have hword : IsWord n := ⟨by omega, by exact_mod_cast of_decide_eq_true hsmall⟩
        rcases natural?_eq_some_iff.mp hread with digits | ⟨ds, rfl, digits⟩
        · exact absurd hword (other n (.plain digits))
        · exact absurd hword (other n (.plus digits))
  have hsigned : int64? cs = none := by
    cases h : int64? cs with
    | none => rfl
    | some i =>
        obtain ⟨numeral, fits⟩ := int64?_eq_some_iff.mp h
        unfold Fits Decode.int64Min Decode.int64Max at fits
        exact absurd ⟨fits.1, by omega⟩ (other i numeral)
  simp [guessWhole, hunsigned, hsigned]

/-- What becomes of a plain text where a text is wanted. -/
inductive Arrives (s : String) : Option String → Prop where
  | truth (word : s = "true" ∨ s = "false") : Arrives s none
  | finite {x : Binary64} (point : '.' ∈ s.toList) (number : Binary64.parse? s.toList = some x)
      (finite : x.isFinite = true) : Arrives s (some (Json.float x).render)
  | beyond {x : Binary64} (point : '.' ∈ s.toList) (number : Binary64.parse? s.toList = some x)
      (infinite : x.isFinite = false) : Arrives s none
  | whole {i : Int} (numeral : Numeral s.toList i) (word : IsWord i) :
      Arrives s (some (Json.whole i).render)
  | bare (noTruth : s ≠ "true" ∧ s ≠ "false")
      (noNumber : '.' ∈ s.toList → Binary64.parse? s.toList = none)
      (noWhole : ∀ i, Numeral s.toList i → ¬ IsWord i) : Arrives s (some s)

/-- What arrives as it was given: no truth value, and if it is a number, the text that this
number is written as. -/
structure Unaltered (s : String) : Prop where
  noTruth : s ≠ "true" ∧ s ≠ "false"
  number : '.' ∈ s.toList → ∀ x, Binary64.parse? s.toList = some x →
    x.isFinite = true ∧ (Json.float x).render = s
  whole : ∀ i, Numeral s.toList i → IsWord i → isCanonical s.toList = true

theorem exists_arrives (s : String) : ∃ o, Arrives s o := by
  by_cases truth : s = "true" ∨ s = "false"
  · exact ⟨_, .truth truth⟩
  by_cases number : '.' ∈ s.toList ∧ ∃ x, Binary64.parse? s.toList = some x
  · obtain ⟨point, x, number⟩ := number
    cases finite : x.isFinite with
    | true => exact ⟨_, .finite point number finite⟩
    | false => exact ⟨_, .beyond point number finite⟩
  by_cases whole : ∃ i, Numeral s.toList i ∧ IsWord i
  · obtain ⟨i, numeral, word⟩ := whole
    exact ⟨_, .whole numeral word⟩
  refine ⟨_, .bare (not_or.mp truth) (fun point => ?_) fun i numeral word =>
    whole ⟨i, numeral, word⟩⟩
  exact Option.eq_none_iff_forall_ne_some.mpr fun x hx => number ⟨point, x, hx⟩

theorem point_not_mem (numeral : Numeral cs i) : '.' ∉ cs := by
  have hdigit : '.'.isDigit = false := rfl
  cases numeral with
  | plain digits | plus digits | minus digits =>
      intro h
      have := digits.digits '.'
      simp_all

theorem noTruth_of_point (point : '.' ∈ s.toList) : s ≠ "true" ∧ s ≠ "false" := by
  constructor <;> rintro rfl <;> simp at point

theorem noTruth_of_numeral (numeral : Numeral s.toList i) : s ≠ "true" ∧ s ≠ "false" := by
  have hread := integer?_eq_some_iff.mpr numeral
  constructor <;> rintro rfl <;> cases hread

theorem Arrives.textOrNumber?_eq (plain : ∀ c ∈ s.toList, isPlain c = true) (nonempty : s ≠ "")
    (h : Arrives s o) : textOrNumber? (read s) = o := by
  rw [read_plain plain]
  cases h with
  | truth word => rcases word with rfl | rfl <;> rfl
  | finite point number finite =>
      obtain ⟨hne₁, hne₂⟩ := noTruth_of_point point
      simp [hne₁, hne₂, guess, point, number, textOrNumber?, finite]
  | beyond point number infinite =>
      obtain ⟨hne₁, hne₂⟩ := noTruth_of_point point
      simp [hne₁, hne₂, guess, point, number, textOrNumber?, infinite]
  | whole numeral word =>
      obtain ⟨hne₁, hne₂⟩ := noTruth_of_numeral numeral
      simp [hne₁, hne₂, guess, point_not_mem numeral, guessWhole_of_numeral numeral word,
        textOrNumber?]
  | bare noTruth noNumber noWhole =>
      have hguess : guess s.toList = .text s := by
        rw [guess, guessWhole_of_other noWhole, String.ofList_toList]
        by_cases point : '.' ∈ s.toList
        · simp [point, noNumber point]
        · simp [point]
      have htrim : trim s.toList = s.toList :=
        (trimmed_of_solid fun c hc => (isPlain_iff.mp (plain c hc)).1).trim_eq
      have hsome : s.toList ≠ [] := fun h => nonempty (String.toList_inj.mp h)
      simp [noTruth, hguess, textOrNumber?, trimText, htrim, hsome]

theorem arrives_iff (plain : ∀ c ∈ s.toList, isPlain c = true) (nonempty : s ≠ "") :
    Arrives s o ↔ textOrNumber? (read s) = o := by
  refine ⟨Arrives.textOrNumber?_eq plain nonempty, fun h => ?_⟩
  obtain ⟨p, hp⟩ := exists_arrives s
  rw [← h, hp.textOrNumber?_eq plain nonempty]
  exact hp

theorem Arrives.eq_some_iff (h : Arrives s o) : o = some s ↔ Unaltered s := by
  cases h with
  | truth word =>
      refine iff_of_false nofun fun u => ?_
      exact (not_or.mpr u.noTruth) word
  | @finite x point number finite =>
      have hwhole : ∀ i, Numeral s.toList i → IsWord i → isCanonical s.toList = true :=
        fun i numeral => absurd point (point_not_mem numeral)
      constructor
      · intro h
        refine ⟨noTruth_of_point point, fun _ y hy => ?_, hwhole⟩
        obtain rfl := Option.some.inj (number.symm.trans hy)
        exact ⟨finite, Option.some.inj h⟩
      · intro u
        exact congrArg some (u.number point x number).2
  | @beyond x point number infinite =>
      refine iff_of_false nofun fun u => ?_
      rw [(u.number point x number).1] at infinite
      cases infinite
  | @whole i numeral word =>
      have hnumber : '.' ∈ s.toList → ∀ x, Binary64.parse? s.toList = some x →
          x.isFinite = true ∧ (Json.float x).render = s :=
        fun point => absurd point (point_not_mem numeral)
      have hwritten : some (Json.whole i).render = some s ↔ isCanonical s.toList = true := by
        rw [Option.some.injEq, ← numeral.intDigits_eq_iff, Json.render, ← String.toList_inj,
          String.toList_ofList, Json.toChars]
      rw [hwritten]
      constructor
      · intro canonical
        exact ⟨noTruth_of_numeral numeral, hnumber, fun _ _ _ => canonical⟩
      · intro u
        exact u.whole i numeral word
  | bare noTruth noNumber noWhole =>
      refine iff_of_true rfl ⟨noTruth, fun point x hx => ?_, fun i numeral word => ?_⟩
      · rw [noNumber point] at hx
        cases hx
      · exact absurd word (noWhole i numeral)

end MetricsProxy.Environment
