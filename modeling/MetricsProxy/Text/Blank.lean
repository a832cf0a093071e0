/-!
# Blanks

Two notions of blank are in use. Tokens of a line are separated by the five
ASCII blanks. Settings, port lists and whole lines are trimmed by the wider
Unicode property `White_Space`, which has twenty-five members.
-/
namespace MetricsProxy.Text

/-- Space, tab, line feed, form feed and carriage return; no vertical tab. -/
def isAsciiBlank (c : Char) : Bool :=
  c == ' ' || c == '\t' || c == '\n' || c == '\x0c' || c == '\r'

/-- Ranges of the Unicode property `White_Space`, first and last code point. -/
def blankRanges : List (Nat × Nat) :=
  [(0x09, 0x0d), (0x20, 0x20), (0x85, 0x85), (0xa0, 0xa0), (0x1680, 0x1680), (0x2000, 0x200a),
   (0x2028, 0x2029), (0x202f, 0x202f), (0x205f, 0x205f), (0x3000, 0x3000)]

def isBlank (c : Char) : Bool :=
  blankRanges.any fun r => decide (r.1 ≤ c.toNat ∧ c.toNat ≤ r.2)

/-- Every ASCII blank is a blank. The vertical tab shows that the converse fails. -/
theorem isBlank_of_isAsciiBlank {c : Char} (h : isAsciiBlank c = true) : isBlank c = true := by
  simp only [isAsciiBlank, Bool.or_eq_true, beq_iff_eq] at h
  rcases h with (((h | h) | h) | h) | h <;> subst h <;> decide

def trimStart (cs : List Char) : List Char := cs.dropWhile isBlank

/-- The blanks at the end go, the others stay. -/
def trimEnd : List Char → List Char
  | [] => []
  | c :: cs =>
      match trimEnd cs with
      | [] => if isBlank c then [] else [c]
      | d :: ds => c :: d :: ds

/-- Blanks are removed at both ends and nowhere else. -/
def trim (cs : List Char) : List Char := trimEnd (trimStart cs)

theorem trimEnd_eq_nil_iff (cs : List Char) : trimEnd cs = [] ↔ ∀ c ∈ cs, isBlank c = true := by
  induction cs with
  | nil => simp [trimEnd]
  | cons c cs ih =>
      simp only [trimEnd]
      cases h : trimEnd cs with
      | nil =>
          have hcs := ih.mp h
          by_cases hc : isBlank c = true <;> simp_all
      | cons d ds =>
          have hcs : ¬ ∀ x ∈ cs, isBlank x = true := fun hall => by simp [ih.mpr hall] at h
          simp only [List.cons_ne_nil, false_iff, List.mem_cons, forall_eq_or_imp, not_and]
          exact fun _ => hcs

theorem trim_eq_nil_iff (cs : List Char) : trim cs = [] ↔ ∀ c ∈ cs, isBlank c = true := by
  rw [trim, trimEnd_eq_nil_iff]
  constructor
  · intro h c hc
    by_cases hb : isBlank c = true
    · exact hb
    · rw [← List.takeWhile_append_dropWhile (p := isBlank) (l := cs)] at hc
      rcases List.mem_append.mp hc with hc | hc
      · exact List.all_eq_true.mp (List.all_takeWhile) c hc
      · exact h c hc
  · intro h c hc
    exact h c ((List.dropWhile_sublist isBlank).subset hc)

def trimText (s : String) : String := String.ofList (trim s.toList)

end MetricsProxy.Text
