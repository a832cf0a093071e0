import MetricsProxy.Text.Blank

/-!
# Cutting text at separators

`pieces p` cuts a list at every element that satisfies `p`, keeping the empty
pieces; `words` keeps the non-empty ones between ASCII blanks. Cutting a text
that was joined at a separator gives the pieces of both sides, which is what
every list-valued setting and every line of tokens relies on.
-/
namespace MetricsProxy.Text

/-- The maximal runs of elements that do not satisfy `p`, empty ones included. -/
def pieces {α : Type} (p : α → Bool) : List α → List (List α)
  | [] => [[]]
  | a :: as =>
      if p a then [] :: pieces p as
      else
        match pieces p as with
        | [] => [[a]]
        | w :: ws => (a :: w) :: ws

theorem pieces_ne_nil {α : Type} (p : α → Bool) (as : List α) : pieces p as ≠ [] := by
  cases as with
  | nil => simp [pieces]
  | cons a as =>
      simp only [pieces]
      split
      · simp
      · split <;> simp

/-- The pieces of a text joined at one separator are the pieces of its two sides. -/
theorem pieces_append_cons {α : Type} (p : α → Bool) (xs ys : List α) (s : α) (hs : p s = true) :
    pieces p (xs ++ s :: ys) = pieces p xs ++ pieces p ys := by
  induction xs with
  | nil => simp [pieces, hs]
  | cons x xs ih =>
      simp only [List.cons_append, pieces, ih]
      split
      · simp
      · cases h : pieces p xs with
        | nil => exact absurd h (pieces_ne_nil p xs)
        | cons w ws => simp

theorem not_of_mem_pieces {α : Type} {p : α → Bool} {as w : List α} (hw : w ∈ pieces p as) :
    ∀ a ∈ w, p a = false := by
  induction as generalizing w with
  | nil => simp_all [pieces]
  | cons a as ih =>
      simp only [pieces] at hw
      split at hw
      · rcases List.mem_cons.mp hw with rfl | hw
        · simp
        · exact ih hw
      · rename_i ha
        cases h : pieces p as with
        | nil => exact absurd h (pieces_ne_nil p as)
        | cons v vs =>
            rw [h] at hw
            rcases List.mem_cons.mp hw with rfl | hw
            · intro b hb
              rcases List.mem_cons.mp hb with rfl | hb
              · simpa using ha
              · exact ih (h ▸ List.mem_cons_self) b hb
            · exact ih (h ▸ List.mem_cons_of_mem _ hw)

theorem pieces_eq_singleton {α : Type} {p : α → Bool} {as : List α} (h : ∀ a ∈ as, p a = false) :
    pieces p as = [as] := by
  induction as with
  | nil => rfl
  | cons a as ih =>
      have ha := h a List.mem_cons_self
      simp [pieces, ha, ih fun b hb => h b (List.mem_cons_of_mem _ hb)]

/-- The maximal runs of characters that are no ASCII blanks, in order. -/
def words (cs : List Char) : List (List Char) :=
  (pieces isAsciiBlank cs).filter fun w => !w.isEmpty

theorem words_append_cons (xs ys : List Char) (b : Char) (hb : isAsciiBlank b = true) :
    words (xs ++ b :: ys) = words xs ++ words ys := by
  simp [words, pieces_append_cons _ _ _ _ hb]

theorem of_mem_words {cs w : List Char} (hw : w ∈ words cs) :
    w ≠ [] ∧ ∀ c ∈ w, isAsciiBlank c = false := by
  simp only [words, List.mem_filter] at hw
  exact ⟨by simpa using hw.2, not_of_mem_pieces hw.1⟩

theorem words_singleton {w : List Char} (hne : w ≠ []) (h : ∀ c ∈ w, isAsciiBlank c = false) :
    words w = [w] := by
  simp [words, pieces_eq_singleton h, hne]

/-- Cuts at the first occurrence of a separator; `none` if there is none. -/
def cutAt (s : Char) : List Char → Option (List Char × List Char)
  | [] => none
  | c :: cs => if c = s then some ([], cs) else (cutAt s cs).map fun r => (c :: r.1, r.2)

theorem cutAt_eq_some_iff {s : Char} {cs left right : List Char} :
    cutAt s cs = some (left, right) ↔ cs = left ++ s :: right ∧ s ∉ left := by
  induction cs generalizing left with
  | nil => simp [cutAt]
  | cons c cs ih =>
      by_cases hc : c = s
      · subst hc
        cases left with
        | nil => simp [cutAt]
        | cons l left => simp +contextual [cutAt]
      · cases left with
        | nil => simp [cutAt, hc]
        | cons l left =>
            simp only [cutAt, hc, if_false, Option.map_eq_some_iff, List.cons_append,
              List.cons.injEq, List.mem_cons, not_or, Prod.mk.injEq]
            constructor
            · rintro ⟨⟨a, b⟩, h, ⟨rfl, rfl⟩, rfl⟩
              obtain ⟨h₁, h₂⟩ := ih.mp h
              exact ⟨⟨rfl, h₁⟩, fun h => hc h.symm, h₂⟩
            · rintro ⟨⟨rfl, h₁⟩, _, h₂⟩
              exact ⟨(left, right), ih.mpr ⟨h₁, h₂⟩, ⟨rfl, rfl⟩, rfl⟩

theorem cutAt_eq_none_iff {s : Char} {cs : List Char} : cutAt s cs = none ↔ s ∉ cs := by
  induction cs with
  | nil => simp [cutAt]
  | cons c cs ih =>
      by_cases hc : c = s
      · simp [cutAt, hc]
      · simp [cutAt, hc, ih, Ne.symm hc]

end MetricsProxy.Text
