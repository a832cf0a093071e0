import MetricsProxy.Proofs.Decode.WellFormed
import MetricsProxy.Proofs.Graphite.RoundTrip

/-!
# One line for each point

Writing adds quotes and backslashes and nothing else, so the line of a well-formed
point has no newline but its last character, and the value is its second word
(`isLineOf_lineText`). Cut at the newlines, a body therefore falls into the lines of
its points and nothing more (`pieces_lines`).
-/
namespace MetricsProxy
open Text

namespace Text

theorem of_mem_escape {cs : List Char} {c : Char} (h : c ∈ escape cs) : c ∈ cs ∨ c = '\\' := by
  induction cs with
  | nil => cases h
  | cons d cs ih =>
      unfold escape at h
      split at h
      · rcases List.mem_cons.mp h with rfl | h
        · exact .inr rfl
        · rcases List.mem_cons.mp h with rfl | h
          · exact .inl List.mem_cons_self
          · exact (ih h).imp_left (List.mem_cons_of_mem d)
      · rcases List.mem_cons.mp h with rfl | h
        · exact .inl List.mem_cons_self
        · exact (ih h).imp_left (List.mem_cons_of_mem d)

theorem of_mem_quoted {cs : List Char} {c : Char} (h : c ∈ quoted cs) :
    c ∈ cs ∨ c = '\\' ∨ c = '"' := by
  simp only [quoted, List.cons_append, List.mem_cons, List.mem_append, List.not_mem_nil,
    or_false] at h
  rcases h with rfl | h | rfl
  · exact .inr (.inr rfl)
  · exact (of_mem_escape h).imp_right .inl
  · exact .inr (.inr rfl)

theorem newline_not_mem_quoted {cs : List Char} (h : '\n' ∉ cs) : '\n' ∉ quoted cs := by
  intro hc
  rcases of_mem_quoted hc with hc | hc | hc
  · exact h hc
  · cases hc
  · cases hc

theorem Solid.quoted {s : String} (h : Solid s) :
    ∀ c ∈ Text.quoted s.toList, isAsciiBlank c = false := by
  intro c hc
  rcases of_mem_quoted hc with hc | rfl | rfl
  · exact h c hc
  · rfl
  · rfl

/-- Lines that each end with their only newline are what the newlines cut a text into;
after the last one nothing is left. -/
theorem pieces_lines {lines : List (List Char)} (single : ∀ l ∈ lines, '\n' ∉ l) :
    pieces (· == '\n') (lines.flatMap (· ++ ['\n'])) = lines ++ [[]] := by
  induction lines with
  | nil => rfl
  | cons l lines ih =>
      obtain ⟨hl, hlines⟩ := List.forall_mem_cons.mp single
      have hone : pieces (· == '\n') l = [l] :=
        pieces_eq_singleton fun c hc => beq_false_of_ne fun h => hl (h ▸ hc)
      rw [List.flatMap_cons, List.append_assoc, List.singleton_append,
        pieces_append_cons (· == '\n') l _ '\n' rfl, hone, ih hlines]
      rfl

theorem count_newline_lines {lines : List (List Char)} (single : ∀ l ∈ lines, '\n' ∉ l) :
    (lines.flatMap (· ++ ['\n'])).count '\n' = lines.length := by
  induction lines with
  | nil => rfl
  | cons l lines ih =>
      obtain ⟨hl, hlines⟩ := List.forall_mem_cons.mp single
      rw [List.flatMap_cons, List.count_append, List.count_append, List.count_eq_zero.mpr hl,
        ih hlines, List.length_cons]
      exact Nat.add_comm 1 _

end Text

namespace Point

/-- The line of a point before its newline. -/
def lineText (p : Point) (default : String) : List Char :=
  quotedText p.metric ++ ' ' :: (valueText p.value ++ ' ' :: (intDigits p.timestamp ++
    (sourceField ++ (quotedText (p.effectiveSource default) ++ p.otherTags.toList.flatMap tagText))))

theorem lineChars_eq_lineText (p : Point) (default : String) :
    p.lineChars default = p.lineText default ++ ['\n'] := by
  simp [lineChars, lineText]

/-- A line of a body without its newline: it has no other newline, and its second word is
the value of the point in digits. -/
structure IsLineOf (default : String) (p : Point) (l : List Char) : Prop where
  text : (p.line default).toList = l ++ ['\n']
  single : '\n' ∉ l
  value : ∃ w, (words l)[1]? = some w ∧
    (∀ c ∈ w, c.isDigit = true ∨ c = '-' ∨ c = '.') ∧ Binary64.parse? w = some p.value

theorem of_mem_valueText {x : Binary64} (finite : x.isFinite = true) {c : Char}
    (h : c ∈ valueText x) : c.isDigit = true ∨ c = '-' ∨ c = '.' := by
  cases x with
  | nan => cases finite
  | infinite => cases finite
  | finite negative rank =>
      rcases List.mem_append.mp h with h | h
      · cases negative with
        | false => cases h
        | true => exact .inr (.inl (List.mem_singleton.mp h))
      · exact (Binary64.of_mem_positionalText h).imp_right .inr

theorem newline_not_mem_of_isNumberChar {cs : List Char}
    (h : ∀ c ∈ cs, Binary64.isNumberChar c = true) : '\n' ∉ cs :=
  fun hc => absurd (h _ hc) (by decide)

theorem WellFormed.newline_not_mem_source {p : Point} (h : p.WellFormed) {default : String}
    (host : '\n' ∉ default.toList) : '\n' ∉ (p.effectiveSource default).toList := by
  unfold effectiveSource
  split
  · exact host
  · exact (h.source.solid fun tag htag => (h.tags tag htag).value_solid).newline_not_mem

theorem newline_not_mem_tagText {tag : String × String} (h : WellFormedTag tag) :
    '\n' ∉ tagText tag := by
  have hkey := newline_not_mem_quoted h.key_solid.newline_not_mem
  have hvalue := newline_not_mem_quoted h.value_solid.newline_not_mem
  simp [tagText, quotedText, hkey, hvalue]

/-- No text of a well-formed point breaks its line. -/
theorem WellFormed.newline_not_mem_lineText {p : Point} (h : p.WellFormed) {default : String}
    (host : '\n' ∉ default.toList) : '\n' ∉ p.lineText default := by
  have hmetric := newline_not_mem_quoted h.metric_solid.newline_not_mem
  have hvalue := newline_not_mem_of_isNumberChar (isNumberChar_valueText p.value)
  have htime := newline_not_mem_of_isNumberChar (Binary64.isNumberChar_intDigits p.timestamp)
  have hsource := newline_not_mem_quoted (h.newline_not_mem_source host)
  have htags : '\n' ∉ p.otherTags.toList.flatMap tagText := by
    intro hc
    obtain ⟨tag, htag, hc⟩ := List.mem_flatMap.mp hc
    rw [toList_otherTags] at htag
    exact newline_not_mem_tagText (h.tags tag (List.mem_filter.mp htag).1) hc
  have hfield : '\n' ∉ sourceField := by decide
  simp only [lineText, quotedText, List.mem_append, List.mem_cons, not_or]
  exact ⟨hmetric, by decide, hvalue, by decide, htime, hfield, hsource, htags⟩

/-- The metric has no blank in it, so the value is the second word. -/
theorem WellFormed.isLineOf_lineText {p : Point} (h : p.WellFormed) {default : String}
    (host : '\n' ∉ default.toList) : IsLineOf default p (p.lineText default) := by
  refine ⟨?_, h.newline_not_mem_lineText host, valueText p.value, ?_,
    fun c => of_mem_valueText h.finite, parse?_valueText h.finite⟩
  · rw [line, String.toList_ofList, lineChars_eq_lineText]
  · have hmetric : quoted p.metric.toList ≠ [] := List.cons_ne_nil _ _
    have hvalue : ∀ c ∈ valueText p.value, isAsciiBlank c = false :=
      fun c hc => Decode.not_blank_of_isNumberChar (isNumberChar_valueText p.value c hc)
    rw [lineText, quotedText, words_cons hmetric h.metric_solid.quoted rfl,
      words_cons (Decode.valueText_ne_nil h.finite) hvalue rfl]
    rfl

end Point

namespace WorkUnit

/-- Points that a decoder gives are well formed, and a body of well-formed points for a host
whose name has no newline is their lines in order, one for each point: as many newlines as
points, each the end of a line, and in every line a number where the value stands. -/
theorem body_one_line_each :
    (∀ (format : Format) (shown : Int) (line : String) (p : Point),
      format.decode (Clock.unixSeconds shown) line = .ok p → p.WellFormed) ∧
    ∀ (points : List Point) (host : String), (∀ p ∈ points, p.WellFormed) → '\n' ∉ host.toList →
      ∃ lines, List.Forall₂ (Point.IsLineOf host) points lines ∧
        ((WorkUnit.mk points).body host).toList = lines.flatMap (· ++ ['\n']) ∧
        pieces (· == '\n') ((WorkUnit.mk points).body host).toList = lines ++ [[]] ∧
        ((WorkUnit.mk points).body host).toList.count '\n' = points.length := by
  refine ⟨fun _ _ _ _ h => Format.decode_wellFormed h, fun points host wellFormed hhost => ?_⟩
  have hbody : ((WorkUnit.mk points).body host).toList =
      (points.map (·.lineText host)).flatMap (· ++ ['\n']) := by
    simp [body, chars, List.flatMap_map, Point.lineChars_eq_lineText]
  have single : ∀ l ∈ points.map (·.lineText host), '\n' ∉ l := by
    intro l hl
    obtain ⟨p, hp, rfl⟩ := List.mem_map.mp hl
    exact (wellFormed p hp).newline_not_mem_lineText hhost
  refine ⟨points.map (·.lineText host), ?_, hbody, ?_, ?_⟩
  · rw [List.forall₂_map_right_iff, List.forall₂_same]
    exact fun p hp => (wellFormed p hp).isLineOf_lineText hhost
  · rw [hbody, pieces_lines single]
  · rw [hbody, count_newline_lines single, List.length_map]

/-- A point without a time from a clock before the epoch, with a quote and a backslash in a
tag, and a point whose host names its source; the name of the sender has a blank in it. -/
theorem body_one_line_each_twoFormats :
    ∃ p q, Format.graphite.decode (Clock.unixSeconds (-5)) "\"cpu\" 1.5 path=C:\\\"" = .ok p ∧
      Format.openTsdb.decode 0 "put mem 100 -2e3\thost=rack7" = .ok q ∧
      p.WellFormed ∧ q.WellFormed ∧ '\n' ∉ "rack 7".toList ∧
      ((WorkUnit.mk [p, q]).body "rack 7").toList.count '\n' = 2 := by
  have hp : (Format.graphite.decode (Clock.unixSeconds (-5)) "\"cpu\" 1.5 path=C:\\\"").isOk =
      true := by decide +kernel
  have hq : (Format.openTsdb.decode (Clock.unixSeconds 0) "put mem 100 -2e3\thost=rack7").isOk =
      true := by decide +kernel
  have hhost : '\n' ∉ "rack 7".toList := by decide
  obtain ⟨decoded, lines⟩ := body_one_line_each
  cases hgraphite : Format.graphite.decode (Clock.unixSeconds (-5)) "\"cpu\" 1.5 path=C:\\\"" with
  | error e => rw [hgraphite] at hp; cases hp
  | ok p =>
      cases hopenTsdb : Format.openTsdb.decode (Clock.unixSeconds 0)
          "put mem 100 -2e3\thost=rack7" with
      | error e => rw [hopenTsdb] at hq; cases hq
      | ok q =>
          have wellFormed : ∀ point ∈ [p, q], point.WellFormed := by
            simp [decoded _ _ _ _ hgraphite, decoded _ _ _ _ hopenTsdb]
          obtain ⟨_, -, -, -, hcount⟩ := lines [p, q] "rack 7" wellFormed hhost
          exact ⟨p, q, rfl, hopenTsdb, decoded _ _ _ _ hgraphite, decoded _ _ _ _ hopenTsdb, hhost,
            hcount⟩

end WorkUnit
end MetricsProxy
