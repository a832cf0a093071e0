import MetricsProxy.Decode
import MetricsProxy.Proofs.Dict
import MetricsProxy.Proofs.Graphite.Reading

/-!
# Written points decode

Text is clean if it needs no escaping and has no ASCII blank in it. The line of
a point with clean texts has the tokens one expects (`tokens_line`), quoted
texts lose their quotes (`unquote_quoted`), numbers read back, and the source
comes back as the tag `source` (`Decode.decode_line`). Writing the
decoded point leaves that tag out again (`line_attributed`), so the same text
comes out.
-/
namespace MetricsProxy
open Text

/-! ## Clean texts -/

namespace Text

def Clean (s : String) : Prop := ∀ c ∈ s.toList, isAsciiBlank c = false ∧ c ≠ '"' ∧ c ≠ '\\'

instance (s : String) : Decidable (Clean s) := List.decidableBAll _ s.toList

theorem Clean.escape_eq {s : String} (h : Clean s) : escape s.toList = s.toList :=
  Graphite.escape_eq_self (fun hc => (h _ hc).2.1 rfl) (fun hc => (h _ hc).2.2 rfl)

theorem Clean.quoted_eq {s : String} (h : Clean s) : quoted s.toList = '"' :: s.toList ++ ['"'] := by
  rw [quoted, h.escape_eq]

theorem Clean.not_blank_of_mem_quoted {s : String} (h : Clean s) {c : Char}
    (hc : c ∈ quoted s.toList) : isAsciiBlank c = false := by
  rw [h.quoted_eq] at hc
  simp only [List.cons_append, List.mem_cons, List.mem_append, List.not_mem_nil, or_false] at hc
  rcases hc with rfl | hc | rfl
  · rfl
  · exact (h c hc).1
  · rfl

theorem words_cons {w rest : List Char} {b : Char} (nonempty : w ≠ [])
    (word : ∀ c ∈ w, isAsciiBlank c = false) (blank : isAsciiBlank b = true) :
    words (w ++ b :: rest) = w :: words rest := by
  rw [words_append_cons w rest b blank, words_singleton nonempty word]
  rfl

end Text

/-- Tags that a line of tokens can carry. -/
structure CleanTags (tags : Tags) : Prop where
  key : ∀ tag ∈ tags.toList, Clean tag.1
  key_nonempty : ∀ tag ∈ tags.toList, tag.1 ≠ ""
  key_equals : ∀ tag ∈ tags.toList, '=' ∉ tag.1.toList
  value : ∀ tag ∈ tags.toList, Clean tag.2

/-! ## The tokens of a line -/

namespace Decode

def tagToken (tag : String × String) : Token := quoted tag.1.toList ++ '=' :: quoted tag.2.toList

def sourceToken (source : String) : Token := Graphite.sourceMark ++ quoted source.toList

/-- The tokens of a record. -/
def recordTokens (r : Graphite.Record) : List Token :=
  quoted r.metric.toList :: r.value.toList :: r.time.toList :: sourceToken r.source ::
    r.tags.map tagToken

theorem not_blank_of_mem_tagToken {tag : String × String} (key : Clean tag.1) (value : Clean tag.2)
    {c : Char} (hc : c ∈ tagToken tag) : isAsciiBlank c = false := by
  simp only [tagToken, List.mem_append, List.mem_cons] at hc
  rcases hc with hc | rfl | hc
  · exact key.not_blank_of_mem_quoted hc
  · rfl
  · exact value.not_blank_of_mem_quoted hc

theorem not_blank_of_mem_sourceToken {source : String} (clean : Clean source) {c : Char}
    (hc : c ∈ sourceToken source) : isAsciiBlank c = false := by
  rcases List.mem_append.mp hc with hc | hc
  · have hall : (Graphite.sourceMark.all fun c => !isAsciiBlank c) = true := by decide
    simpa using List.all_eq_true.mp hall c hc
  · exact clean.not_blank_of_mem_quoted hc

theorem words_tagsText {w : List Char} (nonempty : w ≠ []) (word : ∀ c ∈ w, isAsciiBlank c = false)
    {tags : List (String × String)} (clean : ∀ tag ∈ tags, Clean tag.1 ∧ Clean tag.2) :
    words (w ++ (tags.flatMap Point.tagText ++ ['\n'])) = w :: tags.map tagToken := by
  induction tags generalizing w with
  | nil => exact words_cons nonempty word rfl
  | cons tag tags ih =>
      obtain ⟨hkey, hvalue⟩ := clean tag List.mem_cons_self
      have htext : w ++ ((tag :: tags).flatMap Point.tagText ++ ['\n']) =
          w ++ ' ' :: (tagToken tag ++ (tags.flatMap Point.tagText ++ ['\n'])) := by
        simp [Point.tagText, tagToken, Point.quotedText]
      rw [htext, words_cons nonempty word rfl,
        ih (by simp [tagToken, quoted]) (fun c => not_blank_of_mem_tagToken hkey hvalue)
          (fun tag htag => clean tag (List.mem_cons_of_mem _ htag)), List.map_cons]

theorem not_blank_of_isNumberChar {c : Char} (h : Binary64.isNumberChar c = true) :
    isAsciiBlank c = false := by
  cases hblank : isAsciiBlank c with
  | false => rfl
  | true =>
      simp only [isAsciiBlank, Bool.or_eq_true, beq_iff_eq] at hblank
      rcases hblank with (((rfl | rfl) | rfl) | rfl) | rfl <;> cases h

theorem valueText_ne_nil {x : Binary64} (finite : x.isFinite = true) : Point.valueText x ≠ [] := by
  intro hempty
  have hread := Point.parse?_valueText finite
  rw [hempty] at hread
  cases hread

theorem intDigits_ne_nil (i : Int) : intDigits i ≠ [] := by
  intro hempty
  have hread := integer?_intDigits i
  rw [hempty] at hread
  cases hread

theorem tokens_line {p : Point} {default : String} (metric : Clean p.metric)
    (finite : p.value.isFinite = true) (source : Clean (p.effectiveSource default))
    (tags : CleanTags p.tags) : tokens (p.line default) = recordTokens (p.record default) := by
  have htext : (p.record default).chars =
      quoted p.metric.toList ++ ' ' :: (Point.valueText p.value ++ ' ' :: (intDigits p.timestamp ++
        ' ' :: (sourceToken (p.effectiveSource default) ++
          ((p.record default).tags.flatMap Point.tagText ++ ['\n'])))) := by
    have hfield : Point.sourceField = ' ' :: Graphite.sourceMark := rfl
    simp [Graphite.Record.chars, Point.record, sourceToken, hfield]
  have hmetric : quoted p.metric.toList ≠ [] := List.cons_ne_nil _ _
  have hsource : sourceToken (p.effectiveSource default) ≠ [] := List.cons_ne_nil _ _
  have hclean : ∀ tag ∈ (p.record default).tags, Clean tag.1 ∧ Clean tag.2 := by
    intro tag htag
    have hmem : tag ∈ p.tags.toList := (List.mem_filter.mp htag).1
    exact ⟨tags.key tag hmem, tags.value tag hmem⟩
  rw [tokens, Point.line, String.toList_ofList, Point.lineChars_eq, htext,
    words_cons hmetric (fun c => metric.not_blank_of_mem_quoted) rfl,
    words_cons (valueText_ne_nil finite)
      (fun c hc => not_blank_of_isNumberChar (Point.isNumberChar_valueText _ c hc)) rfl,
    words_cons (intDigits_ne_nil _)
      (fun c hc => not_blank_of_isNumberChar (Binary64.isNumberChar_intDigits _ c hc)) rfl,
    words_tagsText hsource (fun c => not_blank_of_mem_sourceToken source) hclean]
  simp [recordTokens, Point.record]

/-! ## Reading the tokens -/

theorem unquote_quoted (cs : List Char) : unquote (quoted cs) = escape cs := by
  simp [unquote, quoted]

theorem unquote_eq_self {t : Token} (h : '"' ∉ t) : unquote t = t := by
  unfold unquote
  split
  · simp at h
  · rfl

theorem metric_quoted {s : String} (clean : Clean s) (nonempty : s ≠ "") :
    metric (quoted s.toList) = .ok s := by
  have hne : s.toList ≠ [] := by simpa using nonempty
  rw [metric, unquote_quoted, clean.escape_eq, if_neg hne, String.ofList_toList]

theorem value_valueText {x : Binary64} (finite : x.isFinite = true) :
    value (Point.valueText x) = .ok x := by
  simp [value, Point.parse?_valueText finite, finite]

theorem instant?_intDigits {i : Int} (range : -0x8000000000000000 ≤ i ∧ i < 0x8000000000000000) :
    instant? (intDigits i) = some i := by
  have hint : int64? (intDigits i) = some i := by
    simp [int64?, integer?_intDigits, Option.filter, range]
  simp [instant?, hint]

theorem timestamp_intDigits {i : Int} (nonnegative : 0 ≤ i) (seconds : i < millisThreshold) :
    timestamp (intDigits i) = .ok i := by
  have range : -0x8000000000000000 ≤ i ∧ i < 0x8000000000000000 := by
    unfold millisThreshold at seconds
    omega
  rw [timestamp, instant?_intDigits range]
  dsimp only
  rw [if_neg (by omega), if_neg (by omega)]

theorem tag_tagToken {t : String × String} (key : Clean t.1) (nonempty : t.1 ≠ "")
    (equals : '=' ∉ t.1.toList) (value : Clean t.2) : tag (tagToken t) = .ok t := by
  have hcut : cutAt '=' (tagToken t) = some (quoted t.1.toList, quoted t.2.toList) := by
    refine cutAt_eq_some_iff.mpr ⟨rfl, ?_⟩
    rw [key.quoted_eq]
    simpa using equals
  have hne : t.1.toList ≠ [] := by simpa using nonempty
  rw [tag, hcut]
  dsimp only
  rw [unquote_quoted, unquote_quoted, key.escape_eq, value.escape_eq, if_neg hne,
    String.ofList_toList, String.ofList_toList]

theorem tag_sourceToken {source : String} (clean : Clean source) :
    tag (sourceToken source) = .ok (Point.sourceKey, source) := by
  have hcut : cutAt '=' (sourceToken source) =
      some (['s', 'o', 'u', 'r', 'c', 'e'], quoted source.toList) :=
    cutAt_eq_some_iff.mpr ⟨rfl, by decide⟩
  rw [tag, hcut]
  dsimp only
  rw [unquote_eq_self (by decide), unquote_quoted, clean.escape_eq, if_neg (by decide),
    String.ofList_toList]
  rfl

theorem mapM_tag_tagToken {ts : List (String × String)} (h : ∀ t ∈ ts, tag (tagToken t) = .ok t) :
    (ts.map tagToken).mapM tag = .ok ts := by
  induction ts with
  | nil => rfl
  | cons t ts ih =>
      rw [List.map_cons, List.mapM_cons, h t List.mem_cons_self,
        ih fun t ht => h t (List.mem_cons_of_mem _ ht)]
      rfl

end Decode

/-! ## The source as a tag -/

namespace Point

theorem otherTags_eq (p : Point) :
    p.otherTags = p.tags.erase (if p.tags.contains sourceKey then sourceKey else hostKey) := by
  unfold otherTags sourceTag
  by_cases hsource : p.tags.contains sourceKey = true
  · simp [hsource]
  · by_cases hhost : p.tags.contains hostKey = true
    · simp [hsource, hhost]
    · have habsent : p.tags.find? hostKey = none := by simpa [Dict.contains] using hhost
      simp [hsource, hhost, Dict.erase_eq_self habsent]

theorem find?_otherTags_source (p : Point) : p.otherTags.find? sourceKey = none := by
  rw [otherTags_eq, Dict.find?_erase]
  by_cases hsource : p.tags.contains sourceKey = true
  · simp [hsource]
  · have habsent : p.tags.find? sourceKey = none := by simpa [Dict.contains] using hsource
    simp [habsent]

/-- What a point becomes whose source is written out: a tag like the others. -/
def attributed (p : Point) (default : String) : Point :=
  make p.metric p.value p.timestamp (p.otherTags.insert sourceKey (p.effectiveSource default))

theorem source_attributed (p : Point) (default : String) :
    (p.attributed default).source = p.effectiveSource default := by
  simp [attributed, make, sourceOf, Dict.find?_insert_self]

/-- The source of an attributed point is written as before, unless it is empty
and another default comes in its place. -/
theorem effectiveSource_attributed (p : Point) {default other : String}
    (same : p.effectiveSource default = "" → other = default) :
    (p.attributed default).effectiveSource other = p.effectiveSource default := by
  rw [effectiveSource, source_attributed]
  split
  · rename_i hempty
    have hsource : p.source = "" := by
      unfold effectiveSource at hempty
      split at hempty <;> assumption
    simp [same hempty, effectiveSource, hsource]
  · rfl

theorem otherTags_attributed (p : Point) (default : String) :
    (p.attributed default).otherTags = p.otherTags := by
  have hcontains : (p.otherTags.insert sourceKey (p.effectiveSource default)).contains sourceKey =
      true := by
    simp [Dict.contains, Dict.find?_insert_self]
  rw [otherTags_eq]
  simp only [attributed, make, hcontains, if_true]
  exact Dict.erase_insert_self p.find?_otherTags_source _

theorem line_attributed (p : Point) {default other : String}
    (same : p.effectiveSource default = "" → other = default) :
    (p.attributed default).line other = p.line default := by
  rw [line, line, lineChars, lineChars, effectiveSource_attributed p same, otherTags_attributed]
  rfl

end Point

/-! ## The round trip -/

/-- A line decodes to its point with the source written out. -/
theorem Decode.decode_line {p : Point} {default : String} (now : Int) (metric : Clean p.metric)
    (nonempty : p.metric ≠ "") (finite : p.value.isFinite = true) (nonnegative : 0 ≤ p.timestamp)
    (seconds : p.timestamp < millisThreshold) (source : Clean (p.effectiveSource default))
    (tags : CleanTags p.tags) :
    Format.graphite.decode now (p.line default) = .ok (p.attributed default) := by
  have htags : Decode.tags (sourceToken (p.effectiveSource default) ::
        p.otherTags.toList.map tagToken) =
      .ok (p.otherTags.insert Point.sourceKey (p.effectiveSource default)) := by
    have hothers : (p.otherTags.toList.map tagToken).mapM tag = .ok p.otherTags.toList := by
      refine mapM_tag_tagToken fun t ht => ?_
      rw [Point.toList_otherTags] at ht
      have hmem : t ∈ p.tags.toList := (List.mem_filter.mp ht).1
      exact tag_tagToken (tags.key t hmem) (tags.key_nonempty t hmem) (tags.key_equals t hmem)
        (tags.value t hmem)
    rw [Decode.tags, List.mapM_cons, tag_sourceToken source, hothers,
      ← Dict.ofList_cons_toList _ p.find?_otherTags_source]
    rfl
  have htime : '=' ∉ intDigits p.timestamp := fun h =>
    Binary64.ne_of_isNumberChar (Binary64.isNumberChar_intDigits _ _ h) rfl rfl
  have htokens := tokens_line metric finite source tags
  rw [recordTokens, Point.record, ← Point.toList_otherTags] at htokens
  simp only [String.toList_ofList] at htokens
  rw [Format.decode, htokens]
  simp only [graphiteTokens, metric_quoted metric nonempty, value_valueText finite,
    optionalTimestamp, if_neg htime, timestamp_intDigits nonnegative seconds, htags, bind,
    Except.bind, Except.map, pure, Except.pure, Point.attributed]

/-- The source is a tag value, the default, or empty, so it is as clean as they are. -/
theorem Point.clean_effectiveSource {metric : String} {value : Binary64} {seconds : Int}
    {tags : Tags} {default : String} (cleanTags : CleanTags tags) (cleanDefault : Clean default) :
    Clean ((Point.make metric value seconds tags).effectiveSource default) := by
  have hvalue {key found : String} (hfound : tags.find? key = some found) : Clean found :=
    cleanTags.value (key, found) (Dict.mem_entries_iff.mpr hfound)
  unfold effectiveSource make sourceOf
  dsimp only
  split
  · exact cleanDefault
  · cases hsource : tags.find? sourceKey with
    | some found => simpa using hvalue hsource
    | none =>
        cases hhost : tags.find? hostKey with
        | some found => simpa using hvalue hhost
        | none => simp [Clean]

/-- The tags of a point named by its host, one value empty and one with `=` in it. -/
def Point.hostTags : Tags := ⟨[("env", ""), ("host", "rack=7")], by decide⟩

end MetricsProxy
