import MetricsProxy.Clock.Unix
import MetricsProxy.Proofs.Decode.Grammar

/-!
# What a decoded point is made of

Whatever line a decoder accepts, the words of the line have no blank in them, so
neither has what is read from a word: the metric, the keys and the values of the tags
(`decode_wellFormed`). The proof is by the grammar, field by field.
-/
namespace MetricsProxy
open Text

namespace Text

def Solid (s : String) : Prop := ∀ c ∈ s.toList, isAsciiBlank c = false

theorem Solid.newline_not_mem {s : String} (h : Solid s) : '\n' ∉ s.toList :=
  fun hc => absurd (h _ hc) (by decide)

end Text

namespace Point

/-- A tag whose key is before the first `=` and not empty, both texts without blanks. -/
structure WellFormedTag (tag : String × String) : Prop where
  key_nonempty : tag.1 ≠ ""
  key_equals : '=' ∉ tag.1.toList
  key_solid : Solid tag.1
  value_solid : Solid tag.2

/-- The source that tags name: their source, else their host, else nothing. -/
inductive NamesSource (tags : Tags) : String → Prop where
  | source {s : String} (found : tags.find? "source" = some s) : NamesSource tags s
  | host {s : String} (absent : tags.find? "source" = none) (found : tags.find? "host" = some s) :
      NamesSource tags s
  | nothing (noSource : tags.find? "source" = none) (noHost : tags.find? "host" = none) :
      NamesSource tags ""

structure WellFormed (p : Point) : Prop where
  metric_nonempty : p.metric ≠ ""
  metric_solid : Solid p.metric
  finite : p.value.isFinite = true
  timestamp_nonneg : 0 ≤ p.timestamp
  tags : ∀ tag ∈ p.tags.toList, WellFormedTag tag
  source : NamesSource p.tags p.source

theorem NamesSource.solid {tags : Tags} {s : String} (h : NamesSource tags s)
    (solid : ∀ tag ∈ tags.toList, Solid tag.2) : Solid s := by
  have found {key value : String} (found : tags.find? key = some value) : Solid value :=
    solid (key, value) (Dict.mem_entries_iff.mpr found)
  cases h with
  | source hsource => exact found hsource
  | host _ hhost => exact found hhost
  | nothing => exact fun c hc => by cases hc

theorem namesSource_sourceOf (tags : Tags) : NamesSource tags (sourceOf tags) := by
  unfold sourceOf
  cases hsource : tags.find? sourceKey with
  | some s => exact .source hsource
  | none =>
      cases hhost : tags.find? hostKey with
      | some s => exact .host hsource hhost
      | none => exact .nothing hsource hhost

end Point

namespace Decode

theorem Unquoted.subset {t inner : Token} (h : Unquoted t inner) : inner ⊆ t := by
  cases h with
  | quoted => exact fun c hc => List.mem_cons_of_mem _ (List.mem_append_left _ hc)
  | plain => exact fun c hc => hc

theorem Unquoted.solid {t inner : Token} (h : Unquoted t inner)
    (solid : ∀ c ∈ t, isAsciiBlank c = false) : Solid (String.ofList inner) := by
  intro c hc
  rw [String.toList_ofList] at hc
  exact solid c (h.subset hc)

theorem ofList_ne_empty {cs : List Char} (nonempty : cs ≠ []) : String.ofList cs ≠ "" := by
  intro h
  have hchars := congrArg String.toList h
  rw [String.toList_ofList] at hchars
  exact nonempty hchars

theorem IsTime.nonneg {t : Token} {seconds : Int} (h : IsTime t seconds) : 0 ≤ seconds := by
  cases h with
  | seconds _ nonnegative => exact nonnegative
  | milliseconds _ many =>
      unfold millisThreshold at many
      omega

theorem IsTag.wellFormed {t : Token} {entry : String × String} (h : IsTag t entry)
    (solid : ∀ c ∈ t, isAsciiBlank c = false) : Point.WellFormedTag entry := by
  cases h with
  | @tag left right key value first before nonempty after =>
      have hleft : ∀ c ∈ left, isAsciiBlank c = false :=
        fun c hc => solid c (List.mem_append_left _ hc)
      have hright : ∀ c ∈ right, isAsciiBlank c = false :=
        fun c hc => solid c (List.mem_append_right _ (List.mem_cons_of_mem _ hc))
      refine ⟨ofList_ne_empty nonempty, ?_, before.solid hleft, after.solid hright⟩
      rw [String.toList_ofList]
      exact fun hc => first (before.subset hc)

theorem IsMetric.nonempty_solid {t : Token} {name : String} (h : IsMetric t name)
    (solid : ∀ c ∈ t, isAsciiBlank c = false) : name ≠ "" ∧ Solid name := by
  cases h with
  | name unquoted nonempty => exact ⟨ofList_ne_empty nonempty, unquoted.solid solid⟩

theorem wellFormed_of_tagged {ts : List Token} {entries : List (String × String)}
    (h : List.Forall₂ IsTag ts entries) (solid : ∀ t ∈ ts, ∀ c ∈ t, isAsciiBlank c = false) :
    ∀ entry ∈ entries, Point.WellFormedTag entry := by
  induction h with
  | nil => exact List.forall_mem_nil _
  | cons tag _ ih =>
      obtain ⟨hfirst, hrest⟩ := List.forall_mem_cons.mp solid
      exact List.forall_mem_cons.mpr ⟨tag.wellFormed hfirst, ih hrest⟩

theorem Carries.mem_entries {p : Point} {name : String} {x : Binary64} {seconds : Int}
    {entries : List (String × String)} (h : Carries p name x seconds entries)
    {tag : String × String} (htag : tag ∈ p.tags.toList) : tag ∈ entries := by
  have hfind : p.tags.find? tag.1 = some tag.2 := Dict.mem_entries_iff.mp htag
  rw [h.tags, Option.map_eq_some_iff] at hfind
  obtain ⟨entry, hentry, hvalue⟩ := hfind
  have hkey : entry.1 = tag.1 := by simpa using List.find?_some hentry
  obtain rfl : entry = tag := Prod.ext hkey hvalue
  exact List.mem_reverse.mp (List.mem_of_find?_eq_some hentry)

theorem Carries.wellFormed {p : Point} {m v : Token} {ts : List Token} {name : String}
    {x : Binary64} {seconds : Int} {entries : List (String × String)}
    (h : Carries p name x seconds entries) (metric : IsMetric m name) (value : IsValue v x)
    (nonneg : 0 ≤ seconds) (tagged : List.Forall₂ IsTag ts entries)
    (solid : ∀ t ∈ m :: ts, ∀ c ∈ t, isAsciiBlank c = false) : p.WellFormed := by
  obtain ⟨hmetric, htags⟩ := List.forall_mem_cons.mp solid
  obtain ⟨metric_nonempty, metric_solid⟩ := metric.nonempty_solid hmetric
  refine ⟨h.metric ▸ metric_nonempty, h.metric ▸ metric_solid, h.value ▸ value.2,
    h.timestamp ▸ nonneg, fun tag htag => ?_, h.source ▸ Point.namesSource_sourceOf p.tags⟩
  exact wellFormed_of_tagged tagged htags tag (h.mem_entries htag)

/-- The time of a line is its own or the clock's, and its tag tokens are among its tokens. -/
theorem IsTimed.nonneg {now : Int} {rest tags : List Token} {seconds : Int}
    (h : IsTimed now rest seconds tags) (clock : 0 ≤ now) : 0 ≤ seconds ∧ tags ⊆ rest := by
  cases h with
  | given _ time => exact ⟨time.nonneg, List.subset_cons_self _ _⟩
  | clock => exact ⟨clock, fun t ht => ht⟩

end Decode

namespace Format
open Decode

/-- What a grammar reads is well formed, if its words are words. -/
theorem Reads.wellFormed {format : Format} {now : Int} {ts : List Token} {p : Point}
    (h : format.Reads now ts p) (clock : 0 ≤ now)
    (solid : ∀ t ∈ ts, ∀ c ∈ t, isAsciiBlank c = false) : p.WellFormed := by
  cases format with
  | graphite =>
      cases h with
      | @line m v rest tags _ _ _ _ _ metric value time tagged carries =>
          obtain ⟨nonneg, hsubset⟩ := time.nonneg clock
          refine carries.wellFormed metric value nonneg tagged fun t ht => solid t ?_
          rcases List.mem_cons.mp ht with rfl | ht
          · exact List.mem_cons_self
          · exact List.mem_cons_of_mem _ (List.mem_cons_of_mem _ (hsubset ht))
  | openTsdb =>
      cases h with
      | @line m t v tags _ _ _ _ _ metric time value tagged carries =>
          refine carries.wellFormed metric value time.nonneg tagged fun t ht => solid t ?_
          rcases List.mem_cons.mp ht with rfl | ht
          · exact List.mem_cons_of_mem _ List.mem_cons_self
          · exact List.mem_cons_of_mem _ (List.mem_cons_of_mem _ (List.mem_cons_of_mem _
              (List.mem_cons_of_mem _ ht)))

/-- Every point that a decoder gives is well formed. -/
theorem decode_wellFormed {format : Format} {shown : Int} {line : String} {p : Point}
    (h : format.decode (Clock.unixSeconds shown) line = .ok p) : p.WellFormed :=
  Reads.wellFormed (((format.decode_checked _ line).ok_iff p).mp h) (Clock.unixSeconds_nonneg shown)
    fun _ ht => (of_mem_words ht).2

end Format
end MetricsProxy
