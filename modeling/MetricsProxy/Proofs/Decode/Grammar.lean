import Mathlib.Data.List.Forall2
import MetricsProxy.Decode
import MetricsProxy.Proofs.Dict
import MetricsProxy.Proofs.Graphite.RoundTrip

/-!
# What the decoders accept

The grammars of the two formats are relations between the words of a line and a
point, built from one relation for each field. Beside them stand the checks of
a format, each with the error it gives, in the order in which they are made.
`Checked` ties a reader to both: it gives what the relation says and otherwise
the error of the first check that fails. Readers one after another are checked
one after another (`Checked.bind`), so a format is checked because its fields
are.
-/
namespace MetricsProxy
open Text

/-! ## Words -/

namespace Text

/-- A text and its words. Any blanks may stand before a word; it ends where the text
ends or a blank follows. -/
inductive Spaced : List Char → List (List Char) → Prop where
  | blanks {cs : List Char} (blank : ∀ c ∈ cs, isAsciiBlank c = true) : Spaced cs []
  | word {before w rest : List Char} {ws : List (List Char)}
      (blank : ∀ c ∈ before, isAsciiBlank c = true) (nonempty : w ≠ [])
      (solid : ∀ c ∈ w, isAsciiBlank c = false)
      (ends : ∀ c ∈ rest.head?, isAsciiBlank c = true) (later : Spaced rest ws) :
      Spaced (before ++ (w ++ rest)) (w :: ws)

theorem words_blanks_append {before : List Char} (blank : ∀ c ∈ before, isAsciiBlank c = true)
    (cs : List Char) : words (before ++ cs) = words cs := by
  induction before with
  | nil => rfl
  | cons b before ih =>
      have hb := blank b List.mem_cons_self
      rw [List.cons_append, ← List.nil_append (b :: _), words_append_cons [] _ b hb,
        ih fun c hc => blank c (List.mem_cons_of_mem b hc)]
      rfl

theorem Spaced.words_eq {cs : List Char} {ws : List (List Char)} (h : Spaced cs ws) :
    words cs = ws := by
  induction h with
  | @blanks cs blank =>
      rw [← List.append_nil cs]
      exact words_blanks_append blank []
  | @word before w rest ws blank nonempty solid ends _ ih =>
      rw [words_blanks_append blank]
      cases rest with
      | nil =>
          rw [List.append_nil, words_singleton nonempty solid, ← ih]
          rfl
      | cons b rest =>
          have hb : isAsciiBlank b = true := ends b rfl
          have hrest : words (b :: rest) = words rest :=
            words_blanks_append (List.forall_mem_singleton.mpr hb) rest
          rw [words_append_cons w rest b hb, words_singleton nonempty solid, ← hrest, ih]
          rfl

theorem Spaced.cons_blank {b : Char} (hb : isAsciiBlank b = true) {cs : List Char}
    {ws : List (List Char)} (h : Spaced cs ws) : Spaced (b :: cs) ws := by
  cases h with
  | blanks blank => exact .blanks (List.forall_mem_cons.mpr ⟨hb, blank⟩)
  | word blank nonempty solid ends later =>
      exact .word (List.forall_mem_cons.mpr ⟨hb, blank⟩) nonempty solid ends later

theorem Spaced.cons_solid {a c : Char} (ha : isAsciiBlank a = false)
    (hc : isAsciiBlank c = false) {cs : List Char} {ws : List (List Char)}
    (h : Spaced (c :: cs) ws) : ∃ vs, Spaced (a :: c :: cs) vs := by
  generalize htext : c :: cs = text at h
  cases h with
  | blanks blank =>
      subst htext
      exact absurd (blank c List.mem_cons_self) (by simp [hc])
  | @word before w rest ws blank nonempty solid ends later =>
      cases before with
      | nil =>
          exact ⟨(a :: w) :: ws, .word (List.forall_mem_nil _) (List.cons_ne_nil a w)
            (List.forall_mem_cons.mpr ⟨ha, solid⟩) ends later⟩
      | cons b before =>
          obtain rfl : c = b := (List.cons.inj htext).1
          exact absurd (blank c List.mem_cons_self) (by simp [hc])

theorem exists_spaced (cs : List Char) : ∃ ws, Spaced cs ws := by
  induction cs with
  | nil => exact ⟨[], .blanks (List.forall_mem_nil _)⟩
  | cons a cs ih =>
      obtain ⟨ws, h⟩ := ih
      cases ha : isAsciiBlank a with
      | true => exact ⟨ws, h.cons_blank ha⟩
      | false =>
          have single (ends : ∀ c ∈ cs.head?, isAsciiBlank c = true) :
              ∃ vs, Spaced (a :: cs) vs :=
            ⟨[a] :: ws, .word (List.forall_mem_nil _) (List.cons_ne_nil a [])
              (List.forall_mem_singleton.mpr ha) ends h⟩
          cases cs with
          | nil => exact single nofun
          | cons c cs =>
              cases hc : isAsciiBlank c with
              | true => exact single fun d hd => Option.some.inj hd ▸ hc
              | false => exact h.cons_solid ha hc

/-- The words of a text are what the blanks leave of it. -/
theorem spaced_iff {cs : List Char} {ws : List (List Char)} : Spaced cs ws ↔ words cs = ws := by
  refine ⟨Spaced.words_eq, fun hwords => ?_⟩
  obtain ⟨vs, h⟩ := exists_spaced cs
  rw [← hwords, h.words_eq]
  exact h

end Text

namespace Decode

/-! ## Fields -/

/-- A token with and without its quotes: they go if there is one at each end. -/
inductive Unquoted : Token → Token → Prop where
  | quoted {inner : Token} : Unquoted ('"' :: (inner ++ ['"'])) inner
  | plain {t : Token} (unquoted : ∀ inner, t ≠ '"' :: (inner ++ ['"'])) : Unquoted t t

inductive IsMetric : Token → String → Prop where
  | name {t inner : Token} (unquoted : Unquoted t inner) (nonempty : inner ≠ []) :
      IsMetric t (String.ofList inner)

def IsNumeral (t : Token) : Prop := ∃ x, Binary64.parse? t = some x

def IsValue (t : Token) (x : Binary64) : Prop := Binary64.parse? t = some x ∧ x.isFinite = true

/-- A time is not negative. From the threshold on it is in milliseconds. -/
inductive IsTime : Token → Int → Prop where
  | seconds {t : Token} {i : Int} (instant : instant? t = some i) (nonnegative : 0 ≤ i)
      (few : i < millisThreshold) : IsTime t i
  | milliseconds {t : Token} {i : Int} (instant : instant? t = some i)
      (many : millisThreshold ≤ i) : IsTime t (i / 1000)

/-- A tag has its key before the first `=`. -/
inductive IsTag : Token → String × String → Prop where
  | tag {left right key value : Token} (first : '=' ∉ left) (before : Unquoted left key)
      (nonempty : key ≠ []) (after : Unquoted right value) :
      IsTag (left ++ '=' :: right) (String.ofList key, String.ofList value)

/-- What a point has in it. Of several tags with one key the last one counts. -/
structure Carries (p : Point) (name : String) (x : Binary64) (seconds : Int)
    (entries : List (String × String)) : Prop where
  metric : p.metric = name
  value : p.value = x
  timestamp : p.timestamp = seconds
  tags : ∀ key, p.tags.find? key = (entries.reverse.find? fun e => e.1 == key).map (·.2)
  source : p.source = Point.sourceOf p.tags

/-! ## Formats -/

/-- The time of a Graphite line and its tag tokens: the third token if it has no `=`, or
the clock's time if there is no such token. -/
inductive IsTimed (now : Int) : List Token → Int → List Token → Prop where
  | given {t : Token} {tags : List Token} {seconds : Int} (plain : '=' ∉ t)
      (time : IsTime t seconds) : IsTimed now (t :: tags) seconds tags
  | clock {tags : List Token} (absent : ∀ t ∈ tags.head?, '=' ∈ t) : IsTimed now tags now tags

inductive GraphiteLine (now : Int) : List Token → Point → Prop where
  | line {m v : Token} {rest tags : List Token} {name : String} {x : Binary64} {seconds : Int}
      {entries : List (String × String)} {p : Point} (metric : IsMetric m name)
      (value : IsValue v x) (time : IsTimed now rest seconds tags)
      (tagged : List.Forall₂ IsTag tags entries) (carries : Carries p name x seconds entries) :
      GraphiteLine now (m :: v :: rest) p

inductive OpenTsdbLine : List Token → Point → Prop where
  | line {m t v : Token} {tags : List Token} {name : String} {x : Binary64} {seconds : Int}
      {entries : List (String × String)} {p : Point} (metric : IsMetric m name)
      (time : IsTime t seconds) (value : IsValue v x)
      (tagged : List.Forall₂ IsTag tags entries) (carries : Carries p name x seconds entries) :
      OpenTsdbLine (putWord :: m :: t :: v :: tags) p

/-! ## Checks -/

/-- What a decoder looks for, and its error if it is not there. -/
structure Check where
  holds : Prop
  fault : DecodeError

/-- The first check that fails gives the error. -/
inductive FirstFailing : List Check → DecodeError → Prop where
  | here {check : Check} {checks : List Check} (fails : ¬ check.holds) :
      FirstFailing (check :: checks) check.fault
  | later {check : Check} {checks : List Check} {e : DecodeError} (holds : check.holds)
      (h : FirstFailing checks e) : FirstFailing (check :: checks) e

def metricCheck (t : Token) : Check := ⟨∃ name, IsMetric t name, .emptyMetric⟩

def numeralCheck (t : Token) : Check := ⟨IsNumeral t, .invalidValue (String.ofList t)⟩

def finiteCheck (t : Token) : Check := ⟨∃ x, IsValue t x, .nonFiniteValue (String.ofList t)⟩

def timeCheck (t : Token) : Check :=
  ⟨∃ seconds, IsTime t seconds, .invalidTimestamp (String.ofList t)⟩

def tagCheck (t : Token) : Check := ⟨∃ entry, IsTag t entry, .invalidTag (String.ofList t)⟩

def restChecks : List Token → List Check
  | [] => []
  | t :: tags =>
      if '=' ∈ t then tagCheck t :: tags.map tagCheck else timeCheck t :: tags.map tagCheck

def graphiteFieldChecks : List Token → List Check
  | m :: v :: rest => metricCheck m :: numeralCheck v :: finiteCheck v :: restChecks rest
  | _ => []

def openTsdbFieldChecks : List Token → List Check
  | _ :: m :: t :: v :: tags =>
      metricCheck m :: timeCheck t :: numeralCheck v :: finiteCheck v :: tags.map tagCheck
  | _ => []

end Decode

namespace Format
open Decode

/-- The grammar of a format. -/
def Reads : Format → Int → List Token → Point → Prop
  | graphite => GraphiteLine
  | openTsdb => fun _ => OpenTsdbLine

def checks : Format → List Token → List Check
  | graphite, ts =>
      ⟨ts ≠ [], .empty⟩ :: ⟨2 ≤ ts.length, .tokenCount 2 ts.length⟩ :: graphiteFieldChecks ts
  | openTsdb, ts =>
      ⟨ts ≠ [], .empty⟩ ::
        ⟨ts.head? = some putWord, .missingPut (String.ofList (ts.headD []))⟩ ::
        ⟨4 ≤ ts.length, .tokenCount 4 ts.length⟩ :: openTsdbFieldChecks ts

end Format

namespace Decode

/-! ## Readers and their checks -/

namespace FirstFailing
variable {checks later : List Check} {e : DecodeError}

theorem not_all (h : FirstFailing checks e) : ¬ ∀ check ∈ checks, check.holds := by
  induction h with
  | here fails => exact fun all => fails (all _ List.mem_cons_self)
  | later _ _ ih => exact fun all => ih fun check hc => all check (List.mem_cons_of_mem _ hc)

theorem all_or_exists (checks : List Check) :
    (∀ check ∈ checks, check.holds) ∨ ∃ e, FirstFailing checks e := by
  induction checks with
  | nil => exact .inl (List.forall_mem_nil _)
  | cons check checks ih =>
      by_cases holds : check.holds
      · rcases ih with all | ⟨e, h⟩
        · exact .inl (List.forall_mem_cons.mpr ⟨holds, all⟩)
        · exact .inr ⟨e, .later holds h⟩
      · exact .inr ⟨check.fault, .here holds⟩

theorem append_iff :
    FirstFailing (checks ++ later) e ↔
      FirstFailing checks e ∨ (∀ check ∈ checks, check.holds) ∧ FirstFailing later e := by
  constructor
  · intro h
    induction checks with
    | nil => exact .inr ⟨List.forall_mem_nil _, h⟩
    | cons check checks ih =>
        cases h with
        | here fails => exact .inl (.here fails)
        | later holds h =>
            rcases ih h with h | ⟨all, h⟩
            · exact .inl (.later holds h)
            · exact .inr ⟨List.forall_mem_cons.mpr ⟨holds, all⟩, h⟩
  · rintro (h | ⟨all, h⟩)
    · induction h with
      | here fails => exact .here fails
      | later holds _ ih => exact .later holds ih
    · induction checks with
      | nil => exact h
      | cons check checks ih =>
          obtain ⟨holds, all⟩ := List.forall_mem_cons.mp all
          exact .later holds (ih all)

end FirstFailing

/-- A reader gives what `Reads` says, and otherwise the error of the first check that
fails. -/
structure Checked {α : Type} (r : Except DecodeError α) (checks : List Check)
    (Reads : α → Prop) : Prop where
  ok_iff : ∀ a, r = .ok a ↔ Reads a
  error_iff : ∀ e, r = .error e ↔ FirstFailing checks e

namespace Checked
variable {α β : Type} {checks later : List Check} {Reads : α → Prop}

theorem all_iff {r : Except DecodeError α} (h : Checked r checks Reads) :
    (∀ check ∈ checks, check.holds) ↔ ∃ a, r = .ok a := by
  cases hr : r with
  | ok a =>
      refine iff_of_true ?_ ⟨a, rfl⟩
      rcases FirstFailing.all_or_exists checks with all | ⟨e, he⟩
      · exact all
      · exact absurd ((h.error_iff e).mpr he) (by simp [hr])
  | error e => exact iff_of_false ((h.error_iff e).mp hr).not_all nofun

theorem pure (a : α) : Checked (.ok a) [] (· = a) where
  ok_iff _ := ⟨fun h => (Except.ok.inj h).symm, fun h => h ▸ rfl⟩
  error_iff _ := ⟨nofun, nofun⟩

theorem of_fault {r : Except DecodeError α} {fault : DecodeError}
    (ok_iff : ∀ a, r = .ok a ↔ Reads a) (faulty : ∀ e, r = .error e → e = fault) :
    Checked r [⟨∃ a, Reads a, fault⟩] Reads where
  ok_iff := ok_iff
  error_iff e := by
    constructor
    · intro hr
      obtain rfl := faulty e hr
      refine .here fun ⟨a, ha⟩ => ?_
      rw [(ok_iff a).mpr ha] at hr
      cases hr
    · intro h
      cases h with
      | here fails =>
          cases hr : r with
          | ok a => exact absurd ⟨a, (ok_iff a).mp hr⟩ fails
          | error e => rw [faulty e hr]
      | later _ h => cases h

theorem fails (check : Check) (fails : ¬ check.holds) (unread : ∀ a, ¬ Reads a) :
    Checked (.error check.fault) (check :: checks) Reads where
  ok_iff a := iff_of_false nofun (unread a)
  error_iff e := by
    constructor
    · intro h
      obtain rfl := Except.error.inj h
      exact .here fails
    · intro h
      cases h with
      | here => rfl
      | later holds => exact absurd holds fails

theorem cons (check : Check) (holds : check.holds) {r : Except DecodeError α}
    (h : Checked r checks Reads) : Checked r (check :: checks) Reads where
  ok_iff := h.ok_iff
  error_iff e := by
    rw [h.error_iff]
    refine ⟨.later holds, fun h => ?_⟩
    cases h with
    | here fails => exact absurd holds fails
    | later _ h => exact h

theorem congr {r : Except DecodeError α} (h : Checked r checks Reads) {Reads' : α → Prop}
    (same : ∀ a, Reads a ↔ Reads' a) : Checked r checks Reads' where
  ok_iff a := (h.ok_iff a).trans (same a)
  error_iff := h.error_iff

/-- Readers one after another make their checks one after another. -/
theorem bind {x : Except DecodeError α} {f : α → Except DecodeError β}
    {Next : α → β → Prop} (hx : Checked x checks Reads)
    (hf : ∀ a, Reads a → Checked (f a) later (Next a)) :
    Checked (x >>= f) (checks ++ later) fun b => ∃ a, Reads a ∧ Next a b := by
  cases hr : x with
  | error e =>
      have fails : FirstFailing checks e := (hx.error_iff e).mp hr
      refine ⟨fun b => iff_of_false nofun ?_, fun e' => ?_⟩
      · rintro ⟨a, ha, -⟩
        exact absurd ((hx.ok_iff a).mpr ha) (by simp [hr])
      · rw [FirstFailing.append_iff, ← hx.error_iff, hr]
        refine ⟨fun h => .inl (congrArg _ (Except.error.inj h)), fun h => ?_⟩
        exact congrArg _ (Except.error.inj (h.resolve_right fun h => fails.not_all h.1))
  | ok a =>
      have ha : Reads a := (hx.ok_iff a).mp hr
      refine ⟨fun b => ?_, fun e => ?_⟩
      · refine ((hf a ha).ok_iff b).trans ⟨fun h => ⟨a, ha, h⟩, ?_⟩
        rintro ⟨a', ha', h⟩
        obtain rfl : a = a' := Except.ok.inj (hr.symm.trans ((hx.ok_iff a').mpr ha'))
        exact h
      · have all := hx.all_iff.mpr ⟨a, hr⟩
        rw [FirstFailing.append_iff]
        refine ((hf a ha).error_iff e).trans ⟨fun h => .inr ⟨all, h⟩, ?_⟩
        rintro (h | ⟨-, h⟩)
        · exact absurd all h.not_all
        · exact h

end Checked

theorem unquote_eq_iff {t s : Token} : unquote t = s ↔ Unquoted t s := by
  constructor
  · rintro rfl
    unfold unquote
    split
    · split
      case isTrue rest hlast =>
        obtain ⟨inner, rfl⟩ := List.getLast?_eq_some_iff.mp hlast
        rw [List.dropLast_concat]
        exact .quoted
      case isFalse rest hlast =>
        refine .plain fun inner h => hlast ?_
        rw [(List.cons.inj h).2, List.getLast?_concat]
    · rename_i hopen
      exact .plain fun inner => hopen _
  · intro h
    cases h with
    | quoted => simp [unquote]
    | plain unquoted =>
        unfold unquote
        split
        · rename_i rest
          refine if_neg fun hlast => ?_
          obtain ⟨inner, rfl⟩ := List.getLast?_eq_some_iff.mp hlast
          exact unquoted inner rfl
        · rfl

theorem metric_eq_ok_iff {t : Token} {name : String} : metric t = .ok name ↔ IsMetric t name := by
  unfold metric
  constructor
  · intro h
    split at h
    · cases h
    · rename_i nonempty
      obtain rfl := Except.ok.inj h
      exact .name (unquote_eq_iff.mp rfl) nonempty
  · intro h
    cases h with
    | name unquoted nonempty =>
        obtain rfl := unquote_eq_iff.mpr unquoted
        exact if_neg nonempty

theorem metric_checked (t : Token) : Checked (metric t) [metricCheck t] (IsMetric t) := by
  refine .of_fault (fun name => metric_eq_ok_iff) fun e h => ?_
  unfold metric at h
  split at h
  · exact (Except.error.inj h).symm
  · cases h

theorem value_checked (t : Token) :
    Checked (value t) [numeralCheck t, finiteCheck t] (IsValue t) := by
  unfold value
  cases hparse : Binary64.parse? t with
  | none =>
      refine .fails (numeralCheck t) ?_ fun x h => ?_
      · rintro ⟨x, h⟩
        cases hparse.symm.trans h
      · cases hparse.symm.trans h.1
  | some x =>
      refine .cons (numeralCheck t) ⟨x, hparse⟩ ?_
      dsimp only
      split
      · rename_i finite
        refine .cons (finiteCheck t) ⟨x, hparse, finite⟩
          ((Checked.pure x).congr fun y => ⟨?_, ?_⟩)
        · rintro rfl
          exact ⟨hparse, finite⟩
        · exact fun h => Option.some.inj (h.1.symm.trans hparse)
      · rename_i infinite
        have unread (y : Binary64) : ¬ IsValue t y := by
          rintro ⟨h, finite⟩
          obtain rfl := Option.some.inj (hparse.symm.trans h)
          exact infinite finite
        exact .fails (finiteCheck t) (fun ⟨y, h⟩ => unread y h) unread

theorem timestamp_eq_ok_iff {t : Token} {seconds : Int} :
    timestamp t = .ok seconds ↔ IsTime t seconds := by
  unfold timestamp
  constructor
  · intro h
    split at h
    · cases h
    · rename_i i hinstant
      split at h
      · cases h
      · split at h
        · obtain rfl := Except.ok.inj h
          exact .milliseconds hinstant ‹_›
        · obtain rfl := Except.ok.inj h
          exact .seconds hinstant (by omega) (by omega)
  · intro h
    cases h with
    | seconds hinstant nonnegative few =>
        rw [hinstant]
        dsimp only
        rw [if_neg (by omega), if_neg (by omega)]
    | @milliseconds i hinstant many =>
        have nonnegative : ¬ i < 0 := by
          unfold millisThreshold at many
          omega
        rw [hinstant]
        dsimp only
        rw [if_neg nonnegative, if_pos many]

theorem timestamp_checked (t : Token) : Checked (timestamp t) [timeCheck t] (IsTime t) := by
  refine .of_fault (fun seconds => timestamp_eq_ok_iff) fun e h => ?_
  unfold timestamp at h
  split at h
  · exact (Except.error.inj h).symm
  · split at h
    · exact (Except.error.inj h).symm
    · split at h <;> cases h

theorem tag_eq_ok_iff {t : Token} {entry : String × String} :
    tag t = .ok entry ↔ IsTag t entry := by
  unfold tag
  constructor
  · intro h
    split at h
    · cases h
    · rename_i left right hcut
      split at h
      · cases h
      · rename_i nonempty
        obtain rfl := Except.ok.inj h
        obtain ⟨rfl, first⟩ := cutAt_eq_some_iff.mp hcut
        exact .tag first (unquote_eq_iff.mp rfl) nonempty (unquote_eq_iff.mp rfl)
  · intro h
    cases h with
    | tag first before nonempty after =>
        obtain rfl := unquote_eq_iff.mpr before
        obtain rfl := unquote_eq_iff.mpr after
        rw [cutAt_eq_some_iff.mpr ⟨rfl, first⟩]
        exact if_neg nonempty

theorem tag_checked (t : Token) : Checked (tag t) [tagCheck t] (IsTag t) := by
  refine .of_fault (fun entry => tag_eq_ok_iff) fun e h => ?_
  unfold tag at h
  split at h
  · exact (Except.error.inj h).symm
  · split at h
    · exact (Except.error.inj h).symm
    · cases h

/-- Tags are read and checked from left to right. -/
theorem mapM_tag_checked (ts : List Token) :
    Checked (ts.mapM tag) (ts.map tagCheck) (List.Forall₂ IsTag ts) := by
  induction ts with
  | nil => exact (Checked.pure []).congr fun entries => List.forall₂_nil_left_iff.symm
  | cons t ts ih =>
      rw [List.mapM_cons]
      have hrest (entry : String × String) : Checked (ts.mapM tag >>= fun entries =>
          Pure.pure (entry :: entries)) (ts.map tagCheck)
          fun all => ∃ entries, List.Forall₂ IsTag ts entries ∧ all = entry :: entries := by
        have h := ih.bind fun entries _ => Checked.pure (entry :: entries)
        rwa [List.append_nil] at h
      refine ((tag_checked t).bind fun entry _ => hrest entry).congr fun all => ?_
      rw [List.forall₂_cons_left_iff]
      constructor
      · rintro ⟨entry, hentry, entries, hentries, rfl⟩
        exact ⟨entry, entries, hentry, hentries, rfl⟩
      · rintro ⟨entry, entries, hentry, hentries, rfl⟩
        exact ⟨entry, hentry, entries, hentries, rfl⟩

/-! ## Lines and their checks -/

theorem carries_iff {p : Point} {name : String} {x : Binary64} {seconds : Int}
    {entries : List (String × String)} :
    Carries p name x seconds entries ↔ p = Point.make name x seconds (Dict.ofList entries) := by
  constructor
  · intro h
    have htags : p.tags = Dict.ofList entries :=
      Dict.ext fun key => (h.tags key).trans (Dict.find?_ofList entries key).symm
    cases p with
    | mk metric value timestamp source tags =>
        obtain ⟨rfl, rfl, rfl, -, hsource⟩ := h
        obtain rfl : tags = Dict.ofList entries := htags
        obtain rfl : source = Point.sourceOf (Dict.ofList entries) := hsource
        rfl
  · rintro rfl
    exact ⟨rfl, rfl, rfl, Dict.find?_ofList entries, rfl⟩

theorem tags_dict_checked (ts : List Token) : Checked (tags ts) (ts.map tagCheck)
    fun found => ∃ entries, List.Forall₂ IsTag ts entries ∧ found = Dict.ofList entries := by
  have hread : tags ts = ts.mapM tag >>= fun entries => .ok (Dict.ofList entries) := by
    unfold tags
    cases ts.mapM tag <;> rfl
  have h := (mapM_tag_checked ts).bind fun entries _ => Checked.pure (Dict.ofList entries)
  rwa [List.append_nil, ← hread] at h

theorem tags_checked (name : String) (x : Binary64) (seconds : Int) (ts : List Token) :
    Checked (tags ts >>= fun found => .ok (Point.make name x seconds found)) (ts.map tagCheck)
      fun p => ∃ entries, List.Forall₂ IsTag ts entries ∧ Carries p name x seconds entries := by
  have h := (tags_dict_checked ts).bind fun found _ =>
    Checked.pure (Point.make name x seconds found)
  rw [List.append_nil] at h
  refine h.congr fun p => ?_
  simp only [carries_iff]
  constructor
  · rintro ⟨_, ⟨entries, hentries, rfl⟩, rfl⟩
    exact ⟨entries, hentries, rfl⟩
  · rintro ⟨entries, hentries, rfl⟩
    exact ⟨_, ⟨entries, hentries, rfl⟩, rfl⟩

theorem isTimed_clock_iff {now : Int} {ts : List Token} (absent : ∀ t ∈ ts.head?, '=' ∈ t)
    {seconds : Int} {tags : List Token} :
    IsTimed now ts seconds tags ↔ seconds = now ∧ tags = ts := by
  constructor
  · intro h
    cases h with
    | given plain => exact absurd (absent _ rfl) plain
    | clock => exact ⟨rfl, rfl⟩
  · rintro ⟨rfl, rfl⟩
    exact .clock absent

theorem isTimed_given_iff {now : Int} {t : Token} (plain : '=' ∉ t) {ts : List Token}
    {seconds : Int} {tags : List Token} :
    IsTimed now (t :: ts) seconds tags ↔ IsTime t seconds ∧ tags = ts := by
  constructor
  · intro h
    cases h with
    | given _ time => exact ⟨time, rfl⟩
    | clock absent => exact absurd (absent t rfl) plain
  · rintro ⟨time, rfl⟩
    exact .given plain time

theorem rest_checked (now : Int) (name : String) (x : Binary64) (rest : List Token) :
    Checked (optionalTimestamp now rest >>= fun r => tags r.2 >>= fun found =>
        .ok (Point.make name x r.1 found)) (restChecks rest)
      fun p => ∃ seconds ts, IsTimed now rest seconds ts ∧
        ∃ entries, List.Forall₂ IsTag ts entries ∧ Carries p name x seconds entries := by
  have clock (absent : ∀ t ∈ rest.head?, '=' ∈ t) :
      Checked (tags rest >>= fun found => .ok (Point.make name x now found))
        (rest.map tagCheck) fun p => ∃ seconds ts, IsTimed now rest seconds ts ∧
          ∃ entries, List.Forall₂ IsTag ts entries ∧ Carries p name x seconds entries := by
    refine (tags_checked name x now rest).congr fun p => ?_
    simp only [isTimed_clock_iff absent, and_assoc, exists_and_left, exists_eq_left]
  cases rest with
  | nil => exact clock nofun
  | cons t rest =>
      by_cases tagged : '=' ∈ t
      · rw [optionalTimestamp, restChecks, if_pos tagged, if_pos tagged]
        exact clock fun u hu => Option.some.inj hu ▸ tagged
      · have hread : (timestamp t).map (fun seconds => (seconds, rest)) =
            timestamp t >>= fun seconds => .ok (seconds, rest) := by
          cases timestamp t <;> rfl
        rw [optionalTimestamp, restChecks, if_neg tagged, if_neg tagged, hread, bind_assoc]
        refine ((timestamp_checked t).bind fun seconds _ =>
          tags_checked name x seconds rest).congr fun p => ?_
        simp only [isTimed_given_iff tagged, and_assoc, exists_and_left, exists_eq_left]

theorem graphiteTokens_checked (now : Int) (ts : List Token) :
    Checked (graphiteTokens now ts) (Format.graphite.checks ts) (GraphiteLine now ts) := by
  match ts with
  | [] => exact .fails ⟨_, _⟩ (fun h => h rfl) nofun
  | [t] => exact .cons ⟨_, _⟩ (List.cons_ne_nil t []) (.fails ⟨_, _⟩ (by simp) nofun)
  | m :: v :: rest =>
      refine .cons _ (List.cons_ne_nil m _) (.cons _ (Nat.le_add_left 2 _) ?_)
      refine ((metric_checked m).bind fun name _ => (value_checked v).bind fun x _ =>
        rest_checked now name x rest).congr fun p => ?_
      constructor
      · rintro ⟨name, hmetric, x, hvalue, seconds, tags, htime, entries, tagged, carries⟩
        exact .line hmetric hvalue htime tagged carries
      · rintro ⟨hmetric, hvalue, htime, tagged, carries⟩
        exact ⟨_, hmetric, _, hvalue, _, _, htime, _, tagged, carries⟩

theorem openTsdbTokens_checked (ts : List Token) :
    Checked (openTsdbTokens ts) (Format.openTsdb.checks ts) (OpenTsdbLine ts) := by
  cases ts with
  | nil => exact .fails ⟨_, _⟩ (fun h => h rfl) nofun
  | cons first rest =>
      refine .cons _ (List.cons_ne_nil first rest) ?_
      dsimp only [openTsdbTokens]
      by_cases put : first = putWord
      · obtain rfl := put
        rw [if_neg (not_not_intro rfl)]
        refine .cons _ rfl ?_
        match rest with
        | [] => exact .fails ⟨_, _⟩ (by simp) nofun
        | [m] => exact .fails ⟨_, _⟩ (by simp) nofun
        | [m, t] => exact .fails ⟨_, _⟩ (by simp) nofun
        | m :: t :: v :: tags =>
            refine .cons _ (Nat.le_add_left 4 _) ?_
            refine ((metric_checked m).bind fun name _ => (timestamp_checked t).bind
              fun seconds _ => (value_checked v).bind fun x _ =>
                tags_checked name x seconds tags).congr fun p => ?_
            constructor
            · rintro ⟨name, hmetric, seconds, htime, x, hvalue, entries, tagged, carries⟩
              exact .line hmetric htime hvalue tagged carries
            · rintro ⟨hmetric, htime, hvalue, tagged, carries⟩
              exact ⟨_, hmetric, _, htime, _, hvalue, _, tagged, carries⟩
      · rw [if_pos put]
        refine .fails ⟨_, _⟩ (fun h => put (Option.some.inj h)) fun p h => ?_
        cases h with
        | line => exact put rfl

end Decode

namespace Format
open Decode

theorem decode_checked (format : Format) (now : Int) (line : String) :
    Checked (format.decode now line) (format.checks (tokens line))
      (format.Reads now (tokens line)) := by
  cases format with
  | graphite => exact graphiteTokens_checked now _
  | openTsdb => exact openTsdbTokens_checked _

/-- A decoder accepts the lines of its grammar, gives the point that the grammar says
and refuses every other line with the error of its first check that fails. Lines with
the same words are one to it, whatever blanks there are. -/
theorem decode_accepts_grammar (format : Format) (now : Int) (line : String) :
    ∃ ts, (∀ us, Spaced line.toList us ↔ us = ts) ∧
      (∀ p, format.decode now line = .ok p ↔ format.Reads now ts p) ∧
      (∀ e, format.decode now line = .error e ↔ FirstFailing (format.checks ts) e) ∧
      ∀ other : String, Spaced other.toList ts →
        format.decode now other = format.decode now line := by
  have hchecked := format.decode_checked now line
  refine ⟨tokens line, fun us => spaced_iff.trans eq_comm, hchecked.ok_iff, hchecked.error_iff,
    fun other same => ?_⟩
  have htokens : tokens other = tokens line := same.words_eq
  cases format <;> simp only [decode, htokens]

end Format
end MetricsProxy
