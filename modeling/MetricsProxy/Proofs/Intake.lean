import MetricsProxy.Listener.Intake
import MetricsProxy.Listener.Settings
import MetricsProxy.Proofs.Framing

/-!
# The class of a segment

A segment is decoded, an error or blank, and the class follows from the segment
alone (`segmentClass_of_accepts` and its siblings). Blanks are told from
the rest by the Unicode property and tokens are separated by ASCII blanks, but
the two do not get into each other's way: a line that a decoder takes has a
numeral or the word `put` in it, which are no blanks of either kind, and a line
that is not blank has a token, so that no decoder calls it empty. The clock
gives points their times and decides about no error.
-/
namespace MetricsProxy

namespace Text

theorem toNat_of_isBlank {c : Char} (h : isBlank c = true) : c.toNat ≤ 0x20 ∨ 0x7f < c.toNat := by
  simp only [isBlank, blankRanges, List.any_cons, List.any_nil, Bool.or_false, Bool.or_eq_true,
    decide_eq_true_eq] at h
  omega

theorem subset_of_mem_pieces {α : Type} {p : α → Bool} {as w : List α} (hw : w ∈ pieces p as) :
    w ⊆ as := by
  induction as generalizing w with
  | nil =>
      rw [List.mem_singleton.mp hw]
      exact List.Subset.refl _
  | cons a as ih =>
      simp only [pieces] at hw
      split at hw
      · rcases List.mem_cons.mp hw with rfl | hw
        · exact List.nil_subset _
        · exact List.Subset.trans (ih hw) (List.subset_cons_self a as)
      · cases hpieces : pieces p as with
        | nil => exact absurd hpieces (pieces_ne_nil p as)
        | cons v vs =>
            rw [hpieces] at hw ih
            rcases List.mem_cons.mp hw with rfl | hw
            · exact List.cons_subset_cons a (ih List.mem_cons_self)
            · exact List.Subset.trans (ih (List.mem_cons_of_mem v hw)) (List.subset_cons_self a as)

theorem forall_of_pieces_eq_nil {α : Type} {p : α → Bool} {as : List α}
    (h : ∀ w ∈ pieces p as, w = []) : ∀ a ∈ as, p a = true := by
  induction as with
  | nil => exact fun _ ha => nomatch ha
  | cons a as ih =>
      by_cases ha : p a = true
      · rw [pieces, if_pos ha] at h
        exact List.forall_mem_cons.mpr ⟨ha, ih fun w hw => h w (List.mem_cons_of_mem _ hw)⟩
      · rw [pieces, if_neg ha] at h
        cases hpieces : pieces p as with
        | nil => exact absurd hpieces (pieces_ne_nil p as)
        | cons v vs =>
            rw [hpieces] at h
            cases h _ List.mem_cons_self

theorem mem_of_mem_words {cs w : List Char} (hw : w ∈ words cs) : w ⊆ cs :=
  subset_of_mem_pieces (List.mem_filter.mp hw).1

/-- A text without words is blank, also in the wider sense. -/
theorem trim_eq_nil_of_words_eq_nil {cs : List Char} (h : words cs = []) : trim cs = [] := by
  have hempty : ∀ w ∈ pieces isAsciiBlank cs, w = [] := fun w hw => by
    simpa using List.filter_eq_nil_iff.mp h w hw
  rw [trim_eq_nil_iff]
  exact fun c hc => isBlank_of_isAsciiBlank (forall_of_pieces_eq_nil hempty c hc)

end Text

open Text

/-! ## Numerals are no blanks -/

namespace Binary64

theorem isDigit_of_isBlank {c : Char} (h : isBlank c = true) : c.isDigit = false := by
  have hrange := toNat_of_isBlank h
  simp only [Char.isDigit, Bool.and_eq_false_iff, decide_eq_false_iff_not, ge_iff_le,
    UInt32.le_iff_toNat_le]
  change ¬ 48 ≤ c.toNat ∨ ¬ c.toNat ≤ 57
  omega

theorem toLower_of_isBlank {c : Char} (h : isBlank c = true) : c.toLower = c := by
  have hrange := toNat_of_isBlank h
  unfold Char.toLower
  rw [dif_neg]
  simp only [ge_iff_le, UInt32.le_iff_toNat_le]
  change ¬ (65 ≤ c.toNat ∧ c.toNat ≤ 90)
  omega

theorem decimal?_of_isBlank {c : Char} (h : isBlank c = true) (cs : List Char) :
    decimal? (c :: cs) = none := by
  have hpoint : c ≠ '.' := by
    rintro rfl
    exact absurd h (by decide)
  have hfraction : fraction (c :: cs) = ([], c :: cs) := by
    unfold fraction
    split
    · rename_i heq
      exact absurd (List.cons.inj heq).1 hpoint
    · rfl
  simp [decimal?, isDigit_of_isBlank h, hfraction]

theorem special?_of_isBlank {c : Char} (h : isBlank c = true) (negative : Bool) (cs : List Char) :
    special? negative (c :: cs) = none := by
  have hletter : c ≠ 'i' ∧ c ≠ 'n' := by
    constructor <;> (rintro rfl; exact absurd h (by decide))
  unfold special?
  rw [List.map_cons, toLower_of_isBlank h]
  split
  · rename_i heq
    exact absurd (List.cons.inj heq).1 hletter.1
  · rename_i heq
    exact absurd (List.cons.inj heq).1 hletter.1
  · rename_i heq
    exact absurd (List.cons.inj heq).1 hletter.2
  · rfl

theorem parse?_of_isBlank {c : Char} (h : isBlank c = true) (cs : List Char) :
    parse? (c :: cs) = none := by
  have hsign : c ≠ '-' ∧ c ≠ '+' := by
    constructor <;> (rintro rfl; exact absurd h (by decide))
  unfold parse?
  split
  · rename_i heq
    exact absurd (List.cons.inj heq).1 hsign.1
  · rename_i heq
    exact absurd (List.cons.inj heq).1 hsign.2
  · rw [magnitude?, decimal?_of_isBlank h]
    exact special?_of_isBlank h false cs

end Binary64

/-! ## Decoders -/

namespace Decode

/-- A token that is taken for a value is not blank. -/
theorem exists_not_isBlank_of_value {t : Token} {x : Binary64} (h : value t = .ok x) :
    ∃ c ∈ t, isBlank c = false := by
  cases t with
  | nil => cases h
  | cons c cs =>
      refine ⟨c, List.mem_cons_self, ?_⟩
      cases hblank : isBlank c with
      | false => rfl
      | true =>
          rw [value, Binary64.parse?_of_isBlank hblank] at h
          cases h

theorem bind_eq_ok {α β : Type} {x : Except DecodeError α} {f : α → Except DecodeError β} {b : β}
    (h : (x >>= f) = .ok b) : ∃ a, x = .ok a ∧ f a = .ok b := by
  cases x with
  | error e => cases h
  | ok a => exact ⟨a, rfl, h⟩

theorem exists_not_isBlank_of_graphite {now : Int} {ts : List Token} {p : Point}
    (h : graphiteTokens now ts = .ok p) : ∃ t ∈ ts, ∃ c ∈ t, isBlank c = false := by
  match ts with
  | [] => cases h
  | [_] => cases h
  | m :: v :: rest =>
      obtain ⟨name, -, h⟩ := bind_eq_ok h
      obtain ⟨x, hvalue, -⟩ := bind_eq_ok h
      exact ⟨v, by simp, exists_not_isBlank_of_value hvalue⟩

theorem exists_not_isBlank_of_openTsdb {ts : List Token} {p : Point}
    (h : openTsdbTokens ts = .ok p) : ∃ t ∈ ts, ∃ c ∈ t, isBlank c = false := by
  cases ts with
  | nil => cases h
  | cons first rest =>
      dsimp only [openTsdbTokens] at h
      split at h
      · cases h
      · rename_i hput
        rw [Classical.not_not] at hput
        refine ⟨first, List.mem_cons_self, 'p', ?_, by decide⟩
        rw [hput]
        exact List.mem_cons_self

/-- A line that a decoder takes is not blank, also in the wider sense. -/
theorem trim_ne_nil_of_decode {format : Format} {now : Int} {text : String} {p : Point}
    (h : format.decode now text = .ok p) : trim text.toList ≠ [] := by
  have hchar : ∃ t ∈ tokens text, ∃ c ∈ t, isBlank c = false := by
    cases format with
    | graphite => exact exists_not_isBlank_of_graphite h
    | openTsdb => exact exists_not_isBlank_of_openTsdb h
  obtain ⟨t, ht, c, hc, hblank⟩ := hchar
  rw [Ne, trim_eq_nil_iff]
  intro hall
  rw [hall c (mem_of_mem_words ht hc)] at hblank
  cases hblank

/-! ### No decoder calls a line with tokens empty -/

/-- A result that does not call the line empty. -/
def Telling {α : Type} (r : Except DecodeError α) : Prop := r ≠ .error .empty

namespace Telling
variable {α β : Type}

theorem ok (a : α) : Telling (.ok a) := nofun

theorem error {e : DecodeError} (h : e ≠ .empty) : Telling (.error e : Except DecodeError α) :=
  fun he => h (Except.error.inj he)

theorem bind {x : Except DecodeError α} {f : α → Except DecodeError β} (hx : Telling x)
    (hf : ∀ a, Telling (f a)) : Telling (x >>= f) := by
  cases x with
  | error e => exact fun he => hx (congrArg Except.error (Except.error.inj he))
  | ok a => exact hf a

theorem map {x : Except DecodeError α} (hx : Telling x) (f : α → β) : Telling (x.map f) := by
  cases x with
  | error e => exact fun he => hx (congrArg Except.error (Except.error.inj he))
  | ok a => exact ok _

theorem mapM {f : α → Except DecodeError β} (hf : ∀ a, Telling (f a)) (as : List α) :
    Telling (as.mapM f) := by
  induction as with
  | nil => exact ok _
  | cons a as ih =>
      rw [List.mapM_cons]
      exact (hf a).bind fun b => ih.bind fun bs => ok _

end Telling

theorem metric_telling (t : Token) : Telling (metric t) := by
  unfold metric
  split
  · exact .error nofun
  · exact .ok _

theorem value_telling (t : Token) : Telling (value t) := by
  unfold value
  split
  · exact .error nofun
  · split
    · exact .ok _
    · exact .error nofun

theorem timestamp_telling (t : Token) : Telling (timestamp t) := by
  unfold timestamp
  split
  · exact .error nofun
  · split
    · exact .error nofun
    · split <;> exact .ok _

theorem tag_telling (t : Token) : Telling (tag t) := by
  unfold tag
  split
  · exact .error nofun
  · split
    · exact .error nofun
    · exact .ok _

theorem tags_telling (ts : List Token) : Telling (tags ts) := (Telling.mapM tag_telling ts).map _

theorem optionalTimestamp_telling (now : Int) (ts : List Token) :
    Telling (optionalTimestamp now ts) := by
  unfold optionalTimestamp
  split
  · exact .ok _
  · split
    · exact .ok _
    · exact (timestamp_telling _).map _

theorem graphiteTokens_telling {now : Int} {ts : List Token} (h : ts ≠ []) :
    Telling (graphiteTokens now ts) := by
  match ts with
  | [] => exact absurd rfl h
  | [_] => exact .error nofun
  | m :: v :: rest =>
      refine (metric_telling m).bind fun name => (value_telling v).bind fun x => ?_
      refine (optionalTimestamp_telling now rest).bind fun r => ?_
      exact (tags_telling r.2).bind fun _ => .ok _

theorem openTsdbTokens_telling {ts : List Token} (h : ts ≠ []) : Telling (openTsdbTokens ts) := by
  cases ts with
  | nil => exact absurd rfl h
  | cons first rest =>
      dsimp only [openTsdbTokens]
      split
      · exact .error nofun
      · split
        · refine (metric_telling _).bind fun name => (timestamp_telling _).bind fun seconds => ?_
          exact (value_telling _).bind fun x => (tags_telling _).bind fun _ => .ok _
        · exact .error nofun

theorem decode_telling (format : Format) (now : Int) {text : String}
    (h : trim text.toList ≠ []) : Telling (format.decode now text) := by
  have htokens : tokens text ≠ [] := fun hnil => h (trim_eq_nil_of_words_eq_nil hnil)
  cases format with
  | graphite => exact graphiteTokens_telling htokens
  | openTsdb => exact openTsdbTokens_telling htokens

/-! ### The clock decides about no error -/

theorem optionalTimestamp_error {now now' : Int} {ts : List Token} {e : DecodeError}
    (h : optionalTimestamp now ts = .error e) : optionalTimestamp now' ts = .error e := by
  cases ts with
  | nil => cases h
  | cons t ts =>
      rw [optionalTimestamp] at h ⊢
      split at h
      · cases h
      · rename_i htime
        rw [if_neg htime]
        exact h

theorem optionalTimestamp_rest {now : Int} {ts : List Token} {r : Int × List Token}
    (h : optionalTimestamp now ts = .ok r) (now' : Int) :
    ∃ seconds, optionalTimestamp now' ts = .ok (seconds, r.2) := by
  cases ts with
  | nil =>
      cases h
      exact ⟨now', rfl⟩
  | cons t ts =>
      rw [optionalTimestamp] at h ⊢
      split at h
      · rename_i htag
        cases h
        rw [if_pos htag]
        exact ⟨now', rfl⟩
      · rename_i htime
        rw [if_neg htime]
        exact ⟨r.1, h⟩

theorem bind_error_congr {α β : Type} {x : Except DecodeError α} {f g : α → Except DecodeError β}
    (hfg : ∀ a e, f a = .error e → g a = .error e) {e : DecodeError} (h : (x >>= f) = .error e) :
    (x >>= g) = .error e := by
  cases x with
  | error e' => exact h
  | ok a => exact hfg a e h

theorem graphiteTokens_error {now now' : Int} {ts : List Token} {e : DecodeError}
    (h : graphiteTokens now ts = .error e) : graphiteTokens now' ts = .error e := by
  match ts with
  | [] => exact h
  | [_] => exact h
  | m :: v :: rest =>
      refine bind_error_congr (fun name e h => bind_error_congr (fun x e h => ?_) h) h
      cases htime : optionalTimestamp now rest with
      | error e' =>
          rw [htime] at h
          rw [optionalTimestamp_error htime]
          exact h
      | ok r =>
          obtain ⟨seconds, htime'⟩ := optionalTimestamp_rest htime now'
          rw [htime] at h
          rw [htime']
          exact bind_error_congr (x := tags r.2) (fun _ _ h => by cases h) h

theorem decode_error {format : Format} {now now' : Int} {text : String} {e : DecodeError}
    (h : format.decode now text = .error e) : format.decode now' text = .error e := by
  cases format with
  | graphite => exact graphiteTokens_error h
  | openTsdb => exact h

end Decode

/-! ## Classes -/

namespace LineClass

def isDecoded : LineClass → Bool
  | decoded _ => true
  | _ => false

def isError : LineClass → Bool
  | error _ => true
  | _ => false

def isBlank : LineClass → Bool
  | blank => true
  | _ => false

/-- No class is of two kinds: if one of three statements holds and each has its own kind,
the kind tells which of them holds. -/
theorem iff_of_imp {A R B : Prop} (cls : LineClass) (one : A ∨ R ∨ B)
    (decoded : A → cls.isDecoded = true) (error : R → cls.isError = true)
    (blank : B → cls.isBlank = true) :
    (cls.isDecoded = true ↔ A) ∧ (cls.isError = true ↔ R) ∧ (cls.isBlank = true ↔ B) := by
  cases cls <;> simp_all [isDecoded, isError, isBlank]

end LineClass

/-- The text of a segment, if it is UTF-8. -/
def segmentText? (segment : List UInt8) : Option String :=
  String.fromUTF8? (ByteArray.mk segment.toArray)

/-- A segment that is not too long, is text and is taken by the decoder. -/
def Format.Accepts (format : Format) (now : Int) (limit : Nat) (segment : List UInt8) : Prop :=
  (lineContent segment).length ≤ limit ∧
    ∃ text, segmentText? segment = some text ∧ ∃ p, format.decode now text = .ok p

/-- A segment that is too long, or no text, or not blank and refused by the decoder. -/
def Format.Refuses (format : Format) (now : Int) (limit : Nat) (segment : List UInt8) : Prop :=
  limit < (lineContent segment).length ∨ segmentText? segment = none ∨
    ∃ text, segmentText? segment = some text ∧ Text.trim text.toList ≠ [] ∧
      ∃ e, format.decode now text = .error e

/-- A segment that is not too long and is text of which nothing is left when it is trimmed. -/
def BlankSegment (limit : Nat) (segment : List UInt8) : Prop :=
  (lineContent segment).length ≤ limit ∧
    ∃ text, segmentText? segment = some text ∧ Text.trim text.toList = []

/-- The class that a segment is given. -/
def Format.segmentClass (format : Format) (now : Int) (limit : Nat) (segment : List UInt8) :
    LineClass :=
  format.classify now limit (.ofSegment limit segment)

namespace Format
variable {format : Format} {now : Int} {limit : Nat} {segment : List UInt8}

theorem accepts_or_refuses_or_blank (format : Format) (now : Int) (limit : Nat)
    (segment : List UInt8) :
    format.Accepts now limit segment ∨ format.Refuses now limit segment ∨
      BlankSegment limit segment := by
  by_cases fits : (lineContent segment).length ≤ limit
  · cases htext : segmentText? segment with
    | none => exact .inr (.inl (.inr (.inl htext)))
    | some text =>
        by_cases hblank : Text.trim text.toList = []
        · exact .inr (.inr ⟨fits, text, htext, hblank⟩)
        · cases hdecode : format.decode now text with
          | ok p => exact .inl ⟨fits, text, htext, p, hdecode⟩
          | error e => exact .inr (.inl (.inr (.inr ⟨text, htext, hblank, e, hdecode⟩)))
  · exact .inr (.inl (.inl (Nat.lt_of_not_le fits)))

theorem segmentClass_of_tooLong (h : limit < (lineContent segment).length) :
    format.segmentClass now limit segment = .error (some (.lineTooLong limit)) := by
  rw [segmentClass, Frame.ofSegment, if_neg (Nat.not_le_of_lt h)]
  rfl

theorem segmentClass_of_fits (fits : (lineContent segment).length ≤ limit) :
    format.segmentClass now limit segment = match segmentText? segment with
      | none => .error none
      | some text => format.classifyText now text := by
  rw [segmentClass, Frame.ofSegment, if_pos fits]
  rfl

theorem segmentClass_of_accepts (h : format.Accepts now limit segment) :
    ∃ p, format.segmentClass now limit segment = .decoded p := by
  obtain ⟨fits, text, htext, p, hdecode⟩ := h
  refine ⟨p, ?_⟩
  rw [segmentClass_of_fits fits, htext]
  dsimp only
  rw [classifyText, if_neg (Decode.trim_ne_nil_of_decode hdecode), hdecode]

theorem segmentClass_of_refuses (h : format.Refuses now limit segment) :
    ∃ cause, cause ≠ some .empty ∧ format.segmentClass now limit segment = .error cause := by
  by_cases fits : (lineContent segment).length ≤ limit
  · rw [segmentClass_of_fits fits]
    rcases h with long | htext | ⟨text, htext, nonblank, e, hdecode⟩
    · exact absurd fits (Nat.not_le_of_lt long)
    · rw [htext]
      exact ⟨none, nofun, rfl⟩
    · rw [htext]
      dsimp only
      rw [classifyText, if_neg nonblank, hdecode]
      have htelling := Decode.decode_telling format now nonblank
      refine ⟨some e, fun he => htelling ?_, rfl⟩
      rw [hdecode, Option.some.inj he]
  · refine ⟨some (.lineTooLong limit), ?_, segmentClass_of_tooLong (Nat.lt_of_not_le fits)⟩
    exact nofun

theorem segmentClass_of_blank (h : BlankSegment limit segment) :
    format.segmentClass now limit segment = .blank := by
  obtain ⟨fits, text, htext, hblank⟩ := h
  rw [segmentClass_of_fits fits, htext]
  dsimp only
  rw [classifyText, if_pos hblank]

theorem segmentClass_iff (format : Format) (now : Int) (limit : Nat) (segment : List UInt8) :
    ((format.segmentClass now limit segment).isDecoded = true ↔
        format.Accepts now limit segment) ∧
      ((format.segmentClass now limit segment).isError = true ↔
        format.Refuses now limit segment) ∧
      ((format.segmentClass now limit segment).isBlank = true ↔ BlankSegment limit segment) := by
  refine LineClass.iff_of_imp _ (format.accepts_or_refuses_or_blank now limit segment)
    (fun accepts => ?_) (fun refuses => ?_) fun blank => ?_
  · obtain ⟨p, hclass⟩ := segmentClass_of_accepts accepts
    rw [hclass]
    rfl
  · obtain ⟨cause, -, hclass⟩ := segmentClass_of_refuses refuses
    rw [hclass]
    rfl
  · rw [segmentClass_of_blank blank]
    rfl

theorem accepts_congr (now' : Int) (h : format.Accepts now limit segment) :
    format.Accepts now' limit segment := by
  obtain ⟨fits, text, htext, p, hdecode⟩ := h
  refine ⟨fits, text, htext, ?_⟩
  cases hdecode' : format.decode now' text with
  | ok p' => exact ⟨p', rfl⟩
  | error e =>
      rw [Decode.decode_error hdecode'] at hdecode
      cases hdecode

theorem refuses_congr (now' : Int) (h : format.Refuses now limit segment) :
    format.Refuses now' limit segment := by
  rcases h with long | htext | ⟨text, htext, nonblank, e, hdecode⟩
  · exact .inl long
  · exact .inr (.inl htext)
  · exact .inr (.inr ⟨text, htext, nonblank, e, Decode.decode_error hdecode⟩)

/-- What a segment is and what it is taken for. -/
structure Classified (format : Format) (now : Int) (limit : Nat) (segment : List UInt8) : Prop where
  /-- It is of exactly one of three kinds. -/
  one : format.Accepts now limit segment ∧ ¬ format.Refuses now limit segment ∧
      ¬ BlankSegment limit segment ∨
    ¬ format.Accepts now limit segment ∧ format.Refuses now limit segment ∧
      ¬ BlankSegment limit segment ∨
    ¬ format.Accepts now limit segment ∧ ¬ format.Refuses now limit segment ∧
      BlankSegment limit segment
  decoded : (format.segmentClass now limit segment).isDecoded = true ↔
    format.Accepts now limit segment
  error : (format.segmentClass now limit segment).isError = true ↔
    format.Refuses now limit segment
  blank : (format.segmentClass now limit segment).isBlank = true ↔ BlankSegment limit segment
  /-- If it comes to the decoder at all, it is not called empty. -/
  telling : ∀ text, segmentText? segment = some text → Text.trim text.toList ≠ [] →
    format.decode now text ≠ .error .empty
  /-- It is of this kind at any time. -/
  timeless : ∀ now', (format.Accepts now' limit segment ↔ format.Accepts now limit segment) ∧
    (format.Refuses now' limit segment ↔ format.Refuses now limit segment)

/-- The class of a segment is one of three, each for segments of its own kind. -/
theorem classified (format : Format) (now : Int) (limit : Nat) (segment : List UInt8) :
    format.Classified now limit segment where
  one := by
    obtain ⟨hdecoded, herror, hblank⟩ := format.segmentClass_iff now limit segment
    rw [← hdecoded, ← herror, ← hblank]
    cases format.segmentClass now limit segment with
    | decoded p => exact .inl ⟨rfl, Bool.false_ne_true, Bool.false_ne_true⟩
    | error cause => exact .inr (.inl ⟨Bool.false_ne_true, rfl, Bool.false_ne_true⟩)
    | blank => exact .inr (.inr ⟨Bool.false_ne_true, Bool.false_ne_true, rfl⟩)
  decoded := (format.segmentClass_iff now limit segment).1
  error := (format.segmentClass_iff now limit segment).2.1
  blank := (format.segmentClass_iff now limit segment).2.2
  telling _ _ nonblank := Decode.decode_telling format now nonblank
  timeless now' := ⟨⟨accepts_congr now, accepts_congr now'⟩, refuses_congr now, refuses_congr now'⟩

end Format

/-! ## Streams -/

namespace ListenerSettings
variable (settings : ListenerSettings) (now : Int)

def classes (stream : List UInt8) : List LineClass :=
  (segments stream).map (settings.format.segmentClass now settings.maxLineLength)

def lines (kind : LineClass → Bool) (stream : List UInt8) : Nat :=
  (settings.classes now stream).countP kind

variable {settings now}

theorem classes_append {done : List UInt8} (h : LineEnded done) (rest : List UInt8) :
    settings.classes now (done ++ rest) =
      settings.classes now done ++ settings.classes now rest := by
  rw [classes, segments_append h, List.map_append]
  rfl

theorem classes_line {done line : List UInt8}
    (h : segments (done ++ line) = segments done ++ [line]) :
    settings.classes now (done ++ line) =
      settings.classes now done ++
        [settings.format.segmentClass now settings.maxLineLength line] := by
  rw [classes, h, List.map_append]
  rfl

theorem lines_line (kind : LineClass → Bool) {done line : List UInt8}
    (h : segments (done ++ line) = segments done ++ [line]) :
    settings.lines now kind (done ++ line) =
      settings.lines now kind done +
        (kind (settings.format.segmentClass now settings.maxLineLength line)).toNat := by
  rw [lines, classes_line h, List.countP_append, List.countP_singleton]
  cases kind (settings.format.segmentClass now settings.maxLineLength line) <;> rfl

/-- A line is given its class whatever stands before and after it. -/
theorem classes_within {done : List UInt8} (h : LineEnded done) {body : List UInt8}
    (line : newline ∉ body) (rest : List UInt8) :
    settings.classes now (done ++ (body ++ newline :: rest)) =
      settings.classes now done ++
        settings.format.segmentClass now settings.maxLineLength (body ++ [newline]) ::
          settings.classes now rest := by
  rw [classes_append h, classes, classes, segments_newline body rest line, List.map_cons]
  rfl

end ListenerSettings
end MetricsProxy
