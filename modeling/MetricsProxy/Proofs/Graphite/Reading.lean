import MetricsProxy.Proofs.Binary64.Written
import MetricsProxy.Text.Split

/-!
# Reading a delivery

`readRecords` takes a body apart knowing nothing of how it was written: a quoted
field ends at the next quote that no backslash makes literal, and everything
else is separated by single marks. It finds in a body what the points say
(`Point.record`) whatever their texts contain (`readRecords_chars`), because the
writer and the reader agree field by field with any text behind
(`readQuoted_quoted`, `readTags_tagsText`, `readRecord_chars`). Conversely a body
has nothing in it but these records (`lineChars_eq`).
-/
namespace MetricsProxy.Graphite
open Text

/-! ## Escaping -/

theorem escape_eq_self {cs : List Char} (quote : '"' ∉ cs) (backslash : '\\' ∉ cs) :
    escape cs = cs := by
  induction cs with
  | nil => rfl
  | cons c cs ih =>
      simp only [List.mem_cons, not_or] at quote backslash
      rw [escape, if_neg (by simp [Ne.symm quote.1, Ne.symm backslash.1]), ih quote.2 backslash.2]

def replace (c : Char) (text cs : List Char) : List Char :=
  cs.flatMap fun d => if d = c then text else [d]

/-- Doubling the backslashes and then putting one before each quote does the
same, since the second step adds no quote and looks at no backslash. -/
theorem escape_eq_replace (cs : List Char) :
    escape cs = replace '"' ['\\', '"'] (replace '\\' ['\\', '\\'] cs) := by
  induction cs with
  | nil => rfl
  | cons c cs ih =>
      simp only [replace, List.flatMap_cons, List.flatMap_append] at ih ⊢
      by_cases hquote : c = '"'
      · simp [escape, hquote, ih]
      · by_cases hbackslash : c = '\\'
        · simp [escape, hbackslash, ih]
        · simp [escape, hquote, hbackslash, ih]

/-! ## What a line says -/

structure Record where
  metric : String
  value : String
  time : String
  source : String
  tags : List (String × String)
  deriving DecidableEq, Repr

/-- The text of a record with its newline. -/
def Record.chars (r : Record) : List Char :=
  quoted r.metric.toList ++ ' ' :: r.value.toList ++ ' ' :: r.time.toList ++
    Point.sourceField ++ quoted r.source.toList ++ r.tags.flatMap Point.tagText ++ ['\n']

end Graphite

namespace Point
open Text Graphite

/-- What the line of a point says: all its tags in key order, but for the one
that supplied the source. -/
def record (p : Point) (default : String) : Record where
  metric := p.metric
  value := String.ofList (valueText p.value)
  time := String.ofList (intDigits p.timestamp)
  source := p.effectiveSource default
  tags := p.tags.toList.filter fun tag => sourceTag p.tags ≠ some tag.1

theorem toList_otherTags (p : Point) :
    p.otherTags.toList = p.tags.toList.filter fun tag => sourceTag p.tags ≠ some tag.1 := by
  unfold otherTags
  cases hkey : sourceTag p.tags with
  | none => exact (List.filter_eq_self.mpr fun tag _ => rfl).symm
  | some key =>
      refine List.filter_congr fun tag _ => ?_
      simp [bne, eq_comm, decide_not, beq_eq_decide]

/-- A line depends on the record alone. -/
theorem lineChars_eq (p : Point) (default : String) :
    p.lineChars default = (p.record default).chars := by
  simp [lineChars, Record.chars, record, quotedText, toList_otherTags]

end Point

namespace Graphite
open Text

/-! ## The reader -/

/-- What follows a mark. -/
def after (mark cs : List Char) : Option (List Char) :=
  if mark.isPrefixOf cs then some (cs.drop mark.length) else none

theorem after_append (mark cs : List Char) : after mark (mark ++ cs) = some cs := by
  simp [after]

@[simp] theorem after_singleton (c : Char) (cs : List Char) : after [c] (c :: cs) = some cs :=
  after_append [c] cs

theorem length_of_after {mark cs rest : List Char} (h : after mark cs = some rest) :
    rest.length ≤ cs.length := by
  simp only [after, Option.ite_none_right_eq_some, Option.some.injEq] at h
  simp [← h.2]

theorem length_of_readEscaped {cs text rest : List Char} (h : readEscaped cs = some (text, rest)) :
    rest.length < cs.length := by
  induction cs using readEscaped.induct generalizing text rest with
  | case1 => simp [readEscaped] at h
  | case2 cs => simp_all [readEscaped]
  | case3 => simp [readEscaped] at h
  | case4 c cs ih =>
      simp only [readEscaped, Option.map_eq_some_iff, Prod.mk.injEq] at h
      obtain ⟨read, hread, -, rfl⟩ := h
      have := ih hread
      simp only [List.length_cons]
      omega
  | case5 c cs hquote hlast hescape ih =>
      rw [readEscaped.eq_5 c cs hquote hlast hescape] at h
      simp only [Option.map_eq_some_iff, Prod.mk.injEq] at h
      obtain ⟨read, hread, -, rfl⟩ := h
      have := ih hread
      simp only [List.length_cons]
      omega

theorem length_of_readQuoted {cs text rest : List Char} (h : readQuoted cs = some (text, rest)) :
    rest.length < cs.length := by
  unfold readQuoted at h
  split at h
  · have := length_of_readEscaped h
    simp only [List.length_cons]
    omega
  · cases h

def readField (cs : List Char) : Option (String × List Char) :=
  (readQuoted cs).map fun r => (String.ofList r.1, r.2)

theorem readField_quoted (s : String) (rest : List Char) :
    readField (quoted s.toList ++ rest) = some (s, rest) := by
  simp [readField, readQuoted_quoted]

theorem length_of_readField {cs rest : List Char} {s : String} (h : readField cs = some (s, rest)) :
    rest.length < cs.length := by
  simp only [readField, Option.map_eq_some_iff, Prod.mk.injEq] at h
  obtain ⟨r, hread, -, rfl⟩ := h
  exact length_of_readQuoted hread

def readTag (cs : List Char) : Option ((String × String) × List Char) := do
  let cs ← after [' '] cs
  let (key, cs) ← readField cs
  let cs ← after ['='] cs
  let (value, cs) ← readField cs
  pure ((key, value), cs)

theorem length_of_readTag {cs rest : List Char} {tag : String × String}
    (h : readTag cs = some (tag, rest)) : rest.length < cs.length := by
  simp only [readTag, bind, Option.bind_eq_some_iff, pure, Option.some.injEq, Prod.mk.injEq] at h
  obtain ⟨cs₁, hblank, ⟨key, cs₂⟩, hkey, cs₃, hequals, ⟨value, cs₄⟩, hvalue, -, rfl⟩ := h
  calc cs₄.length < cs₃.length := length_of_readField hvalue
    _ ≤ cs₂.length := length_of_after hequals
    _ < cs₁.length := length_of_readField hkey
    _ ≤ cs.length := length_of_after hblank

/-- Tags as far as there are any. -/
def readTags (cs : List Char) : List (String × String) × List Char :=
  match _h : readTag cs with
  | none => ([], cs)
  | some (tag, rest) => (tag :: (readTags rest).1, (readTags rest).2)
termination_by cs.length
decreasing_by all_goals exact length_of_readTag _h

theorem readTags_of_none {cs : List Char} (h : readTag cs = none) : readTags cs = ([], cs) := by
  rw [readTags]
  split
  · rfl
  · simp_all

theorem readTags_of_some {cs rest : List Char} {tag : String × String}
    (h : readTag cs = some (tag, rest)) :
    readTags cs = (tag :: (readTags rest).1, (readTags rest).2) := by
  rw [readTags]
  split
  · simp_all
  · simp_all

theorem length_of_readTags (cs : List Char) : (readTags cs).2.length ≤ cs.length := by
  induction cs using readTags.induct with
  | case1 cs hread => simp [readTags_of_none hread]
  | case2 cs tag rest hread ih =>
      rw [readTags_of_some hread]
      exact Nat.le_trans ih (Nat.le_of_lt (length_of_readTag hread))

def sourceMark : List Char := "source=".toList

/-- One line with its newline. -/
def readRecord (cs : List Char) : Option (Record × List Char) := do
  let (metric, cs) ← readField cs
  let cs ← after [' '] cs
  let (value, cs) ← cutAt ' ' cs
  let (time, cs) ← cutAt ' ' cs
  let cs ← after sourceMark cs
  let (source, cs) ← readField cs
  let cs' ← after ['\n'] (readTags cs).2
  pure (⟨metric, String.ofList value, String.ofList time, source, (readTags cs).1⟩, cs')

theorem length_of_cutAt {s : Char} {cs left right : List Char} (h : cutAt s cs = some (left, right)) :
    right.length < cs.length := by
  obtain ⟨rfl, -⟩ := cutAt_eq_some_iff.mp h
  simp
  omega

theorem length_of_readRecord {cs rest : List Char} {r : Record}
    (h : readRecord cs = some (r, rest)) : rest.length < cs.length := by
  simp only [readRecord, bind, Option.bind_eq_some_iff, pure, Option.some.injEq, Prod.mk.injEq] at h
  obtain ⟨⟨metric, cs₁⟩, hmetric, cs₂, hblank, ⟨value, cs₃⟩, hvalue, ⟨time, cs₄⟩, htime, cs₅, hmark,
    ⟨source, cs₆⟩, hsource, cs₇, hend, -, rfl⟩ := h
  calc cs₇.length ≤ (readTags cs₆).2.length := length_of_after hend
    _ ≤ cs₆.length := length_of_readTags cs₆
    _ < cs₅.length := length_of_readField hsource
    _ ≤ cs₄.length := length_of_after hmark
    _ < cs₃.length := length_of_cutAt htime
    _ < cs₂.length := length_of_cutAt hvalue
    _ ≤ cs₁.length := length_of_after hblank
    _ < cs.length := length_of_readField hmetric

/-- All lines of a body; `none` if anything is left over that is no line. -/
def readRecords (cs : List Char) : Option (List Record) :=
  if cs = [] then some []
  else
    match _h : readRecord cs with
    | none => none
    | some (r, rest) => (readRecords rest).map (r :: ·)
termination_by cs.length
decreasing_by exact length_of_readRecord _h

/-! ## Reading what was written -/

theorem readTag_tagText (tag : String × String) (rest : List Char) :
    readTag (Point.tagText tag ++ rest) = some (tag, rest) := by
  have htext : Point.tagText tag ++ rest =
      ' ' :: (quoted tag.1.toList ++ '=' :: (quoted tag.2.toList ++ rest)) := by
    simp [Point.tagText, Point.quotedText]
  rw [htext]
  simp [readTag, readField_quoted]

/-- Tags end where no blank follows. -/
theorem readTags_tagsText (tags : List (String × String)) (rest : List Char) :
    readTags (tags.flatMap Point.tagText ++ '\n' :: rest) = (tags, '\n' :: rest) := by
  induction tags with
  | nil => exact readTags_of_none rfl
  | cons tag tags ih =>
      rw [List.flatMap_cons, List.append_assoc, readTags_of_some (readTag_tagText tag _), ih]

/-- A record is read from its text if there is no blank in its numbers. -/
theorem readRecord_chars (r : Record) (rest : List Char) (value : ' ' ∉ r.value.toList)
    (time : ' ' ∉ r.time.toList) : readRecord (r.chars ++ rest) = some (r, rest) := by
  have hfield : Point.sourceField = ' ' :: sourceMark := rfl
  have htext : r.chars ++ rest =
      quoted r.metric.toList ++ ' ' :: (r.value.toList ++ ' ' :: (r.time.toList ++ ' ' ::
        (sourceMark ++ (quoted r.source.toList ++
          (r.tags.flatMap Point.tagText ++ '\n' :: rest))))) := by
    simp [Record.chars, hfield]
  have hvalue (cs : List Char) :
      cutAt ' ' (r.value.toList ++ ' ' :: cs) = some (r.value.toList, cs) :=
    cutAt_eq_some_iff.mpr ⟨rfl, value⟩
  have htime (cs : List Char) : cutAt ' ' (r.time.toList ++ ' ' :: cs) = some (r.time.toList, cs) :=
    cutAt_eq_some_iff.mpr ⟨rfl, time⟩
  rw [htext]
  simp [readRecord, readField_quoted, hvalue, htime, after_append, readTags_tagsText]

theorem readRecords_chars (points : List Point) (default : String) :
    readRecords ((WorkUnit.mk points).chars default) = some (points.map (·.record default)) := by
  induction points with
  | nil => simp [WorkUnit.chars, readRecords]
  | cons p points ih =>
      have hvalue : ' ' ∉ (p.record default).value.toList := by
        intro hblank
        have := Point.isNumberChar_valueText p.value ' ' (by simpa [Point.record] using hblank)
        cases this
      have htime : ' ' ∉ (p.record default).time.toList := by
        intro hblank
        have := Binary64.isNumberChar_intDigits p.timestamp ' ' (by simpa [Point.record] using hblank)
        cases this
      have hread := readRecord_chars (p.record default) ((WorkUnit.mk points).chars default)
        hvalue htime
      have hchars : (WorkUnit.mk (p :: points)).chars default =
          (p.record default).chars ++ (WorkUnit.mk points).chars default := by
        simp [WorkUnit.chars, Point.lineChars_eq]
      have hne : (p.record default).chars ++ (WorkUnit.mk points).chars default ≠ [] := by
        simp [Record.chars]
      rw [hchars, readRecords, if_neg hne]
      split
      · simp_all
      · simp_all

/-- A body reads back as the records of its points, with nothing left over, so
two bodies are the same text exactly when their points say the same. -/
theorem readRecords_body (points : List Point) (default : String) :
    readRecords ((WorkUnit.mk points).body default).toList = some (points.map (·.record default)) ∧
      ∀ (points' : List Point) (default' : String),
        (WorkUnit.mk points).body default = (WorkUnit.mk points').body default' ↔
          points.map (·.record default) = points'.map (·.record default') := by
  have hread (points : List Point) (default : String) :
      readRecords ((WorkUnit.mk points).body default).toList =
        some (points.map (·.record default)) := by
    rw [WorkUnit.body, String.toList_ofList]
    exact readRecords_chars points default
  have hbody (points : List Point) (default : String) : (WorkUnit.mk points).body default =
      String.ofList ((points.map (·.record default)).flatMap Record.chars) := by
    simp [WorkUnit.body, WorkUnit.chars, Point.lineChars_eq, List.flatMap_map]
  refine ⟨hread points default, fun points' default' => ⟨fun hsame => ?_, fun hsame => ?_⟩⟩
  · have hrecords := hread points default
    rw [hsame, hread] at hrecords
    exact (Option.some.inj hrecords).symm
  · rw [hbody, hbody, hsame]

end Graphite
end MetricsProxy
