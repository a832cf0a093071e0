import Mathlib.Data.List.Forall2
import MetricsProxy.Proofs.Binary64.Written
import MetricsProxy.Proofs.Intake
import MetricsProxy.Proofs.Text
import MetricsProxy.Settings

/-!
# Lists of ports

A list of ports is read entry by entry: a comma makes two lists of one
(`parse?_append_comma`), and what a list means depends on its entries without the blanks
around them, those that are blank throughout left out (`flatMap_entries_eq`). So a list is
invalid only if one of its entries is (`parse?_eq_none_iff`), and however the settings spell
a list of ports, as one text or as a list of numbers or of texts, it is the same text that
is read in the end (`portsText?_of_mem_spellings`).
-/
namespace MetricsProxy
open Text

namespace Ports

/-- A numeral of a port: digits after a plus sign or none, whose value has 16 bits. -/
inductive IsPort : List Char → Nat → Prop where
  | plain {ds : List Char} {n : Nat} (digits : Digits ds n) (small : n < limit) : IsPort ds n
  | plus {ds : List Char} {n : Nat} (digits : Digits ds n) (small : n < limit) :
      IsPort ('+' :: ds) n

theorem below?_eq_some_iff {cs : List Char} {n : Nat} :
    below? limit cs = some n ↔ IsPort cs n := by
  rw [below?, Option.filter_eq_some_iff, decide_eq_true_eq, natural?_eq_some_iff]
  constructor
  · rintro ⟨digits | ⟨ds, rfl, digits⟩, small⟩
    · exact .plain digits small
    · exact .plus digits small
  · intro h
    cases h with
    | plain digits small => exact ⟨.inl digits, small⟩
    | plus digits small => exact ⟨.inr ⟨_, rfl, digits⟩, small⟩

/-! ## Entries -/

theorem mapM_eq_none_iff {α β : Type} {f : α → Option β} {as : List α} :
    as.mapM f = none ↔ ∃ a ∈ as, f a = none := by
  induction as with
  | nil => simp
  | cons a as ih =>
      rw [List.mapM_cons]
      cases ha : f a with
      | none => simp [ha]
      | some b =>
          cases has : as.mapM f with
          | none => simpa [ha] using ih.mp has
          | some bs =>
              have hall : ¬ ∃ x ∈ as, f x = none := fun h => by rw [ih.mpr h] at has; cases has
              simpa [ha] using hall

theorem mapM_eq_some_iff {α β : Type} {f : α → Option β} {as : List α} {bs : List β} :
    as.mapM f = some bs ↔ List.Forall₂ (fun a b => f a = some b) as bs := by
  induction as generalizing bs with
  | nil => simp [eq_comm]
  | cons a as ih =>
      rw [List.mapM_cons, List.forall₂_cons_left_iff]
      constructor
      · intro h
        obtain ⟨b, hb, h⟩ := Option.bind_eq_some_iff.mp h
        obtain ⟨cs, hcs, h⟩ := Option.bind_eq_some_iff.mp h
        exact ⟨b, cs, hb, ih.mp hcs, (Option.some.inj h).symm⟩
      · rintro ⟨b, cs, hb, hcs, rfl⟩
        rw [hb, ih.mpr hcs]
        rfl

theorem mem_entries_iff {cs e : List Char} :
    e ∈ entries cs ↔ ∃ w, IsPiece (· == ',') cs w ∧ trim w = e ∧ e ≠ [] := by
  simp only [entries, List.mem_filter, List.mem_map, mem_pieces_iff, Bool.not_eq_true',
    List.isEmpty_eq_false_iff]
  constructor
  · rintro ⟨⟨w, hw, heq⟩, he⟩
    exact ⟨w, hw, heq, he⟩
  · rintro ⟨w, hw, heq, he⟩
    exact ⟨⟨w, hw, heq⟩, he⟩

/-- The ports of a list are those of its entries, in order. -/
theorem parse?_eq_some_iff {text : String} {ports : List Nat} :
    parse? text = some ports ↔ List.Forall₂ IsPort (entries text.toList) ports := by
  rw [parse?, parseChars, mapM_eq_some_iff]
  simp only [below?_eq_some_iff]

/-- A list is invalid exactly when one of its entries is neither blank nor a port. -/
theorem parse?_eq_none_iff {text : String} :
    parse? text = none ↔
      ∃ w, IsPiece (· == ',') text.toList w ∧ trim w ≠ [] ∧ ∀ n, ¬ IsPort (trim w) n := by
  have hport (e : List Char) : below? limit e = none ↔ ∀ n, ¬ IsPort e n := by
    rw [Option.eq_none_iff_forall_ne_some]
    exact forall_congr' fun n => not_congr below?_eq_some_iff
  rw [parse?, parseChars, mapM_eq_none_iff]
  constructor
  · rintro ⟨e, he, invalid⟩
    obtain ⟨w, piece, rfl, solid⟩ := mem_entries_iff.mp he
    exact ⟨w, piece, solid, (hport _).mp invalid⟩
  · rintro ⟨w, piece, solid, invalid⟩
    exact ⟨trim w, mem_entries_iff.mpr ⟨w, piece, rfl, solid⟩, (hport _).mpr invalid⟩

/-- A comma makes two lists of one. -/
theorem parse?_append_comma (a b : String) :
    parse? (a ++ "," ++ b) = (parse? a).bind fun ps => (parse? b).map (ps ++ ·) := by
  have hchars : (a ++ "," ++ b).toList = a.toList ++ ',' :: b.toList := by simp
  rw [parse?, parseChars, hchars, entries_append_comma, List.mapM_append]
  simp only [parse?, parseChars]
  cases (entries a.toList).mapM (below? limit) with
  | none => rfl
  | some ps => cases (entries b.toList).mapM (below? limit) <;> rfl

theorem not_comma_of {p : Char → Bool} (comma : p ',' = false) {c : Char} (h : p c = true) :
    (c == ',') = false := by
  refine beq_false_of_ne ?_
  rintro rfl
  rw [comma] at h
  cases h

theorem entries_pad {l r : List Char} (left : ∀ c ∈ l, isBlank c = true)
    (right : ∀ c ∈ r, isBlank c = true) (cs : List Char) : entries (l ++ cs ++ r) = entries cs := by
  have comma : isBlank ',' = false := by decide
  have hleft (xs : List Char) :
      (pieces (· == ',') (l ++ xs)).map trim = (pieces (· == ',') xs).map trim := by
    obtain ⟨v, vs, hpieces, happend⟩ :=
      pieces_append_left (fun c hc => not_comma_of comma (left c hc)) xs
    have htrim := trim_pad left (r := []) nofun v
    rw [List.append_nil] at htrim
    rw [happend, hpieces, List.map_cons, List.map_cons, htrim]
  have hright (xs : List Char) :
      (pieces (· == ',') (xs ++ r)).map trim = (pieces (· == ',') xs).map trim := by
    obtain ⟨vs, v, hpieces, happend⟩ :=
      pieces_append_right (fun c hc => not_comma_of comma (right c hc)) xs
    have htrim := trim_pad (l := []) nofun right v
    rw [List.nil_append] at htrim
    rw [happend, hpieces, List.map_append, List.map_append, List.map_singleton,
      List.map_singleton, htrim]
  rw [entries, entries, hright, hleft]

theorem entries_trim (cs : List Char) : entries (trim cs) = entries cs := by
  obtain ⟨l, r, left, right, heq⟩ := exists_trim cs
  have hpad := entries_pad left right (trim cs)
  rw [← heq] at hpad
  exact hpad.symm

theorem entries_intercalate (ws : List (List Char)) :
    entries ((([','] : List Char)).intercalate ws) = ws.flatMap entries := by
  induction ws with
  | nil => rfl
  | cons w ws ih =>
      cases ws with
      | nil => simp
      | cons v vs =>
          rw [List.intercalate_cons_cons, List.append_assoc, List.singleton_append,
            entries_append_comma, ih, ← List.flatMap_cons]

/-- Blanks around entries and entries that are blank make no difference. -/
theorem flatMap_entries_eq (es : List String) :
    es.flatMap (fun e => entries e.toList) =
      ((es.map trimText).filter (· ≠ "")).flatMap fun e => entries e.toList := by
  induction es with
  | nil => rfl
  | cons e es ih =>
      have hentries : entries (trimText e).toList = entries e.toList := by
        rw [trimText, String.toList_ofList, entries_trim]
      rw [List.flatMap_cons, ih, List.map_cons, ← hentries]
      by_cases hblank : trimText e = ""
      · rw [List.filter_cons_of_neg (by simp [hblank]), hblank]
        rfl
      · rw [List.filter_cons_of_pos (by simp [hblank]), List.flatMap_cons]

theorem parse?_intercalate (es : List String) :
    parse? (",".intercalate es) = (es.flatMap fun e => entries e.toList).mapM (below? limit) := by
  have hcomma : ",".toList = [','] := rfl
  rw [parse?, parseChars, String.toList_intercalate, hcomma, entries_intercalate,
    List.flatMap_map]

/-! ## Ports as they are written -/

theorem entries_natDigits (n : Nat) : entries (natDigits n) = [natDigits n] := by
  have hdigits : ∀ c ∈ natDigits n, c.isDigit = true := fun c hc =>
    Binary64.isDigit_of_mem_natDigits hc
  have hsolid : ∀ c ∈ natDigits n, isBlank c = false := fun c hc => by
    by_contra hblank
    rw [Bool.not_eq_false] at hblank
    have hno := Binary64.isDigit_of_isBlank hblank
    rw [hdigits c hc] at hno
    cases hno
  have hne : natDigits n ≠ [] := Nat.toDigits_ne_nil
  have comma : Char.isDigit ',' = false := by decide
  rw [entries, pieces_eq_singleton fun c hc => not_comma_of comma (hdigits c hc),
    List.map_singleton, (trimmed_of_solid hsolid).trim_eq]
  simp [hne]

theorem parse?_written {ports : List Nat} (small : ∀ n ∈ ports, n < limit) {text : String}
    (written : text.toList = ([','] : List Char).intercalate (ports.map natDigits)) :
    parse? text = some ports := by
  rw [parse?_eq_some_iff, written, entries_intercalate]
  clear written
  induction ports with
  | nil => exact .nil
  | cons n ports ih =>
      obtain ⟨hn, hports⟩ := List.forall_mem_cons.mp small
      rw [List.map_cons, List.flatMap_cons, entries_natDigits, List.singleton_append]
      exact .cons (.plain (digits?_eq_some_iff.mp (digits?_natDigits n)) hn) (ih hports)

/-- The ways to write a list of ports in the settings: one text, a list of numbers and a
list of texts. -/
def spellings (ports : List Nat) : List Json :=
  [.text (",".intercalate (ports.map toString)),
    .array (ports.map fun n : Nat => .whole n),
    .array (ports.map fun n => .text (toString n))]

theorem toList_toString (n : Nat) : (toString n).toList = natDigits n := by simp [natDigits]

/-- Whichever way is taken, the setting is the same text. -/
theorem portsText?_of_mem_spellings {ports : List Nat} {v : Json} (h : v ∈ spellings ports) :
    ∃ text, RawSettings.portsText? v = some text ∧
      text.toList = ([','] : List Char).intercalate (ports.map natDigits) := by
  simp only [spellings, List.mem_cons, List.not_mem_nil, or_false] at h
  rcases h with rfl | rfl | rfl
  · refine ⟨_, rfl, ?_⟩
    rw [String.toList_intercalate, List.map_map]
    exact congrArg _ (List.map_congr_left fun n _ => toList_toString n)
  · refine ⟨_, rfl, ?_⟩
    rw [String.toList_ofList, List.map_map]
    refine congrArg _ (List.map_congr_left fun n _ => ?_)
    change Json.toChars (.whole n) = natDigits n
    rw [Json.toChars, intDigits, if_neg (by omega), Int.natAbs_natCast]
  · refine ⟨_, rfl, ?_⟩
    rw [String.toList_ofList, List.map_map]
    exact congrArg _ (List.map_congr_left fun n _ => toList_toString n)

theorem oversizedItem?_eq_none {vs : List Json} (h : ∀ v ∈ vs, RawSettings.oversized? v = none)
    (i : Nat) : RawSettings.oversizedItem? i vs = none := by
  induction vs generalizing i with
  | nil => rfl
  | cons v vs ih =>
      obtain ⟨hv, hvs⟩ := List.forall_mem_cons.mp h
      rw [RawSettings.oversizedItem?, hv]
      exact ih hvs (i + 1)

theorem oversized?_of_mem_spellings {ports : List Nat} (small : ∀ n ∈ ports, n < limit) {v : Json}
    (h : v ∈ spellings ports) : RawSettings.oversized? v = none := by
  simp only [spellings, List.mem_cons, List.not_mem_nil, or_false] at h
  rcases h with rfl | rfl | rfl
  · rfl
  · refine oversizedItem?_eq_none (fun v hv => ?_) 0
    obtain ⟨n, hn, rfl⟩ := List.mem_map.mp hv
    have hsmall : n < 65536 := small n hn
    rw [RawSettings.oversized?, if_pos ⟨by omega, by omega⟩]
  · refine oversizedItem?_eq_none (fun v hv => ?_) 0
    obtain ⟨n, -, rfl⟩ := List.mem_map.mp hv
    rfl

/-- The settings take every spelling of a list of ports, for either protocol. -/
theorem assign_of_mem_spellings {ports : List Nat} (small : ∀ n ∈ ports, n < limit) {v : Json}
    (h : v ∈ spellings ports) :
    ∃ text, RawSettings.portsText? v = some text ∧ parse? text = some ports ∧
      ∀ r : RawSettings, r.assign "push_listener_ports" v = .ok { r with pushPorts := text } ∧
        r.assign "opentsdb_ports" v = .ok { r with openTsdbPorts := text } := by
  obtain ⟨text, read, written⟩ := portsText?_of_mem_spellings h
  have hsize := oversized?_of_mem_spellings small h
  refine ⟨text, read, parse?_written small written, fun r => ⟨?_, ?_⟩⟩
  · rw [RawSettings.assign, if_pos (by decide), hsize, RawSettings.assign?, read]
    rfl
  · rw [RawSettings.assign, if_pos (by decide), hsize, RawSettings.assign?, read]
    rfl

/-- Lists of ports are read entry by entry. Two lists with a comma between them are one, an
entry that is neither blank nor a port makes its list invalid and nothing else does, the ports
of any other list are those of its entries, blanks around entries and blank entries make no
difference, and every spelling of a list of ports in the settings gives just these ports. -/
theorem parse_entry_by_entry :
    (∀ a b : String,
      parse? (a ++ "," ++ b) = (parse? a).bind fun ps => (parse? b).map (ps ++ ·)) ∧
    (∀ (text : String) (ports : List Nat),
      parse? text = some ports ↔ List.Forall₂ IsPort (entries text.toList) ports) ∧
    (∀ text : String, parse? text = none ↔
      ∃ w, IsPiece (· == ',') text.toList w ∧ trim w ≠ [] ∧ ∀ n, ¬ IsPort (trim w) n) ∧
    (∀ es : List String, parse? (",".intercalate es) =
      parse? (",".intercalate ((es.map trimText).filter (· ≠ "")))) ∧
    ∀ ports : List Nat, (∀ n ∈ ports, n < limit) → ∀ v ∈ spellings ports,
      ∃ text, RawSettings.portsText? v = some text ∧ parse? text = some ports ∧
        ∀ r : RawSettings, r.assign "push_listener_ports" v = .ok { r with pushPorts := text } ∧
          r.assign "opentsdb_ports" v = .ok { r with openTsdbPorts := text } := by
  refine ⟨parse?_append_comma, fun text ports => parse?_eq_some_iff,
    fun text => parse?_eq_none_iff, fun es => ?_,
    fun ports small v h => assign_of_mem_spellings small h⟩
  rw [parse?_intercalate, parse?_intercalate, flatMap_entries_eq]

/-- A port that is listed twice stays so. -/
theorem parse_entry_by_entry_twice :
    (∀ n ∈ [2878, 65535, 2878], n < limit) ∧
      Json.array [.whole 2878, .whole 65535, .whole 2878] ∈ spellings [2878, 65535, 2878] ∧
      ∃ text,
        RawSettings.portsText? (.array [.whole 2878, .whole 65535, .whole 2878]) = some text ∧
          parse? text = some [2878, 65535, 2878] := by
  have small : ∀ n ∈ [2878, 65535, 2878], n < limit := by decide
  have listed : Json.array [.whole 2878, .whole 65535, .whole 2878] ∈
      spellings [2878, 65535, 2878] := List.mem_cons_of_mem _ List.mem_cons_self
  obtain ⟨-, -, -, -, spelled⟩ := parse_entry_by_entry
  obtain ⟨text, read, parsed, -⟩ := spelled [2878, 65535, 2878] small _ listed
  exact ⟨small, listed, text, read, parsed⟩

end Ports
end MetricsProxy
