import MetricsProxy.Proofs.Decode.Timestamps
import MetricsProxy.Proofs.Lists
import MetricsProxy.Version

/-!
# Versions in order

The number of a version is its major, minor and patch as digits of base 1000, so as long as
the last two stay below 1000 numbers are ordered as the releases are that they stand for
(`compare_number`). Which release a version names is said by its parts (`Names`), and the
parts of a text are what it is joined of with points (`Dotted`).
-/
namespace MetricsProxy.Version
open Text
open Decode (Fits int64?_eq_some_iff)

/-! ## Releases -/

/-- What a version stands for. -/
structure Release where
  major : Nat
  minor : Fin 1000
  patch : Fin 1000
  deriving DecidableEq, Repr

namespace Release

/-- Releases are compared by their major, then by their minor, then by their patch. -/
instance : Ord Release where
  compare r s :=
    (compare r.major s.major).then ((compare r.minor s.minor).then (compare r.patch s.patch))

def number (r : Release) : Int := r.major * 1000000 + r.minor * 1000 + r.patch

theorem number_eq_iff {r s : Release} : r.number = s.number ↔ r = s := by
  obtain ⟨major, ⟨minor, hminor⟩, ⟨patch, hpatch⟩⟩ := r
  obtain ⟨major', ⟨minor', hminor'⟩, ⟨patch', hpatch'⟩⟩ := s
  simp only [number, mk.injEq, Fin.mk.injEq]
  omega

theorem compare_add (c : Int) (i j : Nat) : compare (c + i) (c + j) = compare i j := by
  rcases Nat.lt_trichotomy i j with h | rfl | h
  · rw [Nat.compare_eq_lt.mpr h, Int.compare_eq_lt]
    omega
  · rw [Nat.compare_eq_eq.mpr rfl, Int.compare_eq_eq]
  · rw [Nat.compare_eq_gt.mpr h, Int.compare_eq_gt]
    omega

theorem compare_digit (a b : Int) (i j : Fin 1000) :
    compare (a * 1000 + i) (b * 1000 + j) = (compare a b).then (compare i j) := by
  have hi := i.isLt
  have hj := j.isLt
  cases h : compare a b with
  | lt =>
      have hlt := Int.compare_eq_lt.mp h
      rw [Ordering.lt_then, Int.compare_eq_lt]
      omega
  | eq =>
      obtain rfl := Int.compare_eq_eq.mp h
      rw [Ordering.eq_then]
      exact compare_add _ i j
  | gt =>
      have hgt := Int.compare_eq_gt.mp h
      rw [Ordering.gt_then, Int.compare_eq_gt]
      omega

theorem compare_number (r s : Release) : compare r.number s.number = compare r s := by
  have hdigits (r : Release) : r.number = (r.major * 1000 + r.minor) * 1000 + r.patch := by
    unfold number
    omega
  have hmajor : compare (r.major : Int) s.major = compare r.major s.major := by
    simpa using compare_add 0 r.major s.major
  rw [hdigits r, hdigits s, compare_digit, compare_digit, hmajor, Ordering.then_assoc]
  rfl

end Release

/-! ## Parts -/

/-- The parts of a text, which points keep apart. -/
structure Dotted (version : String) (ps : List String) : Prop where
  nonempty : ps ≠ []
  joined : version = ".".intercalate ps
  apart : ∀ p ∈ ps, '.' ∉ p.toList

/-- The release that parts name. The second and the third may be missing, and what comes
after the third is left aside. -/
inductive Names : List String → Release → Prop where
  | major {p : String} {m : Nat} (major : Numeral p.toList m) : Names [p] ⟨m, 0, 0⟩
  | minor {p q : String} {m : Nat} {n : Fin 1000} (major : Numeral p.toList m)
      (minor : Numeral q.toList n) : Names [p, q] ⟨m, n, 0⟩
  | patch {p q o : String} {m : Nat} {n k : Fin 1000} (rest : List String)
      (major : Numeral p.toList m) (minor : Numeral q.toList n) (patch : Numeral o.toList k) :
      Names (p :: q :: o :: rest) ⟨m, n, k⟩

/-- What a part counts. -/
def partValue (p : String) : Int := (int64? p.toList).getD 0

variable {version : String} {ps : List String}

theorem exists_dotted (version : String) : ∃ ps, Dotted version ps := by
  refine ⟨(pieces (· == '.') version.toList).map String.ofList, by simp [pieces_ne_nil], ?_, ?_⟩
  · rw [← String.toList_inj, String.toList_intercalate, List.map_map]
    simp [Function.comp_def, intercalate_pieces]
  · intro p hp hpoint
    obtain ⟨w, hw, rfl⟩ := List.mem_map.mp hp
    rw [String.toList_ofList] at hpoint
    simpa using not_of_mem_pieces hw '.' hpoint

theorem Dotted.parts_eq (h : Dotted version ps) : parts version.toList = ps.map partValue := by
  have hpoint : ".".toList = ['.'] := rfl
  have hpieces : pieces (· == '.') version.toList = ps.map String.toList := by
    rw [h.joined, String.toList_intercalate, hpoint]
    refine pieces_intercalate (by rfl) (by simpa using h.nonempty) ?_
    intro w hw a ha
    obtain ⟨p, hp, rfl⟩ := List.mem_map.mp hw
    have hne : a ≠ '.' := fun heq => h.apart p hp (heq ▸ ha)
    simpa using hne
  simp [parts, hpieces, partValue]

theorem parts_append (v w : String) :
    parts (v ++ "." ++ w).toList = parts v.toList ++ parts w.toList := by
  have hchars : (v ++ "." ++ w).toList = v.toList ++ '.' :: w.toList := by simp
  simp [parts, hchars, pieces_append_cons (· == '.') _ _ '.' rfl]

theorem partValue_of_numeral {p : String} {i : Int} (numeral : Numeral p.toList i) (fits : Fits i) :
    partValue p = i := by
  simp [partValue, int64?_eq_some_iff.mpr ⟨numeral, fits⟩]

theorem partValue_of_other {p : String} (other : ∀ i, Numeral p.toList i → ¬ Fits i) :
    partValue p = 0 := by
  cases h : int64? p.toList with
  | none => simp [partValue, h]
  | some i =>
      obtain ⟨numeral, fits⟩ := int64?_eq_some_iff.mp h
      exact absurd fits (other i numeral)

theorem encode_eq (h : Dotted version ps) : encode version = encodeParts (ps.map partValue) := by
  rw [encode, h.parts_eq]

/-- A version that names a release has its number, if that has 64 bits. -/
theorem encode_of_names (h : Dotted version ps) {r : Release} (names : Names ps r)
    (fits : Fits r.number) : encode version = r.number := by
  have hdigit (n : Fin 1000) : Fits n := by
    unfold Fits Decode.int64Min Decode.int64Max
    omega
  have hmajor : Fits r.major := by
    unfold Release.number at fits
    unfold Fits Decode.int64Min Decode.int64Max at fits ⊢
    omega
  rw [encode_eq h]
  cases names with
  | major major =>
      simp [encodeParts, Release.number, partValue_of_numeral major hmajor]
  | minor major minor =>
      simp [encodeParts, Release.number, partValue_of_numeral major hmajor,
        partValue_of_numeral minor (hdigit _)]
  | patch rest major minor patch =>
      simp [encodeParts, Release.number, partValue_of_numeral major hmajor,
        partValue_of_numeral minor (hdigit _), partValue_of_numeral patch (hdigit _)]

/-! ## Parts that make no difference -/

theorem encodeParts_append_zero (is : List Int) : encodeParts (is ++ [0]) = encodeParts is := by
  have hget (i : Nat) : (is ++ [0]).getD i 0 = is.getD i 0 := by
    simp only [List.getD_eq_getElem?_getD, List.getElem?_append]
    split
    · rfl
    · rename_i h
      rw [List.getElem?_eq_none (Nat.le_of_not_lt h)]
      cases i - is.length <;> simp
  simp only [encodeParts, hget]

theorem encodeParts_append {is : List Int} (three : 3 ≤ is.length) (js : List Int) :
    encodeParts (is ++ js) = encodeParts is := by
  have hget {i : Nat} (hi : i < 3) : (is ++ js).getD i 0 = is.getD i 0 := by
    simp only [List.getD_eq_getElem?_getD,
      List.getElem?_append_left (Nat.lt_of_lt_of_le hi three)]
  rw [encodeParts, encodeParts, hget (by decide), hget (by decide), hget (by decide)]

/-- Versions are ordered by their numbers: two of them that name releases compare as these do.
A part of zero at the end and parts after the third change nothing, and a part that is no
number of 64 bits counts as zero. -/
theorem encode_orders_releases :
    (∀ v w ps qs r s, Dotted v ps → Dotted w qs → Names ps r → Names qs s → Fits r.number →
      Fits s.number → compare (encode v) (encode w) = compare r s ∧ (encode v = encode w ↔ r = s)) ∧
    (∀ v, ∃ ps, Dotted v ps) ∧
    (∀ v, encode (v ++ ".0") = encode v) ∧
    (∀ v ps, Dotted v ps → 3 ≤ ps.length → ∀ w, encode (v ++ "." ++ w) = encode v) ∧
    ∀ v ps, Dotted v ps → ∀ i p, ps[i]? = some p → (∀ n, Numeral p.toList n → ¬ Fits n) →
      encode v = encode (".".intercalate (ps.set i "0")) := by
  refine ⟨?_, exists_dotted, ?_, ?_, ?_⟩
  · intro v w ps qs r s hv hw names names' fits fits'
    rw [encode_of_names hv names fits, encode_of_names hw names' fits']
    exact ⟨Release.compare_number r s, Release.number_eq_iff⟩
  · intro v
    have hparts := parts_append v "0"
    have hzero : parts "0".toList = [0] := by decide
    rw [hzero, String.append_assoc] at hparts
    change parts (v ++ ".0").toList = parts v.toList ++ [0] at hparts
    rw [encode, encode, hparts, encodeParts_append_zero]
  · intro v ps hv three w
    have hlength : 3 ≤ (parts v.toList).length := by rwa [hv.parts_eq, List.length_map]
    rw [encode, encode, parts_append, encodeParts_append hlength]
  · intro v ps hv i p hp other
    have hset : Dotted (".".intercalate (ps.set i "0")) (ps.set i "0") := by
      refine ⟨by simpa using hv.nonempty, rfl, ?_⟩
      intro q hq
      rcases List.mem_or_eq_of_mem_set hq with hq | rfl
      · exact hv.apart q hq
      · decide
    have hzero : partValue "0" = 0 := by decide
    have hvalue : (ps.map partValue)[i]? = some 0 := by
      rw [List.getElem?_map, hp, Option.map_some, partValue_of_other other]
    rw [encode_eq hv, encode_eq hset, List.map_set, hzero, set_eq_self_of_getElem? hvalue]

/-- A tenth minor comes after the ninth, a fourth part changes nothing, and a letter is zero. -/
theorem encode_orders_releases_tenthMinor :
    Dotted "2.9.1" ["2", "9", "1"] ∧ Dotted "2.10" ["2", "10"] ∧
      Names ["2", "9", "1"] ⟨2, 9, 1⟩ ∧ Names ["2", "10"] ⟨2, 10, 0⟩ ∧
      compare (encode "2.9.1") (encode "2.10") = .lt ∧
      encode ("2.9.1" ++ "." ++ "rc") = encode "2.9.1" ∧
      Dotted "4.x.1" ["4", "x", "1"] ∧ (∀ n, Numeral "x".toList n → ¬ Fits n) ∧
      encode "4.x.1" = encode "4.0.1" := by
  have ninth : Dotted "2.9.1" ["2", "9", "1"] := ⟨by decide, by decide, by decide⟩
  have tenth : Dotted "2.10" ["2", "10"] := ⟨by decide, by decide, by decide⟩
  have letter : Dotted "4.x.1" ["4", "x", "1"] := ⟨by decide, by decide, by decide⟩
  have names : Names ["2", "9", "1"] ⟨2, 9, 1⟩ := .patch [] (integer?_eq_some_iff.mp rfl)
    (integer?_eq_some_iff.mp rfl) (integer?_eq_some_iff.mp rfl)
  have names' : Names ["2", "10"] ⟨2, 10, 0⟩ :=
    .minor (integer?_eq_some_iff.mp rfl) (integer?_eq_some_iff.mp rfl)
  have other : ∀ n, Numeral "x".toList n → ¬ Fits n := fun n numeral => by
    rw [← integer?_eq_some_iff] at numeral
    cases numeral
  obtain ⟨order, -, -, further, zero⟩ := encode_orders_releases
  have hlt := (order _ _ _ _ _ _ ninth tenth names names' ⟨by decide, by decide⟩
    ⟨by decide, by decide⟩).1
  exact ⟨ninth, tenth, names, names', hlt, further _ _ ninth (by decide) "rc", letter, other,
    zero _ _ letter 1 "x" rfl other⟩

end MetricsProxy.Version
