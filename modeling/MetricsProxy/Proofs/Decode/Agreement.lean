import MetricsProxy.Proofs.Decode.Grammar

/-!
# Two formats for the same data

A Graphite line with a time and an OpenTSDB line have the same fields, the value and
the time in another order. They carry the same points (`graphiteLine_iff`), and as
groups of checks may change places unless both groups fail (`FirstFailing.swap_iff`),
the two decoders report different errors only where the value and the time are both
wrong behind a good metric.
-/
namespace MetricsProxy
open Text

namespace Decode

namespace FirstFailing
variable {check : Check} {first second later : List Check} {e : DecodeError}

theorem skip_iff (holds : check.holds) : FirstFailing (check :: later) e ↔ FirstFailing later e := by
  refine ⟨fun h => ?_, .later holds⟩
  cases h with
  | here fails => exact absurd holds fails
  | later _ h => exact h

theorem unique {checks : List Check} {e e' : DecodeError} (h : FirstFailing checks e)
    (h' : FirstFailing checks e') : e = e' := by
  induction h with
  | here fails =>
      cases h' with
      | here => rfl
      | later holds => exact absurd holds fails
  | later holds _ ih => exact ih ((skip_iff holds).mp h')

/-- A group of checks that fails decides alone. -/
theorem append_iff_of_fails (fails : ¬ ∀ check ∈ first, check.holds) :
    FirstFailing (first ++ later) e ↔ FirstFailing first e := by
  rw [append_iff]
  exact or_iff_left fun h => fails h.1

/-- Two groups of checks find the same fault in either order, if one of them finds none. -/
theorem swap_iff (clear : (∀ check ∈ first, check.holds) ∨ ∀ check ∈ second, check.holds) :
    FirstFailing (first ++ (second ++ later)) e ↔
      FirstFailing (second ++ (first ++ later)) e := by
  simp only [append_iff]
  rcases clear with all | all
  · have none : ¬ FirstFailing first e := fun h => h.not_all all
    simp only [none, false_or, and_iff_right all]
  · have none : ¬ FirstFailing second e := fun h => h.not_all all
    simp only [none, false_or, and_iff_right all]

end FirstFailing

/-- The checks of a value. -/
def valueChecks (v : Token) : List Check := [numeralCheck v, finiteCheck v]

theorem valueChecks_hold_iff {v : Token} :
    (∀ check ∈ valueChecks v, check.holds) ↔ ∃ x, IsValue v x :=
  (value_checked v).all_iff.trans (exists_congr (value_checked v).ok_iff)

theorem of_firstFailing_valueChecks {v : Token} {e : DecodeError}
    (h : FirstFailing (valueChecks v) e) :
    ¬ IsNumeral v ∧ e = .invalidValue (String.ofList v) ∨
      IsNumeral v ∧ e = .nonFiniteValue (String.ofList v) := by
  cases h with
  | here fails => exact .inl ⟨fails, rfl⟩
  | later holds h =>
      cases h with
      | here => exact .inr ⟨holds, rfl⟩
      | later _ h => cases h

variable {m v t : Token} {tags : List Token}

/-- A Graphite line with a time says what the OpenTSDB line of the same fields says. -/
theorem graphiteLine_iff {now : Int} {p : Point} (plain : '=' ∉ t) :
    GraphiteLine now (m :: v :: t :: tags) p ↔ OpenTsdbLine (putWord :: m :: t :: v :: tags) p := by
  constructor
  · rintro ⟨metric, value, timed, tagged, carries⟩
    obtain ⟨time, rfl⟩ := (isTimed_given_iff plain).mp timed
    exact .line metric time value tagged carries
  · rintro ⟨metric, time, value, tagged, carries⟩
    exact .line metric value (.given plain time) tagged carries

/-- The fault of a Graphite line with a time: the value is checked before the time. -/
theorem graphite_fault_iff (plain : '=' ∉ t) {e : DecodeError} :
    FirstFailing (Format.graphite.checks (m :: v :: t :: tags)) e ↔
      FirstFailing (metricCheck m :: (valueChecks v ++ ([timeCheck t] ++ tags.map tagCheck))) e := by
  rw [Format.checks, FirstFailing.skip_iff (List.cons_ne_nil m _),
    FirstFailing.skip_iff (Nat.le_add_left 2 _), graphiteFieldChecks, restChecks, if_neg plain]
  rfl

/-- The fault of an OpenTSDB line: the time is checked before the value. -/
theorem openTsdb_fault_iff {e : DecodeError} :
    FirstFailing (Format.openTsdb.checks (putWord :: m :: t :: v :: tags)) e ↔
      FirstFailing (metricCheck m :: ([timeCheck t] ++ (valueChecks v ++ tags.map tagCheck))) e := by
  rw [Format.checks, FirstFailing.skip_iff (List.cons_ne_nil putWord _),
    FirstFailing.skip_iff rfl, FirstFailing.skip_iff (Nat.le_add_left 4 _)]
  rfl

/-- A good metric with a wrong value and a wrong time: the formats differ in which of the
two they report. -/
structure Disputed (m v t : Token) : Prop where
  metric : ∃ name, IsMetric m name
  value : ¬ ∃ x, IsValue v x
  time : ¬ ∃ seconds, IsTime t seconds

theorem faults_agree {e e' : DecodeError} (plain : '=' ∉ t)
    (h : FirstFailing (Format.graphite.checks (m :: v :: t :: tags)) e)
    (h' : FirstFailing (Format.openTsdb.checks (putWord :: m :: t :: v :: tags)) e') :
    (Disputed m v t → FirstFailing (valueChecks v) e ∧ e' = .invalidTimestamp (String.ofList t)) ∧
      (¬ Disputed m v t → e = e') := by
  rw [graphite_fault_iff plain] at h
  rw [openTsdb_fault_iff] at h'
  by_cases metric : ∃ name, IsMetric m name
  case neg =>
    -- the metric is the first field of both formats
    refine ⟨fun disputed => absurd disputed.metric metric, fun _ => ?_⟩
    have faulty {e : DecodeError} {later : List Check}
        (h : FirstFailing (metricCheck m :: later) e) : e = .emptyMetric := by
      cases h with
      | here => rfl
      | later holds => exact absurd holds metric
    rw [faulty h, faulty h']
  case pos =>
    rw [FirstFailing.skip_iff metric] at h h'
    by_cases clear : (∃ x, IsValue v x) ∨ ∃ seconds, IsTime t seconds
    · refine ⟨fun disputed => absurd clear (not_or_intro disputed.value disputed.time), fun _ => ?_⟩
      have swaps : (∀ check ∈ valueChecks v, check.holds) ∨
          ∀ check ∈ [timeCheck t], check.holds :=
        clear.imp valueChecks_hold_iff.mpr List.forall_mem_singleton.mpr
      exact h.unique ((FirstFailing.swap_iff swaps).mpr h')
    · obtain ⟨value, time⟩ := not_or.mp clear
      refine ⟨fun _ => ?_, fun agreed => absurd ⟨metric, value, time⟩ agreed⟩
      rw [FirstFailing.append_iff_of_fails (fun all => value (valueChecks_hold_iff.mp all))] at h
      rw [FirstFailing.append_iff_of_fails (fun all => time (all _ List.mem_cons_self))] at h'
      refine ⟨h, ?_⟩
      cases h' with
      | here => rfl
      | later _ h' => cases h'

end Decode

namespace Format
open Decode

/-- The two decoders agree on the same fields, whatever blanks there are between them and
whatever the clock says, if the time has no `=`: one gives a point exactly when the other
gives the same point, and they report the same error unless the metric is good and both the
value and the time are wrong. Then Graphite reports the value and OpenTSDB the time. -/
theorem decoders_agree {m v t : Token} {tags : List Token} {line other : String}
    (plain : '=' ∉ t) (spaced : Spaced line.toList (m :: v :: t :: tags))
    (spaced' : Spaced other.toList (putWord :: m :: t :: v :: tags)) (now now' : Int) :
    (∀ p, graphite.decode now line = .ok p ↔ openTsdb.decode now' other = .ok p) ∧
      ∀ e e', graphite.decode now line = .error e → openTsdb.decode now' other = .error e' →
        (Disputed m v t →
          (¬ IsNumeral v ∧ e = .invalidValue (String.ofList v) ∨
            IsNumeral v ∧ e = .nonFiniteValue (String.ofList v)) ∧
          e' = .invalidTimestamp (String.ofList t)) ∧
        (¬ Disputed m v t → e = e') := by
  have hgraphite := graphite.decode_checked now line
  have hopenTsdb := openTsdb.decode_checked now' other
  rw [show tokens line = _ from spaced.words_eq] at hgraphite
  rw [show tokens other = _ from spaced'.words_eq] at hopenTsdb
  refine ⟨fun p => ?_, fun e e' h h' => ?_⟩
  · rw [hgraphite.ok_iff, hopenTsdb.ok_iff]
    exact graphiteLine_iff plain
  · have hfaults := faults_agree plain ((hgraphite.error_iff e).mp h) ((hopenTsdb.error_iff e').mp h')
    exact ⟨fun disputed => (hfaults.1 disputed).imp_left of_firstFailing_valueChecks, hfaults.2⟩

/-- A quoted metric and a tag given twice; then a value and a time that are both wrong. -/
theorem decoders_agree_quotedMetric :
    (∃ p, graphite.decode 0 "\"cpu\" 1.5  100 dc=a dc=b" = .ok p ∧
        openTsdb.decode 7 "put \"cpu\"\t100 1.5 dc=a dc=b" = .ok p) ∧
      graphite.decode 0 "cpu inf noon" = .error (.nonFiniteValue "inf") ∧
        openTsdb.decode 7 "put cpu noon inf" = .error (.invalidTimestamp "noon") := by
  constructor
  · have spaced : Spaced "\"cpu\" 1.5  100 dc=a dc=b".toList
        ["\"cpu\"".toList, "1.5".toList, "100".toList, "dc=a".toList, "dc=b".toList] :=
      spaced_iff.mpr (by decide +kernel)
    have spaced' : Spaced "put \"cpu\"\t100 1.5 dc=a dc=b".toList
        [putWord, "\"cpu\"".toList, "100".toList, "1.5".toList, "dc=a".toList, "dc=b".toList] :=
      spaced_iff.mpr (by decide +kernel)
    have agree := (decoders_agree (by decide) spaced spaced' 0 7).1
    have reads : (graphite.decode 0 "\"cpu\" 1.5  100 dc=a dc=b").isOk = true := by decide +kernel
    cases h : graphite.decode 0 "\"cpu\" 1.5  100 dc=a dc=b" with
    | ok p => exact ⟨p, rfl, (agree p).mp h⟩
    | error e => rw [h] at reads; cases reads
  · have spaced : Spaced "cpu inf noon".toList ["cpu".toList, "inf".toList, "noon".toList] :=
      spaced_iff.mpr (by decide +kernel)
    have spaced' : Spaced "put cpu noon inf".toList
        [putWord, "cpu".toList, "noon".toList, "inf".toList] := spaced_iff.mpr (by decide +kernel)
    have agree := decoders_agree (by decide) spaced spaced' 0 7
    have unread : value "inf".toList = .error (.nonFiniteValue "inf") := by decide +kernel
    have untimed : timestamp "noon".toList = .error (.invalidTimestamp "noon") := by decide +kernel
    have disputed : Disputed "cpu".toList "inf".toList "noon".toList := by
      refine ⟨⟨"cpu", metric_eq_ok_iff.mp (by decide +kernel)⟩, ?_, ?_⟩
      · rintro ⟨x, h⟩
        rw [← (value_checked _).ok_iff, unread] at h
        cases h
      · rintro ⟨seconds, h⟩
        rw [← timestamp_eq_ok_iff, untimed] at h
        cases h
    have refuses : graphite.decode 0 "cpu inf noon" = .error (.nonFiniteValue "inf") := by
      decide +kernel
    refine ⟨refuses, ?_⟩
    cases h : openTsdb.decode 7 "put cpu noon inf" with
    | ok p => rw [(agree.1 p).mpr h] at refuses; cases refuses
    | error e => rw [((agree.2 _ e refuses h).1 disputed).2]; rfl

end Format
end MetricsProxy
