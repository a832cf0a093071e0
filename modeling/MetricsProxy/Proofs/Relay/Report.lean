import Mathlib.Data.List.Forall2
import MetricsProxy.Proofs.Binary64.Written
import MetricsProxy.Proofs.Dict
import MetricsProxy.Proofs.Relay.Apart
import MetricsProxy.Proofs.Relay.Progress
import MetricsProxy.Relay.Control

/-!
# Reports and check-ins tell the same

A check-in writes the snapshot of the registry as a JSON object, a report ships it as
points. The two go together entry by entry and in order: there is one point for each
entry that is not written as `null` (`points_tell`). A report by hand sends just these
points at once, or nothing if there are none, and gives the result of its send
(`report_of_points`, `report_of_nil`).
-/
namespace MetricsProxy

/-! ## What is written as null -/

namespace Json

/-- A value that is written as `null`. -/
def IsNull (v : Json) : Prop := v.toChars = null.toChars

instance : DecidablePred IsNull := fun v =>
  inferInstanceAs (Decidable (v.toChars = null.toChars))

theorem isNull_float_iff (x : Binary64) : (float x).IsNull ↔ x.isFinite = false := by
  have htext : (float x).toChars = floatText x := by rw [toChars]
  have hnull : null.toChars = ['n', 'u', 'l', 'l'] := by rw [toChars]
  rw [IsNull, htext, hnull, floatText]
  cases finite : x.isFinite with
  | false => simp
  | true =>
      rw [if_pos rfl]
      refine iff_of_false (fun h => ?_) (Bool.false_ne_true ∘ Eq.symm)
      -- No number is written with the letter `l`.
      have hletter : 'l' ∈ floatLayout.text x := h ▸ by decide
      exact absurd (Binary64.of_mem_text finite hletter) (by decide)

end Json

/-! ## Points and entries -/

namespace Registry

/-- What a check-in lists: every metric with its value. -/
def members (r : Registry) : List (String × Json) := r.snapshot.map fun e => (e.1, .float e.2)

theorem members_eq (r : Registry) :
    r.members = r.entries.map fun e => (e.1, .float e.2.snapshot) := by
  rw [members, snapshot, Dict.toList, Dict.map, List.map_map]
  rfl

theorem members_ordered (r : Registry) : r.members.Pairwise fun a b => a.1 < b.1 := by
  rw [members_eq]
  exact List.pairwise_map.mpr r.ordered

theorem mem_members_iff {r : Registry} {name : String} {v : Json} :
    (name, v) ∈ r.members ↔ ∃ m, r.find? name = some m ∧ v = .float m.snapshot := by
  rw [members_eq, List.mem_map]
  constructor
  · rintro ⟨⟨_, m⟩, he, heq⟩
    obtain ⟨rfl, rfl⟩ := Prod.mk.inj heq
    exact ⟨m, Dict.mem_entries_iff.mp he, rfl⟩
  · rintro ⟨m, hm, rfl⟩
    exact ⟨(name, m), Dict.mem_entries_iff.mpr hm, rfl⟩

/-- The entries that are not null are those of the metrics with a finite value. -/
theorem told_iff {r : Registry} {name : String} :
    (∃ v, (name, v) ∈ r.members ∧ ¬ v.IsNull) ↔
      ∃ m, r.find? name = some m ∧ m.snapshot.isFinite = true := by
  constructor
  · rintro ⟨v, hv, told⟩
    obtain ⟨m, hm, rfl⟩ := mem_members_iff.mp hv
    rw [Json.isNull_float_iff, Bool.not_eq_false] at told
    exact ⟨m, hm, told⟩
  · rintro ⟨m, hm, finite⟩
    refine ⟨.float m.snapshot, mem_members_iff.mpr ⟨m, hm, rfl⟩, ?_⟩
    rwa [Json.isNull_float_iff, Bool.not_eq_false]

end Registry

namespace Agent
variable (a : Agent) (registry : Registry) (timestamp : Int)

/-- A point tells what an entry of a check-in tells. -/
structure Tells (entry : String × Json) (p : Point) : Prop where
  metric : p.metric = "~agent." ++ entry.1
  value : entry.2 = .float p.value
  time : p.timestamp = timestamp
  tags : p.tags.toList = [("agent", a.id), ("source", a.hostname)]
  source : p.source = a.hostname

theorem tells_point (name : String) (value : Binary64) :
    a.Tells timestamp (name, .float value) (a.point timestamp name value) where
  metric := rfl
  value := rfl
  time := rfl
  tags := by
    have hlt : ("agent" : String) < "source" := by decide
    change Dict.insertEntry "agent" a.id [("source", a.hostname)] = _
    rw [Dict.insertEntry, if_pos hlt]
  source := by
    simp [point, Point.make, Point.sourceOf, Point.sourceKey, tags, Dict.ofList,
      Dict.find?_insert]

/-- There is a point for every entry that is not null, and no other. -/
theorem points_tell : List.Forall₂ (a.Tells timestamp)
    (registry.members.filter fun e => ¬ e.2.IsNull) (a.points registry timestamp) := by
  have hfilter : (registry.members.filter fun e => ¬ e.2.IsNull) =
      (registry.snapshot.filter fun e => e.2.isFinite).map fun e => (e.1, .float e.2) := by
    rw [Registry.members, List.filter_map]
    refine congrArg _ (List.filter_congr fun e _ => ?_)
    simp [Json.isNull_float_iff]
  rw [hfilter, points, List.forall₂_map_left_iff, List.forall₂_map_right_iff, List.forall₂_same]
  exact fun e _ => a.tells_point timestamp e.1 e.2

/-- A gauge that holds no number is listed as `null` and is not reported. -/
example :
    let registry := (Registry.count .empty "points.dropped" 3).apply "buffer.load" (.setGauge .nan)
    (Json.object registry.members).render =
        "\x7b\"buffer.load\":null,\"points.dropped\":3.0\x7d" ∧
      ((Agent.mk "8f2f8d7e" "proxy-host").points registry 7).map (fun p => (p.metric, p.value)) =
        [("~agent.points.dropped", .ofNat 3)] := by decide +kernel

theorem points_ordered :
    (a.points registry timestamp).Pairwise fun p q => p.metric < q.metric := by
  have hsnapshot : registry.snapshot.Pairwise fun e f => e.1 < f.1 :=
    (registry.map Metric.snapshot).ordered
  refine List.pairwise_map.mpr ((hsnapshot.filter _).imp fun {e f} hlt => ?_)
  change MetricName.agentMark ++ e.1 < MetricName.agentMark ++ f.1
  rw [String.lt_iff] at hlt ⊢
  rw [String.toList_append, String.toList_append]
  exact List.append_left_lt hlt

theorem points_eq_nil_iff :
    a.points registry timestamp = [] ↔ ∀ e ∈ registry.members, e.2.IsNull := by
  rw [← List.length_eq_zero_iff, ← (a.points_tell registry timestamp).length_eq,
    List.length_eq_zero_iff, List.filter_eq_nil_iff]
  simp only [decide_eq_true_eq, Decidable.not_not]

end Agent

/-! ## Reports by hand -/

namespace Relay
variable {s : Relay} {a : Agent}

/-- Whatever else goes on in the meantime, only the owner reports by hand. -/
theorem own_reportCall_advance (s : Relay) (limit : Nat) :
    Journal.own .reportCall (s.advance limit).journal = Journal.own .reportCall s.journal := by
  refine follow_induct (motive := fun t =>
    Journal.own .reportCall t.journal = Journal.own .reportCall s.journal) rfl ?_
  intro t e same _ next
  obtain ⟨scheduled, -⟩ := of_next? next
  rw [perform_eq scheduled.now_le, (step_spares_reportCall _ scheduled.timeless).own]
  exact same

theorem own_reportCall_waitFor (s : Relay) (time : Nat) :
    Journal.own .reportCall (s.waitFor time).journal = Journal.own .reportCall s.journal := by
  unfold waitFor
  split
  · rfl
  · exact own_reportCall_advance s (time - 1)

theorem now_waitFor {time : Nat} (ahead : s.now ≤ time) : (s.waitFor time).now = time := by
  unfold waitFor
  split
  · omega
  · rfl

/-- Without points nothing is sent. -/
theorem report_of_nil (none : a.points s.registry s.wallClock = []) :
    s.report a = (s.settleNow, Option.none) := by
  rw [report, beginReport, none]
  rfl

/-- The points are sent at once and as one unit, and the report gives what comes of it. -/
theorem report_of_points (points : a.points s.registry s.wallClock ≠ []) :
    let unit : WorkUnit := ⟨a.points s.registry s.wallClock⟩
    let flight := s.nextFlight unit
    (s.report a).2 = some flight.result ∧
      Journal.own .reportCall (s.report a).1.journal =
        [.returned .reportCall flight.ends flight.result, .begun .reportCall s.now unit] ++
          Journal.own .reportCall s.journal := by
  intro unit flight
  have hreport : s.report a = ((((s.launch .reportCall unit).1.waitFor flight.ends).land
      .reportCall flight).settleNow, some flight.result) := by
    rw [report, beginReport, if_neg (mt List.isEmpty_iff.mp points)]
    rfl
  have hnow : ((s.launch .reportCall unit).1.waitFor flight.ends).now = flight.ends :=
    now_waitFor (Nat.le_add_right s.now _)
  have hbegun : Journal.own .reportCall (s.launch .reportCall unit).1.journal =
      .begun .reportCall s.now unit :: Journal.own .reportCall s.journal :=
    Journal.own_cons rfl
  refine ⟨by rw [hreport], ?_⟩
  rw [hreport, settleNow, own_reportCall_advance, land, log, Journal.own_cons rfl, hnow,
    own_reportCall_waitFor, hbegun]
  rfl

/-- A check-in and a report of the same registry tell the same: there is a point for every
entry that is not null, in the order of their names, and it carries the entry's value. A
report sends just these points, and nothing if every entry is null. -/
theorem report_tells_snapshot (a : Agent) :
    (∀ (registry : Registry) (timestamp : Int),
      let members := registry.members
      let points := a.points registry timestamp
      registry.snapshotJson = .object members ∧
      (members.Pairwise fun e f => e.1 < f.1) ∧
      (∀ name v, (name, v) ∈ members ↔
        ∃ m, registry.find? name = some m ∧ v = .float m.snapshot) ∧
      (∀ name, (∃ v, (name, v) ∈ members ∧ ¬ v.IsNull) ↔
        ∃ m, registry.find? name = some m ∧ m.snapshot.isFinite = true) ∧
      (points.Pairwise fun p q => p.metric < q.metric) ∧
      List.Forall₂ (a.Tells timestamp) (members.filter fun e => ¬ e.2.IsNull) points) ∧
    ∀ s : Relay,
      let points := a.points s.registry s.wallClock
      let flight := s.nextFlight ⟨points⟩
      s.register.1.journal = .checkedIn (Json.object s.registry.members).render :: s.journal ∧
      ((s.report a).2 = none ↔ ∀ e ∈ s.registry.members, e.2.IsNull) ∧
      (s.report a).2 = (if points = [] then none else some flight.result) ∧
      Journal.own .reportCall (s.report a).1.journal =
        (if points = [] then []
          else [.returned .reportCall flight.ends flight.result,
            .begun .reportCall s.now ⟨points⟩]) ++ Journal.own .reportCall s.journal := by
  constructor
  · intro registry timestamp
    exact ⟨rfl, registry.members_ordered, fun _ _ => Registry.mem_members_iff,
      fun _ => Registry.told_iff, a.points_ordered registry timestamp,
      a.points_tell registry timestamp⟩
  · intro s points flight
    rw [← a.points_eq_nil_iff s.registry s.wallClock]
    by_cases none : points = []
    · rw [if_pos none, if_pos none, report_of_nil none]
      exact ⟨rfl, iff_of_true rfl none, rfl, own_reportCall_advance s s.now⟩
    · obtain ⟨answer, own⟩ := report_of_points none
      rw [if_neg none, if_neg none, answer, own]
      exact ⟨rfl, iff_of_false nofun none, rfl, rfl⟩

end Relay
end MetricsProxy
