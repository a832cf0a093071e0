import MetricsProxy.Proofs.Lists
import MetricsProxy.Proofs.Telemetry.Kinds

/-!
# What uses add up to

A counter, a timer or a histogram keeps nothing of the order of its uses: two of them
commute (`MetricUse.apply_comm`), and so do the two that could have registered the name,
as long as they agree on its kind (`MetricUse.onEntry_comm`). Since a use touches its own
name only, a run may be read name by name (`Registry.find?_useAll`). What a name has in the
end are totals of what its uses told it (`Metric.Keeps`), as words.
-/
namespace MetricsProxy

attribute [ext] Histogram

theorem word_add_right_comm (a b c : UInt64) : a + b + c = a + c + b := by
  rw [UInt64.add_assoc, UInt64.add_comm b, UInt64.add_assoc]

theorem Histogram.record_comm (h : Histogram) (a b : UInt64) :
    (h.record a).record b = (h.record b).record a := by
  ext : 1
  · rfl
  · exact word_add_right_comm h.sum a b
  · apply UInt64.toNat.inj
    simp only [toNat_max_record, Nat.max_left_comm]

namespace MetricUse
variable {u v : MetricUse}

/-- What two uses come to does not depend on their order, unless they set or adjust a gauge. -/
theorem apply_comm (noGauge : u.kind ≠ .gauge) (m : Metric) :
    v.apply (u.apply m) = u.apply (v.apply m) := by
  by_cases hu : m.kind = u.kind
  · by_cases hv : m.kind = v.kind
    · cases m with
      | counter total =>
          cases u <;> cases hu <;> cases v <;> cases hv <;>
            simp only [apply, word_add_right_comm]
      | gauge value => exact absurd hu.symm noGauge
      | timer micros =>
          cases u <;> cases hu <;> cases v <;> cases hv <;>
            simp only [apply, Histogram.record_comm]
      | histogram samples =>
          cases u <;> cases hu <;> cases v <;> cases hv <;>
            simp only [apply, Histogram.record_comm]
    · have hv' : (u.apply m).kind ≠ v.kind := by rwa [kind_apply]
      rw [apply_of_kind_ne hv, apply_of_kind_ne hv']
  · have hu' : (v.apply m).kind ≠ u.kind := by rwa [kind_apply]
    rw [apply_of_kind_ne hu, apply_of_kind_ne hu']

/-- A use of what the registry has under a name, if anything. -/
def onEntry (entry : Option Metric) (u : MetricUse) : Option Metric :=
  some (u.apply (entry.getD (.fresh u.kind)))

/-- Neither does it matter which one of two uses registers the name. -/
theorem onEntry_comm (noGauge : u.kind ≠ .gauge) (oneKind : u.kind = v.kind)
    (entry : Option Metric) : onEntry (onEntry entry u) v = onEntry (onEntry entry v) u := by
  simp only [onEntry, Option.getD_some, oneKind, apply_comm noGauge]

theorem foldl_onEntry_some (us : List MetricUse) (m : Metric) :
    us.foldl onEntry (some m) = some (us.foldl (fun m u => u.apply m) m) := by
  induction us generalizing m with
  | nil => rfl
  | cons u us ih => exact ih (u.apply m)

/-- Only its first use gives a name its kind. -/
theorem foldl_onEntry_cons (u : MetricUse) (us : List MetricUse) :
    (u :: us).foldl onEntry none =
      some ((u :: us).foldl (fun m u => u.apply m) (.fresh u.kind)) :=
  foldl_onEntry_some us (u.apply (.fresh u.kind))

theorem kind_foldl (us : List MetricUse) (m : Metric) :
    (us.foldl (fun m u => u.apply m) m).kind = m.kind := by
  induction us generalizing m with
  | nil => rfl
  | cons u us ih => exact (ih (u.apply m)).trans (kind_apply u m)

end MetricUse

/-! ## Runs name by name -/

def usesOf (name : String) (ops : List (String × MetricUse)) : List MetricUse :=
  (ops.filter (·.1 == name)).map Prod.snd

theorem mem_usesOf {name : String} {ops : List (String × MetricUse)} {u : MetricUse} :
    u ∈ usesOf name ops ↔ (name, u) ∈ ops := by
  simp [usesOf]

theorem usesOf_eq_nil_iff {name : String} {ops : List (String × MetricUse)} :
    usesOf name ops = [] ↔ ∀ op ∈ ops, op.1 ≠ name := by
  simp [usesOf]

namespace Registry

/-- Names with what they are used for, one after another. -/
def useAll (r : Registry) (ops : List (String × MetricUse)) : Registry :=
  ops.foldl (fun r op => r.apply op.1 op.2) r

theorem find?_apply_self (r : Registry) (name : String) (u : MetricUse) :
    (r.apply name u).find? name = MetricUse.onEntry (r.find? name) u := by
  cases h : r.find? name with
  | none => exact find?_apply_of_none h u
  | some m => exact find?_apply_of_some h u

/-- What a name has in the end is what its own uses make of what it had. -/
theorem find?_useAll (r : Registry) (ops : List (String × MetricUse)) (name : String) :
    (r.useAll ops).find? name = (usesOf name ops).foldl MetricUse.onEntry (r.find? name) := by
  induction ops generalizing r with
  | nil => rfl
  | cons op ops ih =>
      have hrest : (r.useAll (op :: ops)).find? name =
          (usesOf name ops).foldl MetricUse.onEntry ((r.apply op.1 op.2).find? name) := ih _
      rw [hrest]
      by_cases hname : op.1 = name
      · subst hname
        simp [usesOf, find?_apply_self]
      · rw [find?_apply_of_ne r op.2 (Ne.symm hname)]
        simp [usesOf, hname]

theorem useAll_perm {ops others : List (String × MetricUse)}
    (noGauge : ∀ op ∈ ops, op.2.kind ≠ .gauge)
    (oneKind : ∀ op ∈ ops, ∀ op' ∈ ops, op.1 = op'.1 → op.2.kind = op'.2.kind)
    (perm : ops.Perm others) (r : Registry) : r.useAll others = r.useAll ops := by
  refine Dict.ext fun name => ?_
  rw [find?_useAll, find?_useAll]
  have hown : (usesOf name ops).Perm (usesOf name others) := (perm.filter _).map Prod.snd
  refine (hown.foldl_eq' (fun u hu v hv entry => ?_) _).symm
  have hu := mem_usesOf.mp hu
  have hv := mem_usesOf.mp hv
  exact MetricUse.onEntry_comm (noGauge _ hu) (oneKind _ hu _ hv rfl) entry

end Registry

/-! ## Totals -/

/-- What a use tells its metric, if anything: an increment, the whole microseconds of a
duration, or a sample. Durations end at the largest word. -/
def MetricUse.amount? : MetricUse → Option Nat
  | count n => some n.toNat
  | recordTime nanoseconds => some (min (nanoseconds / 1000) (UInt64.size - 1))
  | recordSample sample => some sample.toNat
  | _ => none

theorem toNat_timerSample (nanoseconds : Nat) :
    (timerSample nanoseconds).toNat = min (nanoseconds / 1000) (UInt64.size - 1) := by
  have hword : min (nanoseconds / 1000) (UInt64.size - 1) < UInt64.size := by
    have hlast : UInt64.size - 1 < UInt64.size := by decide
    exact Nat.lt_of_le_of_lt (Nat.min_le_right _ _) hlast
  exact UInt64.toNat_ofNat_of_lt hword

/-- The histogram has these samples. Their number and their sum are words; the largest one
is what it is. -/
structure Histogram.Keeps (h : Histogram) (samples : List Nat) : Prop where
  count : h.count.toNat = samples.length % UInt64.size
  sum : h.sum.toNat = total samples % UInt64.size
  max : h.max.toNat = largest samples

namespace Histogram.Keeps
variable {h : Histogram} {samples others : List Nat}

theorem empty : Histogram.empty.Keeps [] := ⟨rfl, rfl, rfl⟩

theorem record (keeps : h.Keeps samples) (sample : UInt64) :
    (h.record sample).Keeps (sample.toNat :: samples) where
  count := by
    rw [toNat_count_record, keeps.count, Nat.mod_add_mod]
    rfl
  sum := by rw [toNat_sum_record, keeps.sum, total_cons, Nat.mod_add_mod, Nat.add_comm]
  max := by rw [toNat_max_record, keeps.max, largest_cons]

theorem perm (keeps : h.Keeps samples) (perm : samples.Perm others) : h.Keeps others where
  count := perm.length_eq ▸ keeps.count
  sum := total_perm perm ▸ keeps.sum
  max := largest_perm perm ▸ keeps.max

end Histogram.Keeps

/-- The metric was told these amounts and has added them up. A gauge adds nothing up. -/
def Metric.Keeps : Metric → List Nat → Prop
  | counter value, amounts => value.toNat = total amounts % UInt64.size
  | timer micros, amounts => micros.Keeps amounts
  | histogram samples, amounts => samples.Keeps amounts
  | gauge _, _ => False

namespace Metric.Keeps
variable {m : Metric} {amounts others : List Nat}

theorem fresh {kind : MetricKind} (noGauge : kind ≠ .gauge) : (Metric.fresh kind).Keeps [] := by
  cases kind with
  | counter => rfl
  | gauge => exact absurd rfl noGauge
  | timer => exact Histogram.Keeps.empty
  | histogram => exact Histogram.Keeps.empty

theorem perm (keeps : m.Keeps amounts) (perm : amounts.Perm others) : m.Keeps others := by
  cases m with
  | counter value =>
      have hvalue : value.toNat = total amounts % UInt64.size := keeps
      rwa [total_perm perm] at hvalue
  | gauge value => exact keeps
  | timer micros => exact Histogram.Keeps.perm keeps perm
  | histogram samples => exact Histogram.Keeps.perm keeps perm

theorem apply (keeps : m.Keeps amounts) {u : MetricUse} (own : u.kind = m.kind) :
    (u.apply m).Keeps (u.amount?.toList ++ amounts) := by
  cases m with
  | counter value =>
      cases u with
      | look => exact keeps
      | count n =>
          have hvalue : value.toNat = total amounts % UInt64.size := keeps
          change (value + n).toNat = total (n.toNat :: amounts) % UInt64.size
          rw [total_cons, Nat.add_comm, ← Nat.mod_add_mod, ← hvalue]
          exact UInt64.toNat_add value n
      | _ => cases own
  | gauge value => exact keeps.elim
  | timer micros =>
      cases u with
      | look => exact keeps
      | recordTime nanoseconds =>
          have hrecord := Histogram.Keeps.record keeps (timerSample nanoseconds)
          rwa [toNat_timerSample] at hrecord
      | _ => cases own
  | histogram samples =>
      cases u with
      | look => exact keeps
      | recordSample sample => exact Histogram.Keeps.record keeps sample
      | _ => cases own

theorem foldl (us : List MetricUse) (keeps : m.Keeps amounts) (own : ∀ u ∈ us, u.kind = m.kind) :
    (us.foldl (fun m u => u.apply m) m).Keeps (us.filterMap MetricUse.amount? ++ amounts) := by
  induction us generalizing m amounts with
  | nil => exact keeps
  | cons u us ih =>
      have hu : u.kind = m.kind := own u List.mem_cons_self
      have hus (v : MetricUse) (hv : v ∈ us) : v.kind = (u.apply m).kind := by
        rw [MetricUse.kind_apply]
        exact own v (List.mem_cons_of_mem u hv)
      refine (ih (keeps.apply hu) hus).perm ?_
      -- The amount of the first use was added first.
      rw [List.filterMap_cons]
      cases u.amount? with
      | none => exact .refl _
      | some n => exact List.perm_middle

end Metric.Keeps

/-- What the uses of one name tell it. -/
def amounts (name : String) (ops : List (String × MetricUse)) : List Nat :=
  (usesOf name ops).filterMap MetricUse.amount?

namespace Registry
variable {ops : List (String × MetricUse)}

theorem find?_useAll_eq_none_iff (ops : List (String × MetricUse)) (name : String) :
    (useAll .empty ops).find? name = none ↔ ∀ op ∈ ops, op.1 ≠ name := by
  rw [← usesOf_eq_nil_iff, find?_useAll, Dict.find?_empty]
  cases usesOf name ops with
  | nil => exact iff_of_true rfl rfl
  | cons u us =>
      rw [MetricUse.foldl_onEntry_cons]
      exact iff_of_false (Option.some_ne_none _) (List.cons_ne_nil u us)

/-- A metric has added up what the uses of its name told it. -/
theorem keeps_of_find?_useAll (noGauge : ∀ op ∈ ops, op.2.kind ≠ .gauge)
    (oneKind : ∀ op ∈ ops, ∀ op' ∈ ops, op.1 = op'.1 → op.2.kind = op'.2.kind) {name : String}
    {m : Metric} (h : (useAll .empty ops).find? name = some m) :
    (∀ op ∈ ops, op.1 = name → op.2.kind = m.kind) ∧ m.Keeps (amounts name ops) := by
  have hmem (u : MetricUse) (hu : u ∈ usesOf name ops) : (name, u) ∈ ops := mem_usesOf.mp hu
  rw [find?_useAll, Dict.find?_empty] at h
  cases huses : usesOf name ops with
  | nil => rw [huses] at h; cases h
  | cons u us =>
      rw [huses] at h hmem
      rw [MetricUse.foldl_onEntry_cons] at h
      obtain rfl := Option.some.inj h
      have hfirst := hmem u List.mem_cons_self
      have own (v : MetricUse) (hv : v ∈ u :: us) : v.kind = (Metric.fresh u.kind).kind := by
        rw [Metric.kind_fresh]
        exact oneKind _ (hmem v hv) _ hfirst rfl
      constructor
      · intro op hop hname
        rw [MetricUse.kind_foldl, Metric.kind_fresh]
        exact oneKind op hop _ hfirst hname
      · have hkeeps := (Metric.Keeps.fresh (noGauge _ hfirst)).foldl (u :: us) own
        rw [amounts, huses]
        rwa [List.append_nil] at hkeeps

end Registry

namespace RegistryOp

/-- Each use is made through a handle that is fetched for it. -/
def calls (ops : List (String × MetricUse)) : List RegistryOp :=
  ops.flatMap fun op => [.fetch (op.2.through 0 op.1), .use 0 op.1 op.2]

end RegistryOp

namespace MetricStore
open RegistryOp

theorem Shows.calls {s : MetricStore} {a : Sheet} (shows : s.Shows a)
    (ops : List (String × MetricUse)) :
    ∃ b : Sheet, (s.run (calls ops)).Shows b ∧ b.registry = a.registry.useAll ops := by
  induction ops generalizing s a with
  | nil => exact ⟨a, shows, rfl⟩
  | cons op ops ih =>
      obtain ⟨-, b, hshows, hregistry⟩ := shows.fetch_use 0 op.1 op.2
      obtain ⟨c, hshows', hregistry'⟩ := ih hshows
      refine ⟨c, hshows', ?_⟩
      rw [hregistry', hregistry]
      rfl

theorem get_calls (ops : List (String × MetricUse)) :
    (empty.run (calls ops)).snapshot = (Registry.useAll .empty ops).snapshot ∧
      ∀ name, (empty.run (calls ops)).get name = (Registry.useAll .empty ops).find? name := by
  obtain ⟨a, shows, hregistry⟩ := Shows.empty.calls ops
  have hempty : a.registry = Registry.useAll .empty ops := hregistry
  rw [← hempty]
  exact ⟨shows.snapshot, shows.get⟩

/-- Counters, timers and histograms that are used in any order come to the same. Every name
that was used has one metric of the kind of its uses, which has added up, as words, what
they told it and has the largest of it. -/
theorem accumulates_in_any_order (ops : List (String × MetricUse))
    (noGauge : ∀ op ∈ ops, op.2.kind ≠ .gauge)
    (oneKind : ∀ op ∈ ops, ∀ op' ∈ ops, op.1 = op'.1 → op.2.kind = op'.2.kind) :
    let s := empty.run (calls ops)
    (∀ others, ops.Perm others →
      (empty.run (calls others)).snapshot = s.snapshot ∧
        ∀ name, (empty.run (calls others)).get name = s.get name) ∧
      s.snapshot = (Registry.useAll .empty ops).snapshot ∧
      (∀ name, s.get name = (Registry.useAll .empty ops).find? name) ∧
      (∀ name, s.get name = none ↔ ∀ op ∈ ops, op.1 ≠ name) ∧
      ∀ name m, s.get name = some m →
        (∀ op ∈ ops, op.1 = name → op.2.kind = m.kind) ∧ m.Keeps (amounts name ops) := by
  intro s
  obtain ⟨hsnapshot, hget⟩ := get_calls ops
  refine ⟨fun others perm => ?_, hsnapshot, hget, fun name => ?_, fun name m hm => ?_⟩
  · obtain ⟨hsnapshot', hget'⟩ := get_calls others
    rw [Registry.useAll_perm noGauge oneKind perm] at hsnapshot' hget'
    exact ⟨hsnapshot'.trans hsnapshot.symm, fun name => (hget' name).trans (hget name).symm⟩
  · rw [hget]
    exact Registry.find?_useAll_eq_none_iff ops name
  · rw [hget] at hm
    exact Registry.keeps_of_find?_useAll noGauge oneKind hm

/-- A counter wraps, and a duration is cut to the largest word. -/
def mixedUses : List (String × MetricUse) :=
  [("hits", .count 3), ("latency", .recordTime 2999), ("hits", .count 0xfffffffffffffffe),
    ("sizes", .recordSample 7), ("latency", .recordTime 1000000000000000000000000000000)]

theorem accumulates_mixedUses :
    let s := empty.run (calls mixedUses)
    let latency := Metric.timer ⟨2, 1, 0xffffffffffffffff⟩
    (empty.run (calls mixedUses.reverse)).snapshot = s.snapshot ∧
      s.get "hits" = some (.counter 1) ∧ s.get "latency" = some latency ∧
      latency.Keeps [2, 0xffffffffffffffff] ∧ s.get "other" = none := by
  intro s latency
  obtain ⟨order, -, -, unused, adds⟩ :=
    accumulates_in_any_order mixedUses (by decide) (by decide)
  have hlatency : s.get "latency" = some latency := by decide +kernel
  have hamounts : amounts "latency" mixedUses = [2, 0xffffffffffffffff] := by decide +kernel
  have hother : s.get "other" = none := (unused "other").mpr (by decide)
  exact ⟨(order _ (List.reverse_perm _).symm).1, by decide +kernel, hlatency,
    hamounts ▸ (adds "latency" latency hlatency).2, hother⟩

end MetricStore
end MetricsProxy
