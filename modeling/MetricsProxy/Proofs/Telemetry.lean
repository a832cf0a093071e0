import MetricsProxy.Telemetry.Registry
import MetricsProxy.Telemetry.Names

/-!
# Reading metrics after they are used

A use touches its own name only. A counter that nobody else claims adds up what
it is told, as a word.
-/
namespace MetricsProxy

/-! ## Samples -/

namespace Histogram

theorem toNat_count_record (h : Histogram) (sample : UInt64) :
    (h.record sample).count.toNat = (h.count.toNat + 1) % UInt64.size := UInt64.toNat_add _ _

theorem toNat_sum_record (h : Histogram) (sample : UInt64) :
    (h.record sample).sum.toNat = (h.sum.toNat + sample.toNat) % UInt64.size :=
  UInt64.toNat_add _ _

theorem toNat_max_record (h : Histogram) (sample : UInt64) :
    (h.record sample).max.toNat = Max.max sample.toNat h.max.toNat := by
  rw [record]
  dsimp only
  split
  · rename_i less
    rw [UInt64.lt_iff_toNat_lt] at less
    rw [Nat.max_eq_left (Nat.le_of_lt less)]
  · rename_i more
    rw [UInt64.lt_iff_toNat_lt] at more
    rw [Nat.max_eq_right (Nat.le_of_not_lt more)]

end Histogram

/-! ## Names -/

namespace Registry

theorem find?_apply_of_ne (r : Registry) {name other : String} (u : MetricUse)
    (h : other ≠ name) : (r.apply name u).find? other = r.find? other := by
  unfold apply use
  dsimp only
  split
  · rw [Dict.find?_insert, if_neg h]
  · rfl

/-- A registry that answers like another one for all names but these. -/
def SameBut (names : List String) (r r' : Registry) : Prop :=
  ∀ name, name ∉ names → r'.find? name = r.find? name

theorem SameBut.refl (names : List String) (r : Registry) : SameBut names r r := fun _ _ => rfl

theorem SameBut.apply {names : List String} {r r' : Registry} (h : SameBut names r r')
    {name : String} (hn : name ∈ names) (u : MetricUse) :
    SameBut names r (r'.apply name u) := by
  intro other ho
  have hne : other ≠ name := fun e => ho (e.symm ▸ hn)
  rw [find?_apply_of_ne r' u hne]
  exact h other ho

theorem SameBut.trans {names : List String} {r r' r'' : Registry} (h : SameBut names r r')
    (h' : SameBut names r' r'') : SameBut names r r'' :=
  fun name hn => (h' name hn).trans (h name hn)

theorem counter_congr {r r' : Registry} {name : String} (h : r'.find? name = r.find? name) :
    r'.counter name = r.counter name := by
  unfold counter handle
  rw [h]

theorem admits_congr {r r' : Registry} {name : String} {k : MetricKind}
    (h : r'.find? name = r.find? name) : r'.admits name k = r.admits name k := by
  unfold admits
  rw [h]

theorem admits_apply (r : Registry) (name other : String) (u : MetricUse) (k : MetricKind)
    (h : r.admits other k = true) (hu : other = name → u.kind = k) :
    (r.apply name u).admits other k = true := by
  by_cases hn : other = name
  · subst hn
    unfold apply use
    dsimp only
    split
    · have hk : (u.apply (r.handle other u.kind)).kind = k := by
        rw [MetricUse.kind_apply, kind_handle, hu rfl]
      simp [admits, Dict.find?_insert, hk]
    · exact h
  · rwa [admits_congr (find?_apply_of_ne r u hn)]

theorem counter_apply_look (r : Registry) (name : String) (k : MetricKind)
    (h : r.admits name k = true) : (r.apply name (.look k)).counter name = r.counter name := by
  unfold apply use counter
  simp only [MetricUse.kind, h, if_true, handle, Dict.find?_insert, MetricUse.apply]
  unfold admits at h
  cases hf : r.find? name with
  | none => cases k <;> rfl
  | some m =>
      rw [hf] at h
      have hk : m.kind = k := eq_of_beq h
      simp [hk]

theorem counter_apply_of_ne (r : Registry) {name other : String} (u : MetricUse)
    (h : other ≠ name) : (r.apply name u).counter other = r.counter other :=
  counter_congr (find?_apply_of_ne r u h)

theorem counter_lt_size (r : Registry) (name : String) : r.counter name < UInt64.size := by
  unfold counter
  split
  · exact UInt64.toNat_lt_size _
  · decide

theorem counter_apply_count (r : Registry) (name : String) (n : UInt64)
    (h : r.admits name .counter = true) :
    (r.apply name (.count n)).counter name = (r.counter name + n.toNat) % UInt64.size := by
  have hh := kind_handle r name .counter
  unfold apply use counter
  simp only [MetricUse.kind, h, if_true]
  cases hm : r.handle name .counter with
  | counter total =>
      simp [handle, Dict.find?_insert, MetricUse.apply, Metric.kind, UInt64.toNat_add]
  | _ => simp [hm, Metric.kind] at hh

theorem gauge_congr {r r' : Registry} {name : String} (h : r'.find? name = r.find? name) :
    r'.gauge name = r.gauge name := by
  unfold gauge handle
  rw [h]

theorem gauge_apply_look (r : Registry) (name : String) (h : r.admits name .gauge = true) :
    (r.apply name (.look .gauge)).gauge name = r.gauge name := by
  unfold apply use gauge
  simp only [MetricUse.kind, h, if_true, handle, Dict.find?_insert, MetricUse.apply]
  unfold admits at h
  cases hf : r.find? name with
  | none => rfl
  | some m =>
      rw [hf] at h
      have hk : m.kind = .gauge := eq_of_beq h
      simp [hk]

theorem gauge_apply_addGauge (r : Registry) (name : String) (delta : Binary64)
    (h : r.admits name .gauge = true) :
    (r.apply name (.addGauge delta)).gauge name = (r.gauge name).add delta := by
  have hh := kind_handle r name .gauge
  unfold apply use gauge
  simp only [MetricUse.kind, h, if_true]
  cases hm : r.handle name .gauge with
  | gauge value => simp [handle, Dict.find?_insert, MetricUse.apply, Metric.kind]
  | _ => simp [hm, Metric.kind] at hh

def lineCounters : List String :=
  [MetricName.pointsReceived, MetricName.pointsDropped, MetricName.pointsDecodeErrors]

/-- Points received, points dropped and lines that were errors, as three counters have them. -/
structure Counts (r : Registry) (received dropped errors : Nat) : Prop where
  admits : ∀ name ∈ lineCounters, r.admits name .counter = true
  received : r.counter MetricName.pointsReceived = received % UInt64.size
  dropped : r.counter MetricName.pointsDropped = dropped % UInt64.size
  errors : r.counter MetricName.pointsDecodeErrors = errors % UInt64.size

/-- Whatever the first registry has counted, the second one has. -/
def SameCounts (r r' : Registry) : Prop := ∀ a b e, r.Counts a b e → r'.Counts a b e

namespace SameCounts
variable {r r' r'' : Registry}

theorem refl (r : Registry) : r.SameCounts r := fun _ _ _ h => h

theorem trans (h : r.SameCounts r') (h' : r'.SameCounts r'') : r.SameCounts r'' :=
  fun a b e hc => h' a b e (h a b e hc)

end SameCounts

theorem Counts.congr {r r' : Registry} {a b e : Nat} (h : r.Counts a b e)
    (admits : ∀ name ∈ lineCounters, r'.admits name .counter = true)
    (same : ∀ name ∈ lineCounters, r'.counter name = r.counter name) : r'.Counts a b e where
  admits := admits
  received := (same _ (by decide)).trans h.received
  dropped := (same _ (by decide)).trans h.dropped
  errors := (same _ (by decide)).trans h.errors

theorem SameBut.sameCounts {names : List String} {r r' : Registry} (h : SameBut names r r')
    (apart : ∀ name ∈ lineCounters, name ∉ names) : r.SameCounts r' := by
  intro a b e hc
  refine hc.congr (fun name hn => ?_) fun name hn => counter_congr (h name (apart name hn))
  rw [admits_congr (h name (apart name hn))]
  exact hc.admits name hn

theorem sameCounts_apply (r : Registry) (name : String) (u : MetricUse)
    (apart : name ∉ lineCounters) : r.SameCounts (r.apply name u) :=
  ((SameBut.refl [name] r).apply (List.mem_singleton_self name) u).sameCounts
    fun _ ho h => apart (List.mem_singleton.mp h ▸ ho)

theorem sameCounts_look (r : Registry) (name : String) :
    r.SameCounts (r.apply name (.look .counter)) := by
  intro a b e hc
  refine hc.congr (fun other ho => ?_) fun other ho => ?_
  · exact admits_apply r name other (.look .counter) _ (hc.admits other ho) fun _ => rfl
  · by_cases hn : other = name
    · subst hn
      exact counter_apply_look r other .counter (hc.admits other ho)
    · exact counter_apply_of_ne r _ hn

namespace Counts
variable {r : Registry} {a b e : Nat}

theorem empty : Counts .empty 0 0 0 := ⟨fun _ _ => rfl, rfl, rfl, rfl⟩

theorem admits_count (h : r.Counts a b e) (name : String) (n : UInt64) :
    ∀ other ∈ lineCounters, (r.apply name (.count n)).admits other .counter = true :=
  fun other ho => admits_apply r name other (.count n) _ (h.admits other ho) fun _ => rfl

theorem count_received (h : r.Counts a b e) :
    (r.apply MetricName.pointsReceived (.count 1)).Counts (a + 1) b e := by
  refine ⟨h.admits_count _ _, ?_, (counter_apply_of_ne r _ (by decide)).trans h.dropped,
    (counter_apply_of_ne r _ (by decide)).trans h.errors⟩
  rw [counter_apply_count r _ 1 (h.admits _ (by decide)), h.received, Nat.mod_add_mod]
  rfl

theorem count_dropped (h : r.Counts a b e) (n : Nat) :
    (r.apply MetricName.pointsDropped (.count (UInt64.ofNat n))).Counts a (b + n) e := by
  refine ⟨h.admits_count _ _, (counter_apply_of_ne r _ (by decide)).trans h.received, ?_,
    (counter_apply_of_ne r _ (by decide)).trans h.errors⟩
  rw [counter_apply_count r _ _ (h.admits _ (by decide)), h.dropped,
    UInt64.toNat_ofNat', ← Nat.add_mod]

theorem count_error (h : r.Counts a b e) :
    (r.apply MetricName.pointsDecodeErrors (.count 1)).Counts a b (e + 1) := by
  refine ⟨h.admits_count _ _, (counter_apply_of_ne r _ (by decide)).trans h.received,
    (counter_apply_of_ne r _ (by decide)).trans h.dropped, ?_⟩
  rw [counter_apply_count r _ 1 (h.admits _ (by decide)), h.errors, Nat.mod_add_mod]
  rfl

end Counts

/-! ## The slots of connections -/

/-- The metrics of the connections that are served and of those that are not. -/
def slotMetrics : List String := [MetricName.connectionsActive, MetricName.connectionsRejected]

/-- The gauge of the connections that are served says `value`. -/
structure Slots (r : Registry) (value : Binary64) : Prop where
  active : r.admits MetricName.connectionsActive .gauge = true
  rejected : r.admits MetricName.connectionsRejected .counter = true
  value : r.gauge MetricName.connectionsActive = value

/-- Whatever the gauge says in the first registry, it says in the second one. -/
def SameSlots (r r' : Registry) : Prop := ∀ value, r.Slots value → r'.Slots value

namespace SameSlots
variable {r r' r'' : Registry}

theorem refl (r : Registry) : r.SameSlots r := fun _ h => h

theorem trans (h : r.SameSlots r') (h' : r'.SameSlots r'') : r.SameSlots r'' :=
  fun value hs => h' value (h value hs)

end SameSlots

theorem SameBut.sameSlots {names : List String} {r r' : Registry} (h : SameBut names r r')
    (apart : ∀ name ∈ slotMetrics, name ∉ names) : r.SameSlots r' := by
  have hactive := h _ (apart MetricName.connectionsActive (by decide))
  have hrejected := h _ (apart MetricName.connectionsRejected (by decide))
  exact fun _ hs => ⟨(admits_congr hactive).trans hs.active,
    (admits_congr hrejected).trans hs.rejected, (gauge_congr hactive).trans hs.value⟩

theorem sameSlots_apply (r : Registry) (name : String) (u : MetricUse)
    (apart : name ∉ slotMetrics) : r.SameSlots (r.apply name u) :=
  ((SameBut.refl [name] r).apply (List.mem_singleton_self name) u).sameSlots
    fun _ ho h => apart (List.mem_singleton.mp h ▸ ho)

/-- The counter of the connections that are not served does not touch the gauge. -/
theorem sameSlots_rejected (r : Registry) {u : MetricUse} (hu : u.kind = .counter) :
    r.SameSlots (r.apply MetricName.connectionsRejected u) := fun _ hs =>
  have hactive : (r.apply MetricName.connectionsRejected u).find? MetricName.connectionsActive =
      r.find? MetricName.connectionsActive := find?_apply_of_ne r u (by decide)
  ⟨(admits_congr hactive).trans hs.active,
    admits_apply r _ _ u _ hs.rejected fun _ => hu, (gauge_congr hactive).trans hs.value⟩

namespace Slots
variable {r : Registry} {value : Binary64}

theorem empty : Slots .empty .zero := ⟨rfl, rfl, rfl⟩

/-- A use of the gauge leaves both metrics what they are. -/
theorem apply_active (h : r.Slots value) {u : MetricUse} (hu : u.kind = .gauge) {value' : Binary64}
    (becomes : (r.apply MetricName.connectionsActive u).gauge MetricName.connectionsActive =
      value') : (r.apply MetricName.connectionsActive u).Slots value' where
  active := admits_apply r _ _ u _ h.active fun _ => hu
  rejected := (admits_congr (find?_apply_of_ne r u (by decide))).trans h.rejected
  value := becomes

theorem add (h : r.Slots value) (delta : Binary64) :
    (r.apply MetricName.connectionsActive (.addGauge delta)).Slots (value.add delta) :=
  h.apply_active rfl (by rw [gauge_apply_addGauge r _ delta h.active, h.value])

end Slots

theorem sameSlots_look (r : Registry) :
    r.SameSlots (r.apply MetricName.connectionsActive (.look .gauge)) := fun _ hs =>
  hs.apply_active rfl ((gauge_apply_look r _ hs.active).trans hs.value)

/-- A number that goes down by one, `n` times. -/
def lowered (value : Binary64) : Nat → Binary64
  | 0 => value
  | n + 1 => (lowered value n).add (Binary64.ofNat 1).neg

theorem lowered_add (value : Binary64) (m n : Nat) :
    lowered (lowered value m) n = lowered value (m + n) := by
  induction n with
  | zero => rfl
  | succ n ih => rw [lowered, ih, ← Nat.add_assoc, lowered]

/-- The gauge goes down by one for each of `n` connections that are no longer served. -/
def release (r : Registry) : Nat → Registry
  | 0 => r
  | n + 1 => (r.release n).apply MetricName.connectionsActive (.addGauge (Binary64.ofNat 1).neg)

theorem release_add (r : Registry) (m n : Nat) :
    (r.release m).release n = r.release (m + n) := by
  induction n with
  | zero => rfl
  | succ n ih => rw [release, ih, ← Nat.add_assoc, release]

theorem Slots.release {r : Registry} {value : Binary64} (h : r.Slots value) (n : Nat) :
    (r.release n).Slots (lowered value n) := by
  induction n with
  | zero => exact h
  | succ n ih => exact ih.add _

theorem sameCounts_release (r : Registry) (n : Nat) : r.SameCounts (r.release n) := by
  induction n with
  | zero => exact .refl r
  | succ n ih => exact ih.trans (sameCounts_apply _ _ _ (by decide))

/-! ## Metrics that nobody else claims -/

/-- Under this name the registry has this metric, or would make it. -/
structure Holds (r : Registry) (name : String) (m : Metric) : Prop where
  admits : r.admits name m.kind = true
  handle : r.handle name m.kind = m

theorem holds_empty (name : String) (k : MetricKind) : Holds .empty name (.fresh k) :=
  ⟨rfl, by rw [Metric.kind_fresh]; rfl⟩

namespace Holds
variable {r : Registry} {name other : String} {m : Metric}

theorem gauge_eq {value : Binary64} (h : r.Holds name (.gauge value)) : r.gauge name = value := by
  rw [gauge, show MetricKind.gauge = (Metric.gauge value).kind from rfl, h.handle]

theorem timer_eq {micros : Histogram} (h : r.Holds name (.timer micros)) :
    r.timer name = micros := by
  rw [timer, show MetricKind.timer = (Metric.timer micros).kind from rfl, h.handle]

theorem histogram_eq {samples : Histogram} (h : r.Holds name (.histogram samples)) :
    r.histogram name = samples := by
  rw [histogram, show MetricKind.histogram = (Metric.histogram samples).kind from rfl, h.handle]

theorem congr {r' : Registry} (h : r.Holds name m) (same : r'.find? name = r.find? name) :
    r'.Holds name m where
  admits := (admits_congr same).trans h.admits
  handle := by
    have hhandle := h.handle
    unfold Registry.handle at hhandle ⊢
    rw [same, hhandle]

theorem apply_of_ne (h : r.Holds name m) (u : MetricUse) (hne : name ≠ other) :
    (r.apply other u).Holds name m := h.congr (find?_apply_of_ne r u hne)

theorem apply (h : r.Holds name m) {u : MetricUse} (hu : u.kind = m.kind) :
    (r.apply name u).Holds name (u.apply m) where
  admits := by
    rw [MetricUse.kind_apply]
    exact admits_apply r name name u _ h.admits fun _ => hu
  handle := by
    rw [MetricUse.kind_apply]
    unfold Registry.apply use
    simp only [hu, h.admits, h.handle, if_true]
    simp [Registry.handle, Dict.find?_insert]

end Holds
end Registry
end MetricsProxy
