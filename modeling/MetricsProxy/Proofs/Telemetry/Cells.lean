import MetricsProxy.Proofs.Telemetry.ByValue

/-!
# Cells and what they show

Names lead to metrics of their own, and a handle points either to the metric of its name
or to one that no name leads to (`MetricStore.Points`). So the cells show what the registry
by value would, as long as it is known who has fetched what (`MetricStore.Shows`), and each
operation keeps that (`MetricStore.Shows.step`).
-/
namespace MetricsProxy

theorem lookup_cons_eq {α β : Type} [DecidableEq α] (key other : α) (value : β)
    (es : List (α × β)) :
    ((key, value) :: es).lookup other = if other = key then some value else es.lookup other := by
  rw [List.lookup_cons]
  by_cases h : other = key
  · rw [if_pos h, beq_iff_eq.mpr h]
  · rw [if_neg h, beq_eq_false_iff_ne.mpr h]

theorem lookup_iff_mem {α β : Type} [DecidableEq α] {es : List (α × β)}
    (distinct : es.Pairwise fun e e' => e.1 ≠ e'.1) {key : α} {value : β} :
    es.lookup key = some value ↔ (key, value) ∈ es := by
  induction es with
  | nil => simp
  | cons e es ih =>
      obtain ⟨first, stored⟩ := e
      obtain ⟨hfirst, hrest⟩ := List.pairwise_cons.mp distinct
      rw [lookup_cons_eq, List.mem_cons, Prod.mk.injEq, ← ih hrest]
      by_cases heq : key = first
      · have habsent : es.lookup key ≠ some value := fun hlookup =>
          hfirst _ ((ih hrest).mp hlookup) heq.symm
        simp [heq, heq ▸ habsent, eq_comm]
      · simp [heq]

namespace MetricStore
variable {s : MetricStore} {h : Handle} {name : String} {cell : Nat}

def kindAt? (s : MetricStore) (cell : Nat) : Option MetricKind := s.cells[cell]?.map Metric.kind

/-- A handle points to a metric of its kind: that of its name, or one of its own if the
name has another kind. -/
structure Points (s : MetricStore) (h : Handle) (cell : Nat) : Prop where
  kind : s.kindAt? cell = some h.kind
  place : s.cell? h.name = some cell ∨
    (∀ name, s.cell? name ≠ some cell) ∧ ∃ own, s.cell? h.name = some own ∧
      s.kindAt? own ≠ some h.kind

/-- Names are listed once, lead to metrics of their own, and handles point to metrics. -/
structure Sound (s : MetricStore) : Prop where
  once : s.names.Pairwise fun e e' => e.1 ≠ e'.1
  apart : ∀ name name' cell, s.cell? name = some cell → s.cell? name' = some cell → name = name'
  leads : ∀ name cell, s.cell? name = some cell → cell < s.cells.length
  points : ∀ h cell, s.target? h = some cell → s.Points h cell

theorem sound_empty : empty.Sound := ⟨.nil, nofun, nofun, nofun⟩

theorem cell?_register (s : MetricStore) (name other : String) (cell : Nat) :
    (s.register name cell).cell? other = if other = name then some cell else s.cell? other :=
  lookup_cons_eq name other cell s.names

theorem target?_give (s : MetricStore) (h other : Handle) (cell : Nat) :
    (s.give h cell).target? other = if other = h then some cell else s.target? other :=
  lookup_cons_eq h other cell s.handles

theorem lt_of_kindAt? {kind : MetricKind} (h : s.kindAt? cell = some kind) :
    cell < s.cells.length := by
  obtain ⟨m, hm, -⟩ := Option.map_eq_some_iff.mp h
  exact (List.getElem?_eq_some_iff.mp hm).1

theorem kindAt?_make_of_some {kind : MetricKind} (h : s.kindAt? cell = some kind)
    (k : MetricKind) : (s.make k).kindAt? cell = some kind := by
  rw [kindAt?, make, List.getElem?_append_left (lt_of_kindAt? h)]
  exact h

theorem kindAt?_of_getElem? {m : Metric} (h : s.cells[cell]? = some m) :
    s.kindAt? cell = some m.kind := by
  rw [kindAt?, h, Option.map_some]

theorem kindAt?_make_self (s : MetricStore) (k : MetricKind) :
    (s.make k).kindAt? s.cells.length = some k := by
  simp [kindAt?, make]

namespace Sound

theorem exists_metric (sound : s.Sound) (hcell : s.cell? name = some cell) :
    ∃ m, s.cells[cell]? = some m :=
  ⟨_, List.getElem?_eq_getElem (sound.leads name cell hcell)⟩

theorem give (sound : s.Sound) (points : s.Points h cell) : (s.give h cell).Sound where
  once := sound.once
  apart := sound.apart
  leads := sound.leads
  points h' cell' htarget := by
    rw [target?_give] at htarget
    split at htarget
    · rename_i heq
      obtain rfl := Option.some.inj htarget
      subst heq
      exact ⟨points.kind, points.place⟩
    · exact ⟨(sound.points h' cell' htarget).kind, (sound.points h' cell' htarget).place⟩

theorem make (sound : s.Sound) (k : MetricKind) : (s.make k).Sound where
  once := sound.once
  apart := sound.apart
  leads name cell hcell := by
    have hlt := sound.leads name cell hcell
    rw [MetricStore.make, List.length_append]
    omega
  points h cell htarget := by
    obtain ⟨hkind, hplace⟩ := sound.points h cell htarget
    refine ⟨kindAt?_make_of_some hkind k, hplace.imp_right ?_⟩
    rintro ⟨hfree, own, hown, hother⟩
    obtain ⟨m, hm⟩ := sound.exists_metric hown
    have hk := kindAt?_of_getElem? hm
    refine ⟨hfree, own, hown, ?_⟩
    rw [kindAt?_make_of_some hk k, ← hk]
    exact hother

theorem register (sound : s.Sound) (vacant : s.cell? name = none) (inside : cell < s.cells.length)
    (free : ∀ other, s.cell? other ≠ some cell) (unheld : ∀ h, s.target? h ≠ some cell) :
    (s.register name cell).Sound where
  once := by
    refine List.pairwise_cons.mpr ⟨fun e he heq => ?_, sound.once⟩
    have hne := List.lookup_eq_none_iff.mp vacant e he
    exact absurd heq (bne_iff_ne.mp hne)
  apart other other' c hc hc' := by
    rw [cell?_register] at hc hc'
    split at hc <;> split at hc'
    · rename_i heq heq'; exact heq.trans heq'.symm
    · exact absurd (hc'.trans hc.symm) (Option.some.inj hc ▸ free other')
    · exact absurd (hc.trans hc'.symm) (Option.some.inj hc' ▸ free other)
    · exact sound.apart other other' c hc hc'
  leads other c hc := by
    rw [cell?_register] at hc
    split at hc
    · exact Option.some.inj hc ▸ inside
    · exact sound.leads other c hc
  points h c htarget := by
    obtain ⟨hkind, hplace⟩ := sound.points h c htarget
    have hsame {own : Nat} (hown : s.cell? h.name = some own) :
        (s.register name cell).cell? h.name = some own := by
      rw [cell?_register, if_neg, hown]
      intro heq
      rw [heq, vacant] at hown
      cases hown
    refine ⟨hkind, hplace.imp hsame ?_⟩
    rintro ⟨hfree, own, hown, hother⟩
    refine ⟨fun other hc => ?_, own, hsame hown, hother⟩
    rw [cell?_register] at hc
    split at hc
    · exact unheld h (htarget.trans hc.symm)
    · exact hfree other hc

end Sound

theorem registered?_eq_some {m : Metric} :
    s.registered? name = some (cell, m) ↔ s.cell? name = some cell ∧ s.cells[cell]? = some m := by
  simp only [registered?, Option.bind_eq_some_iff, Option.map_eq_some_iff, Prod.mk.injEq]
  constructor
  · rintro ⟨c, hc, m', hm, rfl, rfl⟩
    exact ⟨hc, hm⟩
  · rintro ⟨hc, hm⟩
    exact ⟨cell, hc, m, hm, rfl, rfl⟩

theorem get_eq (s : MetricStore) (name : String) :
    s.get name = (s.cell? name).bind (s.cells[·]?) := by
  rw [get, registered?]
  cases s.cell? name with
  | none => rfl
  | some cell => simp [Option.map_map, Function.comp_def]

namespace Sound

theorem cell?_of_registered?_eq_none (sound : s.Sound) (h : s.registered? name = none) :
    s.cell? name = none := by
  cases hcell : s.cell? name with
  | none => rfl
  | some cell =>
      obtain ⟨m, hm⟩ := sound.exists_metric hcell
      rw [registered?_eq_some.mpr ⟨hcell, hm⟩] at h
      cases h

theorem get_make (sound : s.Sound) (k : MetricKind) (name : String) :
    (s.make k).get name = s.get name := by
  rw [get_eq, get_eq]
  change (s.cell? name).bind _ = _
  cases hcell : s.cell? name with
  | none => rfl
  | some cell => exact List.getElem?_append_left (sound.leads name cell hcell)

theorem fetch (sound : s.Sound) (h : Handle) :
    (s.fetch h.name h.kind).store.Sound ∧
      (s.fetch h.name h.kind).store.Points h (s.fetch h.name h.kind).cell := by
  have free (name : String) : s.cell? name ≠ some s.cells.length := fun hcell =>
    Nat.lt_irrefl _ (sound.leads name _ hcell)
  have unheld (h' : Handle) : s.target? h' ≠ some s.cells.length := fun htarget =>
    Nat.lt_irrefl _ (lt_of_kindAt? (sound.points h' _ htarget).kind)
  unfold MetricStore.fetch
  split
  · rename_i cell m hentry
    obtain ⟨hcell, hm⟩ := registered?_eq_some.mp hentry
    have hkindAt := kindAt?_of_getElem? hm
    split
    · rename_i hkind
      exact ⟨sound, hkindAt.trans (congrArg some hkind), .inl hcell⟩
    · rename_i hkind
      refine ⟨sound.make h.kind, kindAt?_make_self s h.kind, .inr ⟨free, cell, hcell, ?_⟩⟩
      rw [kindAt?_make_of_some hkindAt]
      exact fun heq => hkind (Option.some.inj heq)
  · rename_i hentry
    have vacant := sound.cell?_of_registered?_eq_none hentry
    have inside : s.cells.length < (s.make h.kind).cells.length := by
      rw [MetricStore.make, List.length_append]
      exact Nat.lt_succ_self _
    refine ⟨(sound.make h.kind).register vacant inside free unheld, kindAt?_make_self s h.kind,
      .inl ?_⟩
    rw [cell?_register, if_pos rfl]

theorem get_fetch (sound : s.Sound) (name : String) (kind : MetricKind) (other : String) :
    (s.fetch name kind).store.get other =
      if other = name then some ((s.get name).getD (.fresh kind)) else s.get other := by
  unfold MetricStore.fetch
  split
  · rename_i cell m hentry
    have hget : s.get name = some m := by rw [get, hentry, Option.map_some]
    have hsame : s.get other = if other = name then some ((s.get name).getD (.fresh kind))
        else s.get other := by
      split
      · rename_i heq
        rw [heq, hget, Option.getD_some]
      · rfl
    split
    · exact hsame
    · exact (sound.get_make kind other).trans hsame
  · rename_i hentry
    have hget : s.get name = none := by rw [get, hentry, Option.map_none]
    rw [get_eq, cell?_register]
    split
    · rw [hget, Option.getD_none, Option.bind_some]
      exact List.getElem?_concat_length
    · exact (get_eq (s.make kind) other).symm.trans (sound.get_make kind other)

end Sound

theorem handles_fetch (s : MetricStore) (name : String) (kind : MetricKind) :
    (s.fetch name kind).store.handles = s.handles := by
  unfold fetch
  split
  · split <;> rfl
  · rfl

theorem warning_fetch {kind : MetricKind} (agrees : ∀ m, s.get name = some m → m.kind = kind) :
    (s.fetch name kind).warning = none := by
  unfold fetch
  split
  · rename_i cell m hentry
    rw [if_pos (agrees m (by rw [get, hentry, Option.map_some]))]
  · rfl

/-! ## Uses -/

theorem kindAt?_alter (s : MetricStore) (cell : Nat) (u : MetricUse) (other : Nat) :
    (s.alter cell u).kindAt? other = s.kindAt? other := by
  rw [kindAt?, alter, List.getElem?_modify, kindAt?]
  cases s.cells[other]? with
  | none => rfl
  | some m => simp only [Option.map_eq_map, Option.map_some]; split <;> simp

theorem Sound.alter (sound : s.Sound) (cell : Nat) (u : MetricUse) : (s.alter cell u).Sound where
  once := sound.once
  apart := sound.apart
  leads name c hc := by
    rw [MetricStore.alter, List.length_modify]
    exact sound.leads name c hc
  points h c htarget := by
    obtain ⟨hkind, hplace⟩ := sound.points h c htarget
    refine ⟨(kindAt?_alter s cell u c).trans hkind, hplace.imp_right ?_⟩
    rintro ⟨hfree, own, hown, hother⟩
    exact ⟨hfree, own, hown, (kindAt?_alter s cell u own).symm ▸ hother⟩

theorem get_alter (s : MetricStore) (cell : Nat) (u : MetricUse) (name : String) :
    (s.alter cell u).get name =
      if s.cell? name = some cell then (s.get name).map u.apply else s.get name := by
  rw [get_eq, get_eq]
  change (s.cell? name).bind _ = _
  cases s.cell? name with
  | none => rfl
  | some c =>
      simp only [alter, Option.bind_some, List.getElem?_modify, Option.some.injEq]
      by_cases hc : cell = c
      · simp [hc]
      · simp [hc, Ne.symm hc]

/-! ## What the cells show -/

/-- Names have the metrics of the registry by value, and the handles are those fetched. -/
structure Shows (s : MetricStore) (a : Sheet) : Prop where
  sound : s.Sound
  get : ∀ name, s.get name = a.registry.find? name
  held : ∀ h, (s.target? h).isSome = true ↔ h ∈ a.fetched

namespace Shows
variable {a : Sheet}

theorem empty : MetricStore.empty.Shows .empty := ⟨sound_empty, fun _ => rfl, fun _ => by
  simp [MetricStore.empty, target?, Sheet.empty]⟩

theorem fetch (shows : s.Shows a) (h : Handle) : (s.step (.fetch h)).1.Shows (a.fetch h) where
  sound := (shows.sound.fetch h).1.give (shows.sound.fetch h).2
  get name := by
    refine (shows.sound.get_fetch h.name h.kind name).trans ?_
    rw [Sheet.fetch, shows.get, shows.get]
    split
    · rename_i heq
      rw [heq]
      cases hfind : a.registry.find? h.name with
      | none => exact (Registry.find?_apply_of_none hfind (.look h.kind)).symm
      | some m => exact (Registry.find?_apply_of_some hfind (.look h.kind)).symm
    · rename_i hne
      exact (Registry.find?_apply_of_ne _ _ hne).symm
  held h' := by
    have htarget : (s.fetch h.name h.kind).store.target? h' = s.target? h' := by
      rw [target?, handles_fetch, target?]
    rw [MetricStore.step, target?_give, htarget, Sheet.fetch, List.mem_cons, ← shows.held]
    by_cases heq : h' = h
    · simp [heq]
    · simp [heq]

theorem find?_of_cell? (shows : s.Shows a) (hcell : s.cell? name = some cell) :
    ∃ m, a.registry.find? name = some m ∧ s.cells[cell]? = some m := by
  obtain ⟨m, hm⟩ := shows.sound.exists_metric hcell
  refine ⟨m, ?_, hm⟩
  rw [← shows.get, get_eq, hcell, Option.bind_some, hm]

/-- A handle shares the registered metric if that has its kind, and else points to a cell
that no name leads to. -/
theorem place (shows : s.Shows a) (htarget : s.target? h = some cell) :
    ∃ m, a.registry.find? h.name = some m ∧
      ((s.cell? h.name = some cell ∧ s.cells[cell]? = some m ∧ m.kind = h.kind) ∨
        ((∀ name, s.cell? name ≠ some cell) ∧ m.kind ≠ h.kind)) := by
  obtain ⟨hkind, hplace⟩ := shows.sound.points h cell htarget
  obtain hcell | ⟨hfree, own, hown, hother⟩ := hplace
  · obtain ⟨m, hfind, hm⟩ := shows.find?_of_cell? hcell
    rw [kindAt?_of_getElem? hm] at hkind
    exact ⟨m, hfind, .inl ⟨hcell, hm, Option.some.inj hkind⟩⟩
  · obtain ⟨m, hfind, hm⟩ := shows.find?_of_cell? hown
    rw [kindAt?_of_getElem? hm] at hother
    exact ⟨m, hfind, .inr ⟨hfree, fun heq => hother (congrArg some heq)⟩⟩

end Shows

theorem step_use_of_target {slot : Nat} {u : MetricUse}
    (htarget : s.target? (u.through slot name) = some cell) :
    s.step (.use slot name u) = (s.alter cell u, .used (s.alter cell u).cells[cell]?) := by
  simp only [step, use, htarget]

theorem step_use_of_none {slot : Nat} {u : MetricUse}
    (htarget : s.target? (u.through slot name) = none) :
    s.step (.use slot name u) = (s, .used none) := by
  simp only [step, use, htarget]

namespace Shows
variable {a : Sheet}

theorem not_mem_of_target (shows : s.Shows a) (htarget : s.target? h = none) : h ∉ a.fetched := by
  rw [← shows.held, htarget]
  exact Bool.false_ne_true

theorem mem_of_target (shows : s.Shows a) (htarget : s.target? h = some cell) :
    h ∈ a.fetched := by
  rw [← shows.held, htarget]
  rfl

/-- A fetch gives the metric that the registry by value would give. -/
theorem cells_fetch (shows : s.Shows a) (name : String) (kind : MetricKind) :
    (s.fetch name kind).store.cells[(s.fetch name kind).cell]? =
      some (a.registry.handle name kind) := by
  have hget := shows.get name
  unfold MetricStore.fetch Registry.handle
  rw [← hget, MetricStore.get]
  cases hentry : s.registered? name with
  | none => exact List.getElem?_concat_length
  | some e =>
      obtain ⟨cell, m⟩ := e
      simp only [Option.map_some]
      split
      · exact (registered?_eq_some.mp hentry).2
      · exact List.getElem?_concat_length

/-- A use through a handle of the registered kind does what it does to the registered
metric. The registry never sees any other use. -/
theorem use (shows : s.Shows a) (slot : Nat) (name : String) (u : MetricUse) :
    (s.step (.use slot name u)).1.Shows (a.step (.use slot name u)) := by
  cases htarget : s.target? (u.through slot name) with
  | none =>
      rw [step_use_of_none htarget, Sheet.step_use_of_not_mem (shows.not_mem_of_target htarget)]
      exact shows
  | some cell =>
      rw [step_use_of_target htarget, Sheet.step_use_of_mem (shows.mem_of_target htarget)]
      refine ⟨shows.sound.alter cell u, fun other => ?_, shows.held⟩
      obtain ⟨m, hfind, hplace⟩ := shows.place htarget
      rw [MetricUse.name_through] at hfind hplace
      rw [get_alter, shows.get]
      change _ = (a.registry.apply name u).find? other
      obtain ⟨hcell, -, -⟩ | ⟨hfree, hkind⟩ := hplace
      · by_cases hother : other = name
        · subst hother
          rw [if_pos hcell, Registry.find?_apply_of_some hfind, hfind, Option.map_some]
        · rw [if_neg fun hc => hother (shows.sound.apart other name cell hc hcell),
            Registry.find?_apply_of_ne _ u hother]
      · rw [if_neg (hfree other), Registry.apply_of_conflict hfind hkind]

/-- Each operation does to the cells what it does to the registry by value. -/
theorem step (shows : s.Shows a) (op : RegistryOp) : (s.step op).1.Shows (a.step op) := by
  cases op with
  | fetch h => exact shows.fetch h
  | use slot name u => exact shows.use slot name u
  | get => exact shows
  | snapshot => exact shows

theorem run (shows : s.Shows a) (ops : List RegistryOp) : (s.run ops).Shows (a.run ops) := by
  induction ops generalizing s a with
  | nil => exact shows
  | cons op ops ih => exact ih (shows.step op)

/-! ## What operations answer -/

theorem mem_reading (shows : s.Shows a) {name : String} {value : Binary64} :
    (name, value) ∈ s.reading s.names ↔ (name, value) ∈ a.registry.snapshot := by
  rw [Registry.mem_snapshot, ← shows.get, get_eq]
  simp only [reading, List.mem_filterMap, Prod.exists, Option.map_eq_some_iff, Prod.mk.injEq,
    Option.bind_eq_some_iff, cell?, lookup_iff_mem shows.sound.once]
  constructor
  · rintro ⟨_, cell, hmem, m, hm, rfl, rfl⟩
    exact ⟨m, ⟨cell, hmem, hm⟩, rfl⟩
  · rintro ⟨m, ⟨cell, hmem, hm⟩, rfl⟩
    exact ⟨name, cell, hmem, m, hm, rfl, rfl⟩

theorem distinct_reading (shows : s.Shows a) :
    (s.reading s.names).Pairwise fun e e' => e.1 ≠ e'.1 := by
  refine shows.sound.once.filterMap _ fun e e' hne read hread read' hread' => ?_
  obtain ⟨m, -, rfl⟩ := Option.map_eq_some_iff.mp hread
  obtain ⟨m', -, rfl⟩ := Option.map_eq_some_iff.mp hread'
  exact hne

end Shows

theorem sorted_listing (s : MetricStore) (order : List (String × Nat)) :
    (s.listing order).Pairwise fun e e' => e.1 ≤ e'.1 := by
  let le (e e' : String × Binary64) : Bool := e.1 ≤ e'.1
  have htrans (e e' e'' : String × Binary64) : le e e' → le e' e'' → le e e'' := by
    simp only [le, decide_eq_true_eq]
    exact String.le_trans
  have htotal (e e' : String × Binary64) : (le e e' || le e' e) = true := by
    simp only [le, Bool.or_eq_true, decide_eq_true_eq]
    exact String.le_total e.1 e'.1
  exact (List.pairwise_mergeSort htrans htotal (s.reading order)).imp of_decide_eq_true

namespace Shows
variable {a : Sheet}

theorem listing (shows : s.Shows a) {order : List (String × Nat)} (perm : order.Perm s.names) :
    s.listing order = a.registry.snapshot := by
  have nodup {es : List (String × Binary64)} (distinct : es.Pairwise fun e e' => e.1 ≠ e'.1) :
      es.Nodup := distinct.imp fun hne heq => hne (congrArg Prod.fst heq)
  let d := a.registry.map Metric.snapshot
  have hreading : (s.reading s.names).Perm d.entries :=
    (List.perm_ext_iff_of_nodup (nodup shows.distinct_reading) (nodup d.distinct_entries)).mpr
      fun _ => shows.mem_reading
  have hperm : (s.listing order).Perm d.entries :=
    (List.mergeSort_perm _ _).trans ((perm.filterMap _).trans hreading)
  refine hperm.eq_of_pairwise (fun e e' he he' hle hge => ?_) (s.sorted_listing order)
    (d.ordered.imp fun hlt => String.not_lt.mp fun hgt =>
      String.lt_irrefl _ (String.lt_trans hlt hgt))
  -- Entries with one key are one entry of the dictionary.
  have hkey : e.1 = e'.1 := String.le_antisymm hle hge
  have hfind : d.find? e.1 = some e.2 := Dict.mem_entries_iff.mp (hperm.mem_iff.mp he)
  have hfind' : d.find? e'.1 = some e'.2 := Dict.mem_entries_iff.mp he'
  rw [← hkey, hfind] at hfind'
  exact Prod.ext hkey (Option.some.inj hfind')

theorem snapshot (shows : s.Shows a) : s.snapshot = a.registry.snapshot := shows.listing (.refl _)

/-- Who keeps to the registered kinds sees the registry by value. -/
theorem answer (shows : s.Shows a) {op : RegistryOp} (agrees : op.agrees a.kind? = true) :
    (s.step op).2 = a.answer op := by
  have agrees_of {h : Handle} {m : Metric} (hagrees : h.agrees a.kind? = true)
      (hfind : a.registry.find? h.name = some m) : m.kind = h.kind := by
    rw [Handle.agrees, Sheet.kind?, hfind] at hagrees
    exact eq_of_beq hagrees
  cases op with
  | fetch h =>
      refine congrArg RegistryOp.Answer.fetched (warning_fetch fun m hget => ?_)
      rw [shows.get] at hget
      exact agrees_of agrees hget
  | use slot name u =>
      cases htarget : s.target? (u.through slot name) with
      | none =>
          rw [step_use_of_none htarget, Sheet.answer, if_neg (shows.not_mem_of_target htarget)]
      | some cell =>
          obtain ⟨m, hfind, hplace⟩ := shows.place htarget
          rw [MetricUse.name_through] at hfind hplace
          obtain ⟨-, hm, -⟩ | ⟨-, hkind⟩ := hplace
          · rw [step_use_of_target htarget, Sheet.answer, if_pos (shows.mem_of_target htarget),
              Sheet.use, Registry.find?_apply_of_some hfind, alter, List.getElem?_modify, hm]
            simp
          · exact absurd (agrees_of agrees hfind) hkind
  | get name => exact congrArg RegistryOp.Answer.found (shows.get name)
  | snapshot => exact congrArg RegistryOp.Answer.listed shows.snapshot

end Shows
end MetricStore
end MetricsProxy
