import MetricsProxy.Proofs.Telemetry.Cells

/-!
# Kinds are fixed

What is true of the registry by value is true of the cells behind the handles: a name has
the kind of its first fetch, and operations of other kinds leave nothing behind that
anyone else can see. The latter compares two runs, with these operations and without them
(`MetricStore.log_filter`).
-/
namespace MetricsProxy.MetricStore
variable {s : MetricStore} {h : Handle} {name : String} {cell : Nat}

/-! ## Two runs -/

/-- Two registries are the same, and who keeps to the kinds has the same handles. -/
structure Alike (kinds : String → Option MetricKind) (a b : Sheet) : Prop where
  registry : a.registry = b.registry
  fetched : ∀ h, h.agrees kinds = true → (h ∈ a.fetched ↔ h ∈ b.fetched)

/-- The kinds that names have or will get from these operations. -/
def Fixes (kinds : String → Option MetricKind) (a : Sheet) (ops : List RegistryOp) : Prop :=
  ∀ name, kinds name = (a.kind? name).or (RegistryOp.firstKind ops name)

namespace Fixes
variable {kinds : String → Option MetricKind} {a : Sheet} {op : RegistryOp}
  {ops : List RegistryOp}

theorem step (fixed : Fixes kinds a (op :: ops)) : Fixes kinds (a.step op) ops := fun name => by
  rw [fixed name, RegistryOp.firstKind_cons, Sheet.kind?_step, Option.or_assoc]

theorem of_find? (fixed : Fixes kinds a ops) {name : String} {m : Metric}
    (hfind : a.registry.find? name = some m) : kinds name = some m.kind := by
  rw [fixed name, Sheet.kind?, hfind]
  rfl

theorem agrees_kind? (fixed : Fixes kinds a ops) (agrees : op.agrees kinds = true) :
    op.agrees a.kind? = true := by
  have handle {h : Handle} (hagrees : h.agrees kinds = true) : h.agrees a.kind? = true := by
    cases hfind : a.registry.find? h.name with
    | none => rw [Handle.agrees, Sheet.kind?, hfind]; rfl
    | some m =>
        rw [Handle.agrees, fixed.of_find? hfind] at hagrees
        rw [Handle.agrees, Sheet.kind?, hfind]
        exact hagrees
  cases op with
  | fetch h => exact handle agrees
  | use slot name u => exact handle agrees
  | get => rfl
  | snapshot => rfl

/-- The first fetch of a name has its kind, so a fetch of another kind comes later. -/
theorem find?_of_conflict (fixed : Fixes kinds a (.fetch h :: ops))
    (conflict : h.agrees kinds = false) :
    ∃ m, a.registry.find? h.name = some m := by
  cases hfind : a.registry.find? h.name with
  | some m => exact ⟨m, rfl⟩
  | none =>
      have hfirst : kinds h.name = some h.kind := by
        rw [fixed h.name, Sheet.kind?, hfind, RegistryOp.firstKind_cons, RegistryOp.claim?,
          if_pos rfl]
        rfl
      rw [Handle.agrees, hfirst, Option.all_some, beq_self_eq_true] at conflict
      cases conflict

end Fixes

namespace Alike
variable {kinds : String → Option MetricKind} {a b : Sheet} {op : RegistryOp}
  {ops : List RegistryOp}

theorem answer (alike : Alike kinds a b) (agrees : op.agrees kinds = true) :
    a.answer op = b.answer op := by
  cases op with
  | fetch => rfl
  | use slot name u =>
      have hmem := alike.fetched (u.through slot name) agrees
      simp only [Sheet.answer, Sheet.use, alike.registry, hmem]
  | get name => exact congrArg (fun r => RegistryOp.Answer.found (r.find? name)) alike.registry
  | snapshot => exact congrArg (fun r => RegistryOp.Answer.listed r.snapshot) alike.registry

theorem step (alike : Alike kinds a b) (agrees : op.agrees kinds = true) :
    Alike kinds (a.step op) (b.step op) := by
  cases op with
  | fetch h =>
      refine ⟨congrArg (·.apply h.name (.look h.kind)) alike.registry, fun h' hagrees => ?_⟩
      simp only [Sheet.step, Sheet.fetch, List.mem_cons, alike.fetched h' hagrees]
  | use slot name u =>
      have hfetched := alike.fetched (u.through slot name) agrees
      by_cases hmem : u.through slot name ∈ a.fetched
      · rw [Sheet.step_use_of_mem hmem, Sheet.step_use_of_mem (hfetched.mp hmem)]
        exact ⟨congrArg (·.apply name u) alike.registry, alike.fetched⟩
      · rwa [Sheet.step_use_of_not_mem hmem, Sheet.step_use_of_not_mem (hmem ∘ hfetched.mpr)]
  | get => exact alike
  | snapshot => exact alike

theorem skip (alike : Alike kinds a b) (fixed : Fixes kinds a (op :: ops))
    (conflict : op.agrees kinds = false) : Alike kinds (a.step op) b := by
  cases op with
  | fetch h =>
      obtain ⟨m, hfind⟩ := fixed.find?_of_conflict conflict
      refine ⟨(Registry.apply_look_of_some hfind h.kind).trans alike.registry,
        fun h' hagrees => ?_⟩
      have hne : h' ≠ h := fun heq => by
        rw [heq] at hagrees
        exact Bool.false_ne_true (conflict.symm.trans hagrees)
      rw [← alike.fetched h' hagrees]
      simp only [Sheet.step, Sheet.fetch, List.mem_cons, hne, false_or]
  | use slot name u =>
      by_cases hmem : u.through slot name ∈ a.fetched
      · obtain ⟨m, hfind⟩ := Option.isSome_iff_exists.mp (a.known _ hmem)
        rw [MetricUse.name_through] at hfind
        have hkind : m.kind ≠ u.kind := fun heq => by
          have hagrees : (u.through slot name).agrees kinds = true := by
            rw [Handle.agrees, MetricUse.name_through, fixed.of_find? hfind]
            exact beq_iff_eq.mpr heq
          exact Bool.false_ne_true (conflict.symm.trans hagrees)
        rw [Sheet.step_use_of_mem hmem]
        exact ⟨(Registry.apply_of_conflict hfind hkind).trans alike.registry, alike.fetched⟩
      · rwa [Sheet.step_use_of_not_mem hmem]
  | get => cases conflict
  | snapshot => cases conflict

end Alike

/-- Without the operations of other kinds, all others answer the same. -/
theorem log_filter {kinds : String → Option MetricKind} (ops : List RegistryOp)
    {s t : MetricStore} {a b : Sheet} (left : s.Shows a) (right : t.Shows b)
    (alike : Alike kinds a b) (fixed : Fixes kinds a ops) :
    t.log (ops.filter (·.agrees kinds)) = (s.log ops).filter (·.1.agrees kinds) := by
  induction ops generalizing s t a b with
  | nil => rfl
  | cons op ops ih =>
      rw [log, List.filter_cons, List.filter_cons]
      by_cases hagrees : op.agrees kinds = true
      · have hsame : b.kind? = a.kind? := by
          funext name
          rw [Sheet.kind?, Sheet.kind?, alike.registry]
        have hleft := left.answer (fixed.agrees_kind? hagrees)
        have hright := right.answer (hsame ▸ fixed.agrees_kind? hagrees)
        rw [if_pos hagrees, if_pos hagrees, log,
          ih (left.step op) (right.step op) (alike.step hagrees) fixed.step,
          hleft, hright, alike.answer hagrees]
      · rw [if_neg hagrees, if_neg hagrees]
        exact ih (left.step op) right
          (alike.skip fixed (eq_false_of_ne_true hagrees)) fixed.step

/-! ## Handles of one metric -/

theorem run_append (s : MetricStore) (ops more : List RegistryOp) :
    s.run (ops ++ more) = (s.run ops).run more := List.foldl_append

/-- A name leads to one cell for ever. -/
theorem Sound.cell?_step (sound : s.Sound) (hcell : s.cell? name = some cell) (op : RegistryOp) :
    (s.step op).1.cell? name = some cell := by
  cases op with
  | fetch h =>
      change (s.fetch h.name h.kind).store.cell? name = some cell
      unfold MetricStore.fetch
      split
      · split <;> exact hcell
      · rename_i hentry
        rw [cell?_register, if_neg, ← hcell]
        · rfl
        · intro heq
          rw [heq, sound.cell?_of_registered?_eq_none hentry] at hcell
          cases hcell
  | use slot other u =>
      cases htarget : s.target? (u.through slot other) with
      | none => rwa [step_use_of_none htarget]
      | some target => rw [step_use_of_target htarget]; exact hcell
  | get => exact hcell
  | snapshot => exact hcell

theorem Shows.cell?_run {a : Sheet} (shows : s.Shows a) (hcell : s.cell? name = some cell)
    (ops : List RegistryOp) : (s.run ops).cell? name = some cell := by
  induction ops generalizing s a with
  | nil => exact hcell
  | cons op ops ih => exact ih (shows.step op) (shows.sound.cell?_step hcell op)

theorem shows_run (ops : List RegistryOp) : (empty.run ops).Shows (Sheet.empty.run ops) :=
  Shows.empty.run ops

theorem kind_run (ops : List RegistryOp) (name : String) :
    ((empty.run ops).get name).map Metric.kind = RegistryOp.firstKind ops name := by
  rw [(shows_run ops).get]
  exact Sheet.kind?_run .empty ops name

theorem get_run (ops : List RegistryOp) (name : String) :
    (empty.run ops).get name = RegistryOp.settled ops name := by
  rw [(shows_run ops).get, Sheet.find?_run_empty]

theorem target?_run {ops : List RegistryOp} (hmem : .fetch h ∈ ops)
    (hkind : RegistryOp.firstKind ops h.name = some h.kind) :
    ∃ cell, (empty.run ops).cell? h.name = some cell ∧ (empty.run ops).target? h = some cell := by
  have shows := shows_run ops
  have hheld := (shows.held h).mpr ((Sheet.mem_fetched_run _ ops h).mpr (.inr hmem))
  obtain ⟨cell, htarget⟩ := Option.isSome_iff_exists.mp hheld
  obtain ⟨m, hfind, ⟨hcell, -, -⟩ | ⟨-, hne⟩⟩ := shows.place htarget
  · exact ⟨cell, hcell, htarget⟩
  · rw [← kind_run, shows.get, hfind] at hkind
    exact absurd (Option.some.inj hkind) hne

theorem target?_run_append {ops : List RegistryOp} (hmem : .fetch h ∈ ops)
    (hkind : RegistryOp.firstKind ops h.name = some h.kind) :
    ∃ cell, ∀ more, (empty.run (ops ++ more)).cell? h.name = some cell ∧
      (empty.run (ops ++ more)).target? h = some cell := by
  obtain ⟨cell, hcell, -⟩ := target?_run hmem hkind
  refine ⟨cell, fun more => ?_⟩
  have hlater : (empty.run (ops ++ more)).cell? h.name = some cell := by
    rw [run_append]
    exact (shows_run ops).cell?_run hcell more
  obtain ⟨cell', hcell', htarget⟩ := target?_run (List.mem_append_left more hmem)
    (RegistryOp.firstKind_append hkind more)
  rw [hlater] at hcell'
  exact ⟨hlater, htarget.trans hcell'.symm⟩

/-- A fetch and one use of what it gives are the use of the registry by value. -/
theorem Shows.fetch_use {a : Sheet} (shows : s.Shows a) (slot : Nat) (name : String)
    (u : MetricUse) :
    let t := (s.step (.fetch (u.through slot name))).1.step (.use slot name u)
    t.2 = .used (some (a.registry.use name u).2) ∧
      ∃ b : Sheet, t.1.Shows b ∧ b.registry = (a.registry.use name u).1 := by
  intro t
  let h := u.through slot name
  have htarget : (s.step (.fetch h)).1.target? h = some (s.fetch name u.kind).cell := by
    rw [MetricStore.step, target?_give, if_pos rfl]
    rfl
  have hmem : h ∈ (a.fetch h).fetched := List.mem_cons_self
  refine ⟨?_, (a.fetch h).use name u, ?_, Registry.apply_apply_look a.registry name u⟩
  · have hcell : (s.step (.fetch h)).1.cells[(s.fetch name u.kind).cell]? =
        some (a.registry.handle name u.kind) := shows.cells_fetch name u.kind
    rw [show t = _ from step_use_of_target htarget, alter, List.getElem?_modify, hcell]
    simp [Registry.use]
  · have hshows := (shows.fetch h).use slot name u
    rwa [Sheet.step_use_of_mem hmem] at hshows

/-- Whatever is done in whatever order, the kind of a name is that of its first fetch. All
handles of that kind share one metric for ever. Without the operations of other kinds each
operation that is left gets the same answer. The snapshot has each name that was fetched
once, in order, with what the uses of its own kind come to, and it does not depend on the
order of the table. -/
theorem kinds_never_interfere (ops : List RegistryOp) :
    let s := empty.run ops
    let kinds := RegistryOp.firstKind ops
    (∀ name, (s.get name).map Metric.kind = kinds name) ∧
      (∀ name kind, kinds name = some kind →
        ∀ more, ((empty.run (ops ++ more)).get name).map Metric.kind = some kind) ∧
      (∀ h, .fetch h ∈ ops → kinds h.name = some h.kind →
        ∃ cell, ∀ more, (empty.run (ops ++ more)).cell? h.name = some cell ∧
          (empty.run (ops ++ more)).target? h = some cell) ∧
      empty.log (ops.filter (·.agrees kinds)) = (empty.log ops).filter (·.1.agrees kinds) ∧
      (∀ name, s.get name = RegistryOp.settled ops name) ∧
      s.snapshot.Pairwise (fun e e' => e.1 < e'.1) ∧
      (∀ name value, (name, value) ∈ s.snapshot ↔
        (RegistryOp.settled ops name).map Metric.snapshot = some value) ∧
      ∀ order, order.Perm s.names → s.listing order = s.snapshot := by
  intro s kinds
  have shows : s.Shows (Sheet.empty.run ops) := shows_run ops
  refine ⟨kind_run ops, fun name kind hkind more => ?_, fun h => target?_run_append, ?_,
    get_run ops, ?_, fun name value => ?_, fun order perm => ?_⟩
  · rw [kind_run]
    exact RegistryOp.firstKind_append hkind more
  · exact log_filter ops .empty .empty ⟨rfl, fun _ _ => Iff.rfl⟩ fun _ => rfl
  · rw [shows.snapshot]
    exact (Dict.map Metric.snapshot _).ordered
  · rw [shows.snapshot, Registry.mem_snapshot, ← shows.get, get_run]
  · rw [shows.listing perm, shows.snapshot]

/-- A gauge under the name of a counter is another metric. -/
example : (empty.log [.fetch ⟨0, "shared", .counter⟩, .use 0 "shared" (.count 7),
      .fetch ⟨1, "shared", .gauge⟩, .use 1 "shared" (.setGauge (.ofNat 100)),
      .get "shared"]).map (·.2) =
    [.fetched none, .used (some (.counter 7)),
      .fetched (some "Metric shared is already registered as a counter, not a gauge"),
      .used (some (.gauge (.ofNat 100))), .found (some (.counter 7))] := by
  decide +kernel

end MetricsProxy.MetricStore
