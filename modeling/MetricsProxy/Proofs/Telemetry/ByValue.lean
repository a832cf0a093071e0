import MetricsProxy.Proofs.Dict
import MetricsProxy.Proofs.Telemetry
import MetricsProxy.Telemetry.Handles

/-!
# Operations on the registry by value

A registry without cells shows all that components can see of each other, if it is known
who has fetched what. A name gets its kind from its first fetch (`Sheet.kind?_step`), and a
use of another kind leaves the registry as it is (`Registry.apply_of_conflict`), so a
registered metric is what its own uses make of it (`Sheet.find?_run_of_some`).
-/
namespace MetricsProxy

theorem MetricUse.apply_of_kind_ne {u : MetricUse} {m : Metric} (h : m.kind ≠ u.kind) :
    u.apply m = m := by
  cases u <;> cases m <;> first | rfl | exact absurd rfl h

namespace Registry
variable {r : Registry} {name : String} {m : Metric} {u : MetricUse}

theorem apply_of_conflict (h : r.find? name = some m) (conflict : m.kind ≠ u.kind) :
    r.apply name u = r := by
  simp [apply, use, admits, h, conflict]

theorem find?_apply_of_some (h : r.find? name = some m) (u : MetricUse) :
    (r.apply name u).find? name = some (u.apply m) := by
  by_cases hkind : m.kind = u.kind
  · simp [apply, use, admits, handle, h, hkind, Dict.find?_insert_self]
  · rw [apply_of_conflict h hkind, h, MetricUse.apply_of_kind_ne hkind]

theorem find?_apply_of_none (h : r.find? name = none) (u : MetricUse) :
    (r.apply name u).find? name = some (u.apply (.fresh u.kind)) := by
  simp [apply, use, admits, handle, h, Dict.find?_insert_self]

theorem apply_look_of_some (h : r.find? name = some m) (k : MetricKind) :
    r.apply name (.look k) = r := by
  refine Dict.ext fun other => ?_
  by_cases hother : other = name
  · subst hother
    rw [find?_apply_of_some h, h]
    rfl
  · exact find?_apply_of_ne r _ hother

theorem isSome_find?_apply_self (r : Registry) (name : String) (u : MetricUse) :
    ((r.apply name u).find? name).isSome = true := by
  cases h : r.find? name with
  | none => rw [find?_apply_of_none h]; rfl
  | some m => rw [find?_apply_of_some h]; rfl

theorem isSome_find?_apply {other : String} (h : (r.find? other).isSome = true) (name : String)
    (u : MetricUse) : ((r.apply name u).find? other).isSome = true := by
  by_cases hother : other = name
  · exact hother ▸ isSome_find?_apply_self r other u
  · rwa [find?_apply_of_ne r u hother]

/-- To fetch a metric before it is used makes no difference. -/
theorem apply_apply_look (r : Registry) (name : String) (u : MetricUse) :
    (r.apply name (.look u.kind)).apply name u = r.apply name u := by
  cases h : r.find? name with
  | some m => rw [apply_look_of_some h]
  | none =>
      refine Dict.ext fun other => ?_
      by_cases hother : other = name
      · rw [hother, find?_apply_of_some (find?_apply_of_none h _), find?_apply_of_none h]
        rfl
      · rw [find?_apply_of_ne _ _ hother, find?_apply_of_ne _ _ hother,
          find?_apply_of_ne _ _ hother]

theorem mem_snapshot (r : Registry) (name : String) (value : Binary64) :
    (name, value) ∈ r.snapshot ↔ (r.find? name).map Metric.snapshot = some value := by
  simp only [snapshot, Dict.toList, Dict.map, List.mem_map, Prod.exists, Prod.mk.injEq,
    Dict.mem_entries_iff, Option.map_eq_some_iff]
  constructor
  · rintro ⟨_, m, hfind, rfl, rfl⟩
    exact ⟨m, hfind, rfl⟩
  · rintro ⟨m, hfind, rfl⟩
    exact ⟨name, m, hfind, rfl, rfl⟩

end Registry

/-! ## What operations ask for -/

def Handle.agrees (kinds : String → Option MetricKind) (h : Handle) : Bool :=
  (kinds h.name).all (· == h.kind)

namespace RegistryOp

/-- The kind that an operation would register under a name. -/
def claim? (name : String) : RegistryOp → Option MetricKind
  | fetch h => if h.name = name then some h.kind else none
  | _ => none

/-- Whether an operation has the kind that its name has, if both have one. -/
def agrees (kinds : String → Option MetricKind) : RegistryOp → Bool
  | fetch h => h.agrees kinds
  | use slot name u => (u.through slot name).agrees kinds
  | _ => true

def firstKind (ops : List RegistryOp) (name : String) : Option MetricKind :=
  ops.findSome? (claim? name)

theorem firstKind_cons (op : RegistryOp) (ops : List RegistryOp) (name : String) :
    firstKind (op :: ops) name = (op.claim? name).or (firstKind ops name) := by
  rw [firstKind, List.findSome?_cons]
  cases op.claim? name <;> rfl

theorem firstKind_append {ops : List RegistryOp} {name : String} {kind : MetricKind}
    (h : firstKind ops name = some kind) (more : List RegistryOp) :
    firstKind (ops ++ more) name = some kind := by
  rw [firstKind, List.findSome?_append, ← firstKind, h]
  rfl

/-- The uses of this kind that are made of a name through handles, given the handles that
have been fetched before. -/
def ownUses (name : String) (kind : MetricKind) (fetched : List Handle) :
    List RegistryOp → List MetricUse
  | [] => []
  | fetch h :: ops => ownUses name kind (h :: fetched) ops
  | use slot other u :: ops =>
      if other = name ∧ u.kind = kind ∧ u.through slot other ∈ fetched then
        u :: ownUses name kind fetched ops
      else ownUses name kind fetched ops
  | _ :: ops => ownUses name kind fetched ops

/-- What its own uses make of the metric that the first fetch of a name registers. -/
def settled (ops : List RegistryOp) (name : String) : Option Metric :=
  (firstKind ops name).map fun kind =>
    (ownUses name kind [] ops).foldl (fun m u => u.apply m) (.fresh kind)

end RegistryOp

/-! ## The registry by value -/

/-- The registry by value and the handles that have been fetched so far. -/
structure Sheet where
  registry : Registry
  fetched : List Handle
  known : ∀ h ∈ fetched, (registry.find? h.name).isSome = true

namespace Sheet

def empty : Sheet := ⟨.empty, [], nofun⟩

def fetch (a : Sheet) (h : Handle) : Sheet where
  registry := a.registry.apply h.name (.look h.kind)
  fetched := h :: a.fetched
  known h' hmem := by
    rcases List.mem_cons.mp hmem with rfl | hmem
    · exact Registry.isSome_find?_apply_self _ _ _
    · exact Registry.isSome_find?_apply (a.known h' hmem) _ _

def use (a : Sheet) (name : String) (u : MetricUse) : Sheet where
  registry := a.registry.apply name u
  fetched := a.fetched
  known h hmem := Registry.isSome_find?_apply (a.known h hmem) _ _

def step (a : Sheet) : RegistryOp → Sheet
  | .fetch h => a.fetch h
  | .use slot name u => if u.through slot name ∈ a.fetched then a.use name u else a
  | _ => a

def run (a : Sheet) (ops : List RegistryOp) : Sheet := ops.foldl step a

/-- What an operation answers that agrees with the registered kinds. -/
def answer (a : Sheet) : RegistryOp → RegistryOp.Answer
  | .fetch _ => .fetched none
  | .use slot name u =>
      .used (if u.through slot name ∈ a.fetched then (a.use name u).registry.find? name else none)
  | .get name => .found (a.registry.find? name)
  | .snapshot => .listed a.registry.snapshot

def kind? (a : Sheet) (name : String) : Option MetricKind :=
  (a.registry.find? name).map Metric.kind

variable {a : Sheet} {slot : Nat} {name : String} {u : MetricUse} {m : Metric}

theorem step_use_of_mem (h : u.through slot name ∈ a.fetched) :
    a.step (.use slot name u) = a.use name u := if_pos h

theorem step_use_of_not_mem (h : u.through slot name ∉ a.fetched) :
    a.step (.use slot name u) = a := if_neg h

/-- An operation changes the registry by one use at most. -/
theorem registry_step (a : Sheet) (op : RegistryOp) :
    (a.step op).registry = a.registry ∨
      ∃ name u, (a.step op).registry = a.registry.apply name u := by
  cases op with
  | fetch h => exact .inr ⟨h.name, .look h.kind, rfl⟩
  | use slot name u =>
      by_cases hmem : u.through slot name ∈ a.fetched
      · exact .inr ⟨name, u, by rw [step_use_of_mem hmem]; rfl⟩
      · exact .inl (by rw [step_use_of_not_mem hmem])
  | get => exact .inl rfl
  | snapshot => exact .inl rfl

/-- A use of a name that nobody fetched does nothing, for want of a handle. -/
theorem not_through_of_none (h : a.registry.find? name = none) (slot : Nat) (u : MetricUse) :
    u.through slot name ∉ a.fetched := by
  intro hmem
  have hknown : (a.registry.find? name).isSome = true := a.known _ hmem
  rw [h] at hknown
  cases hknown

theorem find?_step_of_none (h : a.registry.find? name = none) (op : RegistryOp) :
    (a.step op).registry.find? name = (op.claim? name).map .fresh := by
  cases op with
  | fetch hd =>
      simp only [step, fetch, RegistryOp.claim?]
      by_cases hname : hd.name = name
      · rw [if_pos hname, hname, Registry.find?_apply_of_none h]
        rfl
      · rw [if_neg hname, Registry.find?_apply_of_ne _ _ (Ne.symm hname), h]
        rfl
  | use slot other u =>
      by_cases hmem : u.through slot other ∈ a.fetched
      · have hname : name ≠ other := by
          rintro rfl
          exact not_through_of_none h slot u hmem
        rw [step_use_of_mem hmem]
        exact (Registry.find?_apply_of_ne _ u hname).trans h
      · rw [step_use_of_not_mem hmem]
        exact h
  | get => exact h
  | snapshot => exact h

/-- Only the first fetch of a name gives it a kind. -/
theorem kind?_step (a : Sheet) (op : RegistryOp) (name : String) :
    (a.step op).kind? name = (a.kind? name).or (op.claim? name) := by
  unfold kind?
  cases h : a.registry.find? name with
  | none =>
      rw [find?_step_of_none h op]
      cases op.claim? name <;> simp
  | some m =>
      rw [Option.map_some, Option.some_or]
      obtain hstep | ⟨other, u, hstep⟩ := registry_step a op
      · rw [hstep, h, Option.map_some]
      · rw [hstep]
        by_cases hname : name = other
        · rw [← hname, Registry.find?_apply_of_some h, Option.map_some, MetricUse.kind_apply]
        · rw [Registry.find?_apply_of_ne _ u hname, h, Option.map_some]

theorem kind?_run (a : Sheet) (ops : List RegistryOp) (name : String) :
    (a.run ops).kind? name = (a.kind? name).or (RegistryOp.firstKind ops name) := by
  induction ops generalizing a with
  | nil => simp [run, RegistryOp.firstKind]
  | cons op ops ih =>
      rw [RegistryOp.firstKind_cons, ← Option.or_assoc, ← kind?_step]
      exact ih (a.step op)

/-- A registered metric is what its own uses make of it. -/
theorem find?_run_of_some (ops : List RegistryOp) (h : a.registry.find? name = some m) :
    (a.run ops).registry.find? name =
      some ((RegistryOp.ownUses name m.kind a.fetched ops).foldl (fun m u => u.apply m) m) := by
  induction ops generalizing a m with
  | nil => exact h
  | cons op ops ih =>
      change ((a.step op).run ops).registry.find? name = _
      cases op with
      | fetch hd =>
          rw [ih (m := m) ?_]
          · rfl
          · by_cases hname : name = hd.name
            · subst hname
              exact (congrArg (·.find? hd.name) (Registry.apply_look_of_some h _)).trans h
            · exact (Registry.find?_apply_of_ne _ _ hname).trans h
      | use slot other u =>
          unfold RegistryOp.ownUses
          by_cases hmem : u.through slot other ∈ a.fetched
          · rw [step_use_of_mem hmem]
            by_cases hname : other = name
            · subst hname
              by_cases hkind : u.kind = m.kind
              · rw [if_pos ⟨rfl, hkind, hmem⟩, List.foldl_cons,
                  ih (m := u.apply m) (Registry.find?_apply_of_some h u), MetricUse.kind_apply]
                rfl
              · rw [if_neg fun hown => hkind hown.2.1, ih (m := m) ?_]
                · rfl
                · exact (congrArg (·.find? other)
                    (Registry.apply_of_conflict h (Ne.symm hkind))).trans h
            · rw [if_neg fun hown => hname hown.1,
                ih (m := m) ((Registry.find?_apply_of_ne _ u (Ne.symm hname)).trans h)]
              rfl
          · rw [step_use_of_not_mem hmem, if_neg fun hown => hmem hown.2.2, ih h]
      | get => exact ih h
      | snapshot => exact ih h

theorem fetched_step_use (a : Sheet) (slot : Nat) (name : String) (u : MetricUse) :
    (a.step (.use slot name u)).fetched = a.fetched := by
  unfold step
  dsimp only
  split <;> rfl

theorem mem_fetched_run (a : Sheet) (ops : List RegistryOp) (h : Handle) :
    h ∈ (a.run ops).fetched ↔ h ∈ a.fetched ∨ .fetch h ∈ ops := by
  induction ops generalizing a with
  | nil => simp [run]
  | cons op ops ih =>
      change h ∈ ((a.step op).run ops).fetched ↔ _
      rw [ih, List.mem_cons]
      cases op with
      | fetch h' => simp [step, fetch, or_assoc, or_left_comm]
      | use slot name u => simp [fetched_step_use]
      | get => simp [step]
      | snapshot => simp [step]

theorem ownUses_of_none (h : a.registry.find? name = none) (kind : MetricKind) (op : RegistryOp)
    (ops : List RegistryOp) : RegistryOp.ownUses name kind a.fetched (op :: ops) =
      RegistryOp.ownUses name kind (a.step op).fetched ops := by
  cases op with
  | fetch => rfl
  | use slot other u =>
      rw [fetched_step_use]
      refine if_neg ?_
      rintro ⟨rfl, -, hmem⟩
      exact not_through_of_none h slot u hmem
  | get => rfl
  | snapshot => rfl

/-- A name that is not registered yet gets the metric of its first fetch, and then what that
metric's own uses make of it. -/
theorem find?_run_of_none (ops : List RegistryOp) (h : a.registry.find? name = none) :
    (a.run ops).registry.find? name = (RegistryOp.firstKind ops name).map fun kind =>
      (RegistryOp.ownUses name kind a.fetched ops).foldl (fun m u => u.apply m) (.fresh kind) := by
  induction ops generalizing a with
  | nil => exact h
  | cons op ops ih =>
      change ((a.step op).run ops).registry.find? name = _
      have hstep := find?_step_of_none h op
      rw [RegistryOp.firstKind_cons]
      simp only [ownUses_of_none h]
      cases hclaim : op.claim? name with
      | some kind =>
          rw [hclaim] at hstep
          rw [find?_run_of_some ops hstep, Metric.kind_fresh]
          rfl
      | none =>
          rw [hclaim] at hstep
          exact ih hstep

theorem find?_run_empty (ops : List RegistryOp) (name : String) :
    (empty.run ops).registry.find? name = RegistryOp.settled ops name :=
  find?_run_of_none ops rfl

end Sheet

end MetricsProxy
