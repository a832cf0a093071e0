import Mathlib.Data.List.Perm.Basic
import MetricsProxy.Total

/-!
# Lists whose elements change

What a change of one element of a list does to the list, to what comes of its
elements, and to totals over them.
-/
namespace MetricsProxy

theorem modify_eq_set_of_getElem? {α : Type} {xs : List α} {i : Nat} {x : α}
    (h : xs[i]? = some x) (f : α → α) : xs.modify i f = xs.set i (f x) := by
  apply List.ext_getElem?
  intro k
  rw [List.getElem?_modify, List.getElem?_set]
  by_cases hk : i = k
  · subst hk
    obtain ⟨hi, rfl⟩ := List.getElem?_eq_some_iff.mp h
    simp [hi]
  · simp [hk]

theorem modify_eq_self_of_getElem? {α : Type} {xs : List α} {i : Nat} (h : xs[i]? = none)
    (f : α → α) : xs.modify i f = xs := by
  apply List.ext_getElem?
  intro k
  rw [List.getElem?_modify]
  by_cases hk : i = k
  · subst hk
    simp [h]
  · simp [hk]

theorem of_getElem?_set {α : Type} {xs : List α} {i k : Nat} {x z : α}
    (h : (xs.set i x)[k]? = some z) : i = k ∧ z = x ∨ i ≠ k ∧ xs[k]? = some z := by
  by_cases hik : i = k
  · subst hik
    have hi : i < xs.length := by
      simpa using (List.getElem?_eq_some_iff.mp h).choose
    rw [List.getElem?_set_self hi] at h
    exact .inl ⟨rfl, (Option.some.inj h).symm⟩
  · rw [List.getElem?_set_ne hik] at h
    exact .inr ⟨hik, h⟩

theorem set_eq_self_of_getElem? {α : Type} {xs : List α} {i : Nat} {x : α}
    (h : xs[i]? = some x) : xs.set i x = xs := by
  obtain ⟨hi, rfl⟩ := List.getElem?_eq_some_iff.mp h
  exact List.set_getElem_self hi

/-- What stands at one place of a list, after another place is set. -/
theorem exists_set {α : Type} {P : α → Prop} {as : List α} {i j : Nat} {b b' : α}
    (h : ∃ a, as[i]? = some a ∧ P a) (hb : as[j]? = some b) (keeps : P b → P b') :
    ∃ a, (as.set j b')[i]? = some a ∧ P a := by
  obtain ⟨a, ha, hP⟩ := h
  by_cases hij : j = i
  · subst hij
    have hj : j < as.length := (List.getElem?_eq_some_iff.mp hb).choose
    obtain rfl := Option.some.inj (hb.symm.trans ha)
    exact ⟨b', List.getElem?_set_self hj, keeps hP⟩
  · exact ⟨a, (List.getElem?_set_ne hij).trans ha, hP⟩

theorem exists_append {α : Type} {P : α → Prop} {as : List α} {i : Nat}
    (h : ∃ a, as[i]? = some a ∧ P a) (bs : List α) : ∃ a, (as ++ bs)[i]? = some a ∧ P a := by
  obtain ⟨a, ha, hP⟩ := h
  have hi : i < as.length := (List.getElem?_eq_some_iff.mp ha).choose
  exact ⟨a, (List.getElem?_append_left hi).trans ha, hP⟩

theorem perm_flatMap_set {α β : Type} (f : α → List β) {xs : List α} {j : Nat} {x : α}
    (h : xs[j]? = some x) (y : α) :
    (f x ++ (xs.set j y).flatMap f).Perm (f y ++ xs.flatMap f) := by
  induction xs generalizing j with
  | nil => simp at h
  | cons a xs ih =>
      cases j with
      | zero =>
          obtain rfl : a = x := by simpa using h
          simpa using List.perm_append_comm_assoc (f a) (f y) (xs.flatMap f)
      | succ j =>
          have hx := ih (j := j) (by simpa using h)
          simp only [List.set_cons_succ, List.flatMap_cons]
          exact ((List.perm_append_comm_assoc _ _ _).trans (hx.append_left (f a))).trans
            (List.perm_append_comm_assoc _ _ _)

/-! ## Totals -/

theorem total_perm {ms ns : List Nat} (h : ms.Perm ns) : total ms = total ns := by
  induction h with
  | nil => rfl
  | cons n _ ih => rw [total_cons, total_cons, ih]
  | swap m n ns =>
      simp only [total_cons]
      omega
  | trans _ _ ih ih' => exact ih.trans ih'

theorem total_replicate (count n : Nat) : total (List.replicate count n) = count * n := by
  induction count with
  | zero => rw [List.replicate_zero, Nat.zero_mul, total_nil]
  | succ count ih => rw [List.replicate_succ, total_cons, ih, Nat.succ_mul, Nat.add_comm]

theorem total_map_congr {α : Type} {xs : List α} {f g : α → Nat} (h : ∀ x ∈ xs, f x = g x) :
    total (xs.map f) = total (xs.map g) := by
  rw [List.map_congr_left h]

theorem total_map_add {α : Type} (xs : List α) (f g : α → Nat) :
    total (xs.map fun x => f x + g x) = total (xs.map f) + total (xs.map g) := by
  induction xs with
  | nil => rfl
  | cons x xs ih =>
      simp only [List.map_cons, total_cons, ih]
      omega

theorem total_map_indicator {α : Type} (p : α → Bool) (xs : List α) :
    total (xs.map fun x => if p x then 1 else 0) = xs.countP p := by
  induction xs with
  | nil => rfl
  | cons x xs ih => rw [List.map_cons, total_cons, ih, List.countP_cons, Nat.add_comm]

theorem total_range_grow {n i d : Nat} {f g : Nat → Nat} (hi : i < n)
    (others : ∀ j, j < n → j ≠ i → g j = f j) (grown : g i = f i + d) :
    total ((List.range n).map g) = total ((List.range n).map f) + d := by
  induction n with
  | zero => exact absurd hi (Nat.not_lt_zero i)
  | succ n ih =>
      simp only [List.range_succ, List.map_append, List.map_cons, List.map_nil, total_append,
        total_cons, total_nil]
      rcases Nat.lt_succ_iff_lt_or_eq.mp hi with hlt | rfl
      · have hbefore := ih hlt fun j hj => others j (Nat.lt_succ_of_lt hj)
        have hlast := others n (Nat.lt_succ_self n) (by omega)
        omega
      · have hsame : total ((List.range i).map g) = total ((List.range i).map f) := by
          refine total_map_congr fun j hj => ?_
          have hlt := List.mem_range.mp hj
          exact others j (Nat.lt_succ_of_lt hlt) (Nat.ne_of_lt hlt)
        omega

theorem total_map_set {α : Type} (f : α → Nat) {xs : List α} {i : Nat} {x : α}
    (h : xs[i]? = some x) (y : α) :
    total ((xs.set i y).map f) + f x = total (xs.map f) + f y := by
  have hperm := total_perm (perm_flatMap_set (fun x => [f x]) h y)
  rw [← List.map_eq_flatMap, ← List.map_eq_flatMap, List.singleton_append, List.singleton_append,
    total_cons, total_cons] at hperm
  omega

theorem countP_set_add {α : Type} (p : α → Bool) {xs : List α} {i : Nat} {x : α}
    (h : xs[i]? = some x) (y : α) :
    (xs.set i y).countP p + (if p x then 1 else 0) = xs.countP p + if p y then 1 else 0 := by
  have hset := total_map_set (fun x => if p x then 1 else 0) h y
  rwa [total_map_indicator, total_map_indicator] at hset

theorem le_total {n : Nat} {ns : List Nat} (h : n ∈ ns) : n ≤ total ns := by
  induction h with
  | head => exact Nat.le_add_right _ _
  | tail _ _ ih => exact Nat.le_trans ih (Nat.le_add_left _ _)

theorem total_le {bound : Nat} {ns : List Nat} (h : ∀ n ∈ ns, n ≤ bound) :
    total ns ≤ ns.length * bound := by
  induction ns with
  | nil => exact Nat.zero_le _
  | cons n ns ih =>
      have hn := h n List.mem_cons_self
      have hns := ih fun m hm => h m (List.mem_cons_of_mem _ hm)
      rw [total_cons, List.length_cons, Nat.succ_mul]
      omega

theorem total_map_le {α : Type} {f g : α → Nat} {xs : List α} (h : ∀ x ∈ xs, f x ≤ g x) :
    total (xs.map f) ≤ total (xs.map g) := by
  induction xs with
  | nil => exact Nat.le_refl _
  | cons x xs ih =>
      have hx := h x List.mem_cons_self
      have hxs := ih fun y hy => h y (List.mem_cons_of_mem _ hy)
      simp only [List.map_cons, total_cons]
      omega

/-! ## The largest number -/

/-- The largest of some numbers; zero if there are none. -/
def largest (ns : List Nat) : Nat := ns.foldr max 0

theorem largest_cons (n : Nat) (ns : List Nat) : largest (n :: ns) = max n (largest ns) := rfl

theorem largest_perm {ms ns : List Nat} (h : ms.Perm ns) : largest ms = largest ns := by
  induction h with
  | nil => rfl
  | cons n _ ih => rw [largest_cons, largest_cons, ih]
  | swap m n ns => simp only [largest_cons, Nat.max_left_comm]
  | trans _ _ ih ih' => exact ih.trans ih'

end MetricsProxy
