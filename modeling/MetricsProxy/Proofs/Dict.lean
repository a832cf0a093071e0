import MetricsProxy.Dict

/-!
# Dictionaries by their lookups

Since keys increase strictly, an entry stands in a dictionary exactly when its
key answers its value (`mem_entries_iff`), so dictionaries with the same lookups
are equal (`ext`). Equations between dictionaries are proved by comparing what
each operation answers.
-/
namespace MetricsProxy.Dict
variable {α : Type}

/-- Lookup in a list whose keys differ finds what stands in the list. -/
theorem find?_key_iff {es : List (String × α)} (distinct : es.Pairwise fun a b => a.1 ≠ b.1)
    {key : String} {e : String × α} :
    es.find? (fun e => e.1 == key) = some e ↔ e ∈ es ∧ e.1 = key := by
  induction es with
  | nil => simp
  | cons first es ih =>
      obtain ⟨hfirst, hrest⟩ := List.pairwise_cons.mp distinct
      rw [List.find?_cons]
      by_cases hkey : first.1 = key
      · have hother : e ∈ es → e.1 ≠ key := fun he heq => hfirst e he (hkey.trans heq.symm)
        simp only [hkey, beq_self_eq_true, Option.some.injEq, List.mem_cons]
        constructor
        · rintro rfl
          exact ⟨.inl rfl, hkey⟩
        · rintro ⟨rfl | he, heq⟩
          · rfl
          · exact absurd heq (hother he)
      · have hne : (first.1 == key) = false := by simpa using hkey
        rw [hne, ih hrest, List.mem_cons]
        constructor
        · rintro ⟨he, heq⟩
          exact ⟨.inr he, heq⟩
        · rintro ⟨rfl | he, heq⟩
          · exact absurd heq hkey
          · exact ⟨he, heq⟩

theorem distinct_entries (d : Dict α) : d.entries.Pairwise fun a b => a.1 ≠ b.1 := by
  refine d.ordered.imp fun {a b} hlt heq => ?_
  rw [heq] at hlt
  exact String.lt_irrefl _ hlt

theorem mem_entries_iff {d : Dict α} {key : String} {value : α} :
    (key, value) ∈ d.entries ↔ d.find? key = some value := by
  simp only [find?, Option.map_eq_some_iff, find?_key_iff d.distinct_entries]
  constructor
  · intro h
    exact ⟨(key, value), ⟨h, rfl⟩, rfl⟩
  · rintro ⟨e, ⟨he, rfl⟩, rfl⟩
    exact he

/-- Dictionaries are what they answer. -/
theorem ext {d d' : Dict α} (h : ∀ key, d.find? key = d'.find? key) : d = d' := by
  have hnodup (d : Dict α) : d.entries.Nodup :=
    d.distinct_entries.imp fun {a b} hne heq => hne (congrArg Prod.fst heq)
  have hmem (e : String × α) : e ∈ d.entries ↔ e ∈ d'.entries := by
    obtain ⟨key, value⟩ := e
    rw [mem_entries_iff, mem_entries_iff, h]
  have hperm : d.entries.Perm d'.entries :=
    (List.perm_ext_iff_of_nodup (hnodup d) (hnodup d')).mpr hmem
  have hentries : d.entries = d'.entries := hperm.eq_of_pairwise
    (fun a b _ _ hlt hgt => absurd (String.lt_trans hlt hgt) (String.lt_irrefl _))
    d.ordered d'.ordered
  cases d
  cases d'
  congr

/-- Among the entries of other keys a key has none, and the others have theirs. -/
theorem find?_filter_ne (es : List (String × α)) (key other : String) :
    (es.filter fun e => e.1 != key).find? (fun e => e.1 == other) =
      if other = key then none else es.find? fun e => e.1 == other := by
  induction es with
  | nil => simp
  | cons e es ih =>
      rw [List.filter_cons]
      by_cases he : e.1 = key
      · by_cases h : other = key
        · simp [he, h]
        · simpa [he, h, Ne.symm h] using ih
      · by_cases h : other = key
        · subst h
          simp [he]
        · simp only [bne_iff_ne, ne_eq, he, not_false_eq_true, if_true, List.find?_cons, ih, h,
            if_false]

theorem find?_erase (d : Dict α) (key other : String) :
    (d.erase key).find? other = if other = key then none else d.find? other := by
  rw [find?, find?, erase, find?_filter_ne]
  split <;> rfl

theorem erase_eq_self {d : Dict α} {key : String} (absent : d.find? key = none) :
    d.erase key = d := by
  refine ext fun other => ?_
  rw [find?_erase]
  split
  · rename_i h
    rw [h, absent]
  · rfl

theorem erase_insert_self {d : Dict α} {key : String} (absent : d.find? key = none) (value : α) :
    (d.insert key value).erase key = d := by
  refine ext fun other => ?_
  rw [find?_erase, find?_insert]
  split
  · rename_i h
    rw [h, absent]
  · rfl

theorem find?_foldl_insert (es : List (String × α)) (d : Dict α) (key : String) :
    (es.foldl (fun d e => d.insert e.1 e.2) d).find? key =
      ((es.reverse.find? fun e => e.1 == key).map (·.2)).or (d.find? key) := by
  induction es generalizing d with
  | nil => simp
  | cons e es ih =>
      rw [List.foldl_cons, ih, find?_insert, List.reverse_cons, List.find?_append]
      cases es.reverse.find? fun e => e.1 == key with
      | some found => simp
      | none =>
          by_cases h : key = e.1
          · simp [h]
          · simp [h, Ne.symm h]

theorem find?_ofList (es : List (String × α)) (key : String) :
    (ofList es).find? key = (es.reverse.find? fun e => e.1 == key).map (·.2) := by
  rw [ofList, find?_foldl_insert, find?_empty, Option.or_none]

theorem find?_ofList_append (es later : List (String × α)) (key : String) :
    (ofList (es ++ later)).find? key =
      ((ofList later).find? key).or ((ofList es).find? key) := by
  rw [find?_ofList later, ofList, List.foldl_append, find?_foldl_insert, ← ofList]

theorem erase_ofList (es : List (String × α)) (key : String) :
    (ofList es).erase key = ofList (es.filter fun e => e.1 != key) := by
  refine ext fun other => ?_
  rw [find?_erase, find?_ofList, find?_ofList, ← List.filter_reverse, find?_filter_ne]
  split <;> rfl

theorem ofList_cons_toList (d : Dict α) {key : String} (absent : d.find? key = none) (value : α) :
    ofList ((key, value) :: d.toList) = d.insert key value := by
  refine ext fun other => ?_
  -- Keys of a dictionary differ, so the last entry of a key is the first.
  have hlast : (d.toList.reverse.find? fun e => e.1 == other).map (·.2) = d.find? other := by
    have hreverse : d.toList.reverse.Pairwise fun a b => a.1 ≠ b.1 :=
      List.pairwise_reverse.mpr (d.distinct_entries.imp Ne.symm)
    have hsame : d.toList.reverse.find? (fun e => e.1 == other) =
        d.entries.find? fun e => e.1 == other := by
      refine Option.ext fun e => ?_
      rw [find?_key_iff hreverse, find?_key_iff d.distinct_entries, List.mem_reverse, toList]
    rw [hsame, find?]
  rw [ofList, List.foldl_cons, find?_foldl_insert, hlast, find?_insert, find?_insert, find?_empty]
  by_cases h : other = key
  · simp [h, absent]
  · simp [h]

end MetricsProxy.Dict
