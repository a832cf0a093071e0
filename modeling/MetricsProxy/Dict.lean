/-!
# Dictionaries in key order

A dictionary keeps its entries strictly increasing by key, so two dictionaries
with the same lookups are equal and every listing comes out in one order: by
code point, the order in which tags and metrics are written.
-/
namespace MetricsProxy

structure Dict (α : Type) where
  entries : List (String × α)
  ordered : entries.Pairwise fun a b => a.1 < b.1
  deriving DecidableEq

namespace Dict
variable {α β : Type}

def empty : Dict α := ⟨[], .nil⟩

instance : Inhabited (Dict α) := ⟨empty⟩

def toList (d : Dict α) : List (String × α) := d.entries

def find? (d : Dict α) (key : String) : Option α :=
  (d.entries.find? fun e => e.1 == key).map (·.2)

def contains (d : Dict α) (key : String) : Bool := (d.find? key).isSome

/-- Puts an entry at its place, replacing one of the same key. -/
def insertEntry (key : String) (value : α) : List (String × α) → List (String × α)
  | [] => [(key, value)]
  | e :: es =>
      if key < e.1 then (key, value) :: e :: es
      else if key = e.1 then (key, value) :: es
      else e :: insertEntry key value es

theorem mem_insertEntry {key : String} {value : α} {e : String × α} {es : List (String × α)}
    (h : e ∈ insertEntry key value es) : e = (key, value) ∨ e ∈ es := by
  induction es with
  | nil => simpa [insertEntry] using h
  | cons f fs ih =>
      simp only [insertEntry] at h
      split at h
      · simpa using h
      · split at h
        · rcases List.mem_cons.mp h with h | h
          · exact .inl h
          · exact .inr (List.mem_cons_of_mem _ h)
        · rcases List.mem_cons.mp h with h | h
          · exact .inr (h ▸ List.mem_cons_self)
          · exact (ih h).imp_right (List.mem_cons_of_mem _)

theorem insertEntry_ordered (key : String) (value : α) {es : List (String × α)}
    (h : es.Pairwise fun a b => a.1 < b.1) :
    (insertEntry key value es).Pairwise fun a b => a.1 < b.1 := by
  induction es with
  | nil => simp [insertEntry]
  | cons f fs ih =>
      have hf := List.pairwise_cons.mp h
      simp only [insertEntry]
      split
      · rename_i hlt
        refine List.pairwise_cons.mpr ⟨fun e he => ?_, h⟩
        rcases List.mem_cons.mp he with rfl | he
        · exact hlt
        · exact String.lt_trans hlt (hf.1 e he)
      · split
        · rename_i heq
          exact List.pairwise_cons.mpr ⟨fun e he => heq ▸ hf.1 e he, hf.2⟩
        · rename_i hlt hne
          refine List.pairwise_cons.mpr ⟨fun e he => ?_, ih hf.2⟩
          rcases mem_insertEntry he with rfl | he
          · rcases Decidable.em (f.1 < key) with h' | h'
            · exact h'
            · exact absurd (String.le_antisymm (String.not_lt.mp h') (String.not_lt.mp hlt)) hne
          · exact hf.1 e he

def insert (d : Dict α) (key : String) (value : α) : Dict α :=
  ⟨insertEntry key value d.entries, insertEntry_ordered key value d.ordered⟩

/-- Inserts in order, so the last value of a repeated key stays. -/
def ofList (es : List (String × α)) : Dict α := es.foldl (fun d e => d.insert e.1 e.2) empty

def erase (d : Dict α) (key : String) : Dict α :=
  ⟨d.entries.filter fun e => e.1 != key, d.ordered.filter _⟩

def map (f : α → β) (d : Dict α) : Dict β :=
  ⟨d.entries.map fun e => (e.1, f e.2), List.pairwise_map.mpr d.ordered⟩

@[simp] theorem find?_empty (key : String) : (empty : Dict α).find? key = none := rfl

theorem find?_insert (d : Dict α) (key other : String) (value : α) :
    (d.insert key value).find? other = if other = key then some value else d.find? other := by
  obtain ⟨es, hes⟩ := d
  simp only [insert, find?]
  induction es with
  | nil =>
      by_cases h : other = key
      · simp [insertEntry, h]
      · simp [insertEntry, h, Ne.symm h]
  | cons f fs ih =>
      have hf := List.pairwise_cons.mp hes
      simp only [insertEntry]
      split
      · by_cases h : other = key
        · simp [h]
        · simp [h, Ne.symm h, List.find?_cons]
      · split
        · rename_i heq
          by_cases h : other = key
          · simp [h]
          · have : ¬ f.1 = other := fun h' => h (h'.symm.trans heq.symm)
            simp [h, Ne.symm h, this]
        · rename_i hne
          by_cases h' : f.1 = other
          · have hk : ¬ other = key := fun h'' => hne (h''.symm.trans h'.symm)
            simp [h', hk]
          · have hb : (f.1 == other) = false := by simpa using h'
            simpa only [List.find?_cons, hb] using ih hf.2

theorem find?_insert_self (d : Dict α) (key : String) (value : α) :
    (d.insert key value).find? key = some value := by simp [find?_insert]

end Dict
end MetricsProxy
