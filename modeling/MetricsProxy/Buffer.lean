import MetricsProxy.Point

/-!
# The bounded buffer

Points wait here between the connections and the flush workers, oldest first.
A full buffer refuses new points instead of waiting. The view is the list of
waiting points; each operation says what it does to that list.
-/
namespace MetricsProxy

structure Buffer where
  capacity : Nat
  waiting : Array Point
  bounded : waiting.size ≤ capacity

namespace Buffer

def empty (capacity : Nat) : Buffer := ⟨capacity, #[], Nat.zero_le _⟩

def toList (b : Buffer) : List Point := b.waiting.toList

def size (b : Buffer) : Nat := b.waiting.size
def isEmpty (b : Buffer) : Bool := b.waiting.isEmpty

/-- Takes one more point if there is room, and says whether it did. -/
def enqueue (b : Buffer) (p : Point) : Buffer × Bool :=
  if h : b.waiting.size < b.capacity then
    (⟨b.capacity, b.waiting.push p, by simpa using Nat.succ_le_of_lt h⟩, true)
  else (b, false)

/-- Takes as many points of a batch as there is room for, in order, and says how many. -/
def enqueueBatch (b : Buffer) (batch : List Point) : Buffer × Nat :=
  let room := b.capacity - b.waiting.size
  (⟨b.capacity, b.waiting ++ batch.take room, by
      have := b.bounded
      rw [← Array.length_toList, Array.toList_appendList, List.length_append, List.length_take,
        Array.length_toList]
      omega⟩,
    min batch.length room)

/-- Removes up to `n` of the oldest points. -/
def drain (b : Buffer) (n : Nat) : Buffer × List Point :=
  (⟨b.capacity, b.waiting.extract n, by
      have := b.bounded
      simp only [Array.size_extract]
      omega⟩,
    (b.waiting.extract 0 n).toList)

def clear (b : Buffer) : Buffer × Nat := (⟨b.capacity, #[], Nat.zero_le _⟩, b.waiting.size)

@[simp] theorem toList_empty (capacity : Nat) : (empty capacity).toList = [] := rfl

theorem length_toList (b : Buffer) : b.toList.length = b.size := by simp [toList, size]

theorem toList_enqueue (b : Buffer) (p : Point) :
    (b.enqueue p).1.toList = if b.size < b.capacity then b.toList ++ [p] else b.toList := by
  unfold enqueue size toList
  split
  · rename_i h; simp
  · rfl

theorem enqueue_accepts_iff (b : Buffer) (p : Point) :
    (b.enqueue p).2 = true ↔ b.size < b.capacity := by
  unfold enqueue size
  split <;> simp_all

theorem toList_enqueueBatch (b : Buffer) (batch : List Point) :
    (b.enqueueBatch batch).1.toList = b.toList ++ batch.take (b.capacity - b.size) := by
  simp [enqueueBatch, toList, size]

theorem toList_drain (b : Buffer) (n : Nat) : (b.drain n).1.toList = b.toList.drop n := by
  simp only [drain, toList, Array.toList_extract, List.extract_eq_take_drop]
  exact List.take_of_length_le (by simp)

theorem drained (b : Buffer) (n : Nat) : (b.drain n).2 = b.toList.take n := by
  simp [drain, toList]

@[simp] theorem toList_clear (b : Buffer) : b.clear.1.toList = [] := rfl

end Buffer
end MetricsProxy
