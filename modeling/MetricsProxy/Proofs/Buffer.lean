import MetricsProxy.Buffer

/-!
# The buffer is a bounded queue

`Queue.Step` says what a queue of limited length does, on lists alone: which
points an operation lets in and which it lets out, and what it answers. Whatever
is let in follows what is there, and whatever is let out was in front, so in
every run the points let in are those let out, in order, followed by those that
are left (`Queue.Run.conserves`). Every operation of a buffer is a step of the
queue of its waiting points (`perform_step`). A batch does what its points do one
by one (`performAll_enqueue`).
-/
namespace MetricsProxy

namespace Buffer

inductive Operation where
  | enqueue (point : Point)
  | enqueueBatch (batch : List Point)
  | drain (n : Nat)
  | clear

inductive Reply where
  | accepted (whether : Bool)
  | taken (count : Nat)
  | points (oldest : List Point)
  | dropped (count : Nat)
  deriving DecidableEq

def perform (b : Buffer) : Operation → Buffer × Reply
  | .enqueue p => ((b.enqueue p).1, .accepted (b.enqueue p).2)
  | .enqueueBatch batch => ((b.enqueueBatch batch).1, .taken (b.enqueueBatch batch).2)
  | .drain n => ((b.drain n).1, .points (b.drain n).2)
  | .clear => (b.clear.1, .dropped b.clear.2)

def performAll (b : Buffer) : List Operation → Buffer × List Reply
  | [] => (b, [])
  | op :: ops =>
      let (b, reply) := b.perform op
      let (b, replies) := b.performAll ops
      (b, reply :: replies)

end Buffer

namespace Queue
open Buffer (Operation Reply)

/-- One operation on a queue of at most `capacity` points: what it answers, the points
that it lets in, those that it lets out and the queue that it leaves. -/
inductive Step (capacity : Nat) :
    List Point → Operation → Reply → List Point → List Point → List Point → Prop where
  | accepts {queue : List Point} {p : Point} (room : queue.length < capacity) :
      Step capacity queue (.enqueue p) (.accepted true) [p] [] (queue ++ [p])
  | refuses {queue : List Point} {p : Point} (full : queue.length = capacity) :
      Step capacity queue (.enqueue p) (.accepted false) [] [] queue
  | takes {queue front rest : List Point}
      (most : front.length = min (front ++ rest).length (capacity - queue.length)) :
      Step capacity queue (.enqueueBatch (front ++ rest)) (.taken front.length) front []
        (queue ++ front)
  | drains {n : Nat} {oldest rest : List Point}
      (most : oldest.length = min n (oldest ++ rest).length) :
      Step capacity (oldest ++ rest) (.drain n) (.points oldest) [] oldest rest
  | clears {queue : List Point} :
      Step capacity queue .clear (.dropped queue.length) [] queue []

/-- Operations one after another: their answers, all points let in, all points let out and
the queue that is left. -/
inductive Run (capacity : Nat) :
    List Point → List Operation → List Reply → List Point → List Point → List Point → Prop where
  | nil {queue : List Point} : Run capacity queue [] [] [] [] queue
  | cons {queue next last gone left came come : List Point} {op : Operation} {reply : Reply}
      {ops : List Operation} {replies : List Reply}
      (step : Step capacity queue op reply came gone next)
      (run : Run capacity next ops replies come left last) :
      Run capacity queue (op :: ops) (reply :: replies) (came ++ come) (gone ++ left) last

section
variable {capacity : Nat} {queue next came gone : List Point}

/-- Points enter at the end and leave from the front. -/
theorem Step.conserves {op : Operation} {reply : Reply}
    (h : Step capacity queue op reply came gone next) : queue ++ came = gone ++ next := by
  cases h with
  | accepts => rfl
  | refuses => simp
  | takes => rfl
  | drains => simp
  | clears => rfl

theorem Step.length_le {op : Operation} {reply : Reply}
    (h : Step capacity queue op reply came gone next) (bounded : queue.length ≤ capacity) :
    next.length ≤ capacity := by
  cases h with
  | accepts room =>
      rw [List.length_append, List.length_singleton]
      exact room
  | refuses => exact bounded
  | takes most =>
      rw [List.length_append, most]
      omega
  | drains =>
      rw [List.length_append] at bounded
      exact Nat.le_of_add_left_le bounded
  | clears => exact Nat.zero_le _

variable {ops : List Operation} {replies : List Reply}

theorem Run.conserves (h : Run capacity queue ops replies came gone next) :
    queue ++ came = gone ++ next := by
  induction h with
  | nil => simp
  | cons step _ ih =>
      rw [← List.append_assoc, step.conserves, List.append_assoc, ih, ← List.append_assoc]

theorem Run.length_le (h : Run capacity queue ops replies came gone next)
    (bounded : queue.length ≤ capacity) : next.length ≤ capacity := by
  induction h with
  | nil => exact bounded
  | cons step _ ih => exact ih (step.length_le bounded)

end
end Queue

namespace Buffer
open Queue (Step Run)

theorem enqueue_of_full {b : Buffer} (full : b.size = b.capacity) (p : Point) :
    b.enqueue p = (b, false) := by
  have hfull : ¬ b.waiting.size < b.capacity := Nat.not_lt_of_le (Nat.le_of_eq full.symm)
  rw [enqueue, dif_neg hfull]

theorem enqueue_eq_false_iff (b : Buffer) (p : Point) :
    (b.enqueue p).2 = false ↔ b.size = b.capacity := by
  have hle : b.size ≤ b.capacity := b.bounded
  rw [← Bool.not_eq_true, enqueue_accepts_iff]
  omega

theorem taken_eq (b : Buffer) (batch : List Point) :
    (b.enqueueBatch batch).2 = (batch.take (b.capacity - b.size)).length := by
  rw [List.length_take, Nat.min_comm]
  rfl

theorem size_clear (b : Buffer) : b.clear.2 = b.toList.length := b.length_toList.symm

@[simp] theorem capacity_perform (b : Buffer) (op : Operation) :
    (b.perform op).1.capacity = b.capacity := by
  cases op with
  | enqueue p =>
      dsimp only [perform, enqueue]
      split <;> rfl
  | enqueueBatch batch => rfl
  | drain n => rfl
  | clear => rfl

/-- Every operation of a buffer is a step of the queue of its waiting points. -/
theorem perform_step (b : Buffer) (op : Operation) :
    ∃ came gone, Step b.capacity b.toList op (b.perform op).2 came gone
      (b.perform op).1.toList := by
  cases op with
  | enqueue p =>
      by_cases room : b.size < b.capacity
      · have haccepts := (b.enqueue_accepts_iff p).mpr room
        refine ⟨[p], [], ?_⟩
        rw [perform, haccepts, toList_enqueue, if_pos room]
        exact .accepts (b.length_toList ▸ room)
      · have full : b.size = b.capacity := Nat.le_antisymm b.bounded (Nat.le_of_not_lt room)
        refine ⟨[], [], ?_⟩
        rw [perform, enqueue_of_full full]
        exact .refuses (b.length_toList ▸ full)
  | enqueueBatch batch =>
      refine ⟨batch.take (b.capacity - b.size), [], ?_⟩
      have htakes := @Step.takes b.capacity b.toList (batch.take (b.capacity - b.size))
        (batch.drop (b.capacity - b.size))
        (by rw [List.take_append_drop, List.length_take, b.length_toList, Nat.min_comm])
      rw [List.take_append_drop, ← taken_eq, ← toList_enqueueBatch] at htakes
      exact htakes
  | drain n =>
      refine ⟨[], b.toList.take n, ?_⟩
      have hdrains := @Step.drains b.capacity n (b.toList.take n) (b.toList.drop n)
        (by rw [List.take_append_drop, List.length_take])
      rw [List.take_append_drop, ← toList_drain] at hdrains
      rw [perform, drained]
      exact hdrains
  | clear =>
      refine ⟨[], b.toList, ?_⟩
      rw [perform, size_clear]
      exact .clears

theorem performAll_run (b : Buffer) (ops : List Operation) :
    (b.performAll ops).1.capacity = b.capacity ∧
      ∃ came gone, Run b.capacity b.toList ops (b.performAll ops).2 came gone
        (b.performAll ops).1.toList := by
  induction ops generalizing b with
  | nil => exact ⟨rfl, [], [], .nil⟩
  | cons op ops ih =>
      obtain ⟨came, gone, step⟩ := b.perform_step op
      obtain ⟨hcapacity, come, left, run⟩ := ih (b.perform op).1
      rw [capacity_perform] at hcapacity run
      exact ⟨hcapacity, came ++ come, gone ++ left, .cons step run⟩

/-- Whatever is done with a buffer that was empty, it answers as a bounded queue
does: the points that were accepted are those that were drained or cleared, oldest
first, followed by those that wait. It never holds more than its capacity; it
refuses a point exactly when it is full, and then nothing changes; a drain takes
the oldest points, as many as were asked for if there are so many; clearing says
how many points there were and leaves none. -/
theorem performAll_fifo (capacity : Nat) (ops : List Operation) :
    let b := ((empty capacity).performAll ops).1
    (∃ accepted removed : List Point,
      Run capacity [] ops ((empty capacity).performAll ops).2 accepted removed b.toList ∧
        accepted = removed ++ b.toList) ∧
      b.toList.length ≤ capacity ∧
      (∀ p : Point, ((b.enqueue p).2 = false ↔ b.toList.length = capacity) ∧
        ((b.enqueue p).2 = false → (b.enqueue p).1 = b)) ∧
      (∀ n : Nat, (b.drain n).2.length = min n b.toList.length ∧
        b.toList = (b.drain n).2 ++ (b.drain n).1.toList) ∧
      b.clear.2 = b.toList.length ∧ b.clear.1.toList = [] := by
  intro b
  obtain ⟨hcapacity, accepted, removed, run⟩ := (empty capacity).performAll_run ops
  have hconserves : [] ++ accepted = removed ++ b.toList := run.conserves
  have hfull (p : Point) : (b.enqueue p).2 = false ↔ b.size = capacity := by
    rw [enqueue_eq_false_iff, hcapacity]
    rfl
  refine ⟨⟨accepted, removed, run, hconserves⟩, run.length_le (Nat.zero_le _), fun p => ?_,
    fun n => ?_, b.size_clear, rfl⟩
  · rw [b.length_toList]
    refine ⟨hfull p, fun refused => ?_⟩
    rw [enqueue_of_full ((b.enqueue_eq_false_iff p).mp refused)]
  · rw [drained, toList_drain, List.length_take, List.take_append_drop]
    exact ⟨rfl, rfl⟩

/-! ## A batch and its points one by one -/

theorem ext {b b' : Buffer} (capacity : b.capacity = b'.capacity) (waiting : b.toList = b'.toList) :
    b = b' := by
  cases b
  cases b'
  obtain rfl := capacity
  obtain rfl := Array.toList_inj.mp waiting
  rfl

@[simp] theorem capacity_enqueue (b : Buffer) (p : Point) :
    (b.enqueue p).1.capacity = b.capacity := b.capacity_perform (.enqueue p)

@[simp] theorem capacity_enqueueBatch (b : Buffer) (batch : List Point) :
    (b.enqueueBatch batch).1.capacity = b.capacity := rfl

@[simp] theorem enqueueBatch_nil (b : Buffer) : b.enqueueBatch [] = (b, 0) := by
  have hsame : (b.enqueueBatch []).1 = b := ext rfl (by simp [toList_enqueueBatch])
  have hnone : (b.enqueueBatch []).2 = 0 := by simp [taken_eq]
  rw [← Prod.eta (b.enqueueBatch []), hsame, hnone]

theorem size_le (b : Buffer) : b.size ≤ b.capacity := b.bounded

theorem size_enqueue_of_room {b : Buffer} (room : b.size < b.capacity) (p : Point) :
    (b.enqueue p).1.size = b.size + 1 := by
  rw [← length_toList, toList_enqueue, if_pos room, List.length_append, length_toList,
    List.length_singleton]

/-- A batch takes its first point as that point alone is taken, then the others. -/
theorem enqueueBatch_cons (b : Buffer) (p : Point) (batch : List Point) :
    b.enqueueBatch (p :: batch) = (((b.enqueue p).1.enqueueBatch batch).1,
      (b.enqueue p).2.toNat + ((b.enqueue p).1.enqueueBatch batch).2) := by
  rcases Nat.lt_or_eq_of_le b.size_le with room | full
  · obtain ⟨k, hk⟩ : ∃ k, b.capacity - b.size = k + 1 := ⟨b.capacity - b.size - 1, by omega⟩
    have hleft : b.capacity - (b.size + 1) = k := by omega
    have haccepts : (b.enqueue p).2 = true := (b.enqueue_accepts_iff p).mpr room
    refine Prod.ext (ext (by simp) ?_) ?_
    · simp [toList_enqueueBatch, toList_enqueue, room, size_enqueue_of_room room, hk, hleft]
    · simp [taken_eq, size_enqueue_of_room room, haccepts, hk, hleft, Nat.add_comm 1]
  · rw [enqueue_of_full full]
    refine Prod.ext (ext rfl ?_) ?_
    · simp [toList_enqueueBatch, full]
    · simp [taken_eq, full]

/-- A batch may be cut anywhere. -/
theorem enqueueBatch_append (b : Buffer) (front back : List Point) :
    b.enqueueBatch (front ++ back) = (((b.enqueueBatch front).1.enqueueBatch back).1,
      (b.enqueueBatch front).2 + ((b.enqueueBatch front).1.enqueueBatch back).2) := by
  induction front generalizing b with
  | nil => simp
  | cons p front ih => simp only [List.cons_append, enqueueBatch_cons, ih, Nat.add_assoc]

/-- The answers to points that come one by one: the first ones are accepted, the others
refused. -/
def answers (accepted refused : Nat) : List Reply :=
  List.replicate accepted (.accepted true) ++ List.replicate refused (.accepted false)

theorem count_answers (accepted refused : Nat) :
    (answers accepted refused).count (.accepted true) = accepted := by
  simp [answers, List.count_replicate]

theorem answers_succ (accepted refused : Nat) :
    answers (accepted + 1) refused = .accepted true :: answers accepted refused := rfl

theorem answers_zero_succ (refused : Nat) :
    answers 0 (refused + 1) = .accepted false :: answers 0 refused := rfl

theorem taken_le (b : Buffer) (batch : List Point) : (b.enqueueBatch batch).2 ≤ batch.length :=
  Nat.min_le_left _ _

theorem performAll_enqueue (b : Buffer) (batch : List Point) :
    b.performAll (batch.map .enqueue) = ((b.enqueueBatch batch).1,
      answers (b.enqueueBatch batch).2 (batch.length - (b.enqueueBatch batch).2)) := by
  induction batch generalizing b with
  | nil => simp [performAll, answers]
  | cons p batch ih =>
      simp only [List.map_cons, performAll, perform, ih, enqueueBatch_cons, List.length_cons]
      rcases Nat.lt_or_eq_of_le b.size_le with room | full
      · have haccepts : (b.enqueue p).2 = true := (b.enqueue_accepts_iff p).mpr room
        rw [haccepts, Bool.toNat_true, Nat.add_comm 1, answers_succ, Nat.add_sub_add_right]
      · have hnone : (b.enqueueBatch batch).2 = 0 := by simp [taken_eq, full]
        rw [enqueue_of_full full, hnone, Bool.toNat_false, Nat.add_zero, Nat.sub_zero, Nat.sub_zero,
          answers_zero_succ]

/-- A batch leaves what its points leave when they come one by one, and says how many of them
are accepted. Those are the first ones, as many as there is room for. A batch that is cut in
two leaves the same and takes as many. -/
theorem enqueueBatch_one_by_one (b : Buffer) (batch : List Point) :
    let whole := b.enqueueBatch batch
    let single := b.performAll (batch.map .enqueue)
    single.1 = whole.1 ∧
      single.2.count (.accepted true) = whole.2 ∧
      (∃ refused, whole.2 + refused = batch.length ∧ single.2 = answers whole.2 refused) ∧
      whole.1.toList = b.toList ++ batch.take whole.2 ∧
      ∀ front back, front ++ back = batch →
        let first := b.enqueueBatch front
        let second := first.1.enqueueBatch back
        second.1 = whole.1 ∧ first.2 + second.2 = whole.2 := by
  intro whole single
  have hsingle : single = (whole.1, answers whole.2 (batch.length - whole.2)) :=
    b.performAll_enqueue batch
  have htaken : batch.take whole.2 = batch.take (b.capacity - b.size) := by
    rw [show whole.2 = min batch.length (b.capacity - b.size) from rfl, List.take_eq_take_iff]
    omega
  refine ⟨by rw [hsingle], by rw [hsingle, count_answers], ⟨batch.length - whole.2, ?_, ?_⟩, ?_, ?_⟩
  · exact Nat.add_sub_cancel' (b.taken_le batch)
  · rw [hsingle]
  · rw [htaken]
    exact b.toList_enqueueBatch batch
  · rintro front back rfl
    have hcut : whole = _ := b.enqueueBatch_append front back
    simp [hcut]

end Buffer
end MetricsProxy
