import MetricsProxy.Proofs.Relay.Tasks

/-!
# The books of a pool

Three facts tie a pool to the journal. The points of its units, in the order in
which their sends began, and then its buffer are what the buffer accepted, in
that order. Of the units begun, some have returned, some are with workers that
wait for them, and some are abandoned; the pool counts the points of the last
two kinds. A worker that waits, waits for the unit that it began last. Workers,
acceptances and aborts keep these facts (`PoolAccount`).

A pool that is retired does nothing any more.
-/
namespace MetricsProxy
open Journal

/-- The unit of the send in progress. -/
def Phase.units : Phase → List WorkUnit
  | sending f => [f.unit]
  | _ => []

theorem Phase.units_of_isOver {phase : Phase} (h : phase.isOver = true) : phase.units = [] := by
  cases phase <;> first | rfl | cases h

namespace FlushPool

def flying (p : FlushPool) : List WorkUnit := p.workers.flatMap fun w => w.phase.units

def AllOver (p : FlushPool) : Prop := ∀ w ∈ p.workers, w.phase.isOver = true

def AllWorking (p : FlushPool) : Prop := ∀ w ∈ p.workers, w.phase.isOver = false

theorem AllOver.flying_eq {p : FlushPool} (h : p.AllOver) : p.flying = [] :=
  List.flatMap_eq_nil_iff.mpr fun w hw => Phase.units_of_isOver (h w hw)

theorem flying_set {p : FlushPool} {j : Nat} {w : Worker} (h : p.workers[j]? = some w)
    (w' : Worker) {q : FlushPool} (hq : q.workers = p.workers.set j w') :
    (w.phase.units ++ q.flying).Perm (w'.phase.units ++ p.flying) := by
  rw [flying, hq]
  exact perm_flatMap_set (fun w => w.phase.units) h w'

end FlushPool

theorem unitPoints_perm {us vs : List WorkUnit} (h : us.Perm vs) :
    (unitPoints us).Perm (unitPoints vs) := h.flatMap_right _

/-- What the journal and the pool have to say about each other. -/
structure PoolAccount (i : Nat) (journal : List Event) (p : FlushPool) : Prop where
  order : acceptedPoints i journal = unitPoints (begunUnits i journal) ++ p.buffer.toList
  sends : ∃ abandoned,
    (begunUnits i journal).Perm (returnedUnits i journal ++ (p.flying ++ abandoned)) ∧
    p.inFlight = (unitPoints (p.flying ++ abandoned)).length
  last : ∀ (j : Nat) (w : Worker) (f : Flight), p.workers[j]? = some w → w.phase = .sending f →
    lastBegun (.worker i j) journal = some f.unit

namespace PoolAccount
variable {now i : Nat} {p q : FlushPool} {journal : List Event}

theorem congr {journal' : List Event} (h : PoolAccount i journal p)
    (same : SameFor i journal' journal) : PoolAccount i journal' p where
  order := by simpa only [acceptedPoints, same.acceptances, same.begun] using h.order
  sends := by simpa only [same.begun, same.returned] using h.sends
  last j w f hw hf := (same.last _ rfl).trans (h.last j w f hw hf)

/-- The account looks at the buffer's contents, at what workers send and at the count. -/
theorem of_same (h : PoolAccount i journal p) (hbuffer : q.buffer = p.buffer)
    (hflight : q.inFlight = p.inFlight) (hworkers : q.workers = p.workers) :
    PoolAccount i journal q where
  order := by rw [hbuffer]; exact h.order
  sends := by simpa only [FlushPool.flying, hworkers, hflight] using h.sends
  last := by rw [hworkers]; exact h.last

/-- When one worker changes, it alone has to answer for its last unit. -/
theorem last_set {j : Nat} {w' : Worker} {journal' : List Event} (h : PoolAccount i journal p)
    (others : ∀ k, k ≠ j → lastBegun (.worker i k) journal' = lastBegun (.worker i k) journal)
    (own : ∀ f, w'.phase = .sending f → lastBegun (.worker i j) journal' = some f.unit) :
    ∀ (k : Nat) (v : Worker) (f : Flight), (p.workers.set j w')[k]? = some v →
      v.phase = .sending f → lastBegun (.worker i k) journal' = some f.unit := by
  intro k v f hv hf
  rcases of_getElem?_set hv with ⟨rfl, rfl⟩ | ⟨hjk, hv⟩
  · exact own f hf
  · rw [others k (Ne.symm hjk)]
    exact h.last k v f hv hf

theorem idles {j ticket : Nat} {w : Worker} (h : PoolAccount i journal p)
    (worker : p.workers[j]? = some w) (idle : w.phase = .idle) (empty : p.buffer.toList = []) :
    PoolAccount i journal
      { p.drained with workers := p.workers.set j ⟨w.ticker.take now, .idle, ticket⟩ } := by
  obtain ⟨abandoned, hsends, hflight⟩ := h.sends
  have hfly := FlushPool.flying_set worker ⟨w.ticker.take now, .idle, ticket⟩
    (q := { p.drained with workers := p.workers.set j ⟨w.ticker.take now, .idle, ticket⟩ }) rfl
  rw [idle] at hfly
  have hall := List.Perm.append_right abandoned hfly
  refine ⟨?_, ⟨abandoned, hsends.trans (hall.symm.append_left _), ?_⟩, ?_⟩
  · have hdrained := p.nextPoints_append_drained
    rw [empty, List.append_eq_nil_iff] at hdrained
    rw [h.order, empty, hdrained.2]
  · exact hflight.trans (unitPoints_perm hall).length_eq.symm
  · exact h.last_set (fun _ _ => rfl) fun f hf => by cases hf

theorem begins {j ticket : Nat} {w : Worker} {flight : Flight} (h : PoolAccount i journal p)
    (worker : p.workers[j]? = some w) (idle : w.phase = .idle)
    (unit : flight.unit = ⟨p.nextPoints⟩) :
    PoolAccount i (.begun (.worker i j) now flight.unit :: journal)
      { p.drained with
        inFlight := p.inFlight + flight.unit.size
        workers := p.workers.set j ⟨w.ticker.take now, .sending flight, ticket⟩ } := by
  obtain ⟨abandoned, hsends, hflight⟩ := h.sends
  have hfly := FlushPool.flying_set worker ⟨w.ticker.take now, .sending flight, ticket⟩
    (q := { p.drained with
      inFlight := p.inFlight + flight.unit.size
      workers := p.workers.set j ⟨w.ticker.take now, .sending flight, ticket⟩ }) rfl
  rw [idle] at hfly
  have hall := List.Perm.append_right abandoned hfly
  simp only [Phase.units, List.nil_append, List.cons_append] at hall
  have hbegun : begunUnits i (.begun (.worker i j) now flight.unit :: journal) =
      begunUnits i journal ++ [flight.unit] := if_pos rfl
  refine ⟨?_, ⟨abandoned, ?_, ?_⟩, ?_⟩
  · rw [hbegun, unitPoints_append, unitPoints_singleton, List.append_assoc, unit]
    exact h.order.trans (congrArg _ p.nextPoints_append_drained.symm)
  · rw [hbegun]
    refine (hsends.append_right _).trans ?_
    rw [List.append_assoc]
    exact (List.perm_append_singleton _ _).trans hall.symm |>.append_left _
  · rw [(unitPoints_perm hall).length_eq, unitPoints_cons, List.length_append, ← hflight]
    exact Nat.add_comm _ _
  · refine h.last_set (fun k hk => ?_) fun f hf => ?_
    · exact if_neg fun e => hk (by simpa using e.symm)
    · cases hf
      exact if_pos rfl

theorem lands {j ticket : Nat} {w : Worker} {flight : Flight} (h : PoolAccount i journal p)
    (worker : p.workers[j]? = some w) (sends : w.phase = .sending flight) :
    PoolAccount i (.returned (.worker i j) now flight.result :: journal)
      { p with
        inFlight := p.inFlight - flight.unit.size
        workers := p.workers.set j ⟨w.ticker, .idle, ticket⟩ } := by
  obtain ⟨abandoned, hsends, hflight⟩ := h.sends
  have hfly := FlushPool.flying_set worker ⟨w.ticker, .idle, ticket⟩
    (q := { p with
      inFlight := p.inFlight - flight.unit.size
      workers := p.workers.set j ⟨w.ticker, .idle, ticket⟩ }) rfl
  rw [sends] at hfly
  have hall := List.Perm.append_right abandoned hfly
  simp only [Phase.units, List.nil_append, List.cons_append] at hall
  have hreturned : returnedUnits i (.returned (.worker i j) now flight.result :: journal) =
      returnedUnits i journal ++ [flight.unit] := by
    rw [returnedUnits, if_pos (by rfl), h.last j w flight worker sends]
    rfl
  refine ⟨h.order, ⟨abandoned, ?_, ?_⟩, ?_⟩
  · rw [hreturned, List.append_assoc]
    exact hsends.trans (hall.symm.append_left _)
  · have hlength := (unitPoints_perm hall).length_eq
    have hsize : flight.unit.size = flight.unit.points.length := rfl
    rw [unitPoints_cons, List.length_append] at hlength
    change p.inFlight - flight.unit.size = _
    omega
  · exact h.last_set (fun _ _ => rfl) fun f hf => by cases hf

theorem quits {j : Nat} {w : Worker} (h : PoolAccount i journal p)
    (worker : p.workers[j]? = some w) (idle : w.phase = .idle) :
    PoolAccount i journal { p with workers := p.workers.set j { w with phase := .ended } } := by
  obtain ⟨abandoned, hsends, hflight⟩ := h.sends
  have hfly := FlushPool.flying_set worker { w with phase := .ended }
    (q := { p with workers := p.workers.set j { w with phase := .ended } }) rfl
  rw [idle] at hfly
  have hall := List.Perm.append_right abandoned hfly
  refine ⟨h.order, ⟨abandoned, hsends.trans (hall.symm.append_left _), ?_⟩, ?_⟩
  · exact hflight.trans (unitPoints_perm hall).length_eq.symm
  · exact h.last_set (fun _ _ => rfl) fun f hf => by cases hf

theorem step {events : List Event} (h : PoolAccount i journal p)
    (move : PoolStep now i p events q) : PoolAccount i (events ++ journal) q := by
  induction move generalizing journal with
  | idles ticket _ worker _ idle _ empty => exact h.idles worker idle empty
  | begins flight ticket _ worker _ idle _ _ unit => exact h.begins worker idle unit
  | lands flight ticket _ worker sends _ => exact h.lands worker sends
  | quits worker _ idle => exact h.quits worker idle
  | seq _ _ ih ih' =>
      rw [List.append_assoc]
      exact ih' (ih h)

theorem accepts (h : PoolAccount i journal p) (c : Option Nat) (point : Point)
    (room : p.buffer.size < p.buffer.capacity) :
    PoolAccount i (.accepted i c point :: journal)
      { p with buffer := (p.buffer.enqueue point).1 } where
  order := by
    rw [Buffer.toList_enqueue, if_pos room, ← List.append_assoc]
    simp [acceptedPoints, acceptances, begunUnits, ← h.order]
  sends := h.sends
  last := h.last

theorem aborts (h : PoolAccount i journal p) :
    PoolAccount i journal { p with workers := p.workers.map Worker.abort } := by
  obtain ⟨abandoned, hsends, hflight⟩ := h.sends
  have hover : FlushPool.AllOver { p with workers := p.workers.map Worker.abort } := by
    intro w hw
    obtain ⟨v, -, rfl⟩ := List.mem_map.mp hw
    unfold Worker.abort
    split
    · assumption
    · rfl
  refine ⟨h.order, ⟨p.flying ++ abandoned, ?_, ?_⟩, ?_⟩
  · simpa [hover.flying_eq] using hsends
  · simpa [hover.flying_eq] using hflight
  · intro j w f hw hf
    have hw' := hover w (List.mem_of_getElem? hw)
    rw [hf] at hw'
    cases hw'

/-- Of a pool whose workers are all over, what it counts and what it holds is lost:
with the points of the returned units it makes up all that was accepted. -/
theorem lost (h : PoolAccount i journal p) (allOver : p.AllOver) :
    ∃ lost, (acceptedPoints i journal).Perm (unitPoints (returnedUnits i journal) ++ lost) ∧
      lost.length = p.inFlight + p.buffer.size := by
  obtain ⟨abandoned, hsends, hflight⟩ := h.sends
  rw [allOver.flying_eq, List.nil_append] at hsends hflight
  refine ⟨unitPoints abandoned ++ p.buffer.toList, ?_, ?_⟩
  · rw [h.order, ← List.append_assoc, ← unitPoints_append]
    exact (unitPoints_perm hsends).append_right _
  · rw [List.length_append, hflight, Buffer.length_toList]

end PoolAccount

structure Retired (p : FlushPool) : Prop where
  cancelled : p.cancelled = true
  allOver : p.AllOver
  empty : p.buffer.toList = []
  idle : p.inFlight = 0

namespace PoolStep
variable {now i : Nat} {p q : FlushPool} {events : List Event}

theorem acceptances_eq (h : PoolStep now i p events q) (journal : List Event) :
    acceptances i (events ++ journal) = acceptances i journal := by
  induction h generalizing journal with
  | seq _ _ ih ih' => rw [List.append_assoc, ih', ih]
  | _ => rfl

theorem not_allOver (h : PoolStep now i p events q) : ¬ p.AllOver := by
  refine h.induct_tasks (motive := fun us _ => ¬ ∀ w ∈ us, w.phase.isOver = true) ?_ ?_
  · intro ws j w w' hw step allOver
    have hover := allOver w (List.mem_of_getElem? hw)
    rw [step.awake] at hover
    cases hover
  · intro us vs ws first _
    exact first

theorem getElem?_of_isOver (h : PoolStep now i p events q) {k : Nat} {v : Worker}
    (hv : p.workers[k]? = some v) (isOver : v.phase.isOver = true) : q.workers[k]? = some v := by
  have hkeeps : p.workers[k]? = some v → q.workers[k]? = some v := by
    refine h.induct_tasks (motive := fun us vs => us[k]? = some v → vs[k]? = some v) ?_ ?_
    · intro ws j w w' hw step hv
      rw [List.getElem?_set_ne, hv]
      intro hjk
      rw [hjk, hv] at hw
      cases hw
      rw [step.awake] at isOver
      cases isOver
    · intro us vs ws first second hv
      exact second (first hv)
  exact hkeeps hv

theorem allWorking (h : PoolStep now i p events q) (running : p.cancelled = false)
    (working : p.AllWorking) : q.AllWorking := by
  have hset {p : FlushPool} {j : Nat} {w' : Worker} (working : p.AllWorking)
      (awake : w'.phase.isOver = false) : ∀ w ∈ p.workers.set j w', w.phase.isOver = false := by
    intro w hw
    rcases List.mem_or_eq_of_mem_set hw with hw | rfl
    · exact working w hw
    · exact awake
  induction h with
  | idles => exact hset working rfl
  | begins => exact hset working rfl
  | lands => exact hset working rfl
  | quits _ cancelled _ => rw [running] at cancelled; cases cancelled
  | seq first _ ih ih' => exact ih' (first.cancelled_eq.trans running) (ih running working)

end PoolStep
end MetricsProxy
