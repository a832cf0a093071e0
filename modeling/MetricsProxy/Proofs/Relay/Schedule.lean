import MetricsProxy.Proofs.Relay.Orderly
import MetricsProxy.Relay.Agenda

/-!
# What the agenda holds

Every task that is not over has one entry, with the action that it would take
next and the time when it can take it. `Scheduled` has a rule for each kind of
entry, with the guard under which its action does something. The first entry is
one before which no other entry comes.
-/
namespace MetricsProxy

/-- The worker that an action is the next step of, by its pool and its place there. -/
def Action.worker? : Action → Option (Nat × Nat)
  | tick i j | deliver i j | quit i j => some (i, j)
  | _ => none

namespace Entry
variable {es : List Entry} {e f : Entry}

theorem before_iff (e f : Entry) :
    e.before f = true ↔ e.time < f.time ∨ e.time = f.time ∧ e.ticket < f.ticket := by
  simp [before]

theorem earliest_eq_none (h : earliest es = none) : es = [] := by
  cases es with
  | nil => rfl
  | cons e es =>
      rw [earliest] at h
      split at h
      · cases h
      · split at h <;> cases h

theorem mem_of_earliest (h : earliest es = some e) : e ∈ es := by
  induction es generalizing e with
  | nil => cases h
  | cons a es ih =>
      rw [earliest] at h
      split at h
      · cases h
        exact List.mem_cons_self
      · rename_i g hg
        split at h
        · cases h
          exact List.mem_cons_of_mem _ (ih hg)
        · cases h
          exact List.mem_cons_self

theorem not_before_earliest (h : earliest es = some e) : ∀ f ∈ es, ¬ f.before e = true := by
  induction es generalizing e with
  | nil => cases h
  | cons a es ih =>
      intro f hf
      rw [earliest] at h
      split at h
      · rename_i hnone
        cases h
        rw [earliest_eq_none hnone] at hf
        rw [List.mem_singleton.mp hf, before_iff]
        omega
      · rename_i g hg
        split at h
        · rename_i hbefore
          cases h
          rcases List.mem_cons.mp hf with rfl | hf
          · rw [before_iff] at hbefore ⊢
            omega
          · exact ih hg f hf
        · rename_i hbefore
          cases h
          rcases List.mem_cons.mp hf with rfl | hf
          · rw [before_iff]
            omega
          · have hmin := ih hg f hf
            rw [before_iff] at hbefore hmin ⊢
            omega

end Entry

namespace Relay

/-- The entries of the agenda, one rule for each kind. -/
inductive Scheduled (s : Relay) : Entry → Prop where
  | tick {i j : Nat} {p : FlushPool} {w : Worker} (pool : s.pools[i]? = some p)
      (worker : p.workers[j]? = some w) (running : p.cancelled = false)
      (idle : w.phase = .idle) :
      Scheduled s ⟨max w.ticker.due s.now, w.ticket, .tick i j⟩
  | quit {i j : Nat} {p : FlushPool} {w : Worker} (pool : s.pools[i]? = some p)
      (worker : p.workers[j]? = some w) (cancelled : p.cancelled = true)
      (idle : w.phase = .idle) : Scheduled s ⟨s.now, readyTicket, .quit i j⟩
  | deliver {i j : Nat} {p : FlushPool} {w : Worker} {flight : Flight}
      (pool : s.pools[i]? = some p) (worker : p.workers[j]? = some w)
      (sends : w.phase = .sending flight) :
      Scheduled s ⟨max flight.ends s.now, w.ticket, .deliver i j⟩
  | reporterTick {k : Nat} {r : Reporter} (reporter : s.reporters[k]? = some r)
      (running : r.cancelled = false) (idle : r.task.phase = .idle) :
      Scheduled s ⟨max r.task.ticker.due s.now, r.task.ticket, .reporterTick k⟩
  | reporterDeliver {k : Nat} {r : Reporter} {flight : Flight}
      (reporter : s.reporters[k]? = some r) (running : r.cancelled = false)
      (sends : r.task.phase = .sending flight) :
      Scheduled s ⟨max flight.ends s.now, r.task.ticket, .reporterDeliver k⟩
  | reporterQuit {k : Nat} {r : Reporter} (reporter : s.reporters[k]? = some r)
      (cancelled : r.cancelled = true) (awake : r.task.phase.isOver = false) :
      Scheduled s ⟨s.now, readyTicket, .reporterQuit k⟩
  | readOn {c : Nat} {x : Connection} (connection : s.connections[c]? = some x)
      (live : x.live = true) (reason : s.listeners[x.listener]?.elim false s.isCancelled = true ∨
        x.broken = true ∨ x.finished = true ∨ x.arrived ≠ []) :
      Scheduled s ⟨s.now, readyTicket, .readOn c⟩
  | endAccepting {l : Nat} {x : Listener} (listener : s.listeners[l]? = some x)
      (accepting : x.accepting = true) (cancelled : s.isCancelled x = true)
      (alone : s.liveCount l = 0) : Scheduled s ⟨s.now, readyTicket, .endAccepting l⟩
  | awaitTask {l : Nat} {x : Listener} {closing : Closing} (listener : s.listeners[l]? = some x)
      (closes : x.closing = some closing)
      (ready : (s.tasksOver x)[closing.awaited]? ≠ some false) :
      Scheduled s ⟨s.now, ownerTicket, .awaitTask l⟩
  | expire {l : Nat} {x : Listener} {closing : Closing} (listener : s.listeners[l]? = some x)
      (closes : x.closing = some closing)
      (waits : (s.tasksOver x)[closing.awaited]? = some false) :
      Scheduled s ⟨max closing.deadline s.now, ownerTicket, .expire l⟩

variable {s : Relay} {e : Entry}

theorem scheduled_of_worker {i : Nat} {p : FlushPool} (pool : s.pools[i]? = some p)
    (h : e ∈ s.workerEntries i p) : Scheduled s e := by
  obtain ⟨⟨w, j⟩, hw, he⟩ := List.mem_filterMap.mp h
  have worker : p.workers[j]? = some w := List.mem_zipIdx_iff_getElem?.mp hw
  dsimp only at he
  cases hphase : w.phase with
  | idle =>
      rw [hphase] at he
      dsimp only at he
      split at he
      · rename_i cancelled
        cases he
        exact .quit pool worker cancelled hphase
      · rename_i running
        cases he
        exact .tick pool worker (Bool.not_eq_true _ ▸ running) hphase
  | sending flight =>
      rw [hphase] at he
      cases he
      exact .deliver pool worker hphase
  | ended =>
      rw [hphase] at he
      cases he
  | aborted =>
      rw [hphase] at he
      cases he

theorem scheduled_of_reporter {k : Nat} {r : Reporter} (reporter : s.reporters[k]? = some r)
    (h : s.reporterEntry k r = some e) : Scheduled s e := by
  unfold reporterEntry at h
  cases hphase : r.task.phase with
  | idle =>
      rw [hphase] at h
      dsimp only at h
      split at h
      · rename_i cancelled
        cases h
        exact .reporterQuit reporter cancelled (by rw [hphase]; rfl)
      · rename_i running
        cases h
        exact .reporterTick reporter (Bool.not_eq_true _ ▸ running) hphase
  | sending flight =>
      rw [hphase] at h
      dsimp only at h
      split at h
      · rename_i cancelled
        cases h
        exact .reporterQuit reporter cancelled (by rw [hphase]; rfl)
      · rename_i running
        cases h
        exact .reporterDeliver reporter (Bool.not_eq_true _ ▸ running) hphase
  | ended =>
      rw [hphase] at h
      cases h
  | aborted =>
      rw [hphase] at h
      cases h

theorem scheduled_of_connection {c : Nat} {x : Connection}
    (connection : s.connections[c]? = some x) (h : s.connectionEntry c x = some e) :
    Scheduled s e := by
  unfold connectionEntry at h
  dsimp only at h
  split at h
  · rename_i reason
    cases h
    rw [Bool.and_eq_true] at reason
    refine .readOn connection reason.1 ?_
    simpa [or_assoc] using reason.2
  · cases h

theorem scheduled_of_listener {l : Nat} {x : Listener} (listener : s.listeners[l]? = some x)
    (h : e ∈ s.listenerEntries l x) : Scheduled s e := by
  unfold listenerEntries at h
  rcases List.mem_append.mp h with h | h
  · split at h
    · rename_i guard
      obtain rfl := List.mem_singleton.mp h
      simp only [Bool.and_eq_true, beq_iff_eq] at guard
      exact .endAccepting listener guard.1.1 guard.1.2 guard.2
    · cases h
  · cases hcloses : x.closing with
    | none =>
        rw [hcloses] at h
        cases h
    | some closing =>
        rw [hcloses] at h
        dsimp only [Option.elim_some] at h
        split at h
        · rename_i waits
          obtain rfl := List.mem_singleton.mp h
          exact .expire listener hcloses waits
        · rename_i ready
          obtain rfl := List.mem_singleton.mp h
          exact .awaitTask listener hcloses ready

theorem scheduled_of_mem (h : e ∈ s.agenda) : Scheduled s e := by
  unfold agenda at h
  rcases List.mem_append.mp h with h | h
  · rcases List.mem_append.mp h with h | h
    · rcases List.mem_append.mp h with h | h
      · obtain ⟨⟨p, i⟩, hp, he⟩ := List.mem_flatMap.mp h
        exact scheduled_of_worker (List.mem_zipIdx_iff_getElem?.mp hp) he
      · obtain ⟨⟨r, k⟩, hr, he⟩ := List.mem_filterMap.mp h
        exact scheduled_of_reporter (List.mem_zipIdx_iff_getElem?.mp hr) he
    · obtain ⟨⟨x, c⟩, hx, he⟩ := List.mem_filterMap.mp h
      exact scheduled_of_connection (List.mem_zipIdx_iff_getElem?.mp hx) he
  · obtain ⟨⟨x, l⟩, hx, he⟩ := List.mem_flatMap.mp h
    exact scheduled_of_listener (List.mem_zipIdx_iff_getElem?.mp hx) he

theorem mem_agenda_of_worker {i : Nat} {p : FlushPool} (pool : s.pools[i]? = some p)
    (h : e ∈ s.workerEntries i p) : e ∈ s.agenda := by
  refine List.mem_append_left _ (List.mem_append_left _ (List.mem_append_left _ ?_))
  exact List.mem_flatMap.mpr ⟨(p, i), List.mem_zipIdx_iff_getElem?.mpr pool, h⟩

theorem mem_agenda_of_listener {l : Nat} {x : Listener} (listener : s.listeners[l]? = some x)
    (h : e ∈ s.listenerEntries l x) : e ∈ s.agenda :=
  List.mem_append_right _
    (List.mem_flatMap.mpr ⟨(x, l), List.mem_zipIdx_iff_getElem?.mpr listener, h⟩)

theorem quit_mem_agenda {i j : Nat} {p : FlushPool} {w : Worker} (pool : s.pools[i]? = some p)
    (worker : p.workers[j]? = some w) (cancelled : p.cancelled = true) (idle : w.phase = .idle) :
    ⟨s.now, readyTicket, .quit i j⟩ ∈ s.agenda := by
  refine mem_agenda_of_worker pool (List.mem_filterMap.mpr ⟨(w, j), ?_, ?_⟩)
  · exact List.mem_zipIdx_iff_getElem?.mpr worker
  · simp [idle, cancelled]

theorem deliver_mem_agenda {i j : Nat} {p : FlushPool} {w : Worker} {flight : Flight}
    (pool : s.pools[i]? = some p) (worker : p.workers[j]? = some w)
    (sends : w.phase = .sending flight) :
    ⟨max flight.ends s.now, w.ticket, .deliver i j⟩ ∈ s.agenda := by
  refine mem_agenda_of_worker pool (List.mem_filterMap.mpr ⟨(w, j), ?_, ?_⟩)
  · exact List.mem_zipIdx_iff_getElem?.mpr worker
  · simp [sends]

theorem tick_mem_agenda {i j : Nat} {p : FlushPool} {w : Worker} (pool : s.pools[i]? = some p)
    (worker : p.workers[j]? = some w) (running : p.cancelled = false) (idle : w.phase = .idle) :
    ⟨max w.ticker.due s.now, w.ticket, .tick i j⟩ ∈ s.agenda := by
  refine mem_agenda_of_worker pool (List.mem_filterMap.mpr ⟨(w, j), ?_, ?_⟩)
  · exact List.mem_zipIdx_iff_getElem?.mpr worker
  · simp [idle, running]

theorem reporterQuit_mem_agenda {k : Nat} {r : Reporter} (reporter : s.reporters[k]? = some r)
    (cancelled : r.cancelled = true) (awake : r.task.phase.isOver = false) :
    ⟨s.now, readyTicket, .reporterQuit k⟩ ∈ s.agenda := by
  refine List.mem_append_left _ (List.mem_append_left _ (List.mem_append_right _
    (List.mem_filterMap.mpr ⟨(r, k), List.mem_zipIdx_iff_getElem?.mpr reporter, ?_⟩)))
  unfold reporterEntry
  dsimp only
  cases hphase : r.task.phase with
  | idle => simp [cancelled]
  | sending flight => simp [cancelled]
  | ended => rw [hphase] at awake; cases awake
  | aborted => rw [hphase] at awake; cases awake

theorem readOn_mem_agenda {c : Nat} {x : Connection} (connection : s.connections[c]? = some x)
    (live : x.live = true) (reason : s.listeners[x.listener]?.elim false s.isCancelled = true ∨
      x.broken = true ∨ x.finished = true ∨ x.arrived ≠ []) :
    ⟨s.now, readyTicket, .readOn c⟩ ∈ s.agenda := by
  refine List.mem_append_left _ (List.mem_append_right _ (List.mem_filterMap.mpr ⟨(x, c), ?_, ?_⟩))
  · exact List.mem_zipIdx_iff_getElem?.mpr connection
  · unfold connectionEntry
    dsimp only
    rw [if_pos]
    simpa [live, or_assoc] using reason

theorem endAccepting_mem_agenda {l : Nat} {x : Listener} (listener : s.listeners[l]? = some x)
    (accepting : x.accepting = true) (cancelled : s.isCancelled x = true)
    (alone : s.liveCount l = 0) : ⟨s.now, readyTicket, .endAccepting l⟩ ∈ s.agenda := by
  refine mem_agenda_of_listener listener (List.mem_append_left _ ?_)
  simp [accepting, cancelled, alone]

/-- The owner of a listener that stops waits for the next task, or for the deadline. -/
theorem owner_mem_agenda {l : Nat} {x : Listener} {closing : Closing}
    (listener : s.listeners[l]? = some x) (closes : x.closing = some closing) :
    (if (s.tasksOver x)[closing.awaited]? = some false then
      ⟨max closing.deadline s.now, ownerTicket, .expire l⟩
    else ⟨s.now, ownerTicket, .awaitTask l⟩ : Entry) ∈ s.agenda := by
  refine mem_agenda_of_listener listener (List.mem_append_right _ ?_)
  rw [closes]
  dsimp only [Option.elim_some]
  split <;> exact List.mem_singleton_self _

theorem Scheduled.now_le (h : Scheduled s e) : s.now ≤ e.time := by
  cases h with
  | tick => exact Nat.le_max_right _ _
  | quit => exact Nat.le_refl _
  | deliver => exact Nat.le_max_right _ _
  | reporterTick => exact Nat.le_max_right _ _
  | reporterDeliver => exact Nat.le_max_right _ _
  | reporterQuit => exact Nat.le_refl _
  | readOn => exact Nat.le_refl _
  | endAccepting => exact Nat.le_refl _
  | awaitTask => exact Nat.le_refl _
  | expire => exact Nat.le_max_right _ _

/-- The agenda has neither actions by hand nor those of clients. -/
theorem Scheduled.plain (h : Scheduled s e) :
    e.action.byHand = false ∧ e.action.arrival? = none ∧ e.action.opens = false := by
  cases h <;> exact ⟨rfl, rfl, rfl⟩

theorem Scheduled.timeless (h : Scheduled s e) (d : Nat) : e.action ≠ .wait d := by
  cases h <;> exact nofun

theorem perform_eq (now_le : s.now ≤ e.time) :
    s.perform e = { s with now := e.time }.step e.action := by
  rw [perform, Nat.max_eq_right now_le]

/-- What comes of an entry of the agenda. Of the owner's own entries it is just the action,
which depends on what has happened until then. -/
inductive Performed (s : Relay) (e : Entry) : Relay → Prop where
  | works {s' : Relay} {i : Nat} {p : FlushPool} (pool : s.pools[i]? = some p)
      (behind : 0 < e.ticket) (moves : Moves { s with now := e.time } i p s')
      (about : ∃ j, e.action.worker? = some (i, j)) : Performed s e s'
  | reports {s' : Relay} {k : Nat} {r : Reporter} (reporter : s.reporters[k]? = some r)
      (reports : Reports { s with now := e.time } k r s') : Performed s e s'
  | reads {s' : Relay} {c : Nat} (reading : Reading { s with now := e.time } c s') :
      Performed s e s'
  | leaves {l : Nat} {x : Listener} (listener : s.listeners[l]? = some x)
      (accepting : x.accepting = true) (behind : 0 < e.ticket) :
      Performed s e
        { s with now := e.time, listeners := s.listeners.set l { x with accepting := false } }
  | awaits {l : Nat} {x : Listener} {closing : Closing} (action : e.action = .awaitTask l)
      (listener : s.listeners[l]? = some x) (closes : x.closing = some closing)
      (ready : (s.tasksOver x)[closing.awaited]? ≠ some false) :
      Performed s e (awaitTask { s with now := e.time } l)
  | expires {l : Nat} {x : Listener} {closing : Closing} (action : e.action = .expire l)
      (listener : s.listeners[l]? = some x) (closes : x.closing = some closing)
      (guard : closing.deadline ≤ e.time ∧ closing.awaited < (s.tasksOver x).length) :
      Performed s e (expire { s with now := e.time } l)

theorem perform_performed (orderly : s.Orderly) (h : Scheduled s e) :
    Performed s e (s.perform e) := by
  have now_le := h.now_le
  have behind {i j : Nat} {p : FlushPool} {w : Worker} (pool : s.pools[i]? = some p)
      (worker : p.workers[j]? = some w) : 0 < w.ticket :=
    (orderly.pool pool w (List.mem_of_getElem? worker)).behind
  rw [perform_eq now_le]
  cases h with
  | @tick i j p w pool worker running idle =>
      refine .works pool (behind pool worker) ?_ ⟨j, rfl⟩
      exact tick_moves (s := { s with now := max w.ticker.due s.now }) pool worker running idle
        (Nat.le_max_left _ _)
  | @quit i j p w pool worker cancelled idle =>
      refine .works pool Nat.one_pos ?_ ⟨j, rfl⟩
      exact quit_moves (s := { s with now := s.now }) pool worker cancelled idle
  | @deliver i j p w flight pool worker sends =>
      refine .works pool (behind pool worker) ?_ ⟨j, rfl⟩
      exact deliver_moves (s := { s with now := max flight.ends s.now }) pool worker sends
        (Nat.le_max_left _ _)
  | @reporterTick k r reporter running idle =>
      refine .reports reporter ?_
      exact reporterTick_reports (s := { s with now := max r.task.ticker.due s.now }) reporter
        running idle (Nat.le_max_left _ _)
  | @reporterDeliver k r flight reporter running sends =>
      refine .reports reporter ?_
      exact reporterDeliver_reports (s := { s with now := max flight.ends s.now }) reporter running
        sends (Nat.le_max_left _ _)
  | reporterQuit reporter cancelled awake =>
      refine .reports reporter ?_
      exact reporterQuit_reports (s := { s with now := s.now }) reporter cancelled awake
  | @readOn c x connection live reason =>
      obtain ⟨listener, i, server, owner⟩ := orderly.served x (List.mem_of_getElem? connection)
      obtain ⟨p, pool⟩ := orderly.tended.wired _ listener i server owner
      rcases readOn_reading (s := { s with now := s.now }) connection live server owner pool with
        ⟨-, waiting⟩ | reading
      · -- A reader that waits has no entry.
        obtain ⟨running, arrived, whole, open'⟩ := waiting
        change s.listeners[x.listener]? = some listener at server
        change s.isCancelled listener = false at running
        simp [server, running, arrived, whole, open'] at reason
      · exact .reads reading
  | @endAccepting l x listener accepting cancelled alone =>
      have heq : Relay.endAccepting { s with now := s.now } l =
          { s with now := s.now, listeners := s.listeners.set l { x with accepting := false } } :=
        endAccepting_eq listener accepting cancelled alone
      change Performed s _ (Relay.endAccepting { s with now := s.now } l)
      rw [heq]
      exact .leaves listener accepting Nat.one_pos
  | awaitTask listener closes ready => exact .awaits rfl listener closes ready
  | expire listener closes waits =>
      have hlt := (List.getElem?_eq_some_iff.mp waits).choose
      exact .expires rfl listener closes ⟨Nat.le_max_left _ _, hlt⟩

theorem perform_change {opens : Bool} (orderly : s.Orderly) (h : Scheduled s e) :
    Shift opens s (s.perform e) := by
  obtain ⟨tasks, quiet, closed⟩ := h.plain
  have waits : Shift opens s { s with now := e.time } := .waits s h.now_le
  have wired := (orderly.change waits).tended.wired
  have hstep : Shift opens { s with now := e.time } (s.perform e) := by
    rw [perform_eq h.now_le]
    exact (step_shift wired e.action tasks quiet).widen (by rw [closed]; exact nofun)
  exact .seq waits hstep

/-- What comes next is the earliest entry of the agenda, if it is not too late. -/
theorem of_next? {limit : Nat} (h : s.next? limit = some e) :
    Scheduled s e ∧ e.time ≤ limit ∧ ∀ f ∈ s.agenda, ¬ f.before e = true := by
  obtain ⟨hearliest, hlimit⟩ := Option.filter_eq_some_iff.mp h
  exact ⟨scheduled_of_mem (Entry.mem_of_earliest hearliest), by simpa using hlimit,
    Entry.not_before_earliest hearliest⟩

theorem time_le_of_next? {limit : Nat} {f : Entry} (h : s.next? limit = some e)
    (hf : f ∈ s.agenda) : e.time ≤ f.time := by
  have hmin := (of_next? h).2.2 f hf
  rw [Entry.before_iff] at hmin
  omega

theorem of_next?_eq_none {limit : Nat} (h : s.next? limit = none) (he : e ∈ s.agenda) :
    limit < e.time := by
  cases hearliest : Entry.earliest s.agenda with
  | none =>
      rw [Entry.earliest_eq_none hearliest] at he
      cases he
  | some f =>
      have hlate : ¬ f.time ≤ limit := by
        intro hlimit
        have hlate : limit < f.time := by simpa [next?, hearliest] using h
        omega
      have hmin := Entry.not_before_earliest hearliest e he
      rw [Entry.before_iff] at hmin
      omega

end Relay
end MetricsProxy
