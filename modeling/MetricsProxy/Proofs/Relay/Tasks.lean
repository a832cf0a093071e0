import MetricsProxy.Proofs.Relay.Workers
import MetricsProxy.Relay.Report

/-!
# What periodic tasks do

Workers and reporters are tasks of one kind: they wait for a tick, send, wait
again and end. `TaskStep` has a rule for each of these. A step of a pool is made
of task steps of its workers, and what a reporter does is a task step that
concerns no pool (`reporterTick_reports` and its siblings).
-/
namespace MetricsProxy

inductive TaskStep (now : Nat) : Worker → Worker → Prop where
  | rests {w : Worker} (ticket : Nat) (idle : w.phase = .idle) (due : w.ticker.due ≤ now) :
      TaskStep now w ⟨w.ticker.take now, .idle, ticket⟩
  | sends {w : Worker} (flight : Flight) (ticket : Nat) (idle : w.phase = .idle)
      (due : w.ticker.due ≤ now) : TaskStep now w ⟨w.ticker.take now, .sending flight, ticket⟩
  | lands {w : Worker} (flight : Flight) (ticket : Nat) (sends : w.phase = .sending flight)
      (elapsed : flight.ends ≤ now) : TaskStep now w ⟨w.ticker, .idle, ticket⟩
  | ends {w : Worker} (awake : w.phase.isOver = false) : TaskStep now w { w with phase := .ended }
  | seq {u v w : Worker} (first : TaskStep now u v) (second : TaskStep now v w) : TaskStep now u w

namespace TaskStep
variable {now : Nat} {w w' : Worker}

theorem period_eq (h : TaskStep now w w') : w'.ticker.period = w.ticker.period := by
  induction h with
  | seq _ _ ih ih' => exact ih'.trans ih
  | _ => rfl

theorem awake (h : TaskStep now w w') : w.phase.isOver = false := by
  induction h with
  | rests _ idle _ => rw [idle]; rfl
  | sends _ _ idle _ => rw [idle]; rfl
  | lands _ _ sends _ => rw [sends]; rfl
  | ends awake => exact awake
  | seq _ _ ih _ => exact ih

end TaskStep

/-- In a step of a pool some worker makes a step, and then maybe another one. -/
theorem PoolStep.induct_tasks {now i : Nat} {motive : List Worker → List Worker → Prop}
    (one : ∀ {ws : List Worker} {j : Nat} {w w' : Worker}, ws[j]? = some w → TaskStep now w w' →
      motive ws (ws.set j w'))
    (trans : ∀ {us vs ws : List Worker}, motive us vs → motive vs ws → motive us ws)
    {p q : FlushPool} {events : List Event} (h : PoolStep now i p events q) :
    motive p.workers q.workers := by
  induction h with
  | idles ticket _ worker _ idle due _ => exact one worker (.rests ticket idle due)
  | begins flight ticket _ worker _ idle due _ _ => exact one worker (.sends flight ticket idle due)
  | lands flight ticket _ worker sends elapsed =>
      exact one worker (.lands flight ticket sends elapsed)
  | quits worker _ idle => exact one worker (.ends (by rw [idle]; rfl))
  | seq _ _ ih ih' => exact trans ih ih'

namespace Relay
variable {s : Relay} {k : Nat} {r : Reporter}

/-- In `s'` the task of reporter `k` is `task`. All else is as in `s`, but for tickets,
the destination's script and events that are about no pool. -/
def Assigns (s : Relay) (k : Nat) (r : Reporter) (task : Worker) (s' : Relay) : Prop :=
  ∃ tickets sends events, (∀ e ∈ events, Event.pool? e = none) ∧
    s' = { s with
      reporters := s.reporters.set k { r with task := task }
      journal := events ++ s.journal
      tickets := tickets
      sends := sends }

namespace Assigns
variable {s' s'' : Relay} {task task' : Worker}

theorem getElem? (h : s.Assigns k r task s') (hk : k < s.reporters.length) :
    s'.reporters[k]? = some { r with task := task } := by
  obtain ⟨tickets, sends, events, -, rfl⟩ := h
  simp [hk]

theorem now_eq (h : s.Assigns k r task s') : s'.now = s.now := by
  obtain ⟨tickets, sends, events, -, rfl⟩ := h
  rfl

theorem trans (h : s.Assigns k r task s')
    (h' : s'.Assigns k { r with task := task } task' s'') : s.Assigns k r task' s'' := by
  obtain ⟨tickets, sends, events, he, rfl⟩ := h
  obtain ⟨tickets', sends', events', he', rfl⟩ := h'
  refine ⟨tickets', sends', events' ++ events, fun e hm => ?_, by simp⟩
  rcases List.mem_append.mp hm with hm | hm
  · exact he' e hm
  · exact he e hm

end Assigns

theorem modifyReporter_assigns (h : s.reporters[k]? = some r) (f : Worker → Worker) :
    s.Assigns k r (f r.task) (s.modifyReporter k fun r => { r with task := f r.task }) := by
  refine ⟨s.tickets, s.sends, [], by simp, ?_⟩
  rw [modifyReporter, modify_eq_set_of_getElem? h]
  rfl

theorem reporterRest_assigns (h : s.reporters[k]? = some r) :
    ∃ ticket, s.Assigns k r ⟨r.task.ticker, .idle, ticket⟩ (s.reporterRest k) := by
  rw [reporterRest, h]
  unfold ticketFor
  by_cases hd : r.task.ticker.due ≤ s.now
  · refine ⟨1, ?_⟩
    simp only [if_pos hd]
    exact modifyReporter_assigns h fun w => { w with phase := .idle, ticket := 1 }
  · refine ⟨firstTicket + s.tickets, ?_⟩
    simp only [if_neg hd, ticket]
    exact modifyReporter_assigns (s := { s with tickets := s.tickets + 1 }) h
      fun w => { w with phase := .idle, ticket := firstTicket + s.tickets }

theorem log_assigns (h : s.reporters[k]? = some r) (sends : Script SendPlan) {e : Event}
    (foreign : e.pool? = none) : s.Assigns k r r.task ({ s with sends := sends }.log e) := by
  refine ⟨s.tickets, sends, [e], fun e' he => ?_, ?_⟩
  · rw [List.mem_singleton.mp he]
    exact foreign
  · rw [set_eq_self_of_getElem? h]
    rfl

theorem land_assigns (h : s.reporters[k]? = some r) (flight : Flight) :
    s.Assigns k r r.task (s.land (.reporter k) flight) := log_assigns h s.sends rfl

theorem beginReport_assigns (h : s.reporters[k]? = some r) (agent : Agent) :
    s.beginReport agent (.reporter k) = (s, none) ∨
      ∃ s' flight, s.beginReport agent (.reporter k) = (s', some flight) ∧
        s.Assigns k r r.task s' := by
  unfold beginReport
  by_cases hempty : (agent.points s.registry s.wallClock).isEmpty = true
  · exact .inl (if_pos hempty)
  · exact .inr ⟨_, _, if_neg hempty, log_assigns h s.sends.next.2 rfl⟩

/-- Reporter `k`, which is `r`, makes steps. -/
def Reports (s : Relay) (k : Nat) (r : Reporter) (s' : Relay) : Prop :=
  ∃ task, TaskStep s.now r.task task ∧ s.Assigns k r task s'

theorem reporterTick_reports (h : s.reporters[k]? = some r) (hc : r.cancelled = false)
    (hidle : r.task.phase = .idle) (hdue : r.task.ticker.due ≤ s.now) :
    s.Reports k r (s.reporterTick k) := by
  have hk : k < s.reporters.length := (List.getElem?_eq_some_iff.mp h).choose
  have htake := modifyReporter_assigns h fun w => { w with ticker := w.ticker.take s.now }
  rw [reporterTick, h]
  dsimp only
  rw [if_pos ⟨hc, hidle, hdue⟩]
  generalize s.modifyReporter k (fun r =>
    { r with task := { r.task with ticker := r.task.ticker.take s.now } }) = s₁ at htake ⊢
  have h₁ := htake.getElem? hk
  have hk₁ : k < s₁.reporters.length := (List.getElem?_eq_some_iff.mp h₁).choose
  rcases beginReport_assigns h₁ r.agent with heq | ⟨s₂, flight, heq, hbegin⟩
  · obtain ⟨ticket, hrest⟩ := reporterRest_assigns h₁
    rw [heq]
    exact ⟨_, .rests ticket hidle hdue, htake.trans hrest⟩
  · have h₂ := hbegin.getElem? hk₁
    have hk₂ : k < s₂.reporters.length := (List.getElem?_eq_some_iff.mp h₂).choose
    rw [heq]
    dsimp only
    by_cases hends : flight.ends ≤ s₂.now
    · have hland := land_assigns h₂ flight
      obtain ⟨ticket, hrest⟩ := reporterRest_assigns (hland.getElem? hk₂)
      have hnow : flight.ends ≤ s.now := by rwa [hbegin.now_eq, htake.now_eq] at hends
      rw [if_pos hends]
      exact ⟨_, .seq (.sends flight 0 hidle hdue) (.lands flight ticket rfl hnow),
        ((htake.trans hbegin).trans hland).trans hrest⟩
    · rw [if_neg hends]
      exact ⟨_, .sends flight _ hidle hdue, (htake.trans hbegin).trans
        (modifyReporter_assigns (s := { s₂ with tickets := s₂.tickets + 1 }) h₂
          fun w => { w with phase := .sending flight, ticket := firstTicket + s₂.tickets })⟩

theorem reporterDeliver_reports {flight : Flight} (h : s.reporters[k]? = some r)
    (hc : r.cancelled = false) (hsends : r.task.phase = .sending flight)
    (hover : flight.ends ≤ s.now) : s.Reports k r (s.reporterDeliver k) := by
  have hk : k < s.reporters.length := (List.getElem?_eq_some_iff.mp h).choose
  have hland := land_assigns h flight
  obtain ⟨ticket, hrest⟩ := reporterRest_assigns (hland.getElem? hk)
  rw [reporterDeliver, h]
  dsimp only
  rw [hsends]
  dsimp only
  rw [if_pos ⟨hc, hover⟩]
  exact ⟨_, .lands flight ticket hsends hover, hland.trans hrest⟩

theorem reporterQuit_reports (h : s.reporters[k]? = some r) (hc : r.cancelled = true)
    (awake : r.task.phase.isOver = false) : s.Reports k r (s.reporterQuit k) := by
  refine ⟨_, .ends awake, s.tickets, s.sends, [], by simp, ?_⟩
  rw [reporterQuit, modifyReporter, modify_eq_set_of_getElem? h, if_pos ⟨hc, awake⟩]
  rfl

end Relay
end MetricsProxy
