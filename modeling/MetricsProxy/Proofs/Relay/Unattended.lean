import MetricsProxy.Proofs.Relay.Progress
import MetricsProxy.Relay.Control

/-!
# What goes on without the owner

Tasks and clients act on their own, and what they do moves no listener: none is
added or begins to stop, and only one whose stop is in progress comes to an end
(`step_unmoved`). So a listener that runs goes on running until its owner asks
for something, however long that takes (`run_unmoved`), and a stop waits for one
listener while the others stay as they are (`stop_unmoved`). Reporters stay with
their agents, cancelled or not.
-/
namespace MetricsProxy

/-- Whether an action is a request of the owner and not a step of a task or a client. -/
def Action.requested : Action → Bool
  | addReporter _ _ | cancelReporters | addListener _ | start _ _ | beginStop _
  | dropListener _ => true
  | a => a.byHand

theorem Action.byHand_of_unrequested {a : Action} (h : a.requested = false) :
    a.byHand = false := by
  cases a <;> first | rfl | cases h

/-- A reporter but for its task. -/
def Reporter.standing (r : Reporter) : Agent × Bool := (r.agent, r.cancelled)

namespace Relay

/-- A listener that is not about to stop is as before, but that its accepting task may have
ended, and so is a reporter but for its task. -/
structure Unmoved (s s' : Relay) : Prop where
  length : s'.listeners.length = s.listeners.length
  keeps : ∀ (l : Nat) (x : Listener), s.listeners[l]? = some x → x.closing = none →
    ∃ accepting, s'.listeners[l]? = some { x with accepting := accepting }
  reporters : s'.reporters.map Reporter.standing = s.reporters.map Reporter.standing

section
variable {s s' s'' : Relay} {c i k l : Nat} {x y : Listener}

namespace Unmoved

theorem of_eq (listeners : s'.listeners = s.listeners) (reporters : s'.reporters = s.reporters) :
    Unmoved s s' where
  length := congrArg List.length listeners
  keeps _ x hx _ := ⟨x.accepting, listeners ▸ hx⟩
  reporters := congrArg (List.map Reporter.standing) reporters

theorem refl (s : Relay) : Unmoved s s := .of_eq rfl rfl

theorem of_self (h : s' = s) : Unmoved s s' := h ▸ .refl s

theorem trans (h : Unmoved s s') (h' : Unmoved s' s'') : Unmoved s s'' where
  length := h'.length.trans h.length
  keeps l x hx open' := by
    obtain ⟨_, hy⟩ := h.keeps l x hx open'
    obtain ⟨accepting, hz⟩ := h'.keeps l _ hy open'
    exact ⟨accepting, hz⟩
  reporters := h'.reporters.trans h.reporters

theorem before (h : Unmoved s s') (hy : s'.listeners[l]? = some y) :
    ∃ x, s.listeners[l]? = some x ∧
      (x.closing = none → ∃ accepting, y = { x with accepting := accepting }) := by
  have hlt : l < s.listeners.length := h.length ▸ (List.getElem?_eq_some_iff.mp hy).choose
  refine ⟨_, List.getElem?_eq_getElem hlt, fun open' => ?_⟩
  obtain ⟨accepting, hy'⟩ := h.keeps l _ (List.getElem?_eq_getElem hlt) open'
  exact ⟨accepting, Option.some.inj (hy.symm.trans hy')⟩

theorem of_set (listener : s.listeners[l]? = some x)
    (listeners : s'.listeners = s.listeners.set l y) (reporters : s'.reporters = s.reporters)
    (own : x.closing = none → ∃ accepting, y = { x with accepting := accepting }) :
    Unmoved s s' where
  length := by rw [listeners, List.length_set]
  keeps m z hz open' := by
    rw [listeners]
    by_cases same : l = m
    · subst same
      obtain rfl := Option.some.inj (listener.symm.trans hz)
      obtain ⟨accepting, rfl⟩ := own open'
      exact ⟨accepting, List.getElem?_set_self (List.getElem?_eq_some_iff.mp hz).choose⟩
    · exact ⟨z.accepting, (List.getElem?_set_ne same).trans hz⟩
  reporters := congrArg (List.map Reporter.standing) reporters

theorem of_closing {closing : Closing} (listener : s.listeners[l]? = some x)
    (closes : x.closing = some closing) (listeners : s'.listeners = s.listeners.set l y)
    (reporters : s'.reporters = s.reporters) : Unmoved s s' :=
  .of_set listener listeners reporters fun open' => by rw [closes] at open'; cases open'

end Unmoved

/-! ## Tasks and clients -/

theorem Moves.unmoved {p : FlushPool} (h : s.Moves i p s') : Unmoved s s' := by
  obtain ⟨events, q, -, registry, tickets, sends, -, rfl⟩ := h
  exact .of_eq rfl rfl

theorem Reports.unmoved {r : Reporter} (h : s.Reports k r s')
    (reporter : s.reporters[k]? = some r) : Unmoved s s' := by
  obtain ⟨task, -, tickets, sends, events, -, rfl⟩ := h
  refine ⟨rfl, fun l x hx _ => ⟨x.accepting, hx⟩, ?_⟩
  refine (List.map_set ..).trans (set_eq_self_of_getElem? ?_)
  rw [List.getElem?_map, reporter]
  rfl

theorem unmoved_of_reports (h : (∃ r, s.reporters[k]? = some r ∧ s.Reports k r s') ∨ s' = s) :
    Unmoved s s' := by
  rcases h with ⟨r, reporter, reports⟩ | rfl
  · exact reports.unmoved reporter
  · exact .refl _

theorem Reading.unmoved (h : s.Reading c s') : Unmoved s s' := by
  cases h with
  | closes => exact .of_eq rfl rfl
  | keeps => exact .of_eq rfl rfl
  | takes _ _ _ _ _ _ _ handled => cases handled <;> exact .of_eq rfl rfl

theorem connect_unmoved (s : Relay) (l : Nat) : Unmoved s (s.connect l).1 := by
  unfold connect
  split
  · exact .refl s
  · split
    · split <;> exact .of_eq rfl rfl
    · exact .refl s

theorem endAccepting_unmoved (s : Relay) (l : Nat) : Unmoved s (s.endAccepting l) := by
  unfold endAccepting
  split
  · rename_i x listener
    split
    · rw [modifyListener_eq listener]
      exact .of_set listener rfl rfl fun _ => ⟨false, rfl⟩
    · exact .refl s
  · exact .refl s

/-! ## A stop in progress -/

theorem settle_unmoved {p : FlushPool} {closing : Closing} (listener : s.listeners[l]? = some x)
    (closes : x.closing = some closing) (pool : s.pools[i]? = some p) :
    Unmoved s (s.settle l i) := by
  obtain ⟨registry, -, heq⟩ := settle_eq listener pool
  rw [heq]
  exact .of_closing listener closes rfl rfl

theorem awaitTask_unmoved (tended : s.Tended) (l : Nat) : Unmoved s (s.awaitTask l) := by
  cases listener : s.listeners[l]? with
  | none => rw [awaitTask, listener]; exact .refl s
  | some x =>
      cases closes : x.closing with
      | none => simp only [awaitTask, listener, closes]; exact .refl s
      | some closing =>
          obtain ⟨i, p, owner, pool⟩ := tended.owner_of_closing listener closes
          rw [awaitTask_eq listener closes owner]
          split
          · rw [modifyListener_eq listener]
            exact .of_closing listener closes rfl rfl
          · exact .refl s
          · exact settle_unmoved listener closes pool

theorem expire_unmoved (tended : s.Tended) (l : Nat) : Unmoved s (s.expire l) := by
  cases listener : s.listeners[l]? with
  | none => rw [expire, listener]; exact .refl s
  | some x =>
      cases closes : x.closing with
      | none => simp only [expire, listener, closes]; exact .refl s
      | some closing =>
          obtain ⟨i, p, owner, pool⟩ := tended.owner_of_closing listener closes
          by_cases guard : closing.deadline ≤ s.now ∧ closing.awaited < (s.tasksOver x).length
          · have aborted : Unmoved s (s.afterAbort l i) := by
              rw [afterAbort_eq listener pool]
              exact .of_closing listener closes rfl rfl
            obtain ⟨hx, hp⟩ := getElem?_afterAbort listener pool
            rw [expire_eq listener closes owner guard]
            split
            · exact aborted.trans (settle_unmoved hx closes hp)
            · rw [modifyListener_eq hx]
              exact aborted.trans (.of_closing hx closes rfl rfl)
          · simp only [expire, listener, closes, owner, if_neg guard]
            exact .refl s

/-! ## Whatever is not requested -/

theorem step_unmoved (tended : s.Tended) {a : Action} (unrequested : a.requested = false) :
    Unmoved s (s.step a) := by
  cases a with
  | wait => exact .of_eq rfl rfl
  | tick i j =>
      rcases tick_cases s i j with ⟨p, w, hp, hw, running, idle, due⟩ | ⟨heq, -⟩
      · exact Moves.unmoved (tick_moves hp hw running idle due)
      · exact .of_self heq
  | deliver i j =>
      rcases deliver_cases s i j with ⟨p, w, flight, hp, hw, sends, elapsed⟩ | heq
      · exact Moves.unmoved (deliver_moves hp hw sends elapsed)
      · exact .of_self heq
  | quit i j =>
      rcases quit_cases s i j with ⟨p, w, hp, hw, cancelled, idle⟩ | heq
      · exact Moves.unmoved (quit_moves hp hw cancelled idle)
      · exact .of_self heq
  | reporterTick k => exact unmoved_of_reports (reporterTick_cases s k)
  | reporterDeliver k => exact unmoved_of_reports (reporterDeliver_cases s k)
  | reporterQuit k => exact unmoved_of_reports (reporterQuit_cases s k)
  | awaitTask l => exact awaitTask_unmoved tended l
  | expire l => exact expire_unmoved tended l
  | endAccepting l => exact endAccepting_unmoved s l
  | connect l => exact connect_unmoved s l
  | arrive => exact .of_eq rfl rfl
  | endInput => exact .of_eq rfl rfl
  | breakOff => exact .of_eq rfl rfl
  | readOn c =>
      rcases readOn_cases tended.wired c with reading | heq
      · exact reading.unmoved
      · exact .of_self heq
  | _ => cases unrequested

theorem run_unmoved (tended : s.Tended) {actions : List Action}
    (unrequested : ∀ a ∈ actions, a.requested = false) : Unmoved s (s.run actions) := by
  induction actions generalizing s with
  | nil => exact .refl s
  | cons a as ih =>
      have first := step_unmoved tended (unrequested a List.mem_cons_self)
      exact first.trans (ih (tended.step a) fun b hb => unrequested b (List.mem_cons_of_mem _ hb))

theorem Scheduled.unrequested {e : Entry} (h : Scheduled s e) : e.action.requested = false := by
  cases h <;> rfl

theorem follow_unmoved (tended : s.Tended) (limit n : Nat) (enough : Relay → Bool) :
    Unmoved s (follow limit enough n s) := by
  refine (follow_induct (motive := fun t => t.Tended ∧ Unmoved s t) ⟨tended, .refl s⟩ ?_).2
  rintro t e ⟨tended, unmoved⟩ - next
  have scheduled := (of_next? next).1
  have timed : Unmoved t { t with now := e.time } := .of_eq rfl rfl
  have tended' : Tended { t with now := e.time } := tended
  rw [perform_eq scheduled.now_le]
  exact ⟨tended'.step e.action, (unmoved.trans timed).trans
    (step_unmoved tended' scheduled.unrequested)⟩

theorem settleNow_unmoved (tended : s.Tended) : Unmoved s s.settleNow :=
  (follow_unmoved tended _ _ _).trans (.of_eq rfl rfl)

/-- Once a stop has begun, the owner only waits for it. -/
theorem stop_unmoved (orderly : s.Orderly) (l : Nat) : Unmoved (s.beginStop l) (s.stop l).1 := by
  have begun : (s.beginStop l).Orderly := orderly.step (.beginStop l)
  have waited {limit n : Nat} {enough : Relay → Bool} :
      (follow limit enough n (s.beginStop l)).Orderly := by
    have change : Change (s.beginStop l) (follow limit enough n (s.beginStop l)) :=
      follow_change begun
    exact begun.change change
  exact (follow_unmoved begun.tended _ _ _).trans (settleNow_unmoved waited.tended)

/-- A listener that is not about to stop waits for no end. -/
theorem Tended.open_of_ne (h : s.Tended) (listener : s.listeners[l]? = some x)
    (state : x.state ≠ .stopping) : x.closing = none := by
  cases closes : x.closing with
  | none => rfl
  | some closing => exact absurd ((h l x listener).stopping closing closes) state

end
end Relay
end MetricsProxy
