import MetricsProxy.Proofs.Relay.Aftermath
import MetricsProxy.Proofs.Relay.Slots
import MetricsProxy.Proofs.Relay.Unattended

/-!
# Shutting a relay down

Listeners are stopped one after another, and then the reporters are cancelled.
Between two stops the listeners that are left still run and all others have
stopped (`Halting`); a stop that returns takes one of them from the first to the
second and leaves the rest alone (`Halting.stop`). After the last one every pool
is retired and every connection closed, and the reporters end as soon as they are
cancelled. So a shutdown whose stops return leaves a relay with nothing that
could still happen (`Quiet.agenda_eq_nil`).
-/
namespace MetricsProxy.Relay

def stopAll (s : Relay) (ls : List Nat) : Relay := ls.foldl (fun s l => (s.stop l).1) s

/-- Whether all stops return when the listeners are stopped one after another. -/
def stopsReturn (s : Relay) : List Nat → Bool
  | [] => true
  | l :: ls => (s.stop l).2.isSome && (s.stop l).1.stopsReturn ls

/-- Nothing of the relay is left: no listener, worker, connection or reporter, nor a point
on its way. -/
structure Quiet (s : Relay) : Prop where
  listeners : ∀ x ∈ s.listeners, x.state = .stopped ∧ x.closing = none ∧ x.accepting = false
  pools : ∀ p ∈ s.pools, Retired p
  connections : ∀ c ∈ s.connections, c.live = false
  reporters : ∀ r ∈ s.reporters, r.cancelled = true ∧ r.task.phase.isOver = true

section
variable {s s' s'' : Relay} {l : Nat} {ls : List Nat} {x : Listener}

theorem Quiet.agenda_eq_nil (h : s.Quiet) : s.agenda = [] := by
  refine List.eq_nil_iff_forall_not_mem.mpr fun e he => ?_
  have ended {i j : Nat} {p : FlushPool} {w : Worker} (pool : s.pools[i]? = some p)
      (worker : p.workers[j]? = some w) : w.phase.isOver = true :=
    (h.pools p (List.mem_of_getElem? pool)).allOver w (List.mem_of_getElem? worker)
  cases scheduled_of_mem he with
  | tick pool worker _ idle => exact absurd (ended pool worker) (by rw [idle]; exact nofun)
  | quit pool worker _ idle => exact absurd (ended pool worker) (by rw [idle]; exact nofun)
  | deliver pool worker sends => exact absurd (ended pool worker) (by rw [sends]; exact nofun)
  | reporterTick reporter _ idle =>
      exact absurd (h.reporters _ (List.mem_of_getElem? reporter)).2 (by rw [idle]; exact nofun)
  | reporterDeliver reporter _ sends =>
      exact absurd (h.reporters _ (List.mem_of_getElem? reporter)).2 (by rw [sends]; exact nofun)
  | reporterQuit reporter _ awake =>
      exact absurd (h.reporters _ (List.mem_of_getElem? reporter)).2 (by rw [awake]; exact nofun)
  | readOn connection live =>
      exact absurd live (by rw [h.connections _ (List.mem_of_getElem? connection)]; exact nofun)
  | endAccepting listener accepting =>
      have hclosed := (h.listeners _ (List.mem_of_getElem? listener)).2.2
      exact absurd accepting (by rw [hclosed]; exact nofun)
  | awaitTask listener closes =>
      have hopen := (h.listeners _ (List.mem_of_getElem? listener)).2.1
      exact absurd closes (by rw [hopen]; exact nofun)
  | expire listener closes =>
      have hopen := (h.listeners _ (List.mem_of_getElem? listener)).2.1
      exact absurd closes (by rw [hopen]; exact nofun)

/-! ## What stays -/

/-- The listeners have the settings that they had, and the reporters are as they were but
for their tasks. -/
structure Keeps (s s' : Relay) : Prop where
  settings : s'.listeners.map Listener.settings = s.listeners.map Listener.settings
  reporters : s'.reporters.map Reporter.standing = s.reporters.map Reporter.standing

namespace Keeps

theorem refl (s : Relay) : Keeps s s := ⟨rfl, rfl⟩

theorem trans (h : Keeps s s') (h' : Keeps s' s'') : Keeps s s'' where
  settings := h'.settings.trans h.settings
  reporters := h'.reporters.trans h.reporters

end Keeps

theorem Leads.map_settings (h : s.Leads s') (length : s'.listeners.length = s.listeners.length) :
    s'.listeners.map Listener.settings = s.listeners.map Listener.settings := by
  refine List.ext_getElem? fun m => ?_
  rw [List.getElem?_map, List.getElem?_map]
  cases hx : s.listeners[m]? with
  | none =>
      have hnone : s'.listeners[m]? = none := by
        rw [List.getElem?_eq_none_iff] at hx ⊢
        rwa [length]
      rw [hnone]
  | some x =>
      obtain ⟨y, hy, leads⟩ := h m x hx
      rw [hy]
      exact congrArg some leads.settings

/-! ## One listener after another -/

/-- The listeners `ls` run and all others have stopped. -/
structure Halting (s : Relay) (ls : List Nat) : Prop where
  sound : s.Sound
  slotted : s.Slotted
  ticks : ∀ r ∈ s.reporters, r.Ticks
  running : ∀ l ∈ ls, ∃ x, s.listeners[l]? = some x ∧ x.state = .running ∧ x.dropped = false
  stopped : ∀ (l : Nat) (x : Listener), s.listeners[l]? = some x → l ∉ ls → x.state = .stopped

/-- A stop that returns brings its listener to the end. -/
theorem Sound.stopped_of_returns (h : s.Sound) (ticks : ∀ r ∈ s.reporters, r.Ticks)
    (listener : s.listeners[l]? = some x) (running : x.state = .running)
    (kept : x.dropped = false) (returns : (s.stop l).2.isSome = true) :
    ∃ z, (s.stop l).1.listeners[l]? = some z ∧ z.state = .stopped := by
  obtain ⟨i, owner⟩ := h.owner_of_running listener running
  obtain ⟨p, pool, -, -⟩ := h.life_of listener owner
  obtain ⟨r, y, sound, ended, heq⟩ := h.stop_eq ticks listener running kept owner pool
  have healthy : y.failed = false := by
    rw [← Bool.not_eq_true]
    intro failed
    rw [heq, if_pos failed] at returns
    cases returns
  obtain ⟨z, hz, stopped, -⟩ := ended.stopped sound healthy
  exact ⟨z, heq ▸ hz, stopped⟩

theorem Sound.beginStop_others (h : s.Sound) (listener : s.listeners[l]? = some x)
    (running : x.state = .running) :
    (∀ m ≠ l, (s.beginStop l).listeners[m]? = s.listeners[m]?) ∧
      (s.beginStop l).listeners.length = s.listeners.length ∧
      (s.beginStop l).reporters = s.reporters := by
  obtain ⟨i, owner⟩ := h.owner_of_running listener running
  obtain ⟨p, pool, -, -⟩ := h.life_of listener owner
  rw [beginStop_eq listener running owner pool]
  exact ⟨fun m other => List.getElem?_set_ne (Ne.symm other), List.length_set, rfl⟩

/-- A stop that returns leaves all other listeners as they were. -/
theorem Halting.stop (h : s.Halting (l :: ls)) (once : l ∉ ls)
    (returns : (s.stop l).2.isSome = true) :
    (s.stop l).1.Halting ls ∧ Keeps s (s.stop l).1 := by
  obtain ⟨x, listener, running, kept⟩ := h.running l List.mem_cons_self
  obtain ⟨z, hz, stopped⟩ := h.sound.stopped_of_returns h.ticks listener running kept returns
  obtain ⟨others, length, reporters⟩ := h.sound.beginStop_others listener running
  have unmoved := stop_unmoved h.sound.toOrderly l
  have still {m : Nat} {y : Listener} (hy : s.listeners[m]? = some y)
      (state : y.state ≠ .stopping) : y.closing = none :=
    h.sound.toOrderly.tended.open_of_ne hy state
  obtain ⟨actions, plain, hrun⟩ : s.Reaches (s.stop l).1 :=
    (Reaches.step s (a := .beginStop l) rfl).trans (stop_reaches s l)
  have leads : s.Leads (s.stop l).1 := hrun ▸ h.sound.toOrderly.tended.run_leads actions
  refine ⟨⟨hrun ▸ h.sound.run plain, hrun ▸ h.slotted.run h.sound plain,
    hrun ▸ h.sound.ticking_run plain h.ticks, fun m hm => ?_, fun m y hy hm => ?_⟩, ?_, ?_⟩
  · obtain ⟨y, hy, state, kept⟩ := h.running m (List.mem_cons_of_mem _ hm)
    have other : m ≠ l := fun same => once (same ▸ hm)
    obtain ⟨accepting, hy'⟩ :=
      unmoved.keeps m y ((others m other).trans hy) (still hy (by rw [state]; exact nofun))
    exact ⟨_, hy', state, kept⟩
  · by_cases same : m = l
    · subst same
      exact Option.some.inj (hz.symm.trans hy) ▸ stopped
    · obtain ⟨w, hw, own⟩ := unmoved.before hy
      rw [others m same] at hw
      have state := h.stopped m w hw fun hin => (List.mem_cons.mp hin).elim same hm
      obtain ⟨accepting, rfl⟩ := own (still hw (by rw [state]; exact nofun))
      exact state
  · exact leads.map_settings (unmoved.length.trans length)
  · exact unmoved.reporters.trans (congrArg (List.map Reporter.standing) reporters)

theorem Halting.stopAll (h : s.Halting ls) (once : ls.Nodup) (returns : s.stopsReturn ls = true) :
    (s.stopAll ls).Halting [] ∧ Keeps s (s.stopAll ls) := by
  induction ls generalizing s with
  | nil => exact ⟨h, .refl s⟩
  | cons l ls ih =>
      obtain ⟨fresh, once⟩ := List.nodup_cons.mp once
      rw [stopsReturn, Bool.and_eq_true] at returns
      obtain ⟨halting, keeps⟩ := h.stop fresh returns.1
      obtain ⟨halted, keeps'⟩ := ih halting once returns.2
      exact ⟨halted, keeps.trans keeps'⟩

/-! ## The reporters at last -/

/-- When all listeners have stopped and all reporters are over, nothing is left. -/
theorem Sound.quiet (h : s.Sound) (slotted : s.Slotted)
    (stopped : ∀ (l : Nat) (x : Listener), s.listeners[l]? = some x → x.state = .stopped)
    (reporters : ∀ r ∈ s.reporters, r.cancelled = true ∧ r.task.phase.isOver = true) :
    s.Quiet := by
  refine ⟨fun x hx => ?_, fun p hp => ?_, fun c hc => ?_, reporters⟩
  · obtain ⟨l, listener⟩ := List.mem_iff_getElem?.mp hx
    have state := stopped l x listener
    exact ⟨state, h.toOrderly.tended.open_of_ne listener (by rw [state]; exact nofun),
      slotted.closed l x listener state⟩
  · obtain ⟨i, pool⟩ := List.mem_iff_getElem?.mp hp
    obtain ⟨l, x, listener, owner⟩ := h.exists_owner pool
    exact ((h.life l i x p listener owner pool).1.of_stopped (stopped l x listener)).2.1
  · obtain ⟨x, i, listener, -⟩ := h.served c hc
    have alone := slotted.vacated c.listener x listener
      (slotted.closed c.listener x listener (stopped c.listener x listener))
    simpa using List.countP_eq_zero.mp alone c hc

theorem cancelled_of_settled (h : s.cancelReporters.Sound) :
    ∀ r ∈ s.cancelReporters.settleNow.reporters, r.cancelled = true := by
  intro r hr
  have unmoved : Unmoved s.cancelReporters s.cancelReporters.settleNow :=
    settleNow_unmoved h.toOrderly.tended
  have standing : r.standing ∈ s.cancelReporters.reporters.map Reporter.standing :=
    unmoved.reporters ▸ List.mem_map_of_mem hr
  obtain ⟨r', hr', same⟩ := List.mem_map.mp standing
  obtain ⟨r₀, -, rfl⟩ := List.mem_map.mp hr'
  exact (congrArg Prod.snd same).symm

/-- A cancelled reporter that is still there goes first, so none is left. -/
theorem over_of_settled (h : s.cancelReporters.Sound)
    (ticks : ∀ r ∈ s.cancelReporters.reporters, r.Ticks) :
    ∀ r ∈ s.cancelReporters.settleNow.reporters, r.task.phase.isOver = true := by
  intro r hr
  by_contra awake
  obtain ⟨k, reporter⟩ := List.mem_iff_getElem?.mp hr
  let settled := s.cancelReporters.advanceUntil s.cancelReporters.now fun _ => false
  have left : ⟨settled.now, readyTicket, .reporterQuit k⟩ ∈ settled.agenda :=
    reporterQuit_mem_agenda reporter (cancelled_of_settled h r hr) (Bool.not_eq_true _ ▸ awake)
  exact Nat.lt_irrefl _ (advanceUntil_late h.toOrderly ticks (Nat.le_refl _) left).2

/-- When all listeners have stopped, cancelling the reporters ends all that is left. -/
theorem Halting.cancelReports (h : s.Halting []) :
    s.cancelReports.1.Quiet ∧
      s.cancelReports.1.listeners.map Listener.settings = s.listeners.map Listener.settings ∧
      s.cancelReports.1.reporters.map Reporter.agent = s.reporters.map Reporter.agent := by
  change s.cancelReporters.settleNow.Quiet ∧ s.cancelReporters.settleNow.listeners.map _ = _ ∧
    s.cancelReporters.settleNow.reporters.map _ = _
  have cancels : Change s s.cancelReporters := cancelReporters_change s
  have sound : s.cancelReporters.Sound := h.sound.change cancels
  have settles : Change s.cancelReporters s.cancelReporters.settleNow :=
    settleNow_change sound.toOrderly
  have slotted : s.cancelReporters.settleNow.Slotted :=
    (h.slotted.change h.sound cancels).change sound settles
  have unmoved : Unmoved s.cancelReporters s.cancelReporters.settleNow :=
    settleNow_unmoved sound.toOrderly.tended
  have stopped (l : Nat) (x : Listener)
      (listener : s.cancelReporters.settleNow.listeners[l]? = some x) : x.state = .stopped := by
    obtain ⟨y, hy, own⟩ := unmoved.before listener
    have state : y.state = .stopped := h.stopped l y hy List.not_mem_nil
    obtain ⟨accepting, rfl⟩ :=
      own (h.sound.toOrderly.tended.open_of_ne hy (by rw [state]; exact nofun))
    exact state
  refine ⟨(sound.change settles).quiet slotted stopped fun r hr =>
    ⟨cancelled_of_settled sound r hr, over_of_settled sound (cancels.ticking h.ticks) r hr⟩, ?_, ?_⟩
  · exact (settles.leads sound.toOrderly.tended).map_settings unmoved.length
  · have agents := congrArg (List.map Prod.fst) unmoved.reporters
    rw [List.map_map, List.map_map] at agents
    refine Eq.trans agents ?_
    exact (List.map_map ..).trans rfl

/-! ## The shutdown -/

/-- How the owner of `s` shuts it down: all listeners have stopped when the reporters are still
there, and then these are cancelled. The relay `t` that is left has nothing to do any more. -/
structure ShutDown (s : Relay) (ls : List Nat) (t : Relay) : Prop where
  stopped : ∀ x ∈ (s.stopAll ls).listeners, x.state = .stopped
  reporting : (s.stopAll ls).reporters.map Reporter.standing = s.reporters.map Reporter.standing
  cancelled : t = (s.stopAll ls).cancelReports.1
  quiet : t.Quiet
  idle : t.agenda = []
  settings : t.listeners.map Listener.settings = s.listeners.map Listener.settings
  agents : t.reporters.map Reporter.agent = s.reporters.map Reporter.agent

theorem Halting.shutDown (h : s.Halting ls) (once : ls.Nodup) (returns : s.stopsReturn ls = true) :
    s.ShutDown ls (s.stopAll ls).cancelReports.1 := by
  obtain ⟨halted, keeps⟩ := h.stopAll once returns
  obtain ⟨quiet, settings, agents⟩ := halted.cancelReports
  refine ⟨fun x hx => ?_, keeps.reporters, rfl, quiet, quiet.agenda_eq_nil,
    settings.trans keeps.settings, agents.trans ?_⟩
  · obtain ⟨l, listener⟩ := List.mem_iff_getElem?.mp hx
    exact halted.stopped l x listener List.not_mem_nil
  · have standing := congrArg (List.map Prod.fst) keeps.reporters
    rwa [List.map_map, List.map_map] at standing

end
end MetricsProxy.Relay
