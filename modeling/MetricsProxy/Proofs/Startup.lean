import MetricsProxy.Proofs.Relay.Shutdown
import MetricsProxy.Proofs.Relay.Starts
import MetricsProxy.Proofs.Settings
import MetricsProxy.Proxy

/-!
# Start-up is all or nothing

Listeners are started in the order of the plan, and while they are, those before
run (`Starting`): each start that the network lets succeed adds one at the end
(`Starting.startListener_bound`), and nothing that tasks and clients do in the
meantime takes one away (`Starting.goesOn`). The first start that fails leaves one
that has stopped, and none after it. In both cases those that run are the ones
that a shutdown stops, so that it leaves nothing (`Starting.halting`).

Nothing is stopped if a start breaks off. All listeners of a plan may have as many
connections, so it is the first start that does (`BrokeOff`).
-/
namespace MetricsProxy
namespace Proxy
open Relay

/-- Listeners with these settings run, in this order, each at the address that the network
gave it. -/
structure Runs (answers : Nat → Except String String) (plans : List ListenerSettings)
    (listeners : List Listener) : Prop where
  length : listeners.length = plans.length
  each : ∀ (l : Nat) (x : Listener), listeners[l]? = some x → plans[l]? = some x.settings ∧
    x.state = .running ∧ x.dropped = false ∧ ∃ address, answers l = .ok address ∧
      x.bound = some address

/-- The listeners with these settings run, and so does the reporter of `agent`. A shutdown
would stop these listeners and no others. -/
structure Stands (answers : Nat → Except String String) (agent : Agent)
    (plans : List ListenerSettings) (p : Proxy) : Prop where
  runs : Runs answers plans p.relay.listeners
  started : p.started = List.range plans.length
  reporters : p.relay.reporters.map Reporter.standing = [(agent, false)]

/-- What holds of a proxy while it starts its listeners. -/
structure Starting (answers : Nat → Except String String) (agent : Agent)
    (plans : List ListenerSettings) (p : Proxy) : Prop extends Stands answers agent plans p where
  sound : p.relay.Sound
  slotted : p.relay.Slotted
  ticks : ∀ r ∈ p.relay.reporters, r.Ticks

def unbound (settings : ListenerSettings) : Listener :=
  { Listener.create settings with state := .stopped }

/-- Those with the settings `plans` run, and the listener after them could not be bound.
There is none after that one. -/
structure GaveUp (answers : Nat → Except String String) (agent : Agent)
    (plans : List ListenerSettings) (failed : ListenerSettings) (p : Proxy) : Prop where
  listeners : ∃ running, Runs answers plans running ∧
    p.relay.listeners = running ++ [unbound failed]
  started : p.started = List.range plans.length
  reporters : p.relay.reporters.map Reporter.standing = [(agent, false)]

/-- The start of the first listener broke off. The listener is stuck, with workers that go on,
and so does the reporter; no shutdown would stop them. -/
structure BrokeOff (agent : Agent) (failed : ListenerSettings) (p : Proxy) : Prop where
  listeners : ∃ x, p.relay.listeners = [x] ∧ x.settings = failed ∧ x.state = .starting
  workers : ∃ pool, p.relay.pools = [pool] ∧ pool.cancelled = false ∧
    pool.workers.length = failed.flushThreads ∧ ∀ w ∈ pool.workers, w.phase = .idle
  started : p.started = []
  reporters : p.relay.reporters.map Reporter.standing = [(agent, false)]

section
variable {answers : Nat → Except String String} {agent : Agent} {plans : List ListenerSettings}
  {p : Proxy}

/-! ## Meanwhile -/

theorem Runs.unmoved {s s' : Relay} (h : Runs answers plans s.listeners) (tended : s.Tended)
    (unmoved : Unmoved s s') : Runs answers plans s'.listeners where
  length := unmoved.length.trans h.length
  each l y hy := by
    obtain ⟨x, hx, own⟩ := unmoved.before hy
    have hold := h.each l x hx
    obtain ⟨accepting, rfl⟩ := own (tended.open_of_ne hx (by rw [hold.2.1]; exact nofun))
    exact hold

/-- The listeners go on running, whatever tasks and clients do. -/
theorem Starting.goesOn (h : Starting answers agent plans p) {t : Relay}
    (reaches : p.relay.Reaches t) (unmoved : Unmoved p.relay t) :
    Starting answers agent plans { p with relay := t } := by
  obtain ⟨actions, plain, rfl⟩ := reaches
  exact ⟨⟨h.runs.unmoved h.sound.toOrderly.tended unmoved, h.started,
    unmoved.reporters.trans h.reporters⟩, h.sound.run plain, h.slotted.run h.sound plain,
    h.sound.ticking_run plain h.ticks⟩

theorem Starting.run (h : Starting answers agent plans p) {actions : List Action}
    (unrequested : ∀ a ∈ actions, a.requested = false) :
    Starting answers agent plans { p with relay := p.relay.run actions } :=
  h.goesOn ⟨actions, fun a ha => Action.byHand_of_unrequested (unrequested a ha), rfl⟩
    (run_unmoved h.sound.toOrderly.tended unrequested)

theorem Starting.settleNow (h : Starting answers agent plans p) :
    Starting answers agent plans { p with relay := p.relay.settleNow } :=
  h.goesOn (settleNow_reaches _) (settleNow_unmoved h.sound.toOrderly.tended)

/-! ## One more listener -/

theorem addListener_last (s : Relay) (settings : ListenerSettings) :
    (s.addListener settings).listeners[s.listeners.length]? = some (.create settings) :=
  List.getElem?_concat_length

theorem startListener_unbound (p : Proxy) {settings : ListenerSettings}
    (valid : settings.validate = .ok ()) (reason : String) :
    ∃ log e, p.startListener settings (.error reason) =
      (⟨{ p.relay with listeners := p.relay.listeners ++ [unbound settings] }, p.started, log⟩,
        some (.error e)) := by
  have failed := start_of_unbound (addListener_last p.relay settings) rfl valid reason
  have last : (p.relay.addListener settings).listeners.set p.relay.listeners.length
      (unbound settings) = p.relay.listeners ++ [unbound settings] := by
    simp [addListener]
  rw [← last, startListener]
  dsimp only
  rw [failed]
  exact ⟨_, _, rfl⟩

theorem start_last (s : Relay) {settings : ListenerSettings} (valid : settings.validate = .ok ())
    (address : String) :
    ∃ registry workers, workers.length = settings.flushThreads ∧
      (∀ w ∈ workers, w.Started settings.flushInterval) ∧
      (s.addListener settings).start s.listeners.length (.ok address) =
        ({ s with
          registry := registry
          tickets := s.tickets + settings.flushThreads
          pools := s.pools ++ [.staffed settings workers]
          listeners := s.listeners ++ [(Listener.create settings).begun address s.pools.length] },
        if settings.maxConnections ≤ Semaphore.maxPermits then some (.ok ()) else none) := by
  obtain ⟨-, -, positive, -⟩ := (ListenerSettings.validate_eq_ok_iff _).mp valid
  obtain ⟨registry, workers, -, -, -, hlength, hnew, heq⟩ :=
    start_eq_begun (addListener_last s settings) rfl valid address
  have last : (s.addListener settings).listeners.set s.listeners.length
      ((Listener.create settings).begun address s.pools.length) =
      s.listeners ++ [(Listener.create settings).begun address s.pools.length] := by
    simp [addListener]
  refine ⟨registry, workers, hlength, fun w hw => (hnew w hw).started positive, ?_⟩
  rw [← last, heq]
  rfl

theorem startListener_bound (p : Proxy) {settings : ListenerSettings}
    (valid : settings.validate = .ok ())
    (within : settings.maxConnections ≤ Semaphore.maxPermits) (address : String) :
    ∃ registry tickets workers log, p.startListener settings (.ok address) =
      (⟨{ p.relay with
          registry := registry
          tickets := tickets
          pools := p.relay.pools ++ [.staffed settings workers]
          listeners := p.relay.listeners ++
            [(Listener.create settings).begun address p.relay.pools.length] },
        p.started ++ [p.relay.listeners.length], log⟩, some (.ok ())) := by
  obtain ⟨registry, workers, -, -, started⟩ := start_last p.relay valid address
  rw [startListener]
  dsimp only
  rw [started, if_pos within]
  exact ⟨registry, _, workers, _, rfl⟩

theorem startListener_beyond (p : Proxy) {settings : ListenerSettings}
    (valid : settings.validate = .ok ())
    (beyond : Semaphore.maxPermits < settings.maxConnections) (address : String) :
    ∃ registry tickets workers, workers.length = settings.flushThreads ∧
      (∀ w ∈ workers, w.Started settings.flushInterval) ∧
      p.startListener settings (.ok address) =
        ({ p with relay :=
          { p.relay with
            registry := registry
            tickets := tickets
            pools := p.relay.pools ++ [.staffed settings workers]
            listeners := p.relay.listeners ++
              [(Listener.create settings).begun address p.relay.pools.length] } }, none) := by
  obtain ⟨registry, workers, staff, idle, started⟩ := start_last p.relay valid address
  refine ⟨registry, p.relay.tickets + settings.flushThreads, workers, staff, idle, ?_⟩
  rw [startListener]
  dsimp only
  rw [started, if_neg (Nat.not_le_of_lt beyond)]

theorem startListener_change (p : Proxy) (settings : ListenerSettings)
    (answer : Except String String) :
    Change p.relay (p.startListener settings answer).1.relay := by
  have added : Change p.relay (p.relay.addListener settings) := .adds settings
  have started := added.seq (start_change _ p.relay.listeners.length answer)
  unfold startListener
  dsimp only
  split
  · rename_i heq
    rwa [heq] at started
  · rename_i heq
    rwa [heq] at started
  · rename_i e heq
    rw [heq] at started
    cases e <;> exact started

theorem Runs.concat {xs : List Listener} (h : Runs answers plans xs) {settings : ListenerSettings}
    {address : String} (answer : answers plans.length = .ok address)
    (within : settings.maxConnections ≤ Semaphore.maxPermits) (i : Nat) :
    Runs answers (plans ++ [settings]) (xs ++ [(Listener.create settings).begun address i]) where
  length := by rw [List.length_append, List.length_append, h.length]; rfl
  each l x hx := by
    rw [List.getElem?_append] at hx
    split at hx
    · rename_i hl
      obtain ⟨hplan, hx⟩ := h.each l x hx
      exact ⟨(List.getElem?_append_left (h.length ▸ hl)).trans hplan, hx⟩
    · rename_i hl
      have hlast : l = plans.length := by
        have hlt := (List.getElem?_eq_some_iff.mp hx).choose
        rw [List.length_singleton] at hlt
        have hlength := h.length
        omega
      obtain rfl := List.mem_singleton.mp (List.mem_of_getElem? hx)
      subst hlast
      exact ⟨List.getElem?_concat_length, if_pos within, rfl, address, answer, rfl⟩

/-- The next listener joins those that run. -/
theorem Starting.startListener_bound (h : Starting answers agent plans p)
    {settings : ListenerSettings} (valid : settings.validate = .ok ())
    (within : settings.maxConnections ≤ Semaphore.maxPermits) {address : String}
    (answer : answers plans.length = .ok address) :
    ∃ q, p.startListener settings (.ok address) = (q, some (.ok ())) ∧
      Starting answers agent (plans ++ [settings]) q := by
  obtain ⟨registry, tickets, workers, log, heq⟩ := p.startListener_bound valid within address
  have change := p.startListener_change settings (.ok address)
  rw [heq] at change
  refine ⟨_, heq, ⟨h.runs.concat answer within _, ?_, h.reporters⟩, h.sound.change change,
    h.slotted.change h.sound change, h.ticks⟩
  rw [h.started, h.runs.length, List.length_append, List.length_singleton, List.range_succ]

theorem Starting.poolless (h : Starting answers agent [] p) :
    p.relay.listeners = [] ∧ p.relay.pools = [] := by
  have none : p.relay.listeners = [] := List.length_eq_zero_iff.mp h.runs.length
  have owned := h.sound.owned.length_eq
  rw [none, List.length_range] at owned
  exact ⟨none, List.length_eq_zero_iff.mp owned.symm⟩

/-- A first listener that is to have more connections than can be counted is stuck. -/
theorem Starting.startListener_beyond (h : Starting answers agent [] p)
    {settings : ListenerSettings} (valid : settings.validate = .ok ())
    (beyond : Semaphore.maxPermits < settings.maxConnections) (address : String) :
    ∃ q, p.startListener settings (.ok address) = (q, none) ∧ BrokeOff agent settings q := by
  obtain ⟨registry, tickets, workers, staff, started, heq⟩ :=
    p.startListener_beyond valid beyond address
  obtain ⟨listeners, pools⟩ := h.poolless
  rw [listeners, pools] at heq
  exact ⟨_, heq, ⟨_, rfl, rfl, if_neg (Nat.not_le_of_lt beyond)⟩,
    ⟨_, rfl, rfl, staff, fun w hw => (started w hw).idle⟩, h.started, h.reporters⟩

/-! ## What a shutdown finds -/

/-- A shutdown can stop the listeners that run when all others have stopped already. -/
theorem Runs.halting {s : Relay} {xs others : List Listener} (h : Runs answers plans xs)
    (sound : s.Sound) (slotted : s.Slotted) (ticks : ∀ r ∈ s.reporters, r.Ticks)
    (listeners : s.listeners = xs ++ others) (stopped : ∀ x ∈ others, x.state = .stopped) :
    s.Halting (List.range plans.length) where
  sound := sound
  slotted := slotted
  ticks := ticks
  running l hl := by
    have hlt : l < xs.length := h.length ▸ List.mem_range.mp hl
    have hx : xs[l]? = some xs[l] := List.getElem?_eq_getElem hlt
    obtain ⟨-, state, kept, -⟩ := h.each l _ hx
    exact ⟨_, by rw [listeners, List.getElem?_append_left hlt, hx], state, kept⟩
  stopped l x hx hl := by
    have hge : xs.length ≤ l := by
      rw [List.mem_range] at hl
      have hlength := h.length
      omega
    rw [listeners, List.getElem?_append_right hge] at hx
    exact stopped x (List.mem_of_getElem? hx)

theorem Starting.halting (h : Starting answers agent plans p) : p.relay.Halting p.started := by
  rw [h.started]
  exact h.runs.halting h.sound h.slotted h.ticks (List.append_nil _).symm fun _ hx => nomatch hx

theorem Starting.startListener_unbound (h : Starting answers agent plans p)
    {settings : ListenerSettings} (valid : settings.validate = .ok ()) (reason : String) :
    ∃ q e, p.startListener settings (.error reason) = (q, some (.error e)) ∧
      GaveUp answers agent plans settings q ∧ q.relay.Halting q.started := by
  obtain ⟨log, e, heq⟩ := p.startListener_unbound valid reason
  have change := p.startListener_change settings (.error reason)
  rw [heq] at change
  refine ⟨_, e, heq, ⟨⟨_, h.runs, rfl⟩, h.started, h.reporters⟩, ?_⟩
  have halting := h.runs.halting (h.sound.change change) (h.slotted.change h.sound change) h.ticks
    rfl fun x hx => by
      rw [List.mem_singleton.mp hx]
      rfl
  rwa [← h.started] at halting

/-! ## All listeners -/

section
variable {settings : Settings} {meanwhile : Nat → List Action}

def asked (settings : Settings) (entries : List (Nat × Format)) : List ListenerSettings :=
  entries.map fun e => settings.listener e.1 e.2

theorem exists_entry {entries : List (Nat × Format)} {k : Nat} {wanted : ListenerSettings}
    (h : (asked settings entries)[k]? = some wanted) :
    ∃ port format, entries[k]? = some (port, format) ∧
      settings.listener port format = wanted := by
  rw [asked, List.getElem?_map] at h
  obtain ⟨⟨port, format⟩, entry, heq⟩ := Option.map_eq_some_iff.mp h
  exact ⟨port, format, entry, heq⟩

/-- As long as the network lets them, all listeners start. -/
theorem Starting.startAll_bound
    (valid : ∀ port format, (settings.listener port format).validate = .ok ())
    (unrequested : ∀ n, ∀ a ∈ meanwhile n, a.requested = false) {entries : List (Nat × Format)}
    (within : entries ≠ [] → settings.maxConnections ≤ Semaphore.maxPermits)
    (h : Starting answers agent plans p)
    (lets : ∀ n, plans.length ≤ n → n < plans.length + entries.length →
      ∃ address, answers n = .ok address) :
    ∃ q, startAll answers meanwhile settings entries p = (q, some true) ∧
      Starting answers agent (plans ++ asked settings entries) q := by
  induction entries generalizing plans p with
  | nil =>
      refine ⟨p, rfl, ?_⟩
      rw [asked, List.map_nil, List.append_nil]
      exact h
  | cons e entries ih =>
      obtain ⟨port, format⟩ := e
      obtain ⟨address, answer⟩ := lets plans.length (Nat.le_refl _) (by simp)
      have counted := within (List.cons_ne_nil _ _)
      have meantime := h.run (unrequested p.relay.listeners.length)
      obtain ⟨q, started, next⟩ :=
        meantime.startListener_bound (valid port format) counted answer
      obtain ⟨q', rest, all⟩ := ih (fun _ => counted) next fun n hn hlt => lets n
        (by rw [List.length_append] at hn; omega)
        (by rw [List.length_append, List.length_singleton] at hlt; rw [List.length_cons]; omega)
      refine ⟨q', ?_, ?_⟩
      · rw [startAll, h.runs.length, answer]
        rw [h.runs.length] at started
        simp only [started]
        exact rest
      · rw [List.append_assoc] at all
        exact all

theorem startAll_append {before after : List (Nat × Format)} {q : Proxy}
    (started : startAll answers meanwhile settings before p = (q, some true)) :
    startAll answers meanwhile settings (before ++ after) p =
      startAll answers meanwhile settings after q := by
  induction before generalizing p with
  | nil =>
      cases started
      rfl
  | cons e before ih =>
      obtain ⟨port, format⟩ := e
      rw [List.cons_append, startAll]
      rw [startAll] at started
      generalize startListener _ _ _ = first at started ⊢
      obtain ⟨p, result⟩ := first
      match result with
      | none => cases started
      | some (.error _) => cases started
      | some (.ok ()) => exact ih started

/-- The first listener that the network does not let start is the last one. -/
theorem Starting.startAll_unbound
    (valid : ∀ port format, (settings.listener port format).validate = .ok ())
    (unrequested : ∀ n, ∀ a ∈ meanwhile n, a.requested = false)
    (h : Starting answers agent plans p) {port : Nat} {format : Format}
    (after : List (Nat × Format)) {reason : String}
    (refused : answers plans.length = .error reason) :
    ∃ q, startAll answers meanwhile settings ((port, format) :: after) p = (q, some false) ∧
      GaveUp answers agent plans (settings.listener port format) q ∧
      q.relay.Halting q.started := by
  obtain ⟨q, e, stopped, gaveUp⟩ :=
    (h.run (unrequested plans.length)).startListener_unbound (valid port format) reason
  refine ⟨q, ?_, gaveUp⟩
  rw [startAll, h.runs.length, refused]
  simp only [stopped]

/-- Start-up ends at the first listener that cannot be bound. -/
theorem Starting.startAll_refused
    (valid : ∀ port format, (settings.listener port format).validate = .ok ())
    (unrequested : ∀ n, ∀ a ∈ meanwhile n, a.requested = false) {entries : List (Nat × Format)}
    (h : Starting answers agent [] p) {k port : Nat} {format : Format}
    (within : k ≠ 0 → settings.maxConnections ≤ Semaphore.maxPermits)
    (entry : entries[k]? = some (port, format)) (lets : ∀ n < k, ∃ address, answers n = .ok address)
    {reason : String} (refused : answers k = .error reason) :
    ∃ q, startAll answers meanwhile settings entries p = (q, some false) ∧
      GaveUp answers agent (asked settings (entries.take k)) (settings.listener port format) q ∧
      q.relay.Halting q.started := by
  obtain ⟨hk, hentry⟩ := List.getElem?_eq_some_iff.mp entry
  have hsplit : entries = entries.take k ++ (port, format) :: entries.drop (k + 1) := by
    rw [← hentry, List.getElem_cons_drop, List.take_append_drop]
  have hlength : (entries.take k).length = k := List.length_take_of_le (Nat.le_of_lt hk)
  have first (n : Nat) (_ : 0 ≤ n) (hn : n < 0 + (entries.take k).length) :
      ∃ address, answers n = .ok address := lets n (by omega)
  have counted (some : entries.take k ≠ []) : settings.maxConnections ≤ Semaphore.maxPermits :=
    within fun hzero => some (by rw [hzero, List.take_zero])
  obtain ⟨q, started, running⟩ := h.startAll_bound valid unrequested counted first
  rw [List.nil_append] at running
  have hasked : (asked settings (entries.take k)).length = k := by
    rw [asked, List.length_map, hlength]
  rw [hsplit, startAll_append started, ← hsplit]
  exact running.startAll_unbound valid unrequested _ (by rw [hasked]; exact refused)

/-- Start-up ends on the spot if the first listener is bound but its start breaks off. -/
theorem Starting.startAll_beyond
    (valid : ∀ port format, (settings.listener port format).validate = .ok ())
    (unrequested : ∀ n, ∀ a ∈ meanwhile n, a.requested = false)
    (h : Starting answers agent [] p) (beyond : Semaphore.maxPermits < settings.maxConnections)
    {entries : List (Nat × Format)} {port : Nat} {format : Format}
    (entry : entries[0]? = some (port, format)) {address : String}
    (answer : answers 0 = .ok address) :
    ∃ q, startAll answers meanwhile settings entries p = (q, none) ∧
      BrokeOff agent (settings.listener port format) q := by
  obtain ⟨after, rfl⟩ := List.head?_eq_some_iff.mp (List.head?_eq_getElem?.trans entry)
  obtain ⟨q, broke, left⟩ :=
    (h.run (unrequested 0)).startListener_beyond (valid port format) beyond address
  refine ⟨q, ?_, left⟩
  rw [startAll, h.runs.length, List.length_nil, answer]
  simp only [broke]

end

/-! ## The way out -/

theorem stopListener_relay {l : Nat} {x : Listener} (listener : p.relay.listeners[l]? = some x) :
    (p.stopListener l).relay = (p.relay.stop l).1 := by
  unfold stopListener
  rw [listener]
  dsimp only
  split <;> split <;> rfl

theorem foldl_stopListener_relay {ls : List Nat} (tended : p.relay.Tended)
    (there : ∀ l ∈ ls, ∃ x, p.relay.listeners[l]? = some x) :
    (ls.foldl stopListener p).relay = p.relay.stopAll ls := by
  induction ls generalizing p with
  | nil => rfl
  | cons l ls ih =>
      obtain ⟨x, listener⟩ := there l List.mem_cons_self
      obtain ⟨actions, hrun⟩ := stop_run p.relay l
      have hone : (p.stopListener l).relay = p.relay.run actions :=
        (stopListener_relay listener).trans hrun
      rw [List.foldl_cons, ih (hone ▸ tended.run actions) fun m hm => ?_,
        stopListener_relay listener]
      · rfl
      · obtain ⟨y, hy⟩ := there m (List.mem_cons_of_mem _ hm)
        obtain ⟨z, hz, -⟩ := tended.run_leads actions m y hy
        exact ⟨z, hone ▸ hz⟩

theorem shutDown_shutdown (halting : p.relay.Halting p.started) (once : p.started.Nodup)
    (returns : p.relay.stopsReturn p.started = true) :
    p.relay.ShutDown p.started p.shutdown.relay := by
  have hrelay : p.shutdown.relay = (p.relay.stopAll p.started).cancelReports.1 := by
    refine congrArg (fun r : Relay => r.cancelReports.1) (foldl_stopListener_relay
      (p := p.say .info mainSource s!"Stopping {p.started.length} listeners")
      halting.sound.toOrderly.tended fun l hl => ?_)
    obtain ⟨x, listener, -⟩ := halting.running l hl
    exact ⟨x, listener⟩
  rw [hrelay]
  exact halting.shutDown once returns

theorem Starting.shutDown (h : Starting answers agent plans p)
    (returns : p.relay.stopsReturn p.started = true) :
    p.relay.ShutDown p.started p.shutdown.relay :=
  shutDown_shutdown h.halting (h.started ▸ List.nodup_range) returns

theorem Starting.say (h : Starting answers agent plans p) (level : LogLevel)
    (source text : String) : Starting answers agent plans (p.say level source text) :=
  ⟨⟨h.runs, h.started, h.reporters⟩, h.sound, h.slotted, h.ticks⟩

/-- Until a signal comes the listeners run, and then a shutdown stops them. -/
theorem Starting.onSignal (h : Starting answers agent plans p) {actions : List Action}
    (unrequested : ∀ a ∈ actions, a.requested = false) :
    let q : Proxy := { p with relay := p.relay.run actions }
    Stands answers agent plans q ∧ ∀ signal, (q.onSignal signal).2 = .success ∧
      (q.relay.stopsReturn q.started = true →
        q.relay.ShutDown q.started (q.onSignal signal).1.relay) := by
  have stands := h.run unrequested
  exact ⟨stands.toStands, fun signal => ⟨rfl, (stands.say _ _ _).shutDown⟩⟩

theorem Starting.conclude_bound (h : Starting answers agent plans p) (ports : plans ≠ []) :
    ∃ q, conclude (p, some true) = (q, none) ∧ Starting answers agent plans q := by
  refine ⟨_, ?_, h.settleNow⟩
  rw [conclude, if_neg]
  rw [h.started, List.range_eq_nil, List.length_eq_zero_iff]
  exact ports

theorem Starting.conclude_silent (h : Starting answers agent [] p) :
    ∃ q, conclude (p, some true) = (q, some .failure) ∧ p.relay.ShutDown [] q.relay := by
  have started : p.started = [] := h.started
  have silence := h.say .error mainSource "No listener ports configured, shutting down"
  refine ⟨_, by rw [conclude, if_pos started], ?_⟩
  exact started ▸ silence.shutDown (by rw [Proxy.say, started]; rfl)

end

/-! ## Before the first listener -/

section
variable (wallClock : Int) (registry : Registry) (sends : Script SendPlan)
  (checkIns : Script (Option ShippingError)) (log : List LogLine)

def blank : Proxy :=
  ⟨{ Relay.create wallClock sends checkIns with registry := registry }, [], log⟩

theorem announce_eq (p : Proxy) (settings : Settings) (agentId : String) :
    ∃ log, p.announce settings agentId = ⟨p.relay.register.1.runReporter
      ⟨agentId, settings.hostname⟩ settings.agentReportInterval, p.started, log⟩ := by
  unfold announce
  dsimp only
  split <;> exact ⟨_, rfl⟩

/-- The reporter starts before any listener does. -/
theorem starting_announce (answers : Nat → Except String String) (settings : Settings)
    (agentId : String) :
    Starting answers ⟨agentId, settings.hostname⟩ []
      ((blank wallClock registry sends checkIns log).announce settings agentId) := by
  have fresh : (create wallClock sends checkIns).Sound := sound_create wallClock sends checkIns
  have served : ∀ c ∈ ([] : List Connection), ∃ x i,
      ([] : List Listener)[c.listener]? = some x ∧ x.pool = some i ∧ x.state ≠ .starting :=
    fun _ hc => nomatch hc
  let s : Relay := { create wallClock sends checkIns with registry := registry }
  let checkedIn : Event := .checkedIn s.registry.snapshotJson.render
  have sound : s.register.1.Sound := fresh.aside [checkedIn] rfl rfl rfl
    (fun e he => by rw [List.mem_singleton.mp he]; rfl) served
  have slotted : s.register.1.Slotted :=
    (Slotted.create wallClock sends checkIns).of_fewer rfl fun _ => Nat.le_refl _
  have reports : Change s.register.1 (s.register.1.addReporter ⟨agentId, settings.hostname⟩
      settings.agentReportInterval) := addReporter_change _ _ _
  obtain ⟨log', heq⟩ := announce_eq (blank wallClock registry sends checkIns log) settings agentId
  rw [heq]
  have ready : Starting answers ⟨agentId, settings.hostname⟩ []
      ⟨s.register.1.addReporter ⟨agentId, settings.hostname⟩ settings.agentReportInterval, [],
        log'⟩ :=
    ⟨⟨⟨rfl, fun _ _ => nofun⟩, rfl, rfl⟩, sound.change reports, slotted.change sound reports,
      reports.ticking fun _ hr => nomatch hr⟩
  exact ready.settleNow

/-! ## All or nothing -/

theorem asked_plan (settings : Settings) :
    asked settings (plan settings) =
      settings.pushPorts.map (fun port => settings.listener port .graphite) ++
        settings.openTsdbPorts.map fun port => settings.listener port .openTsdb := by
  rw [asked, plan, List.map_append, List.map_map, List.map_map]
  rfl

end

/-- Two ports for Graphite and one for OpenTSDB. -/
def threePorts : RawSettings :=
  { RawSettings.standard with
    token := some "t"
    server := some "https://metrics.example.com"
    pushPorts := "2878,2879"
    openTsdbPorts := "4242" }

/-- What they are once they have passed the check on the machine `relay`. -/
def threeListeners : Settings where
  token := "t"
  server := "https://metrics.example.com"
  hostname := "relay"
  pushPorts := [2878, 2879]
  openTsdbPorts := [4242]
  flushThreads := Defaults.flushThreads
  flushInterval := Defaults.flushInterval
  flushMaxPoints := Defaults.flushMaxPoints
  bufferLimit := Defaults.memoryBufferLimit
  idFile := ".wavefront_id"
  logLevel := "info"
  maxConnections := Defaults.maxConnections
  retryAttempts := Defaults.retryAttempts
  requestTimeout := Defaults.requestTimeout
  agentReportInterval := Defaults.agentReportInterval
  shutdownGrace := Defaults.shutdownGrace

/-- While the second listener starts, a client sends a point to the first one. -/
def earlyClient (n : Nat) : List Action :=
  if n = 1 then [.connect 0, .arrive 0 "m 1 1\n".toUTF8.toList, .readOn 0] else []

/-- The second port may be taken. -/
def secondPort (taken : Bool) (n : Nat) : Except String String :=
  if n = 1 ∧ taken = true then .error "address in use" else .ok "0.0.0.0:2878"

end Proxy
end MetricsProxy
