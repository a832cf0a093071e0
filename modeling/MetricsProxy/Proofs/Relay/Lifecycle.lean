import Mathlib.Data.List.Nodup
import MetricsProxy.Proofs.Relay.Account
import MetricsProxy.Proofs.Relay.Changes

/-!
# What holds at every moment

A listener that was started owns a pool, and no two listeners own the same one.
As long as it runs or stops, the books of its pool are right; once it has
stopped, the pool is retired and its last books say what was lost. A start that
breaks off leaves a pool that gets no points, a stop that fails one without
workers (`Life`). Every change keeps this
(`Sound.change`), so it holds after every run that leaves the pools to their
listeners (`sound_run`).
-/
namespace MetricsProxy
open Journal

/-- The workers of a pool are as many as the settings say and tick as they say. -/
structure FlushPool.Staffed (settings : ListenerSettings) (p : FlushPool) : Prop where
  valid : settings.validate = .ok ()
  staff : p.workers.length = settings.flushThreads
  period : ∀ w ∈ p.workers, w.ticker.period = settings.flushInterval
  behind : ∀ w ∈ p.workers, 0 < w.ticket

theorem PoolAccount.staffed {settings : ListenerSettings} {i : Nat} {workers : List Worker}
    (started : ∀ w ∈ workers, w.Started settings.flushInterval) :
    PoolAccount i [] (.staffed settings workers) := by
  have hflying : (FlushPool.staffed settings workers).flying = [] :=
    List.flatMap_eq_nil_iff.mpr fun w hw => by rw [(started w hw).idle]; rfl
  refine ⟨rfl, ⟨[], ?_, ?_⟩, ?_⟩
  · rw [hflying]
    exact .refl _
  · rw [hflying]
    rfl
  · intro j w f hw hf
    rw [(started w (List.mem_of_getElem? hw)).idle] at hf
    cases hf

/-- What holds of a listener that was never bound. -/
structure Listener.Unstarted (x : Listener) : Prop where
  state : x.state = .created ∨ x.state = .stopped
  accepting : x.accepting = false
  closing : x.closing = none
  failed : x.failed = false

/-- What holds of a listener and its pool `i`, which is `p`. -/
inductive Life (journal : List Event) (x : Listener) (i : Nat) (p : FlushPool) : Prop where
  | broken (state : x.state = .starting) (closing : x.closing = none) (failed : x.failed = false)
      (accepting : x.accepting = false) (books : PoolAccount i journal p)
      (unfed : acceptances i journal = [])
  | running (state : x.state = .running) (closing : x.closing = none) (failed : x.failed = false)
      (books : PoolAccount i journal p)
      (awake : x.dropped = false → p.cancelled = false ∧ x.accepting = true ∧ p.AllWorking)
  | stopping (closing : Closing) (state : x.state = .stopping) (closes : x.closing = some closing)
      (failed : x.failed = false) (cancelled : p.cancelled = true)
      (books : PoolAccount i journal p)
      (seen : ∀ k, k < closing.awaited →
        ((p.workers.map fun w => w.phase.isOver) ++ [!x.accepting])[k]? = some true)
  | failed (state : x.state = .stopping) (closing : x.closing = none) (failed : x.failed = true)
      (cancelled : p.cancelled = true) (books : PoolAccount i journal p) (allOver : p.AllOver)
  | stopped (state : x.state = .stopped) (closing : x.closing = none) (failed : x.failed = false)
      (retired : Retired p)
      (partition : ∃ lost,
        (acceptedPoints i journal).Perm (unitPoints (returnedUnits i journal) ++ lost))

namespace Life
variable {journal : List Event} {x : Listener} {i now : Nat} {p q : FlushPool}

theorem congr {journal' : List Event} (h : Life journal x i p)
    (same : SameFor i journal' journal) : Life journal' x i p := by
  cases h with
  | broken state closing failed accepting books unfed =>
      exact .broken state closing failed accepting (books.congr same)
        (same.acceptances.trans unfed)
  | running state closing failed books awake =>
      exact .running state closing failed (books.congr same) awake
  | stopping closing state closes failed cancelled books seen =>
      exact .stopping closing state closes failed cancelled (books.congr same) seen
  | failed state closing failed cancelled books allOver =>
      exact .failed state closing failed cancelled (books.congr same) allOver
  | stopped state closing failed retired partition =>
      refine .stopped state closing failed retired ?_
      rw [acceptedPoints, same.acceptances, same.returned]
      exact partition

theorem ne_stopped (h : Life journal x i p) (busy : ¬ Retired p) : x.state ≠ .stopped := by
  cases h with
  | broken state _ _ _ _ _ => rw [state]; exact nofun
  | running state _ _ _ _ => rw [state]; exact nofun
  | stopping _ state _ _ _ _ _ => rw [state]; exact nofun
  | failed state _ _ _ _ _ => rw [state]; exact nofun
  | stopped _ _ _ retired _ => exact absurd retired busy

theorem books (h : Life journal x i p) (state : x.state ≠ .stopped) : PoolAccount i journal p := by
  cases h with
  | broken _ _ _ _ books _ => exact books
  | running _ _ _ books _ => exact books
  | stopping _ _ _ _ _ books _ => exact books
  | failed _ _ _ _ books _ => exact books
  | stopped hstopped _ _ _ _ => exact absurd hstopped state

/-- A listener that runs accepts and all its workers work, unless its owner let it go. -/
theorem of_running (h : Life journal x i p) (running : x.state = .running)
    (kept : x.dropped = false) : p.cancelled = false ∧ x.accepting = true ∧ p.AllWorking := by
  cases h with
  | broken state _ _ _ _ _ => rw [running] at state; cases state
  | running _ _ _ _ awake => exact awake kept
  | stopping _ state _ _ _ _ _ => rw [running] at state; cases state
  | failed state _ _ _ _ _ => rw [running] at state; cases state
  | stopped state _ _ _ _ => rw [running] at state; cases state

/-- What remains of a listener that has stopped. -/
theorem of_stopped (h : Life journal x i p) (stopped : x.state = .stopped) :
    x.closing = none ∧ Retired p ∧ ∃ lost,
      (acceptedPoints i journal).Perm (unitPoints (returnedUnits i journal) ++ lost) := by
  cases h with
  | broken state _ _ _ _ _ => rw [stopped] at state; cases state
  | running state _ _ _ _ => rw [stopped] at state; cases state
  | stopping _ state _ _ _ _ _ => rw [stopped] at state; cases state
  | failed state _ _ _ _ _ => rw [stopped] at state; cases state
  | stopped _ closing _ retired partition => exact ⟨closing, retired, partition⟩

/-- The pool that a start left behind is empty. -/
theorem of_broken (h : Life journal x i p) (broken : x.state = .starting) :
    x.accepting = false ∧ PoolAccount i journal p ∧ acceptances i journal = [] := by
  cases h with
  | broken _ _ _ accepting books unfed => exact ⟨accepting, books, unfed⟩
  | running state _ _ _ _ => rw [broken] at state; cases state
  | stopping _ state _ _ _ _ _ => rw [broken] at state; cases state
  | failed state _ _ _ _ _ => rw [broken] at state; cases state
  | stopped state _ _ _ _ => rw [broken] at state; cases state

/-- A task that was seen to end stays over. -/
theorem seen_works {events : List Event} (move : PoolStep now i p events q) {n : Nat}
    (seen : ∀ k, k < n →
      ((p.workers.map fun w => w.phase.isOver) ++ [!x.accepting])[k]? = some true) :
    ∀ k, k < n → ((q.workers.map fun w => w.phase.isOver) ++ [!x.accepting])[k]? = some true := by
  intro k hk
  have hlength := move.length_workers
  have hseen := seen k hk
  by_cases hin : k < p.workers.length
  · rw [List.getElem?_append_left (by simpa using hin), List.getElem?_map] at hseen
    rw [List.getElem?_append_left (by simpa [hlength] using hin), List.getElem?_map]
    obtain ⟨w, hw, hover⟩ := Option.map_eq_some_iff.mp hseen
    rw [move.getElem?_of_isOver hw hover, Option.map_some, hover]
  · rw [List.getElem?_append_right (by simpa using hin)] at hseen
    rw [List.getElem?_append_right (by simpa [hlength] using hin)]
    simpa [hlength] using hseen

theorem works {events : List Event} (h : Life journal x i p)
    (move : PoolStep now i p events q) : Life (events ++ journal) x i q := by
  cases h with
  | broken state closing failed accepting books unfed =>
      exact .broken state closing failed accepting (books.step move)
        ((move.acceptances_eq journal).trans unfed)
  | running state closing failed books awake =>
      refine .running state closing failed (books.step move) fun hdropped => ?_
      obtain ⟨running, accepting, working⟩ := awake hdropped
      exact ⟨move.cancelled_eq.trans running, accepting, move.allWorking running working⟩
  | stopping closing state closes failed cancelled books seen =>
      exact .stopping closing state closes failed (move.cancelled_eq.trans cancelled)
        (books.step move) (seen_works move seen)
  | failed state closing failed cancelled books allOver => exact absurd allOver move.not_allOver
  | stopped state closing failed retired partition => exact absurd retired.allOver move.not_allOver

theorem accepts (h : Life journal x i p) (c : Option Nat) (point : Point)
    (sound : x.state ≠ .starting) (running : p.cancelled = false)
    (room : p.buffer.size < p.buffer.capacity) :
    Life (.accepted i c point :: journal) x i
      { p with buffer := (p.buffer.enqueue point).1 } := by
  cases h with
  | broken state _ _ _ _ _ => exact absurd state sound
  | running state closing failed books awake =>
      exact .running state closing failed (books.accepts c point room) awake
  | stopping closing state closes failed cancelled books seen =>
      rw [running] at cancelled
      cases cancelled
  | failed state closing failed cancelled books allOver =>
      rw [running] at cancelled
      cases cancelled
  | stopped state closing failed retired partition =>
      have cancelled := retired.cancelled
      rw [running] at cancelled
      cases cancelled

theorem begun {workers : List Worker} (unstarted : x.Unstarted)
    (started : ∀ w ∈ workers, w.Started x.settings.flushInterval) (address : String) :
    Life [] (x.begun address i) i (.staffed x.settings workers) := by
  by_cases within : x.settings.maxConnections ≤ Semaphore.maxPermits
  · refine .running (if_pos within) unstarted.closing unstarted.failed (.staffed started)
      fun _ => ⟨rfl, ?_, fun w hw => ?_⟩
    · simp [Listener.begun, within]
    · rw [(started w hw).idle]
      rfl
  · refine .broken (if_neg within) unstarted.closing unstarted.failed ?_ (.staffed started) rfl
    simp [Listener.begun, within, unstarted.accepting]

end Life

namespace FlushPool.Staffed
variable {settings : ListenerSettings} {p q : FlushPool}

theorem set {j : Nat} {w w' : Worker} (h : p.Staffed settings) (hw : p.workers[j]? = some w)
    (hq : q.workers = p.workers.set j w') (period : w'.ticker.period = w.ticker.period)
    (behind : 0 < w'.ticket) : q.Staffed settings where
  valid := h.valid
  staff := by rw [hq, List.length_set, h.staff]
  period v hv := by
    rw [hq] at hv
    rcases List.mem_or_eq_of_mem_set hv with hv | rfl
    · exact h.period v hv
    · rw [period, h.period w (List.mem_of_getElem? hw)]
  behind v hv := by
    rw [hq] at hv
    rcases List.mem_or_eq_of_mem_set hv with hv | rfl
    · exact h.behind v hv
    · exact behind

theorem works {now i : Nat} {events : List Event} (h : p.Staffed settings)
    (move : PoolStep now i p events q) : q.Staffed settings := by
  induction move with
  | idles ticket behind worker _ _ _ _ => exact h.set worker rfl rfl behind
  | begins flight ticket behind worker _ _ _ _ _ => exact h.set worker rfl rfl behind
  | lands flight ticket behind worker _ _ => exact h.set worker rfl rfl behind
  | quits worker _ _ =>
      have hbehind := h.behind _ (List.mem_of_getElem? worker)
      exact h.set worker rfl rfl hbehind
  | seq _ _ ih ih' => exact ih' (ih h)

theorem of_workers (h : p.Staffed settings) (hq : q.workers = p.workers) :
    q.Staffed settings := by
  obtain ⟨valid, staff, period, behind⟩ := h
  rw [← hq] at staff period behind
  exact ⟨valid, staff, period, behind⟩

theorem aborted (h : p.Staffed settings) : p.aborted.Staffed settings where
  valid := h.valid
  staff := by simpa [FlushPool.aborted] using h.staff
  period w hw := by
    obtain ⟨v, hv, rfl⟩ := List.mem_map.mp hw
    rw [← h.period v hv]
    unfold Worker.abort
    split <;> rfl
  behind w hw := by
    obtain ⟨v, hv, rfl⟩ := List.mem_map.mp hw
    have hbehind := h.behind v hv
    unfold Worker.abort
    split <;> exact hbehind

end FlushPool.Staffed

namespace Relay

structure Sound (s : Relay) : Prop where
  /-- Each pool has one owner. -/
  owned : (s.listeners.flatMap fun x => x.pool.toList).Perm (List.range s.pools.length)
  unstarted : ∀ (l : Nat) (x : Listener), s.listeners[l]? = some x → x.pool = none → x.Unstarted
  life : ∀ (l i : Nat) (x : Listener) (p : FlushPool), s.listeners[l]? = some x →
    x.pool = some i → s.pools[i]? = some p → Life s.journal x i p ∧ p.Staffed x.settings
  /-- Connections are with listeners whose start was completed. -/
  served : ∀ c ∈ s.connections, ∃ x i, s.listeners[c.listener]? = some x ∧ x.pool = some i ∧
    x.state ≠ .starting
  /-- The journal is about pools that are there. -/
  known : ∀ e ∈ s.journal, ∀ i, e.pool? = some i → i < s.pools.length

namespace Sound
variable {s s' : Relay} {l m i : Nat} {x y : Listener} {p q : FlushPool}

theorem pool_lt (h : s.Sound) (hx : s.listeners[l]? = some x) (owner : x.pool = some i) :
    i < s.pools.length := by
  have hmem : i ∈ s.listeners.flatMap fun x => x.pool.toList :=
    List.mem_flatMap.mpr ⟨x, List.mem_of_getElem? hx, by simp [owner]⟩
  simpa using h.owned.subset hmem

theorem wired (h : s.Sound) : s.Wired := by
  intro l x i hx owner
  exact ⟨_, List.getElem?_eq_getElem (h.pool_lt hx owner)⟩

/-- Two listeners do not own the same pool. -/
theorem owner_unique (h : s.Sound) (hx : s.listeners[l]? = some x) (hy : s.listeners[m]? = some y)
    (ownerx : x.pool = some i) (ownery : y.pool = some i) : l = m := by
  have hnodup : (s.listeners.flatMap fun x => x.pool.toList).Nodup :=
    h.owned.symm.nodup List.nodup_range
  have hdisjoint := (List.nodup_flatMap.mp hnodup).2
  obtain ⟨hl, rfl⟩ := List.getElem?_eq_some_iff.mp hx
  obtain ⟨hm, rfl⟩ := List.getElem?_eq_some_iff.mp hy
  rcases Nat.lt_trichotomy l m with hlt | heq | hgt
  · have hlm := List.pairwise_iff_getElem.mp hdisjoint l m hl hm hlt
    exact (hlm (a := i) (by simp [ownerx]) (by simp [ownery])).elim
  · exact heq
  · have hml := List.pairwise_iff_getElem.mp hdisjoint m l hm hl hgt
    exact (hml (a := i) (by simp [ownery]) (by simp [ownerx])).elim

/-- Every pool has its listener. -/
theorem exists_owner (h : s.Sound) (pool : s.pools[i]? = some p) :
    ∃ (l : Nat) (x : Listener), s.listeners[l]? = some x ∧ x.pool = some i := by
  have hi : i ∈ List.range s.pools.length :=
    List.mem_range.mpr (List.getElem?_eq_some_iff.mp pool).choose
  have hmem := h.owned.symm.subset hi
  obtain ⟨x, hx, howner⟩ := List.mem_flatMap.mp hmem
  obtain ⟨l, hl⟩ := List.mem_iff_getElem?.mp hx
  exact ⟨l, x, hl, by simpa using howner⟩

theorem aside (h : s.Sound) (events : List Event) (pools : s'.pools = s.pools)
    (listeners : s'.listeners = s.listeners)
    (journal : s'.journal = events ++ s.journal) (foreign : ∀ e ∈ events, e.pool? = none)
    (served : ∀ c ∈ s'.connections, ∃ x i, s.listeners[c.listener]? = some x ∧
      x.pool = some i ∧ x.state ≠ .starting) :
    s'.Sound where
  owned := by rw [pools, listeners]; exact h.owned
  unstarted := by rw [listeners]; exact h.unstarted
  life := by
    intro l i x p hx owner hp
    rw [listeners] at hx
    rw [pools] at hp
    obtain ⟨life, staffed⟩ := h.life l i x p hx owner hp
    rw [journal]
    refine ⟨life.congr (sameFor_append (fun e he => ?_) _), staffed⟩
    rw [foreign e he]
    exact nofun
  served := by rw [listeners]; exact served
  known := by
    intro e he i hi
    rw [journal] at he
    rw [pools]
    rcases List.mem_append.mp he with he | he
    · rw [foreign e he] at hi
      cases hi
    · exact h.known e he i hi

/-- A change of one listener and its pool. -/
theorem update (h : s.Sound) (events : List Event) (hx : s.listeners[l]? = some x)
    (owner : x.pool = some i)
    (pools : s'.pools = s.pools.set i q) (listeners : s'.listeners = s.listeners.set l y)
    (journal : s'.journal = events ++ s.journal) (own : ∀ e ∈ events, e.pool? = some i)
    (owner' : y.pool = some i) (life : Life s'.journal y i q) (staffed : q.Staffed y.settings)
    (connections : ∀ c ∈ s'.connections, ∃ d ∈ s.connections, c.listener = d.listener)
    (broken : y.state = .starting → x.state = .starting) : s'.Sound where
  owned := by
    have hperm := perm_flatMap_set (fun x : Listener => x.pool.toList) hx y
    rw [owner, owner'] at hperm
    rw [pools, listeners, List.length_set]
    exact ((List.perm_append_left_iff _).mp hperm).trans h.owned
  unstarted := by
    intro m z hz poolless
    rw [listeners] at hz
    rcases of_getElem?_set hz with ⟨-, rfl⟩ | ⟨-, hz⟩
    · rw [owner'] at poolless
      cases poolless
    · exact h.unstarted m z hz poolless
  life := by
    intro m k z r hz hk hr
    rw [listeners] at hz
    rw [pools] at hr
    rcases of_getElem?_set hz with ⟨-, rfl⟩ | ⟨hm, hz⟩
    · obtain rfl := Option.some.inj (owner'.symm.trans hk)
      rcases of_getElem?_set hr with ⟨-, rfl⟩ | ⟨hii, -⟩
      · exact ⟨life, staffed⟩
      · exact absurd rfl hii
    · have hik : i ≠ k := by
        rintro rfl
        exact hm (h.owner_unique hx hz owner hk)
      rw [List.getElem?_set_ne hik] at hr
      obtain ⟨life, staffed⟩ := h.life m k z r hz hk hr
      rw [journal]
      refine ⟨life.congr (sameFor_append (fun e he => ?_) _), staffed⟩
      rw [own e he]
      exact fun heq => hik (Option.some.inj heq)
  served := by
    intro c hc
    obtain ⟨d, hd, heq⟩ := connections c hc
    obtain ⟨z, k, hz, hk, complete⟩ := h.served d hd
    rw [heq, listeners, List.getElem?_set]
    by_cases hm : l = d.listener
    · have hl : d.listener < s.listeners.length := (List.getElem?_eq_some_iff.mp hz).choose
      rw [← hm, hx] at hz
      obtain rfl := Option.some.inj hz
      rw [if_pos hm, if_pos (hm ▸ hl)]
      exact ⟨y, i, rfl, owner', fun state => complete (broken state)⟩
    · rw [if_neg hm]
      exact ⟨z, k, hz, hk, complete⟩
  known := by
    intro e he k hk
    rw [journal] at he
    rw [pools, List.length_set]
    rcases List.mem_append.mp he with he | he
    · rw [own e he] at hk
      cases hk
      exact h.pool_lt hx owner
    · exact h.known e he k hk

/-- A change of a listener that has no pool yet. -/
theorem update_unstarted (h : s.Sound) (hx : s.listeners[l]? = some x) (poolless : x.pool = none)
    (pools : s'.pools = s.pools) (listeners : s'.listeners = s.listeners.set l y)
    (journal : s'.journal = s.journal) (connections : s'.connections = s.connections)
    (poolless' : y.pool = none) (unstarted : y.Unstarted) : s'.Sound where
  owned := by
    have hperm := perm_flatMap_set (fun x : Listener => x.pool.toList) hx y
    rw [poolless, poolless'] at hperm
    rw [pools, listeners]
    exact hperm.trans h.owned
  unstarted := by
    intro m z hz hpoolless
    rw [listeners] at hz
    rcases of_getElem?_set hz with ⟨-, rfl⟩ | ⟨-, hz⟩
    · exact unstarted
    · exact h.unstarted m z hz hpoolless
  life := by
    intro m k z r hz hk hr
    rw [listeners] at hz
    rw [pools] at hr
    rw [journal]
    rcases of_getElem?_set hz with ⟨-, rfl⟩ | ⟨-, hz⟩
    · rw [poolless'] at hk
      cases hk
    · exact h.life m k z r hz hk hr
  served := by
    intro c hc
    rw [connections] at hc
    obtain ⟨z, k, hz, hk, complete⟩ := h.served c hc
    refine ⟨z, k, ?_, hk, complete⟩
    rw [listeners, List.getElem?_set_ne, hz]
    rintro rfl
    rw [hx] at hz
    cases hz
    rw [poolless] at hk
    cases hk
  known := by rw [journal, pools]; exact h.known

theorem life_of (h : s.Sound) (hx : s.listeners[l]? = some x) (owner : x.pool = some i) :
    ∃ p, s.pools[i]? = some p ∧ Life s.journal x i p ∧ p.Staffed x.settings := by
  obtain ⟨p, hp⟩ := h.wired l x i hx owner
  exact ⟨p, hp, h.life l i x p hx owner hp⟩

theorem served_set {c : Nat} {z z' : Connection} (hz : s.connections[c]? = some z)
    (same : z'.listener = z.listener) :
    ∀ d ∈ s.connections.set c z', ∃ e ∈ s.connections, d.listener = e.listener := by
  intro d hd
  rcases List.mem_or_eq_of_mem_set hd with hd | rfl
  · exact ⟨d, hd, rfl⟩
  · exact ⟨z, List.mem_of_getElem? hz, same⟩

theorem served_of (h : s.Sound) {connections : List Connection}
    (same : ∀ d ∈ connections, ∃ e ∈ s.connections, d.listener = e.listener) :
    ∀ c ∈ connections, ∃ x i, s.listeners[c.listener]? = some x ∧ x.pool = some i ∧
      x.state ≠ .starting := by
  intro c hc
  obtain ⟨e, he, heq⟩ := same c hc
  rw [heq]
  exact h.served e he

/-- The listener of a connection was not left behind by its start. -/
theorem complete_of_served (h : s.Sound) {c : Nat} {z : Connection}
    (connection : s.connections[c]? = some z) (hx : s.listeners[z.listener]? = some x) :
    x.state ≠ .starting := by
  obtain ⟨y, i, hy, -, complete⟩ := h.served z (List.mem_of_getElem? connection)
  obtain rfl := Option.some.inj (hx.symm.trans hy)
  exact complete

theorem reads (h : s.Sound) {c : Nat} (reading : s.Reading c s') : s'.Sound := by
  cases reading with
  | closes connection live server pool reason =>
      exact h.aside [] rfl rfl rfl (fun _ he => nomatch he)
        (h.served_of (served_set connection rfl))
  | keeps connection live server pool running some fed =>
      exact h.aside [] rfl rfl rfl (fun _ he => nomatch he)
        (h.served_of (served_set connection rfl))
  | takes connection live server owner running framed classified handled =>
      obtain ⟨r, hr, life, staffed⟩ := h.life_of server owner
      have complete := h.complete_of_served connection server
      cases handled with
      | accepted pool room =>
          obtain rfl := Option.some.inj (hr.symm.trans pool)
          rw [isCancelled_eq owner hr] at running
          have hlisteners := (set_eq_self_of_getElem? server).symm
          exact h.update [_] server owner rfl hlisteners rfl
            (fun e he => by rw [List.mem_singleton.mp he]; rfl) owner
            (life.accepts _ _ complete running room) (staffed.of_workers rfl)
            (served_set connection rfl) id
      | rejected pool full =>
          exact h.aside [] rfl rfl rfl (fun _ he => nomatch he)
            (h.served_of (served_set connection rfl))
      | error cause =>
          exact h.aside [] rfl rfl rfl (fun _ he => nomatch he)
            (h.served_of (served_set connection rfl))
      | blank =>
          exact h.aside [] rfl rfl rfl (fun _ he => nomatch he)
            (h.served_of (served_set connection rfl))

/-- A listener gets its pool when it starts. -/
theorem poolless_of_created (h : s.Sound) (hx : s.listeners[l]? = some x)
    (fresh : x.state = .created) : x.pool = none := by
  rcases Option.eq_none_or_eq_some x.pool with hnone | ⟨i, howner⟩
  · exact hnone
  · obtain ⟨p, -, life, -⟩ := h.life_of hx howner
    cases life with
    | broken state _ _ _ _ _ => rw [fresh] at state; cases state
    | running state _ _ _ _ => rw [fresh] at state; cases state
    | stopping _ state _ _ _ _ _ => rw [fresh] at state; cases state
    | failed state _ _ _ _ _ => rw [fresh] at state; cases state
    | stopped state _ _ _ _ => rw [fresh] at state; cases state

theorem silent (h : s.Sound) : ∀ e ∈ s.journal, e.pool? ≠ some s.pools.length :=
  fun e he heq => Nat.lt_irrefl _ (h.known e he _ heq)

theorem starts (h : s.Sound) {tickets : Nat} {registry : Registry} {workers : List Worker}
    (address : String) (hx : s.listeners[l]? = some x) (fresh : x.state = .created)
    (valid : x.settings.validate = .ok ()) (staff : workers.length = x.settings.flushThreads)
    (started : ∀ w ∈ workers, w.Started x.settings.flushInterval) :
    Sound
      { s with
        registry := registry
        tickets := tickets
        pools := s.pools ++ [.staffed x.settings workers]
        listeners := s.listeners.set l (x.begun address s.pools.length) } := by
  have poolless := h.poolless_of_created hx fresh
  have hunstarted := h.unstarted l x hx poolless
  have hsame : SameFor s.pools.length s.journal [] := by
    simpa using sameFor_append h.silent []
  refine ⟨?_, ?_, ?_, ?_, ?_⟩
  · have hperm := perm_flatMap_set (fun x : Listener => x.pool.toList) hx
      (x.begun address s.pools.length)
    rw [poolless] at hperm
    simp only [List.length_append, List.length_singleton, List.range_succ]
    exact (hperm.trans (h.owned.append_left _)).trans (List.perm_append_comm)
  · intro m z hz hpoolless
    rcases of_getElem?_set hz with ⟨-, rfl⟩ | ⟨-, hz⟩
    · cases hpoolless
    · exact h.unstarted m z hz hpoolless
  · intro m k z r hz hk hr
    rcases of_getElem?_set hz with ⟨-, rfl⟩ | ⟨-, hz⟩
    · cases hk
      rw [List.getElem?_concat_length] at hr
      cases hr
      exact ⟨(Life.begun hunstarted started address).congr hsame,
        valid, staff, fun w hw => (started w hw).period, fun w hw => (started w hw).behind⟩
    · have hk' := h.pool_lt hz hk
      rw [List.getElem?_append_left hk'] at hr
      exact h.life m k z r hz hk hr
  · intro c hc
    obtain ⟨z, k, hz, hk, complete⟩ := h.served c hc
    refine ⟨z, k, ?_, hk, complete⟩
    rw [List.getElem?_set_ne, hz]
    rintro rfl
    rw [hx] at hz
    cases hz
    rw [poolless] at hk
    cases hk
  · intro e he k hk
    have hlt := h.known e he k hk
    rw [List.length_append]
    omega

theorem adds (h : s.Sound) (settings : ListenerSettings) :
    Sound { s with listeners := s.listeners ++ [.create settings] } where
  owned := by simpa [Listener.create] using h.owned
  unstarted := by
    intro m z hz poolless
    rw [List.getElem?_append] at hz
    split at hz
    · exact h.unstarted m z hz poolless
    · obtain rfl := List.mem_singleton.mp (List.mem_of_getElem? hz)
      exact ⟨.inl rfl, rfl, rfl, rfl⟩
  life := by
    intro m k z r hz hk hr
    rw [List.getElem?_append] at hz
    split at hz
    · exact h.life m k z r hz hk hr
    · obtain rfl := List.mem_singleton.mp (List.mem_of_getElem? hz)
      cases hk
  served := by
    intro c hc
    obtain ⟨z, k, hz, served⟩ := h.served c hc
    have hlt := (List.getElem?_eq_some_iff.mp hz).choose
    exact ⟨z, k, by rw [List.getElem?_append_left hlt, hz], served⟩
  known := h.known

theorem connects (h : s.Sound) {registry : Registry} {limit : Nat} (hx : s.listeners[l]? = some x)
    (accepting : x.accepting = true) :
    Sound
      { s with connections := s.connections ++ [.opened l limit], registry := registry } := by
  refine h.aside [] rfl rfl rfl (fun _ he => nomatch he) ?_
  intro c hc
  rcases List.mem_append.mp hc with hc | hc
  · exact h.served c hc
  · obtain rfl := List.mem_singleton.mp hc
    rcases Option.eq_none_or_eq_some x.pool with poolless | ⟨i, owner⟩
    · have hclosed := (h.unstarted l x hx poolless).accepting
      rw [accepting] at hclosed
      cases hclosed
    · obtain ⟨p, -, life, -⟩ := h.life_of hx owner
      refine ⟨x, i, hx, owner, fun broken => ?_⟩
      have hclosed := (life.of_broken broken).1
      rw [accepting] at hclosed
      cases hclosed

theorem owner_of_closing (h : s.Sound) (hx : s.listeners[l]? = some x) {closing : Closing}
    (closes : x.closing = some closing) : ∃ i, x.pool = some i := by
  rcases Option.eq_none_or_eq_some x.pool with poolless | owner
  · have hnone := (h.unstarted l x hx poolless).closing
    rw [closes] at hnone
    cases hnone
  · exact owner

theorem owner_of_running (h : s.Sound) (hx : s.listeners[l]? = some x)
    (running : x.state = .running) : ∃ i, x.pool = some i := by
  rcases Option.eq_none_or_eq_some x.pool with poolless | owner
  · rcases (h.unstarted l x hx poolless).state with state | state
    · rw [running] at state
      cases state
    · rw [running] at state
      cases state
  · exact owner

theorem stopping_of (h : s.Sound) (hx : s.listeners[l]? = some x) (owner : x.pool = some i)
    (pool : s.pools[i]? = some p) {closing : Closing} (closes : x.closing = some closing) :
    x.state = .stopping ∧ x.failed = false ∧ p.cancelled = true ∧ PoolAccount i s.journal p ∧
      ∀ k, k < closing.awaited → (s.tasksOver x)[k]? = some true := by
  rw [tasksOver_eq owner pool]
  cases (h.life l i x p hx owner pool).1 with
  | stopping closing' state closes' failed cancelled books seen =>
      obtain rfl := Option.some.inj (closes.symm.trans closes')
      exact ⟨state, failed, cancelled, books, seen⟩
  | broken _ closing _ _ _ _ => rw [closes] at closing; cases closing
  | running _ closing _ _ _ => rw [closes] at closing; cases closing
  | failed _ closing _ _ _ _ => rw [closes] at closing; cases closing
  | stopped _ closing _ _ _ => rw [closes] at closing; cases closing

theorem cancels (h : s.Sound) (hx : s.listeners[l]? = some x) (running : x.state = .running)
    (owner : x.pool = some i) (pool : s.pools[i]? = some p) (deadline : Nat) :
    Sound
      { s with
        pools := s.pools.set i { p with cancelled := true }
        listeners := s.listeners.set l
          { x with state := .stopping, closing := some ⟨deadline, 0⟩ } } := by
  obtain ⟨life, staffed⟩ := h.life l i x p hx owner pool
  refine h.update [] hx owner rfl rfl rfl (fun _ he => nomatch he) owner ?_
    (staffed.of_workers rfl) (fun c hc => ⟨c, hc, rfl⟩) nofun
  cases life with
  | broken state _ _ _ _ _ => rw [running] at state; cases state
  | running state closing failed books awake =>
      exact .stopping ⟨deadline, 0⟩ rfl rfl failed rfl (books.of_same rfl rfl rfl)
        fun k hk => absurd hk (Nat.not_lt_zero k)
  | stopping _ state _ _ _ _ _ => rw [running] at state; cases state
  | failed state _ _ _ _ _ => rw [running] at state; cases state
  | stopped state _ _ _ _ => rw [running] at state; cases state

theorem drops (h : s.Sound) (hx : s.listeners[l]? = some x) (owner : x.pool = some i)
    (pool : s.pools[i]? = some p) :
    Sound
      { s with
        pools := s.pools.set i { p with cancelled := true }
        listeners := s.listeners.set l { x with dropped := true } } := by
  obtain ⟨life, staffed⟩ := h.life l i x p hx owner pool
  refine h.update [] hx owner rfl rfl rfl (fun _ he => nomatch he) owner ?_
    (staffed.of_workers rfl) (fun c hc => ⟨c, hc, rfl⟩) id
  cases life with
  | broken state closing failed accepting books unfed =>
      exact .broken state closing failed accepting (books.of_same rfl rfl rfl) unfed
  | running state closing failed books awake =>
      exact .running state closing failed (books.of_same rfl rfl rfl) nofun
  | stopping closing state closes failed cancelled books seen =>
      exact .stopping closing state closes failed rfl (books.of_same rfl rfl rfl) seen
  | failed state closing failed cancelled books allOver =>
      exact .failed state closing failed rfl (books.of_same rfl rfl rfl) allOver
  | stopped state closing failed retired partition =>
      exact .stopped state closing failed ⟨rfl, retired.allOver, retired.empty, retired.idle⟩
        partition

theorem leaves (h : s.Sound) (hx : s.listeners[l]? = some x) (accepting : x.accepting = true)
    (cancelled : s.isCancelled x = true) :
    Sound { s with listeners := s.listeners.set l { x with accepting := false } } := by
  rcases Option.eq_none_or_eq_some x.pool with poolless | ⟨i, owner⟩
  · have hclosed := (h.unstarted l x hx poolless).accepting
    rw [accepting] at hclosed
    cases hclosed
  obtain ⟨p, pool, life, staffed⟩ := h.life_of hx owner
  have hpools := (set_eq_self_of_getElem? pool).symm
  rw [isCancelled_eq owner pool] at cancelled
  refine h.update [] hx owner hpools rfl rfl (fun _ he => nomatch he) owner ?_
    staffed (fun c hc => ⟨c, hc, rfl⟩) id
  cases life with
  | broken state closing failed accepting books unfed =>
      exact .broken state closing failed rfl books unfed
  | running state closing failed books awake =>
      refine .running state closing failed books fun hdropped => ?_
      have running := (awake hdropped).1
      rw [cancelled] at running
      cases running
  | stopping closing state closes failed cancelled books seen =>
      refine .stopping closing state closes failed cancelled books fun k hk => ?_
      have hseen := seen k hk
      by_cases hin : k < p.workers.length
      · rw [List.getElem?_append_left (by simpa using hin)] at hseen ⊢
        exact hseen
      · -- The accepting task was not over before.
        rw [List.getElem?_append_right (by simpa using hin), accepting] at hseen
        have hfalse := List.mem_singleton.mp (List.mem_of_getElem? hseen)
        cases hfalse
  | failed state closing failed cancelled books allOver =>
      exact .failed state closing failed cancelled books allOver
  | stopped state closing failed retired partition =>
      exact .stopped state closing failed retired partition

theorem sees (h : s.Sound) (hx : s.listeners[l]? = some x) {closing : Closing}
    (closes : x.closing = some closing) (ended : (s.tasksOver x)[closing.awaited]? = some true) :
    Sound
      { s with
        listeners := s.listeners.set l
          { x with closing := some { closing with awaited := closing.awaited + 1 } } } := by
  obtain ⟨i, owner⟩ := h.owner_of_closing hx closes
  obtain ⟨p, pool, -, staffed⟩ := h.life_of hx owner
  obtain ⟨state, failed, cancelled, books, seen⟩ := h.stopping_of hx owner pool closes
  have hpools := (set_eq_self_of_getElem? pool).symm
  rw [tasksOver_eq owner pool] at ended seen
  refine h.update [] hx owner hpools rfl rfl (fun _ he => nomatch he) owner ?_
    staffed (fun c hc => ⟨c, hc, rfl⟩) id
  refine .stopping _ state rfl failed cancelled books fun k hk => ?_
  rcases Nat.lt_succ_iff_lt_or_eq.mp hk with hlt | rfl
  · exact seen k hlt
  · exact ended

theorem aborts (h : s.Sound) {registry : Registry} (hx : s.listeners[l]? = some x)
    {closing : Closing} (closes : x.closing = some closing) (owner : x.pool = some i)
    (pool : s.pools[i]? = some p) :
    Sound
      { s with
        registry := registry
        pools := s.pools.set i p.aborted
        connections := s.connections.map (Connection.closedBy l)
        listeners := s.listeners.set l { x with accepting := false } } := by
  have staffed := (h.life l i x p hx owner pool).2
  obtain ⟨state, failed, cancelled, books, seen⟩ := h.stopping_of hx owner pool closes
  rw [tasksOver_eq owner pool] at seen
  refine h.update [] hx owner rfl rfl rfl (fun _ he => nomatch he) owner ?_
    staffed.aborted ?_ id
  · refine .stopping closing state closes failed cancelled books.aborts fun k hk => ?_
    obtain ⟨hlt, -⟩ := List.getElem?_eq_some_iff.mp (seen k hk)
    simp only [List.length_append, List.length_map, List.length_singleton] at hlt
    by_cases hin : k < p.workers.length
    · have hworker : k < p.aborted.workers.length := by simpa [FlushPool.aborted] using hin
      rw [List.getElem?_append_left (by simpa using hworker), List.getElem?_map,
        List.getElem?_eq_getElem hworker, Option.map_some,
        allOver_aborted p _ (List.getElem_mem hworker)]
    · have hlast : k = p.aborted.workers.length := by
        simp only [FlushPool.aborted, List.length_map]
        omega
      subst hlast
      simp
  · intro c hc
    obtain ⟨d, hd, rfl⟩ := List.mem_map.mp hc
    refine ⟨d, hd, ?_⟩
    unfold Connection.closedBy
    split <;> rfl

/-- A stop that has seen all tasks end. -/
theorem tasksOver_of_seen (h : s.Sound) (hx : s.listeners[l]? = some x) {closing : Closing}
    (closes : x.closing = some closing) (owner : x.pool = some i) (pool : s.pools[i]? = some p)
    (seen : (s.tasksOver x).length ≤ closing.awaited ∨ ∀ b ∈ s.tasksOver x, b = true) :
    ∀ b ∈ s.tasksOver x, b = true := by
  obtain ⟨-, -, -, -, before⟩ := h.stopping_of hx owner pool closes
  rcases seen with hlength | hall
  · intro b hb
    obtain ⟨k, hk⟩ := List.mem_iff_getElem?.mp hb
    have hlt := (List.getElem?_eq_some_iff.mp hk).choose
    exact Option.some.inj (hk.symm.trans (before k (by omega)))
  · exact hall

theorem allOver_of_seen (h : s.Sound) (hx : s.listeners[l]? = some x) {closing : Closing}
    (closes : x.closing = some closing) (owner : x.pool = some i) (pool : s.pools[i]? = some p)
    (seen : (s.tasksOver x).length ≤ closing.awaited ∨ ∀ b ∈ s.tasksOver x, b = true) :
    p.AllOver := by
  have hall := h.tasksOver_of_seen hx closes owner pool seen
  rw [tasksOver_eq owner pool] at hall
  intro w hw
  exact hall _ (List.mem_append_left _ (List.mem_map_of_mem hw))

theorem settles (h : s.Sound) {registry : Registry} (hx : s.listeners[l]? = some x)
    {closing : Closing} (closes : x.closing = some closing) (owner : x.pool = some i)
    (pool : s.pools[i]? = some p) (allOver : p.AllOver) :
    Sound
      { s with
        registry := registry
        pools := s.pools.set i p.settled
        listeners := s.listeners.set l { x with state := .stopped, closing := none } } := by
  have staffed := (h.life l i x p hx owner pool).2
  obtain ⟨state, failed, cancelled, books, -⟩ := h.stopping_of hx owner pool closes
  obtain ⟨lost, hlost, -⟩ := books.lost allOver
  exact h.update [] hx owner rfl rfl rfl (fun _ he => nomatch he) owner
    (.stopped rfl rfl failed ⟨cancelled, allOver, rfl, rfl⟩ ⟨lost, hlost⟩)
    (staffed.of_workers rfl) (fun c hc => ⟨c, hc, rfl⟩) nofun

theorem fails (h : s.Sound) (hx : s.listeners[l]? = some x) {closing : Closing}
    (closes : x.closing = some closing) (allEnded : ∀ b ∈ s.tasksOver x, b = true) :
    Sound
      { s with
        listeners := s.listeners.set l { x with closing := none, failed := true } } := by
  obtain ⟨i, owner⟩ := h.owner_of_closing hx closes
  obtain ⟨p, pool, -, staffed⟩ := h.life_of hx owner
  obtain ⟨state, failed, cancelled, books, -⟩ := h.stopping_of hx owner pool closes
  have hover := h.allOver_of_seen hx closes owner pool (.inr allEnded)
  have hpools := (set_eq_self_of_getElem? pool).symm
  exact h.update [] hx owner hpools rfl rfl (fun _ he => nomatch he) owner
    (.failed state rfl rfl cancelled books hover) staffed (fun c hc => ⟨c, hc, rfl⟩) id

theorem change (h : s.Sound) (c : Change s s') : s'.Sound := by
  induction c with
  | passes events later ticking counts foreign =>
      exact h.aside _ rfl rfl rfl foreign h.served
  | works pool move becomes =>
      obtain ⟨l, x, hx, owner⟩ := h.exists_owner pool
      obtain ⟨life, staffed⟩ := h.life l _ x _ hx owner pool
      obtain ⟨registry, tickets, sends, -, rfl⟩ := becomes
      have hlisteners := (set_eq_self_of_getElem? hx).symm
      exact h.update _ hx owner rfl hlisteners rfl move.pool?_of_mem owner (life.works move)
        (staffed.works move) (fun c hc => ⟨c, hc, rfl⟩) id
  | reads reading => exact h.reads reading
  | signals finished broken connection lasting =>
      exact h.aside [] rfl rfl rfl (fun _ he => nomatch he)
        (h.served_of (served_set connection rfl))
  | adds settings => exact h.adds settings
  | refuses listener fresh =>
      have poolless := h.poolless_of_created listener fresh
      have before := h.unstarted _ _ listener poolless
      exact h.update_unstarted listener poolless rfl rfl rfl rfl poolless
        ⟨.inr rfl, before.accepting, before.closing, before.failed⟩
  | starts address listener fresh valid counts staff started =>
      exact h.starts address listener fresh valid staff started
  | connects listener accepting running counts => exact h.connects listener accepting
  | cancels listener running owner pool => exact h.cancels listener running owner pool _
  | forsakes listener poolless =>
      have before := h.unstarted _ _ listener poolless
      exact h.update_unstarted listener poolless rfl rfl rfl rfl poolless
        ⟨before.state, before.accepting, before.closing, before.failed⟩
  | drops listener owner pool => exact h.drops listener owner pool
  | leaves listener accepting cancelled alone => exact h.leaves listener accepting cancelled
  | sees listener closes ended => exact h.sees listener closes ended
  | aborts listener closes owner pool expired => exact h.aborts listener closes owner pool
  | settles listener closes owner pool seen counted =>
      exact h.settles listener closes owner pool (h.allOver_of_seen listener closes owner pool seen)
  | fails listener closes allEnded => exact h.fails listener closes allEnded
  | seq _ _ ih ih' => exact ih' (ih h)

end Sound

theorem sound_create (wallClock : Int) (sends : Script SendPlan)
    (checkIns : Script (Option ShippingError)) : (create wallClock sends checkIns).Sound where
  owned := .refl _
  unstarted l x hx := by cases hx
  life l i x p hx := by cases hx
  served c hc := by cases hc
  known e he := by cases he

theorem Sound.arrive {s : Relay} (h : s.Sound) (c : Nat) (bytes : List UInt8) :
    (s.arrive c bytes).Sound := by
  rcases arrive_cases s c bytes with ⟨-, heq⟩ | ⟨x, connection, heq⟩
  · rw [heq]
    exact h
  · rw [heq]
    exact h.aside [] rfl rfl rfl (fun _ he => nomatch he)
      (h.served_of (served_set connection rfl))

theorem Sound.step {s : Relay} (h : s.Sound) {a : Action} (ha : a.byHand = false) :
    (s.step a).Sound := by
  cases hinput : a.arrival? with
  | none => exact h.change (step_change h.wired a ha hinput)
  | some input =>
      rw [Action.eq_arrive hinput]
      exact h.arrive input.1 input.2

theorem run_cons (s : Relay) (a : Action) (as : List Action) :
    s.run (a :: as) = (s.step a).run as := rfl

/-- What every change and every arrival keeps holds after a run. -/
theorem Sound.run_induct {motive : Relay → Prop} {s : Relay} (h : s.Sound) {actions : List Action}
    (ha : ∀ a ∈ actions, a.byHand = false) (start : motive s)
    (changes : ∀ t t' : Relay, t.Sound → Change t t' → motive t → motive t')
    (arrivals : ∀ (t : Relay) (c : Nat) (bytes : List UInt8), motive t →
      motive (t.arrive c bytes)) : motive (s.run actions) := by
  induction actions generalizing s with
  | nil => exact start
  | cons a as ih =>
      have hfirst := ha a List.mem_cons_self
      rw [run_cons]
      refine ih (h.step hfirst) (fun b hb => ha b (List.mem_cons_of_mem _ hb)) ?_
      cases hinput : a.arrival? with
      | none => exact changes s _ h (step_change h.wired a hfirst hinput) start
      | some input =>
          rw [Action.eq_arrive hinput]
          exact arrivals s input.1 input.2 start

section
variable {s : Relay} {actions : List Action}

theorem Sound.run (h : s.Sound) (ha : ∀ a ∈ actions, a.byHand = false) : (s.run actions).Sound :=
  h.run_induct ha h (fun _ _ sound change _ => sound.change change) fun _ c bytes sound =>
    sound.arrive c bytes

theorem Sound.wallClock_run (h : s.Sound) (ha : ∀ a ∈ actions, a.byHand = false) :
    (s.run actions).wallClock = s.wallClock :=
  h.run_induct (motive := fun t => t.wallClock = s.wallClock) ha rfl
    (fun _ _ _ change hclock => change.wallClock_eq.trans hclock) fun _ _ _ hclock => hclock

theorem Sound.ticking_run (h : s.Sound) (ha : ∀ a ∈ actions, a.byHand = false)
    (ticks : ∀ r ∈ s.reporters, r.Ticks) : ∀ r ∈ (s.run actions).reporters, r.Ticks :=
  h.run_induct (motive := fun t => ∀ r ∈ t.reporters, r.Ticks) ha ticks
    (fun _ _ _ change ticks => change.ticking ticks) fun _ _ _ ticks => ticks

end

theorem sound_run (wallClock : Int) (sends : Script SendPlan)
    (checkIns : Script (Option ShippingError)) {actions : List Action}
    (ha : ∀ a ∈ actions, a.byHand = false) :
    ((create wallClock sends checkIns).run actions).Sound :=
  (sound_create wallClock sends checkIns).run ha

end Relay
end MetricsProxy
