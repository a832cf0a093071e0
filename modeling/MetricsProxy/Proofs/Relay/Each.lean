import MetricsProxy.Proofs.Relay.Lifecycle

/-!
# One listener at a time

Few things can happen to one listener and its pool. A fact about them and about
what the journal says of the pool holds of every listener after every run if each
of these things keeps it (`ListenerFact.Kept`, `ListenerFact.Kept.run`). So what
is said about each listener by itself need not be proved for the changes of a
relay, which are about many of them.
-/
namespace MetricsProxy

/-- What may be said of a journal, a listener and its pool, which has this index. -/
abbrev ListenerFact : Type := List Event → Listener → Nat → FlushPool → Prop

/-- All that can happen to a listener and its pool keeps the fact. -/
structure ListenerFact.Kept (P : ListenerFact) : Prop where
  /-- Something happens that is not about the pool. -/
  aside : ∀ {journal events : List Event} {x : Listener} {i : Nat} {p : FlushPool},
    (∀ e ∈ events, e.pool? ≠ some i) → P journal x i p → P (events ++ journal) x i p
  starts : ∀ {x : Listener} {i : Nat} {workers : List Worker} (address : String),
    x.settings.validate = .ok () → workers.length = x.settings.flushThreads →
    (∀ w ∈ workers, w.Started x.settings.flushInterval) →
    P [] (x.begun address i) i (.staffed x.settings workers)
  works : ∀ {journal events : List Event} {x : Listener} {now i : Nat} {p q : FlushPool},
    PoolStep now i p events q → P journal x i p → P (events ++ journal) x i q
  accepts : ∀ {journal : List Event} {x : Listener} {i : Nat} {p : FlushPool} (c : Option Nat)
    (point : Point), p.cancelled = false → p.buffer.size < p.buffer.capacity → P journal x i p →
    P (.accepted i c point :: journal) x i { p with buffer := (p.buffer.enqueue point).1 }
  /-- The token fires, since the listener is stopped or let go. -/
  fires : ∀ {journal : List Event} {x : Listener} {i : Nat} {p : FlushPool}, P journal x i p →
    P journal x i { p with cancelled := true }
  /-- The listener is marked, or goes on to another state, but never back. -/
  marks : ∀ {journal : List Event} {x y : Listener} {i : Nat} {p : FlushPool},
    P journal x i p → y.settings = x.settings → (y.state = .running → x.state = .running) →
    P journal y i p
  /-- A stop aborts the workers. -/
  aborts : ∀ {journal : List Event} {x : Listener} {i : Nat} {p : FlushPool},
    x.state = .stopping → P journal x i p → P journal x i p.aborted
  settles : ∀ {journal : List Event} {x : Listener} {i : Nat} {p : FlushPool},
    x.state = .stopping → p.AllOver → P journal x i p → P journal x i p.settled

namespace Relay

/-- The fact holds of every listener that was started. -/
def Each (P : ListenerFact) (s : Relay) : Prop :=
  ∀ (l i : Nat) (x : Listener) (p : FlushPool), s.listeners[l]? = some x → x.pool = some i →
    s.pools[i]? = some p → P s.journal x i p

variable {P : ListenerFact} {s s' : Relay} {l i : Nat} {x y : Listener} {p q : FlushPool}

theorem each_create (P : ListenerFact) (wallClock : Int) (sends : Script SendPlan)
    (checkIns : Script (Option ShippingError)) : (create wallClock sends checkIns).Each P :=
  fun _ _ _ _ hx => nomatch hx

namespace Each

theorem aside (h : s.Each P) (kept : P.Kept) (events : List Event) (pools : s'.pools = s.pools)
    (listeners : s'.listeners = s.listeners) (journal : s'.journal = events ++ s.journal)
    (foreign : ∀ e ∈ events, e.pool? = none) : s'.Each P := by
  intro m k z r hz hk hr
  rw [listeners] at hz
  rw [pools] at hr
  rw [journal]
  refine kept.aside (fun e he => ?_) (h m k z r hz hk hr)
  rw [foreign e he]
  exact nofun

theorem update (h : s.Each P) (kept : P.Kept) (sound : s.Sound) (events : List Event)
    (hx : s.listeners[l]? = some x) (owner : x.pool = some i)
    (pools : s'.pools = s.pools.set i q) (listeners : s'.listeners = s.listeners.set l y)
    (journal : s'.journal = events ++ s.journal) (own : ∀ e ∈ events, e.pool? = some i)
    (owner' : y.pool = some i) (now : P s'.journal y i q) : s'.Each P := by
  intro m k z r hz hk hr
  rw [listeners] at hz
  rw [pools] at hr
  rcases of_getElem?_set hz with ⟨-, rfl⟩ | ⟨hm, hz⟩
  · obtain rfl := Option.some.inj (owner'.symm.trans hk)
    rcases of_getElem?_set hr with ⟨-, rfl⟩ | ⟨hii, -⟩
    · exact now
    · exact absurd rfl hii
  · -- Another listener has another pool, so for it only the journal has grown.
    have hik : i ≠ k := by
      rintro rfl
      exact hm (sound.owner_unique hx hz owner hk)
    rw [List.getElem?_set_ne hik] at hr
    rw [journal]
    refine kept.aside (fun e he => ?_) (h m k z r hz hk hr)
    rw [own e he]
    exact fun heq => hik (Option.some.inj heq)

theorem mark (h : s.Each P) (kept : P.Kept) (hx : s.listeners[l]? = some x)
    (pools : s'.pools = s.pools) (listeners : s'.listeners = s.listeners.set l y)
    (journal : s'.journal = s.journal) (settings : y.settings = x.settings)
    (running : y.state = .running → x.state = .running) (pool : y.pool = x.pool) :
    s'.Each P := by
  intro m k z r hz hk hr
  rw [listeners] at hz
  rw [pools] at hr
  rw [journal]
  rcases of_getElem?_set hz with ⟨-, rfl⟩ | ⟨-, hz⟩
  · exact kept.marks (h l k x r hx (pool ▸ hk) hr) settings running
  · exact h m k z r hz hk hr

theorem reads (h : s.Each P) (kept : P.Kept) (sound : s.Sound) {c : Nat}
    (reading : s.Reading c s') : s'.Each P := by
  cases reading with
  | closes => exact h
  | keeps => exact h
  | takes connection live server owner running framed classified handled =>
      cases handled with
      | accepted pool room =>
          rw [isCancelled_eq owner (by exact pool)] at running
          exact h.update kept sound [_] server owner rfl (set_eq_self_of_getElem? server).symm rfl
            (fun e he => by rw [List.mem_singleton.mp he]; rfl) owner
            (kept.accepts _ _ running room (h _ _ _ _ server owner pool))
      | rejected => exact h
      | error => exact h
      | blank => exact h

theorem change (h : s.Each P) (kept : P.Kept) (sound : s.Sound) (c : Change s s') :
    s'.Each P := by
  induction c with
  | passes events _ _ _ foreign => exact h.aside kept events rfl rfl rfl foreign
  | works pool move becomes =>
      obtain ⟨l, x, listener, owner⟩ := sound.exists_owner pool
      obtain ⟨registry, tickets, sends, -, rfl⟩ := becomes
      exact h.update kept sound _ listener owner rfl (set_eq_self_of_getElem? listener).symm rfl
        move.pool?_of_mem owner (kept.works move (h _ _ _ _ listener owner pool))
  | reads reading => exact h.reads kept sound reading
  | signals => exact h
  | adds settings =>
      intro m k z r hz hk hr
      rw [List.getElem?_append] at hz
      split at hz
      · exact h m k z r hz hk hr
      · obtain rfl := List.mem_singleton.mp (List.mem_of_getElem? hz)
        cases hk
  | refuses listener fresh => exact h.mark kept listener rfl rfl rfl rfl nofun rfl
  | starts address listener fresh valid _ staff started =>
      intro m k z r hz hk hr
      rcases of_getElem?_set hz with ⟨-, rfl⟩ | ⟨-, hz⟩
      · cases hk
        rw [List.getElem?_concat_length] at hr
        cases hr
        have now := kept.aside sound.silent (kept.starts address valid staff started)
        rwa [List.append_nil] at now
      · rw [List.getElem?_append_left (sound.pool_lt hz hk)] at hr
        exact h m k z r hz hk hr
  | connects => exact h
  | cancels listener _ owner pool =>
      have before := h _ _ _ _ listener owner pool
      exact h.update kept sound [] listener owner rfl rfl rfl (fun _ he => nomatch he) owner
        (kept.marks (kept.fires before) rfl nofun)
  | forsakes listener => exact h.mark kept listener rfl rfl rfl rfl id rfl
  | drops listener owner pool =>
      have before := h _ _ _ _ listener owner pool
      exact h.update kept sound [] listener owner rfl rfl rfl (fun _ he => nomatch he) owner
        (kept.marks (kept.fires before) rfl id)
  | leaves listener => exact h.mark kept listener rfl rfl rfl rfl id rfl
  | sees listener => exact h.mark kept listener rfl rfl rfl rfl id rfl
  | aborts listener closes owner pool =>
      have state := (sound.stopping_of listener owner pool closes).1
      have after := kept.aborts state (h _ _ _ _ listener owner pool)
      exact h.update kept sound [] listener owner rfl rfl rfl (fun _ he => nomatch he) owner
        (kept.marks after rfl id)
  | settles listener closes owner pool seen =>
      have state := (sound.stopping_of listener owner pool closes).1
      have allOver := sound.allOver_of_seen listener closes owner pool seen
      have after := kept.settles state allOver (h _ _ _ _ listener owner pool)
      exact h.update kept sound [] listener owner rfl rfl rfl (fun _ he => nomatch he) owner
        (kept.marks after rfl nofun)
  | fails listener => exact h.mark kept listener rfl rfl rfl rfl id rfl
  | seq first _ ih ih' => exact ih' (ih h sound) (sound.change first)

end Each

end Relay

/-- A fact that is kept holds of every listener after every run. -/
theorem ListenerFact.Kept.run {P : ListenerFact} (kept : P.Kept) (wallClock : Int)
    (sends : Script SendPlan) (checkIns : Script (Option ShippingError)) {actions : List Action}
    (ha : ∀ a ∈ actions, a.byHand = false) :
    ((Relay.create wallClock sends checkIns).run actions).Each P :=
  (Relay.sound_create wallClock sends checkIns).run_induct ha
    (Relay.each_create P wallClock sends checkIns)
    (fun _ _ sound c h => h.change kept sound c) fun _ _ _ h => h

end MetricsProxy
