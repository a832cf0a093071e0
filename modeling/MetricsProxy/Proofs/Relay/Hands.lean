import MetricsProxy.Proofs.Relay.Lifecycle

/-!
# What is done by hand

Whoever owns a pool may offer points to its buffer, flush it, give up its share
of the gauge, add workers to it, fire its token and abort its workers. `HandStep`
has a rule for each of these; an action by hand is one of them or changes
nothing (`step_hand`). Listeners, connections and reporters are left alone.

Together with the changes that listeners, workers and clients make these are all
steps of a relay. What is true of a listener and its pool however the pools are
treated is proved here over all of them (`Tended`, `Tended.run`).
-/
namespace MetricsProxy

/-- The pool that an action by hand is about; one that makes a pool has none yet. -/
def Action.hand? : Action → Option Nat
  | offer i _ | beginCall i | endCall i _ | releaseSize i | spawn i _ | cancelPool i
  | abort i _ => some i
  | _ => none

theorem Action.plain_or_hand (a : Action) :
    a.byHand = false ∨
      (∃ capacity maxPoints interval, a = .addPool capacity maxPoints interval) ∨
      ∃ i, a.hand? = some i := by
  cases a with
  | addPool capacity maxPoints interval => exact .inr (.inl ⟨_, _, _, rfl⟩)
  | offer i _ => exact .inr (.inr ⟨i, rfl⟩)
  | beginCall i => exact .inr (.inr ⟨i, rfl⟩)
  | endCall i _ => exact .inr (.inr ⟨i, rfl⟩)
  | releaseSize i => exact .inr (.inr ⟨i, rfl⟩)
  | spawn i _ => exact .inr (.inr ⟨i, rfl⟩)
  | cancelPool i => exact .inr (.inr ⟨i, rfl⟩)
  | abort i _ => exact .inr (.inr ⟨i, rfl⟩)
  | _ => exact .inl rfl

/-- Points that a buffer took in a batch, as events, newest first. -/
def acceptedBatch (i : Nat) (points : List Point) : List Event :=
  (points.map fun q => Event.accepted i none q).reverse

/-- What is done to pool `i` by hand, with the events it makes, newest first. -/
inductive HandStep (now i : Nat) : FlushPool → List Event → FlushPool → Prop where
  | offers {p : FlushPool} (points : List Point) :
      HandStep now i p (acceptedBatch i (points.take (p.buffer.enqueueBatch points).2))
        { p with buffer := (p.buffer.enqueueBatch points).1 }
  | idles {p : FlushPool} (empty : p.buffer.toList = []) : HandStep now i p [] p.drained
  | begins {p : FlushPool} (flight : Flight) (full : p.buffer.toList ≠ [])
      (unit : flight.unit = ⟨p.nextPoints⟩) (sized : flight.Sized) :
      HandStep now i p [.begun (.flushCall i) now flight.unit]
        { p.drained with
          inFlight := p.inFlight + flight.unit.size
          calls := p.calls ++ [flight] }
  | lands {p : FlushPool} {k : Nat} {flight : Flight} (call : p.calls[k]? = some flight)
      (elapsed : flight.ends ≤ now) :
      HandStep now i p [.returned (.flushCall i) now flight.result]
        { p with
          inFlight := p.inFlight - flight.unit.size
          calls := p.calls.eraseIdx k }
  | releases {p : FlushPool} : HandStep now i p [] { p with reported := 0 }
  | spawns {p : FlushPool} (workers : List Worker)
      (new : ∀ w ∈ workers, w.New now p.interval) :
      HandStep now i p [] { p with workers := p.workers ++ workers }
  | cancels {p : FlushPool} : HandStep now i p [] { p with cancelled := true }
  | aborts {p : FlushPool} (j : Nat) :
      HandStep now i p [] { p with workers := p.workers.modify j Worker.abort }

namespace HandStep
variable {now i : Nat} {p q : FlushPool} {events : List Event}

theorem pool?_of_mem (h : HandStep now i p events q) : ∀ e ∈ events, e.pool? = some i := by
  intro e he
  cases h with
  | offers points =>
      obtain ⟨point, -, rfl⟩ := List.mem_map.mp (List.mem_reverse.mp he)
      rfl
  | begins => rw [List.mem_singleton.mp he]; rfl
  | lands => rw [List.mem_singleton.mp he]; rfl
  | _ => cases he

theorem cancelled_of (h : HandStep now i p events q) (cancelled : p.cancelled = true) :
    q.cancelled = true := by
  cases h with
  | cancels => rfl
  | _ => exact cancelled

end HandStep

namespace Relay
variable {s : Relay} {i : Nat} {p : FlushPool}

theorem foldl_log (s : Relay) (f : Point → Event) (points : List Point) :
    points.foldl (fun s q => s.log (f q)) s =
      { s with journal := (points.map f).reverse ++ s.journal } := by
  induction points generalizing s with
  | nil => rfl
  | cons q points ih =>
      rw [List.foldl_cons, ih, List.map_cons, List.reverse_cons, List.append_assoc]
      rfl

theorem offer_becomes (h : s.pools[i]? = some p) (points : List Point) :
    s.Becomes i { p with buffer := (p.buffer.enqueueBatch points).1 }
      (acceptedBatch i (points.take (p.buffer.enqueueBatch points).2)) (s.offer i points).1 := by
  rw [offer, h]
  dsimp only
  rw [foldl_log, modifyPool_eq h]
  exact ⟨s.registry, s.tickets, s.sends, .refl _ _, rfl⟩

theorem beginCall_hand (h : s.pools[i]? = some p) :
    ∃ events q, HandStep s.now i p events q ∧ s.Becomes i q events (s.beginCall i) := by
  have hi : i < s.pools.length := (List.getElem?_eq_some_iff.mp h).choose
  rw [beginCall]
  by_cases hb : p.buffer.toList = []
  · obtain ⟨s', heq, hdrain⟩ := beginFlush_of_empty h hb (.flushCall i)
    rw [heq]
    exact ⟨_, _, .idles hb, hdrain⟩
  · obtain ⟨s', heq, hbegin⟩ := beginFlush_of_full h hb (.flushCall i)
    rw [heq]
    exact ⟨_, _, .begins (s.nextFlight ⟨p.nextPoints⟩) hb rfl (s.sized_nextFlight _),
      hbegin.trans (modifyPool_becomes (hbegin.getElem? hi) fun q =>
        { q with calls := q.calls ++ [s.nextFlight ⟨p.nextPoints⟩] })⟩

theorem endCall_hand (h : s.pools[i]? = some p) (k : Nat) :
    s.endCall i k = s ∨
      ∃ events q, HandStep s.now i p events q ∧ s.Becomes i q events (s.endCall i k) := by
  have hi : i < s.pools.length := (List.getElem?_eq_some_iff.mp h).choose
  rw [endCall, h, Option.bind_some]
  cases hcall : p.calls[k]? with
  | none => exact .inl rfl
  | some flight =>
      dsimp only
      by_cases elapsed : flight.ends ≤ s.now
      · rw [if_pos elapsed]
        have herase := modifyPool_becomes h fun p => { p with calls := p.calls.eraseIdx k }
        have hend := endFlush_becomes (herase.getElem? hi) (.flushCall i) flight
        rw [herase.now_eq] at hend
        exact .inr ⟨_, _, .lands hcall elapsed, herase.trans hend⟩
      · rw [if_neg elapsed]
        exact .inl rfl

theorem releaseSize_becomes (h : s.pools[i]? = some p) :
    s.Becomes i { p with reported := 0 } [] (s.releaseSize i) := by
  have hi : i < s.pools.length := (List.getElem?_eq_some_iff.mp h).choose
  have hpool := modifyPool_becomes h fun p => { p with reported := 0 }
  rw [releaseSize, h]
  exact hpool.trans (use_becomes (hpool.getElem? hi) _ (by simp [flushMetrics]) _)

theorem spawnWorkers_becomes (h : s.pools[i]? = some p) (n : Nat) :
    ∃ workers : List Worker, (∀ w ∈ workers, w.New s.now p.interval) ∧
      s.Becomes i { p with workers := p.workers ++ workers } [] (s.spawnWorkers i n) := by
  obtain ⟨workers, -, hnew, heq⟩ := spawnWorkers_eq h n
  exact ⟨workers, hnew, s.registry, s.tickets + n, s.sends, .refl _ _, by rw [heq]; rfl⟩

theorem modifyPool_of_none (h : s.pools[i]? = none) (f : FlushPool → FlushPool) :
    s.modifyPool i f = s := by
  rw [modifyPool, modify_eq_self_of_getElem? h]

/-- Nothing is spawned for a pool that is not there, but tickets are taken. -/
theorem spawnWorkers_of_none (h : s.pools[i]? = none) (n : Nat) :
    ∃ tickets, s.spawnWorkers i n = { s with tickets := tickets } := by
  induction n generalizing s with
  | zero => exact ⟨s.tickets, rfl⟩
  | succ n ih =>
      rw [spawnWorkers]
      simp only [ticket]
      rw [modifyPool_of_none (s := { s with tickets := s.tickets + 1 }) h]
      exact ih (s := { s with tickets := s.tickets + 1 }) h

/-- An action by hand on a pool that is not there takes tickets at most. -/
theorem step_of_none {a : Action} (hand : a.hand? = some i) (h : s.pools[i]? = none) :
    ∃ tickets, s.step a = { s with tickets := tickets } := by
  cases a with
  | offer j points => cases hand; exact ⟨s.tickets, by simp [step, offer, h]⟩
  | beginCall j => cases hand; exact ⟨s.tickets, by simp [step, beginCall, beginFlush, h]⟩
  | endCall j k => cases hand; exact ⟨s.tickets, by simp [step, endCall, h]⟩
  | releaseSize j => cases hand; exact ⟨s.tickets, by simp [step, releaseSize, h]⟩
  | spawn j n => cases hand; exact spawnWorkers_of_none h n
  | cancelPool j => cases hand; exact ⟨s.tickets, modifyPool_of_none h _⟩
  | abort j k => cases hand; exact ⟨s.tickets, modifyPool_of_none h _⟩
  | _ => cases hand

/-- What an action by hand does to its pool, if it does anything. -/
theorem step_hand {a : Action} (hand : a.hand? = some i) (h : s.pools[i]? = some p) :
    s.step a = s ∨
      ∃ events q, HandStep s.now i p events q ∧ s.Becomes i q events (s.step a) := by
  cases a with
  | offer j points => cases hand; exact .inr ⟨_, _, .offers points, offer_becomes h points⟩
  | beginCall j => cases hand; exact .inr (beginCall_hand h)
  | endCall j k => cases hand; exact endCall_hand h k
  | releaseSize j => cases hand; exact .inr ⟨_, _, .releases, releaseSize_becomes h⟩
  | spawn j n =>
      cases hand
      obtain ⟨workers, hnew, hspawn⟩ := spawnWorkers_becomes h n
      exact .inr ⟨_, _, .spawns workers hnew, hspawn⟩
  | cancelPool j => cases hand; exact .inr ⟨_, _, .cancels, modifyPool_becomes h _⟩
  | abort j k => cases hand; exact .inr ⟨_, _, .aborts k, modifyPool_becomes h _⟩
  | _ => cases hand

end Relay

/-! ## What holds however pools are treated -/

/-- Pools stay, and so does a token that has fired. -/
def Lasting (pools pools' : List FlushPool) : Prop :=
  ∀ (i : Nat) (p : FlushPool), pools[i]? = some p →
    ∃ q, pools'[i]? = some q ∧ (p.cancelled = true → q.cancelled = true)

namespace Lasting
variable {pools : List FlushPool} {i : Nat} {p q : FlushPool}

theorem refl (pools : List FlushPool) : Lasting pools pools := fun _ p h => ⟨p, h, id⟩

theorem set (h : pools[i]? = some p) (keeps : p.cancelled = true → q.cancelled = true) :
    Lasting pools (pools.set i q) := by
  intro k r hr
  exact exists_set (P := fun q => r.cancelled = true → q.cancelled = true) ⟨r, hr, id⟩ h
    fun hp cancelled => keeps (hp cancelled)

theorem append (pools pools' : List FlushPool) : Lasting pools (pools ++ pools') := by
  intro k r hr
  exact exists_append (P := fun q => r.cancelled = true → q.cancelled = true) ⟨r, hr, id⟩ pools'

end Lasting

/-- What holds of a listener among these pools. -/
structure Listener.Tended (pools : List FlushPool) (x : Listener) : Prop where
  wired : ∀ i, x.pool = some i → ∃ p, pools[i]? = some p
  unstarted : x.pool = none → x.Unstarted
  fresh : x.state = .created → x.pool = none
  stopping : ∀ closing, x.closing = some closing → x.state = .stopping
  /-- The token fires before anything is waited for. -/
  fired : ∀ (i : Nat) (p : FlushPool), x.pool = some i → pools[i]? = some p →
    x.state = .stopping ∨ x.state = .stopped → p.cancelled = true

namespace Listener.Tended
variable {pools pools' : List FlushPool} {x : Listener}

theorem lasting (h : x.Tended pools) (lasting : Lasting pools pools') : x.Tended pools' where
  wired i owner := by
    obtain ⟨p, hp⟩ := h.wired i owner
    obtain ⟨q, hq, -⟩ := lasting i p hp
    exact ⟨q, hq⟩
  unstarted := h.unstarted
  fresh := h.fresh
  stopping := h.stopping
  fired i q owner hq state := by
    obtain ⟨p, hp⟩ := h.wired i owner
    obtain ⟨q', hq', keeps⟩ := lasting i p hp
    obtain rfl := Option.some.inj (hq.symm.trans hq')
    exact keeps (h.fired i p owner hp state)

/-- Which of a listener's marks do not matter. -/
theorem marked (h : x.Tended pools) {y : Listener} (state : y.state = x.state)
    (pool : y.pool = x.pool) (closing : ∀ c, y.closing = some c → ∃ c', x.closing = some c')
    (unstarted : x.pool = none → x.Unstarted → y.Unstarted) : y.Tended pools where
  wired i owner := h.wired i (pool ▸ owner)
  unstarted poolless := unstarted (pool ▸ poolless) (h.unstarted (pool ▸ poolless))
  fresh fresh := pool.trans (h.fresh (state ▸ fresh))
  stopping c hc := by
    obtain ⟨c', hc'⟩ := closing c hc
    exact state.trans (h.stopping c' hc')
  fired i p owner hp := by
    rw [state]
    exact h.fired i p (pool ▸ owner) hp

end Listener.Tended

namespace Relay

/-- What holds of every listener, whatever is done to the pools by hand. -/
def Tended (s : Relay) : Prop :=
  ∀ (l : Nat) (x : Listener), s.listeners[l]? = some x → x.Tended s.pools

namespace Tended
variable {s s' : Relay} {l i : Nat} {x y : Listener} {p : FlushPool}

theorem create (wallClock : Int) (sends : Script SendPlan)
    (checkIns : Script (Option ShippingError)) : (create wallClock sends checkIns).Tended :=
  fun _ _ hx => nomatch hx

theorem wired (h : s.Tended) : s.Wired := fun l x i hx owner => (h l x hx).wired i owner

theorem aside (h : s.Tended) (listeners : s'.listeners = s.listeners)
    (lasting : Lasting s.pools s'.pools) : s'.Tended := by
  intro l x hx
  rw [listeners] at hx
  exact (h l x hx).lasting lasting

theorem update (h : s.Tended) (listeners : s'.listeners = s.listeners.set l y)
    (lasting : Lasting s.pools s'.pools) (own : y.Tended s'.pools) : s'.Tended := by
  intro m z hz
  rw [listeners] at hz
  rcases of_getElem?_set hz with ⟨-, rfl⟩ | ⟨-, hz⟩
  · exact own
  · exact (h m z hz).lasting lasting

theorem reads (h : s.Tended) {c : Nat} (reading : s.Reading c s') : s'.Tended := by
  cases reading with
  | closes => exact h.aside rfl (.refl _)
  | keeps => exact h.aside rfl (.refl _)
  | takes _ _ _ _ _ _ _ handled =>
      cases handled with
      | accepted pool room => exact h.aside rfl (.set pool id)
      | rejected => exact h.aside rfl (.refl _)
      | error => exact h.aside rfl (.refl _)
      | blank => exact h.aside rfl (.refl _)

theorem starts (h : s.Tended) (hx : s.listeners[l]? = some x) (fresh : x.state = .created)
    (address : String) (p : FlushPool) :
    Listener.Tended (s.pools ++ [p]) (x.begun address s.pools.length) where
  wired i owner := by
    cases owner
    exact ⟨p, List.getElem?_concat_length⟩
  unstarted := nofun
  fresh state := absurd state (x.begun_ne address _).1
  stopping c hc := by
    have hnone := ((h l x hx).unstarted ((h l x hx).fresh fresh)).closing
    cases hnone.symm.trans hc
  fired i q _ _ state := by
    rcases state with state | state
    · exact absurd state (x.begun_ne address _).2.1
    · exact absurd state (x.begun_ne address _).2.2

theorem change (h : s.Tended) (c : Change s s') : s'.Tended := by
  induction c with
  | passes => exact h.aside rfl (.refl _)
  | works pool move becomes =>
      obtain ⟨registry, tickets, sends, -, rfl⟩ := becomes
      exact h.aside rfl (.set pool fun cancelled => move.cancelled_eq.trans cancelled)
  | reads reading => exact h.reads reading
  | signals => exact h.aside rfl (.refl _)
  | adds settings =>
      intro m z hz
      rw [List.getElem?_append] at hz
      split at hz
      · exact h m z hz
      · obtain rfl := List.mem_singleton.mp (List.mem_of_getElem? hz)
        exact ⟨nofun, fun _ => ⟨.inl rfl, rfl, rfl, rfl⟩, fun _ => rfl, nofun, nofun⟩
  | refuses listener fresh =>
      have poolless := (h _ _ listener).fresh fresh
      have before := (h _ _ listener).unstarted poolless
      refine h.update rfl (.refl _) ⟨?_, fun _ => ?_, nofun, ?_, ?_⟩
      · exact fun i owner => (h _ _ listener).wired i owner
      · exact ⟨.inr rfl, before.accepting, before.closing, before.failed⟩
      · exact fun c hc => nomatch before.closing.symm.trans hc
      · exact fun i p owner => nomatch poolless.symm.trans owner
  | starts address listener fresh =>
      exact h.update rfl (.append _ _) (h.starts listener fresh address _)
  | connects => exact h.aside rfl (.refl _)
  | @cancels s l i x p listener running owner pool =>
      have hi : i < s.pools.length := (List.getElem?_eq_some_iff.mp pool).choose
      refine h.update rfl (.set pool fun _ => rfl) ⟨fun k hk => ?_, ?_, nofun, fun _ _ => rfl, ?_⟩
      · cases owner.symm.trans hk
        exact ⟨_, List.getElem?_set_self hi⟩
      · exact fun poolless => nomatch owner.symm.trans poolless
      · intro k q hk hq _
        cases owner.symm.trans hk
        rw [List.getElem?_set_self hi] at hq
        cases hq
        rfl
  | forsakes listener poolless =>
      exact h.update rfl (.refl _) ((h _ _ listener).marked rfl rfl (fun c hc => ⟨c, hc⟩)
        fun _ before => ⟨before.state, before.accepting, before.closing, before.failed⟩)
  | @drops s l i x p listener owner pool =>
      have hset := Lasting.set pool (q := { p with cancelled := true }) fun _ => rfl
      exact h.update rfl hset (((h _ _ listener).lasting hset).marked rfl rfl
        (fun c hc => ⟨c, hc⟩)
        fun _ before => ⟨before.state, before.accepting, before.closing, before.failed⟩)
  | leaves listener =>
      exact h.update rfl (.refl _) ((h _ _ listener).marked rfl rfl (fun c hc => ⟨c, hc⟩)
        fun _ before => ⟨before.state, rfl, before.closing, before.failed⟩)
  | sees listener closes =>
      refine h.update rfl (.refl _) ((h _ _ listener).marked rfl rfl (fun _ _ => ⟨_, closes⟩)
        fun _ before => ?_)
      exact nomatch before.closing.symm.trans closes
  | aborts listener closes owner pool =>
      have hset := Lasting.set pool (q := FlushPool.aborted _) id
      exact h.update rfl hset (((h _ _ listener).lasting hset).marked rfl rfl
        (fun c hc => ⟨c, hc⟩)
        fun _ before => ⟨before.state, rfl, before.closing, before.failed⟩)
  | @settles s l i x closing p registry listener closes owner pool =>
      have hset := Lasting.set pool (q := p.settled) id
      have after := (h l x listener).lasting hset
      have state := after.stopping closing closes
      refine h.update rfl hset ⟨after.wired, ?_, nofun, nofun, ?_⟩
      · exact fun poolless => nomatch owner.symm.trans poolless
      · exact fun k q hk hq _ => after.fired k q hk hq (.inl state)
  | fails listener closes =>
      refine h.update rfl (.refl _) ((h _ _ listener).marked rfl rfl nofun fun _ before => ?_)
      exact nomatch before.closing.symm.trans closes
  | seq _ _ ih ih' => exact ih' (ih h)

theorem arrive (h : s.Tended) (c : Nat) (bytes : List UInt8) : (s.arrive c bytes).Tended :=
  h.aside rfl (.refl _)

theorem hands (h : s.Tended) {q : FlushPool} {events : List Event} (pool : s.pools[i]? = some p)
    (move : HandStep s.now i p events q) (becomes : s.Becomes i q events s') : s'.Tended := by
  obtain ⟨registry, tickets, sends, -, rfl⟩ := becomes
  exact h.aside rfl (.set pool move.cancelled_of)

end Tended

/-- What an action does: a change, an arrival of bytes, a new pool, or something by hand
to a pool that is there. -/
inductive Does (s : Relay) (a : Action) : Relay → Prop where
  | changes {s' : Relay} (change : Change s s') : Does s a s'
  | takesTickets (tickets : Nat) : Does s a { s with tickets := tickets }
  | arrives (c : Nat) (bytes : List UInt8) : Does s a (s.arrive c bytes)
  | opens (capacity maxPoints interval : Nat) :
      Does s a (s.addPool (.create capacity maxPoints interval))
  | hands {s' : Relay} {i : Nat} {p q : FlushPool} {events : List Event}
      (hand : a.hand? = some i) (pool : s.pools[i]? = some p)
      (move : HandStep s.now i p events q) (becomes : s.Becomes i q events s') : Does s a s'

section
variable {s : Relay}

theorem step_does (h : s.Tended) (a : Action) : s.Does a (s.step a) := by
  rcases a.plain_or_hand with plain | ⟨capacity, maxPoints, interval, rfl⟩ | ⟨i, hand⟩
  · cases hinput : a.arrival? with
    | none => exact .changes (step_change h.wired a plain hinput)
    | some input =>
        rw [Action.eq_arrive hinput]
        exact .arrives input.1 input.2
  · exact .opens capacity maxPoints interval
  · cases hp : s.pools[i]? with
    | none =>
        obtain ⟨tickets, heq⟩ := step_of_none hand hp
        rw [heq]
        exact .takesTickets tickets
    | some p =>
        rcases step_hand hand hp with heq | ⟨events, q, move, becomes⟩
        · rw [heq]
          exact .takesTickets s.tickets
        · exact .hands hand hp move becomes

theorem Tended.does {s' : Relay} {a : Action} (h : s.Tended) (does : s.Does a s') :
    s'.Tended := by
  cases does with
  | changes change => exact h.change change
  | takesTickets tickets => exact h.aside rfl (.refl _)
  | arrives c bytes => exact h.arrive c bytes
  | opens => exact h.aside rfl (.append _ _)
  | hands _ pool move becomes => exact h.hands pool move becomes

theorem Tended.step (h : s.Tended) (a : Action) : (s.step a).Tended := h.does (step_does h a)

theorem Tended.run (h : s.Tended) (actions : List Action) : (s.run actions).Tended := by
  induction actions generalizing s with
  | nil => exact h
  | cons a as ih => exact ih (h.step a)

/-- What every action keeps holds after a run. -/
theorem Tended.run_induct {motive : Relay → Prop} (h : s.Tended) (start : motive s)
    (keeps : ∀ (t t' : Relay) (a : Action), t.Tended → t.Does a t' → motive t → motive t')
    (actions : List Action) : motive (s.run actions) := by
  induction actions generalizing s with
  | nil => exact start
  | cons a as ih => exact ih (h.step a) (keeps s _ a h (step_does h a) start)

end
end Relay

/-! ## Where a listener goes -/

theorem Lifecycle.eq_stopped_of_le {state : Lifecycle}
    (h : Lifecycle.stopped.rank ≤ state.rank) : state = .stopped := by
  cases state <;> first | rfl | exact absurd h (by decide)

theorem Lifecycle.rank_le_stopped (state : Lifecycle) : state.rank ≤ Lifecycle.stopped.rank := by
  cases state <;> decide

/-- What may become of listener `x`: it goes forward, keeps what it has, and waits for
ever if its settings are refused or its start broke off. -/
structure Listener.Leads (x y : Listener) : Prop where
  settings : y.settings = x.settings
  forward : x.state.rank ≤ y.state.rank
  pool : x.state ≠ .created → y.pool = x.pool
  held : x.state = .created → x.settings.validate ≠ .ok () → y.state = .created
  stuck : x.state = .starting → y.state = .starting

namespace Listener.Leads
variable {x y z : Listener}

theorem refl (x : Listener) : x.Leads x :=
  ⟨rfl, Nat.le_refl _, fun _ => rfl, fun h _ => h, id⟩

theorem ne_created (h : x.Leads y) (state : x.state ≠ .created) : y.state ≠ .created := by
  intro fresh
  have hforward := h.forward
  rw [fresh] at hforward
  cases hstate : x.state with
  | created => exact state hstate
  | _ => rw [hstate] at hforward; exact absurd hforward (by decide)

theorem trans (h : x.Leads y) (h' : y.Leads z) : x.Leads z where
  settings := h'.settings.trans h.settings
  forward := Nat.le_trans h.forward h'.forward
  pool state := (h'.pool (h.ne_created state)).trans (h.pool state)
  held state invalid := h'.held (h.held state invalid) (h.settings ▸ invalid)
  stuck state := h'.stuck (h.stuck state)

theorem stopped (h : x.Leads y) (state : x.state = .stopped) : y.state = .stopped :=
  Lifecycle.eq_stopped_of_le (state ▸ h.forward)

theorem of_marked (settings : y.settings = x.settings) (state : y.state = x.state)
    (pool : y.pool = x.pool) : x.Leads y :=
  ⟨settings, Nat.le_of_eq (congrArg _ state.symm), fun _ => pool, fun h _ => state.trans h,
    state.trans⟩

theorem of_later (settings : y.settings = x.settings) (later : x.state ≠ .created)
    (complete : x.state ≠ .starting) (forward : x.state.rank ≤ y.state.rank)
    (pool : y.pool = x.pool) : x.Leads y :=
  ⟨settings, forward, fun _ => pool, fun h _ => absurd h later, fun h => absurd h complete⟩

theorem of_created (settings : y.settings = x.settings) (fresh : x.state = .created)
    (valid : x.settings.validate = .ok ()) : x.Leads y :=
  ⟨settings, fresh ▸ Nat.zero_le _, fun h => absurd fresh h, fun _ h => absurd valid h,
    fun h => nomatch fresh.symm.trans h⟩

end Listener.Leads

namespace Relay

/-- Every listener of `s` is there in `s'`, further on its way. -/
def Leads (s s' : Relay) : Prop :=
  ∀ (l : Nat) (x : Listener), s.listeners[l]? = some x →
    ∃ y, s'.listeners[l]? = some y ∧ x.Leads y

namespace Leads
variable {s s' s'' : Relay} {l : Nat} {x y : Listener}

theorem of_eq (listeners : s'.listeners = s.listeners) : s.Leads s' :=
  fun _ x hx => ⟨x, listeners ▸ hx, .refl x⟩

theorem trans (h : s.Leads s') (h' : s'.Leads s'') : s.Leads s'' := by
  intro l x hx
  obtain ⟨y, hy, first⟩ := h l x hx
  obtain ⟨z, hz, second⟩ := h' l y hy
  exact ⟨z, hz, first.trans second⟩

theorem set (hx : s.listeners[l]? = some x) (listeners : s'.listeners = s.listeners.set l y)
    (own : x.Leads y) : s.Leads s' := by
  intro m z hz
  rw [listeners]
  exact exists_set (P := fun w => z.Leads w) ⟨z, hz, .refl z⟩ hx fun before => before.trans own

end Leads

theorem Shift.leads {opens : Bool} {s s' : Relay} (c : Shift opens s s') (h : s.Tended) :
    s.Leads s' := by
  induction c with
  | passes => exact .of_eq rfl
  | works _ _ becomes =>
      obtain ⟨registry, tickets, sends, -, rfl⟩ := becomes
      exact .of_eq rfl
  | reads reading =>
      cases reading with
      | closes => exact .of_eq rfl
      | keeps => exact .of_eq rfl
      | takes _ _ _ _ _ _ _ handled => cases handled <;> exact .of_eq rfl
  | signals => exact .of_eq rfl
  | adds settings => exact fun _ x hx => exists_append (P := x.Leads) ⟨x, hx, .refl x⟩ _
  | refuses listener fresh valid => exact .set listener rfl (.of_created rfl fresh valid)
  | starts _ listener fresh valid => exact .set listener rfl (.of_created rfl fresh valid)
  | connects => exact .of_eq rfl
  | cancels listener running =>
      exact .set listener rfl (.of_later rfl (by rw [running]; exact nofun)
        (by rw [running]; exact nofun)
        (running ▸ show Lifecycle.running.rank ≤ Lifecycle.stopping.rank by decide) rfl)
  | forsakes listener => exact .set listener rfl (.of_marked rfl rfl rfl)
  | drops listener => exact .set listener rfl (.of_marked rfl rfl rfl)
  | leaves listener => exact .set listener rfl (.of_marked rfl rfl rfl)
  | sees listener => exact .set listener rfl (.of_marked rfl rfl rfl)
  | aborts listener => exact .set listener rfl (.of_marked rfl rfl rfl)
  | settles listener closes =>
      have state := (h _ _ listener).stopping _ closes
      exact .set listener rfl (.of_later rfl (by rw [state]; exact nofun)
        (by rw [state]; exact nofun) (Lifecycle.rank_le_stopped _) rfl)
  | fails listener => exact .set listener rfl (.of_marked rfl rfl rfl)
  | seq first _ ih ih' => exact (ih h).trans (ih' (h.change first.change))

theorem Does.leads {s s' : Relay} {a : Action} (does : s.Does a s') (h : s.Tended) :
    s.Leads s' := by
  cases does with
  | changes change => exact change.leads h
  | takesTickets => exact .of_eq rfl
  | arrives => exact .of_eq rfl
  | opens => exact .of_eq rfl
  | hands _ _ _ becomes =>
      obtain ⟨registry, tickets, sends, -, rfl⟩ := becomes
      exact .of_eq rfl

theorem Tended.run_leads {s : Relay} (h : s.Tended) (actions : List Action) :
    s.Leads (s.run actions) :=
  h.run_induct (motive := s.Leads) (.of_eq rfl)
    (fun _ _ _ tended does leads => leads.trans (does.leads tended)) actions

end Relay
end MetricsProxy
