import MetricsProxy.Proofs.Relay.Stop

/-!
# What comes after a stop

A token that has fired stays fired, and the pool of a cancelled listener begins
no unit and takes no point any more: its workers only finish what they send, and
its readers only close (`Silenced.change`, `Silenced.readOn`). Once the stop has
settled, not even that is left: the pool stays as it is, down to the last field,
and the journal has nothing to add about it (`Stilled.change`). What the driver
of a relay does is always one of its runs (`follow_reaches`), and so is a stop.
-/
namespace MetricsProxy
open Journal

theorem PoolStep.begunUnits_eq {now i : Nat} {p q : FlushPool} {events : List Event}
    (h : PoolStep now i p events q) (cancelled : p.cancelled = true) (journal : List Event) :
    begunUnits i (events ++ journal) = begunUnits i journal := by
  induction h generalizing journal with
  | begins _ _ _ _ running _ _ _ _ =>
      rw [cancelled] at running
      cases running
  | seq first _ ih ih' =>
      rw [List.append_assoc, ih' (first.cancelled_eq.trans cancelled), ih cancelled]
  | _ => rfl

namespace Relay

/-! ## Runs of the driver -/

/-- `t` comes of `s` in a run that leaves the pools to their listeners. -/
def Reaches (s t : Relay) : Prop :=
  ∃ actions : List Action, (∀ a ∈ actions, a.byHand = false) ∧ t = s.run actions

namespace Reaches
variable {s t u : Relay}

theorem refl (s : Relay) : s.Reaches s := ⟨[], (fun _ ha => nomatch ha), rfl⟩

theorem trans (h : s.Reaches t) (h' : t.Reaches u) : s.Reaches u := by
  obtain ⟨actions, plain, rfl⟩ := h
  obtain ⟨actions', plain', rfl⟩ := h'
  refine ⟨actions ++ actions', fun a ha => ?_, (run_append s actions actions').symm⟩
  rcases List.mem_append.mp ha with ha | ha
  · exact plain a ha
  · exact plain' a ha

theorem step (s : Relay) {a : Action} (plain : a.byHand = false) : s.Reaches (s.step a) :=
  ⟨[a], fun b hb => by rw [List.mem_singleton.mp hb]; exact plain, rfl⟩

theorem waits {now : Nat} (s : Relay) (later : s.now ≤ now) : s.Reaches { s with now := now } := by
  have htime : s.now + (now - s.now) = now := by omega
  have hwait := step s (a := .wait (now - s.now)) rfl
  rwa [Relay.step, htime] at hwait

theorem sound (h : s.Reaches t) (sound : s.Sound) : t.Sound := by
  obtain ⟨actions, plain, rfl⟩ := h
  exact sound.run plain

end Reaches

/-- Following the agenda is a run. -/
theorem follow_reaches (limit n : Nat) (enough : Relay → Bool) (s : Relay) :
    s.Reaches (follow limit enough n s) := by
  refine follow_induct (.refl s) fun t e reaches _ next => ?_
  obtain ⟨scheduled, -, -⟩ := of_next? next
  rw [perform_eq scheduled.now_le]
  exact (reaches.trans (.waits t scheduled.now_le)).trans (.step _ scheduled.plain.1)

theorem settleNow_reaches (s : Relay) : s.Reaches s.settleNow :=
  (follow_reaches _ _ _ s).trans (.waits _ (Nat.le_max_left _ _))

theorem stop_reaches (s : Relay) (l : Nat) : (s.beginStop l).Reaches (s.stop l).1 :=
  (follow_reaches _ _ _ (s.beginStop l)).trans (settleNow_reaches _)

/-! ## From the moment the token fires -/

/-- Listener `l` owns pool `i`, whose token has fired. So far the pool has begun these units
and taken these points. -/
structure Silenced (l i : Nat) (begun : List WorkUnit) (taken : List (Option Nat × Point))
    (s : Relay) : Prop where
  owner : ∃ x, s.listeners[l]? = some x ∧ x.pool = some i
  cancelled : ∃ p, s.pools[i]? = some p ∧ p.cancelled = true
  begun : begunUnits i s.journal = begun
  taken : acceptances i s.journal = taken

namespace Silenced
variable {l i : Nat} {begun : List WorkUnit} {taken : List (Option Nat × Point)} {s s' : Relay}

theorem of_foreign (h : Silenced l i begun taken s) (events : List Event)
    (owner : ∃ x, s'.listeners[l]? = some x ∧ x.pool = some i)
    (cancelled : ∃ p, s'.pools[i]? = some p ∧ p.cancelled = true)
    (journal : s'.journal = events ++ s.journal) (foreign : ∀ e ∈ events, e.pool? ≠ some i) :
    Silenced l i begun taken s' := by
  have same := sameFor_append foreign s.journal
  rw [← journal] at same
  exact ⟨owner, cancelled, same.begun.trans h.begun, same.acceptances.trans h.taken⟩

theorem of_quiet (h : Silenced l i begun taken s)
    (owner : ∃ x, s'.listeners[l]? = some x ∧ x.pool = some i)
    (cancelled : ∃ p, s'.pools[i]? = some p ∧ p.cancelled = true)
    (journal : s'.journal = s.journal) : Silenced l i begun taken s' :=
  h.of_foreign [] owner cancelled journal fun _ he => nomatch he

/-- A reader whose token has not fired is one of another pool. -/
theorem reads (h : Silenced l i begun taken s) {c : Nat} (reading : s.Reading c s') :
    Silenced l i begun taken s' := by
  cases reading with
  | closes => exact h.of_quiet h.owner h.cancelled rfl
  | keeps => exact h.of_quiet h.owner h.cancelled rfl
  | @takes x listener j frame rest cls s' connection live server owner running framed classified
      handled =>
      cases handled with
      | @accepted p point pool room =>
          have other : j ≠ i := by
            rintro rfl
            obtain ⟨q, hq, cancelled⟩ := h.cancelled
            rw [isCancelled_eq owner hq, cancelled] at running
            cases running
          refine h.of_foreign [.accepted j (some c) point] h.owner (exists_set h.cancelled pool id)
            rfl fun e he => ?_
          rw [List.mem_singleton.mp he]
          exact fun heq => other (Option.some.inj heq)
      | rejected => exact h.of_quiet h.owner h.cancelled rfl
      | error => exact h.of_quiet h.owner h.cancelled rfl
      | blank => exact h.of_quiet h.owner h.cancelled rfl

theorem works (h : Silenced l i begun taken s) {j : Nat} {p q : FlushPool} {events : List Event}
    (pool : s.pools[j]? = some p) (move : PoolStep s.now j p events q)
    (becomes : s.Becomes j q events s') : Silenced l i begun taken s' := by
  obtain ⟨registry, tickets, sends, -, rfl⟩ := becomes
  have cancelled := exists_set h.cancelled pool fun hp => move.cancelled_eq.trans hp
  by_cases own : j = i
  · subst own
    obtain ⟨p', hp', hcancelled⟩ := h.cancelled
    obtain rfl := Option.some.inj (pool.symm.trans hp')
    exact ⟨h.owner, cancelled, (move.begunUnits_eq hcancelled s.journal).trans h.begun,
      (move.acceptances_eq s.journal).trans h.taken⟩
  · refine h.of_foreign events h.owner cancelled rfl fun e he => ?_
    rw [move.pool?_of_mem e he]
    exact fun heq => own (Option.some.inj heq)

/-- A cancelled pool begins and takes nothing, whatever happens. -/
theorem change (h : Silenced l i begun taken s) (sound : s.Sound) (c : Change s s') :
    Silenced l i begun taken s' := by
  induction c with
  | passes events _ _ _ foreign =>
      refine h.of_foreign events h.owner h.cancelled rfl fun e he => ?_
      rw [foreign e he]
      exact nofun
  | works pool move becomes => exact h.works pool move becomes
  | reads reading => exact h.reads reading
  | signals => exact h.of_quiet h.owner h.cancelled rfl
  | adds => exact h.of_quiet (exists_append h.owner _) h.cancelled rfl
  | refuses listener =>
      exact h.of_quiet (exists_set h.owner listener id) h.cancelled rfl
  | starts _ listener fresh =>
      have poolless := sound.poolless_of_created listener fresh
      refine h.of_quiet (exists_set h.owner listener fun owner => ?_)
        (exists_append h.cancelled _) rfl
      rw [poolless] at owner
      cases owner
  | connects => exact h.of_quiet h.owner h.cancelled rfl
  | cancels listener _ _ pool =>
      exact h.of_quiet (exists_set h.owner listener id) (exists_set h.cancelled pool fun _ => rfl)
        rfl
  | forsakes listener =>
      exact h.of_quiet (exists_set h.owner listener id) h.cancelled rfl
  | drops listener _ pool =>
      exact h.of_quiet (exists_set h.owner listener id) (exists_set h.cancelled pool fun _ => rfl)
        rfl
  | leaves listener =>
      exact h.of_quiet (exists_set h.owner listener id) h.cancelled rfl
  | sees listener =>
      exact h.of_quiet (exists_set h.owner listener id) h.cancelled rfl
  | aborts listener _ _ pool =>
      exact h.of_quiet (exists_set h.owner listener id) (exists_set h.cancelled pool id)
        rfl
  | settles listener _ _ pool =>
      exact h.of_quiet (exists_set h.owner listener id) (exists_set h.cancelled pool id)
        rfl
  | fails listener =>
      exact h.of_quiet (exists_set h.owner listener id) h.cancelled rfl
  | seq first _ ih ih' => exact ih' (ih h sound) (sound.change first)

theorem arrive (h : Silenced l i begun taken s) (c : Nat) (bytes : List UInt8) :
    Silenced l i begun taken (s.arrive c bytes) := h.of_quiet h.owner h.cancelled rfl

theorem reaches (h : Silenced l i begun taken s) (sound : s.Sound) {t : Relay}
    (reached : s.Reaches t) : Silenced l i begun taken t := by
  obtain ⟨actions, plain, rfl⟩ := reached
  exact sound.run_induct plain h (fun _ _ sound c silenced => silenced.change sound c)
    fun _ c bytes silenced => silenced.arrive c bytes

end Silenced

/-- `s'` is `s` but for a connection and the gauge of the active connections. -/
structure OnlyCloses (s s' : Relay) : Prop where
  registry : s.registry.SameBut [MetricName.connectionsActive] s'.registry
  pools : s'.pools = s.pools
  journal : s'.journal = s.journal

/-- A reader of a cancelled listener handles no line any more. -/
theorem Silenced.readOn {l i c : Nat} {begun : List WorkUnit} {taken : List (Option Nat × Point)}
    {s : Relay} {x : Connection} (h : Silenced l i begun taken s)
    (connection : s.connections[c]? = some x) (client : x.listener = l) :
    OnlyCloses s (s.readOn c) := by
  have unchanged : OnlyCloses s s := ⟨.refl _ _, rfl, rfl⟩
  obtain ⟨y, listener, owner⟩ := h.owner
  obtain ⟨p, pool, cancelled⟩ := h.cancelled
  have hcancelled : s.isCancelled y = true := (isCancelled_eq owner pool).trans cancelled
  by_cases live : x.live = true
  · rw [← client] at listener
    rcases readOn_reading connection live listener owner pool with ⟨heq, -⟩ | reading
    · rwa [heq]
    · have busy {z : Connection} {server : Listener} (connection' : s.connections[c]? = some z)
          (listener' : s.listeners[z.listener]? = some server)
          (running : s.isCancelled server = false) : False := by
        obtain rfl := Option.some.inj (connection.symm.trans connection')
        obtain rfl := Option.some.inj (listener.symm.trans listener')
        rw [hcancelled] at running
        cases running
      generalize s.readOn c = s' at reading ⊢
      cases reading with
      | closes =>
          exact ⟨(Registry.SameBut.refl _ _).apply (List.mem_singleton_self _) _, rfl, rfl⟩
      | keeps connection' _ listener' _ running _ _ =>
          exact (busy connection' listener' running).elim
      | takes connection' _ listener' _ running _ _ _ =>
          exact (busy connection' listener' running).elim
  · rw [readOn_of_not_served fun z hz => ?_]
    · exact unchanged
    · obtain rfl := Option.some.inj (connection.symm.trans hz)
      simpa using live

/-! ## From the moment the stop has returned -/

/-- Listener `l` has stopped, its pool `i` is `p`, and these are the events of that pool. -/
structure AtRest (l i : Nat) (p : FlushPool) (events : List Event) (s : Relay) : Prop where
  listener : ∃ x, s.listeners[l]? = some x ∧ x.pool = some i ∧ x.state = .stopped ∧
    x.closing = none
  pool : ∃ q, s.pools[i]? = some q ∧ q = p
  journal : s.journal.filter (fun e => e.pool? = some i) = events

namespace AtRest
variable {l i : Nat} {p : FlushPool} {events : List Event} {s s' : Relay}

theorem of_foreign (h : AtRest l i p events s) (later : List Event)
    (listener : ∃ x, s'.listeners[l]? = some x ∧ x.pool = some i ∧ x.state = .stopped ∧
      x.closing = none)
    (pool : ∃ q, s'.pools[i]? = some q ∧ q = p)
    (journal : s'.journal = later ++ s.journal) (foreign : ∀ e ∈ later, e.pool? ≠ some i) :
    AtRest l i p events s' := by
  refine ⟨listener, pool, ?_⟩
  have hnone : later.filter (fun e => e.pool? = some i) = [] :=
    List.filter_eq_nil_iff.mpr fun e he => by simpa using foreign e he
  rw [journal, List.filter_append, hnone, List.nil_append, h.journal]

theorem of_quiet (h : AtRest l i p events s)
    (listener : ∃ x, s'.listeners[l]? = some x ∧ x.pool = some i ∧ x.state = .stopped ∧
      x.closing = none)
    (pool : ∃ q, s'.pools[i]? = some q ∧ q = p) (journal : s'.journal = s.journal) :
    AtRest l i p events s' := h.of_foreign [] listener pool journal fun _ he => nomatch he

theorem pool_set (h : AtRest l i p events s) {j : Nat} (other : j ≠ i) (q : FlushPool) :
    ∃ r, (s.pools.set j q)[i]? = some r ∧ r = p := by
  obtain ⟨r, hr, hrp⟩ := h.pool
  exact ⟨r, (List.getElem?_set_ne other).trans hr, hrp⟩

/-- A reader whose token has not fired is one of another pool. -/
theorem reads (h : AtRest l i p events s) (retired : Retired p) {c : Nat}
    (reading : s.Reading c s') : AtRest l i p events s' := by
  cases reading with
  | closes => exact h.of_quiet h.listener h.pool rfl
  | keeps => exact h.of_quiet h.listener h.pool rfl
  | @takes x listener j frame rest cls s' connection live server owner running framed classified
      handled =>
      cases handled with
      | @accepted q point pool room =>
          have other : j ≠ i := by
            rintro rfl
            obtain ⟨r, hr, rfl⟩ := h.pool
            rw [isCancelled_eq owner hr, retired.cancelled] at running
            cases running
          refine h.of_foreign [.accepted j (some c) point] h.listener (h.pool_set other _) rfl
            fun e he => ?_
          rw [List.mem_singleton.mp he]
          exact fun heq => other (Option.some.inj heq)
      | rejected => exact h.of_quiet h.listener h.pool rfl
      | error => exact h.of_quiet h.listener h.pool rfl
      | blank => exact h.of_quiet h.listener h.pool rfl

theorem works (h : AtRest l i p events s) (retired : Retired p) {j : Nat} {q r : FlushPool}
    {later : List Event} (pool : s.pools[j]? = some q) (move : PoolStep s.now j q later r)
    (becomes : s.Becomes j r later s') : AtRest l i p events s' := by
  obtain ⟨registry, tickets, sends, -, rfl⟩ := becomes
  have other : j ≠ i := by
    rintro rfl
    obtain ⟨p', hp', rfl⟩ := h.pool
    obtain rfl := Option.some.inj (pool.symm.trans hp')
    exact move.not_allOver retired.allOver
  refine h.of_foreign later h.listener (h.pool_set other r) rfl fun e he => ?_
  rw [move.pool?_of_mem e he]
  exact fun heq => other (Option.some.inj heq)

theorem other_of_closing (h : AtRest l i p events s) (sound : s.Sound) {m j : Nat} {x : Listener}
    {closing : Closing} (listener : s.listeners[m]? = some x) (owner : x.pool = some j)
    (closes : x.closing = some closing) : j ≠ i := by
  rintro rfl
  obtain ⟨y, hy, howner, -, hclosing⟩ := h.listener
  obtain rfl := sound.owner_unique listener hy owner howner
  obtain rfl := Option.some.inj (listener.symm.trans hy)
  rw [closes] at hclosing
  cases hclosing

/-- Nothing touches the pool of a listener that has stopped. -/
theorem change (h : AtRest l i p events s) (retired : Retired p) (sound : s.Sound)
    (c : Change s s') : AtRest l i p events s' := by
  have refires {q : FlushPool} (hq : q = p) : { q with cancelled := true } = p := by
    subst hq
    rw [← retired.cancelled]
  induction c with
  | passes later _ _ _ foreign =>
      refine h.of_foreign later h.listener h.pool rfl fun e he => ?_
      rw [foreign e he]
      exact nofun
  | works pool move becomes => exact h.works retired pool move becomes
  | reads reading => exact h.reads retired reading
  | signals => exact h.of_quiet h.listener h.pool rfl
  | adds => exact h.of_quiet (exists_append h.listener _) h.pool rfl
  | refuses listener fresh =>
      refine h.of_quiet (exists_set h.listener listener fun hx => ?_) h.pool rfl
      exact ⟨hx.1, rfl, hx.2.2⟩
  | starts _ listener fresh =>
      refine h.of_quiet (exists_set h.listener listener fun hx => ?_) (exists_append h.pool _) rfl
      rw [fresh] at hx
      cases hx.2.1
  | connects => exact h.of_quiet h.listener h.pool rfl
  | cancels listener running _ pool =>
      refine h.of_quiet (exists_set h.listener listener fun hx => ?_)
        (exists_set h.pool pool refires) rfl
      rw [running] at hx
      cases hx.2.1
  | forsakes listener => exact h.of_quiet (exists_set h.listener listener id) h.pool rfl
  | drops listener _ pool =>
      exact h.of_quiet (exists_set h.listener listener id) (exists_set h.pool pool refires) rfl
  | leaves listener => exact h.of_quiet (exists_set h.listener listener id) h.pool rfl
  | sees listener closes =>
      refine h.of_quiet (exists_set h.listener listener fun hx => ?_) h.pool rfl
      rw [closes] at hx
      cases hx.2.2
  | aborts listener closes owner _ _ =>
      have other := h.other_of_closing sound listener owner closes
      exact h.of_quiet (exists_set h.listener listener id) (h.pool_set other _) rfl
  | settles listener closes owner _ _ _ =>
      have other := h.other_of_closing sound listener owner closes
      refine h.of_quiet (exists_set h.listener listener fun hx => ?_) (h.pool_set other _) rfl
      exact ⟨hx.1, rfl, rfl⟩
  | fails listener closes =>
      refine h.of_quiet (exists_set h.listener listener fun hx => ?_) h.pool rfl
      rw [closes] at hx
      cases hx.2.2
  | seq first _ ih ih' => exact ih' (ih h sound) (sound.change first)

theorem arrive (h : AtRest l i p events s) (c : Nat) (bytes : List UInt8) :
    AtRest l i p events (s.arrive c bytes) := h.of_quiet h.listener h.pool rfl

theorem reaches (h : AtRest l i p events s) (retired : Retired p) (sound : s.Sound) {t : Relay}
    (reached : s.Reaches t) : AtRest l i p events t := by
  obtain ⟨actions, plain, rfl⟩ := reached
  exact sound.run_induct plain h (fun _ _ sound c rest => rest.change retired sound c)
    fun _ c bytes rest => rest.arrive c bytes

theorem of_stopped (sound : s.Sound) {x : Listener} (listener : s.listeners[l]? = some x)
    (owner : x.pool = some i) (stopped : x.state = .stopped) :
    ∃ p, Retired p ∧ AtRest l i p (s.journal.filter fun e => e.pool? = some i) s := by
  obtain ⟨p, pool, life, -⟩ := sound.life_of listener owner
  obtain ⟨closing, retired, -⟩ := life.of_stopped stopped
  exact ⟨p, retired, ⟨x, listener, owner, stopped, closing⟩, ⟨p, pool, rfl⟩, rfl⟩

end AtRest

/-- Since `s`, nothing has happened to listener `l`, which has stopped, nor to its pool `i`, and
its readers have no line to handle. -/
structure Stilled (l i : Nat) (s t : Relay) : Prop where
  stopped : ∃ x, t.listeners[l]? = some x ∧ x.state = .stopped ∧ t.buffered x = 0
  pool : t.pools[i]? = s.pools[i]?
  events : t.journal.filter (fun e => e.pool? = some i) =
    s.journal.filter (fun e => e.pool? = some i)
  readers : ∀ (c : Nat) (x : Connection), t.connections[c]? = some x → x.listener = l →
    OnlyCloses t (t.readOn c)

/-- From the moment a stop fires the token, the workers of the listener begin no
unit and its buffer takes no point, and its readers only close. From the moment
the stop has returned, neither the pool nor what the journal says about it ever
changes again: no send is begun or returns, and the buffer stays empty. -/
theorem nothing_after_stop (wallClock : Int) (sends : Script SendPlan)
    (checkIns : Script (Option ShippingError)) (s : Relay)
    (reached : (create wallClock sends checkIns).Reaches s) (l i : Nat) (x : Listener)
    (listener : s.listeners[l]? = some x) (running : x.state = .running)
    (owner : x.pool = some i) :
    (s.beginStop l).Reaches (s.stop l).1 ∧
      ∀ t, (s.beginStop l).Reaches t →
        begunUnits i t.journal = begunUnits i s.journal ∧
        acceptances i t.journal = acceptances i s.journal ∧
        (∀ (c : Nat) (y : Connection), t.connections[c]? = some y → y.listener = l →
          OnlyCloses t (t.readOn c)) ∧
        ∀ y : Listener, t.listeners[l]? = some y → y.state = .stopped →
          ∀ u, t.Reaches u → Stilled l i t u := by
  have sound : s.Sound := reached.sound (sound_create wallClock sends checkIns)
  obtain ⟨p, pool⟩ := sound.wired l x i listener owner
  have hl : l < s.listeners.length := (List.getElem?_eq_some_iff.mp listener).choose
  have hi : i < s.pools.length := (List.getElem?_eq_some_iff.mp pool).choose
  have fired : Silenced l i (begunUnits i s.journal) (acceptances i s.journal) (s.beginStop l) := by
    rw [beginStop_eq listener running owner pool]
    exact ⟨⟨_, List.getElem?_set_self hl, owner⟩, ⟨_, List.getElem?_set_self hi, rfl⟩, rfl, rfl⟩
  have sound' : (s.beginStop l).Sound := sound.change (beginStop_change sound.wired l)
  refine ⟨stop_reaches s l, fun t ht => ?_⟩
  have silenced := fired.reaches sound' ht
  have soundt := ht.sound sound'
  refine ⟨silenced.begun, silenced.taken, fun c y connection client =>
    silenced.readOn connection client, fun y hy stopped u hu => ?_⟩
  obtain ⟨z, hz, hzowner⟩ := silenced.owner
  obtain rfl := Option.some.inj (hy.symm.trans hz)
  obtain ⟨q, retired, rest⟩ := AtRest.of_stopped soundt hy hzowner stopped
  obtain ⟨⟨v, hv, hvowner, hvstopped, -⟩, ⟨r, hr, rfl⟩, events⟩ := rest.reaches retired soundt hu
  obtain ⟨r', hr', hrr'⟩ := rest.pool
  refine ⟨⟨v, hv, hvstopped, ?_⟩, by rw [hr, hr', hrr'], events, fun c x connection client =>
    (silenced.reaches soundt hu).readOn connection client⟩
  have hpool : u.pool? v = some r := by
    rw [pool?, hvowner]
    exact hr
  rw [buffered, hpool, Option.elim_some, ← Buffer.length_toList, retired.empty]
  rfl

/-- A stop that aborts a send; then its client sends another line, and the time
comes at which the send would have returned. -/
theorem nothing_after_stop_slowFirst :
    let s := (create 0 ⟨[⟨60000, none⟩, ⟨0, none⟩], .deliver⟩ (.always none)).run twoSends
    let t := (s.stop 0).1
    (∀ a ∈ twoSends, a.byHand = false) ∧
      ((s.listeners[0]?.map fun x => (x.state, x.pool)) = some (.running, some 0)) ∧
      ((t.listeners[0]?.map fun x => x.state) = some .stopped) ∧
      Stilled 0 0 t (t.run [.arrive 0 "o 3 3\n".toUTF8.toList, .readOn 0, .wait 60000,
        .deliver 0 0, .tick 0 1]) := by
  intro s t
  have hbefore : (s.listeners[0]?.map fun x => (x.state, x.pool)) = some (.running, some 0) := by
    decide +kernel
  have hafter : (t.listeners[0]?.map fun x => x.state) = some .stopped := by decide +kernel
  obtain ⟨x, listener, hx⟩ := Option.map_eq_some_iff.mp hbefore
  obtain ⟨y, listener', stopped⟩ := Option.map_eq_some_iff.mp hafter
  obtain ⟨stops, silent⟩ := nothing_after_stop 0 ⟨[⟨60000, none⟩, ⟨0, none⟩], .deliver⟩
    (.always none) s ⟨twoSends, by decide, rfl⟩ 0 0 x listener (congrArg Prod.fst hx)
    (congrArg Prod.snd hx)
  obtain ⟨-, -, -, still⟩ := silent t stops
  exact ⟨by decide, hbefore, hafter, still y listener' stopped _ ⟨_, by decide, rfl⟩⟩

end Relay
end MetricsProxy
