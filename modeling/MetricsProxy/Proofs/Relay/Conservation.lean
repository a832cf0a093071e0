import MetricsProxy.Proofs.Relay.Lifecycle

/-!
# No point is lost or counted twice

The counters of the registry know nothing of single listeners. What they say is
tied to the journal: the points received are those that buffers accepted and
those that were rejected; the points dropped are the rejected ones and those
that stops gave up. A point that was accepted is in a unit whose send has
returned, in a pool, or lost, and only a stop loses points
(`Accounted.change`). Summed up over all listeners this is the conservation of
points after every run (`run_conserves`).
-/
namespace MetricsProxy
open Journal

/-- The points of a pool that are in sends or wait for one. -/
def FlushPool.carried (p : FlushPool) : Nat := p.inFlight + p.buffer.size

theorem PoolAccount.balance {i : Nat} {journal : List Event} {p : FlushPool}
    (h : PoolAccount i journal p) :
    (acceptedPoints i journal).length = returnedSize i journal + p.carried := by
  obtain ⟨abandoned, hsends, hflight⟩ := h.sends
  have hbegun := (unitPoints_perm hsends).length_eq
  rw [unitPoints_append, List.length_append, ← hflight] at hbegun
  rw [h.order, List.length_append, Buffer.length_toList, hbegun, returnedSize, FlushPool.carried]
  omega

/-- A pool that got no points carries none. -/
theorem PoolAccount.carried_eq_zero {i : Nat} {journal : List Event} {p : FlushPool}
    (h : PoolAccount i journal p) (unfed : acceptances i journal = []) : p.carried = 0 := by
  have hbalance := h.balance
  rw [acceptedPoints, unfed, List.map_nil, List.length_nil] at hbalance
  omega

theorem Retired.carried_eq_zero {p : FlushPool} (h : Retired p) : p.carried = 0 := by
  rw [FlushPool.carried, h.idle, ← Buffer.length_toList, h.empty]
  rfl

namespace Relay

/-- Points that the buffer of a pool has accepted. -/
def acceptedAt (s : Relay) (i : Nat) : Nat := (acceptedPoints i s.journal).length

def carriedAt (s : Relay) (i : Nat) : Nat := s.pools[i]?.elim 0 FlushPool.carried

/-- Accepted points of a pool that have not returned and are not there any more. -/
def lostAt (s : Relay) (i : Nat) : Nat :=
  s.acceptedAt i - (returnedSize i s.journal + s.carriedAt i)

def overPools (s : Relay) (f : Nat → Nat) : Nat := total ((List.range s.pools.length).map f)

/-- The two counters of points agree with the journal. -/
def Accounted (s : Relay) : Prop :=
  ∃ rejected errors, s.registry.Counts (rejected + s.overPools s.acceptedAt)
    (rejected + s.overPools s.lostAt) errors

section
variable {s s' : Relay} {i j : Nat} {p q : FlushPool} {events : List Event}

theorem carriedAt_eq (h : s.pools[i]? = some p) : s.carriedAt i = p.carried := by
  rw [carriedAt, h]
  rfl

/-- A pool about which the journal says the same and that carries the same. -/
theorem accountsAt_congr (same : SameFor i s'.journal s.journal)
    (carried : s'.carriedAt i = s.carriedAt i) :
    s'.acceptedAt i = s.acceptedAt i ∧ s'.lostAt i = s.lostAt i := by
  have haccepted : s'.acceptedAt i = s.acceptedAt i := by
    rw [acceptedAt, acceptedPoints, same.acceptances]
    rfl
  refine ⟨haccepted, ?_⟩
  rw [lostAt, haccepted, carried, returnedSize, same.returned]
  rfl

/-- Before a listener has stopped, nothing of its pool is lost. -/
theorem lostAt_eq_zero (h : s.Sound) {l : Nat} {x : Listener} (hx : s.listeners[l]? = some x)
    (owner : x.pool = some i) (state : x.state ≠ .stopped) : s.lostAt i = 0 := by
  obtain ⟨p, pool, life, -⟩ := h.life_of hx owner
  have hbalance := (life.books state).balance
  rw [lostAt, acceptedAt, hbalance, carriedAt_eq pool, Nat.sub_self]

namespace Accounted

/-- One pool changes, by acceptances and losses that are counted. -/
theorem update (h : s.Accounted) (events : List Event) (accepted lost : Nat)
    (pool : s.pools[i]? = some p)
    (pools : s'.pools = s.pools.set i q) (journal : s'.journal = events ++ s.journal)
    (own : ∀ e ∈ events, e.pool? = some i) (acceptedi : s'.acceptedAt i = s.acceptedAt i + accepted)
    (losti : s'.lostAt i = s.lostAt i + lost)
    (counts : ∀ a b e, s.registry.Counts a b e →
      s'.registry.Counts (a + accepted) (b + lost) e) : s'.Accounted := by
  obtain ⟨rejected, errors, hcounts⟩ := h
  have hi : i < s.pools.length := (List.getElem?_eq_some_iff.mp pool).choose
  have hothers : ∀ j, j < s.pools.length → j ≠ i →
      s'.acceptedAt j = s.acceptedAt j ∧ s'.lostAt j = s.lostAt j := by
    intro j _ hj
    refine accountsAt_congr ?_ ?_
    · rw [journal]
      refine sameFor_append (fun e he => ?_) _
      rw [own e he]
      exact fun heq => hj (Option.some.inj heq).symm
    · rw [carriedAt, carriedAt, pools, List.getElem?_set_ne (Ne.symm hj)]
  have haccepted := total_range_grow hi (fun j hj hne => (hothers j hj hne).1) acceptedi
  have hlost := total_range_grow hi (fun j hj hne => (hothers j hj hne).2) losti
  refine ⟨rejected, errors, ?_⟩
  have hnew := counts _ _ _ hcounts
  unfold overPools at hnew ⊢
  rw [pools, List.length_set, haccepted, hlost, ← Nat.add_assoc, ← Nat.add_assoc]
  exact hnew

theorem aside (h : s.Accounted) (events : List Event) (rejected errors : Nat)
    (pools : s'.pools = s.pools) (journal : s'.journal = events ++ s.journal)
    (foreign : ∀ e ∈ events, e.pool? = none)
    (counts : ∀ a b e, s.registry.Counts a b e →
      s'.registry.Counts (a + rejected) (b + rejected) (e + errors)) : s'.Accounted := by
  obtain ⟨before, earlier, hcounts⟩ := h
  have hall (i : Nat) : s'.acceptedAt i = s.acceptedAt i ∧ s'.lostAt i = s.lostAt i := by
    refine accountsAt_congr ?_ ?_
    · rw [journal]
      refine sameFor_append (fun e he => ?_) _
      rw [foreign e he]
      exact nofun
    · rw [carriedAt, carriedAt, pools]
  have haccepted : s'.acceptedAt = s.acceptedAt := funext fun i => (hall i).1
  have hlost : s'.lostAt = s.lostAt := funext fun i => (hall i).2
  refine ⟨before + rejected, earlier + errors, ?_⟩
  have hnew := counts _ _ _ hcounts
  unfold overPools at hnew ⊢
  rw [pools, haccepted, hlost, Nat.add_right_comm before rejected,
    Nat.add_right_comm before rejected]
  exact hnew

theorem quiet (h : s.Accounted) (pools : s'.pools = s.pools) (journal : s'.journal = s.journal)
    (counts : s.registry.SameCounts s'.registry) : s'.Accounted :=
  h.aside [] 0 0 pools journal (fun _ he => nomatch he) counts

theorem same (h : s.Accounted) (pool : s.pools[i]? = some p) (pools : s'.pools = s.pools.set i q)
    (journal : s'.journal = s.journal) (carried : q.carried = p.carried)
    (counts : s.registry.SameCounts s'.registry) : s'.Accounted := by
  have hi : i < s.pools.length := (List.getElem?_eq_some_iff.mp pool).choose
  have hpool : s'.pools[i]? = some q := by rw [pools, List.getElem?_set_self hi]
  have hcarried : s'.carriedAt i = s.carriedAt i := by
    rw [carriedAt_eq hpool, carriedAt_eq pool, carried]
  have hsame : SameFor i s'.journal s.journal := by
    rw [journal]
    exact ⟨rfl, rfl, rfl, fun _ _ => rfl⟩
  obtain ⟨haccepted, hlost⟩ := accountsAt_congr hsame hcarried
  exact h.update [] 0 0 pool pools journal
    (fun _ he => nomatch he) haccepted hlost counts

theorem reads (h : s.Accounted) (sound : s.Sound) {c : Nat} (reading : s.Reading c s') :
    s'.Accounted := by
  have sound' := sound.reads reading
  cases reading with
  | closes connection live server pool reason =>
      exact h.quiet rfl rfl (Registry.sameCounts_apply _ _ _ (by decide))
  | keeps connection live server pool running some fed => exact h.quiet rfl rfl (.refl _)
  | takes connection live server owner running framed classified handled =>
      cases handled with
      | accepted pool room =>
          obtain ⟨r, hr, life, -⟩ := sound.life_of server owner
          rw [isCancelled_eq owner hr] at running
          have state := life.ne_stopped fun retired => by
            have cancelled := retired.cancelled
            rw [running] at cancelled
            cases cancelled
          refine h.update [_] 1 0 pool rfl rfl
            (fun e he => by rw [List.mem_singleton.mp he]; rfl) ?_ ?_
            fun a b e hcounts => hcounts.count_received
          · simp [acceptedAt, acceptedPoints, acceptances]
          · rw [lostAt_eq_zero sound server owner state]
            exact lostAt_eq_zero sound' server owner state
      | rejected pool full =>
          exact h.aside [] 1 0 rfl rfl (fun _ he => absurd he List.not_mem_nil)
            fun a b e hcounts => hcounts.count_received.count_dropped 1
      | error cause =>
          exact h.aside [] 0 1 rfl rfl (fun _ he => absurd he List.not_mem_nil)
            fun a b e hcounts => hcounts.count_error
      | blank => exact h.quiet rfl rfl (.refl _)

theorem works (h : s.Accounted) (sound : s.Sound) (pool : s.pools[i]? = some p)
    (move : PoolStep s.now i p events q) (becomes : s.Becomes i q events s') : s'.Accounted := by
  have sound' := sound.change (.works pool move becomes)
  obtain ⟨l, x, hx, owner⟩ := sound.exists_owner pool
  have life := (sound.life l i x p hx owner pool).1
  have state := life.ne_stopped fun retired => move.not_allOver retired.allOver
  obtain ⟨registry, tickets, sends, same, rfl⟩ := becomes
  refine h.update _ 0 0 pool rfl rfl move.pool?_of_mem ?_ ?_
    (same.sameCounts (by decide))
  · rw [acceptedAt, acceptedPoints, move.acceptances_eq]
    rfl
  · rw [lostAt_eq_zero sound hx owner state]
    exact lostAt_eq_zero sound' hx owner state

theorem starts {registry : Registry} (h : s.Accounted) (sound : s.Sound)
    (pools : s'.pools = s.pools ++ [p]) (journal : s'.journal = s.journal)
    (counts : s.registry.SameCounts registry) (registry' : s'.registry = registry) :
    s'.Accounted := by
  obtain ⟨rejected, errors, hcounts⟩ := h
  have hsilent : ∀ e ∈ s.journal, e.pool? ≠ some s.pools.length := by
    intro e he heq
    exact Nat.lt_irrefl _ (sound.known e he _ heq)
  have hnew : s'.acceptedAt s.pools.length = 0 := by
    have hsame := sameFor_append hsilent []
    rw [List.append_nil] at hsame
    rw [acceptedAt, acceptedPoints, journal, hsame.acceptances]
    rfl
  have hold : ∀ j ∈ List.range s.pools.length,
      s'.acceptedAt j = s.acceptedAt j ∧ s'.lostAt j = s.lostAt j := by
    intro j hj
    refine accountsAt_congr ?_ ?_
    · rw [journal]
      exact ⟨rfl, rfl, rfl, fun _ _ => rfl⟩
    · rw [carriedAt, carriedAt, pools, List.getElem?_append_left (List.mem_range.mp hj)]
  have haccepted := total_map_congr fun j hj => (hold j hj).1
  have hlost := total_map_congr fun j hj => (hold j hj).2
  refine ⟨rejected, errors, ?_⟩
  unfold overPools at hcounts ⊢
  rw [registry', pools, List.length_append, List.length_singleton, List.range_succ,
    List.map_append, List.map_append, total_append, total_append, haccepted, hlost]
  simpa [lostAt, hnew] using counts _ _ _ hcounts

/-- A stop gives up what is left, and counts it. -/
theorem settles {l : Nat} {x : Listener} (h : s.Accounted) (sound : s.Sound)
    (hx : s.listeners[l]? = some x) {closing : Closing} (closes : x.closing = some closing)
    (owner : x.pool = some i) (pool : s.pools[i]? = some p)
    (pools : s'.pools = s.pools.set i p.settled) (journal : s'.journal = s.journal)
    (counted : ∀ a b e, s.registry.Counts a b e →
      s'.registry.Counts a (b + (p.inFlight + p.buffer.size)) e) : s'.Accounted := by
  have hi : i < s.pools.length := (List.getElem?_eq_some_iff.mp pool).choose
  obtain ⟨state, -, -, books, -⟩ := sound.stopping_of hx owner pool closes
  have hzero := lostAt_eq_zero sound hx owner (by rw [state]; exact nofun)
  have hpool : s'.pools[i]? = some p.settled := by rw [pools, List.getElem?_set_self hi]
  refine h.update [] 0 _ pool pools journal (fun _ he => nomatch he)
    ?_ ?_ counted
  · rw [acceptedAt, journal]
    rfl
  · have hbalance := books.balance
    have hsettled : p.settled.carried = 0 := rfl
    rw [hzero, lostAt, acceptedAt, carriedAt_eq hpool, journal, hbalance, hsettled]
    unfold FlushPool.carried
    omega

theorem change (h : s.Accounted) (sound : s.Sound) (c : Change s s') : s'.Accounted := by
  induction c with
  | passes events later ticking counts foreign =>
      exact h.aside _ 0 0 rfl rfl foreign counts
  | works pool move becomes => exact h.works sound pool move becomes
  | reads reading => exact h.reads sound reading
  | signals finished broken connection lasting => exact h.quiet rfl rfl (.refl _)
  | adds settings => exact h.quiet rfl rfl (.refl _)
  | refuses listener fresh => exact h.quiet rfl rfl (.refl _)
  | starts address listener fresh valid counts staff started =>
      exact h.starts sound rfl rfl counts rfl
  | connects listener accepting running counts =>
      exact h.quiet rfl rfl counts
  | cancels listener running owner pool => exact h.same pool rfl rfl rfl (.refl _)
  | forsakes listener poolless => exact h.quiet rfl rfl (.refl _)
  | drops listener owner pool => exact h.same pool rfl rfl rfl (.refl _)
  | leaves listener accepting cancelled => exact h.quiet rfl rfl (.refl _)
  | sees listener closes ended => exact h.quiet rfl rfl (.refl _)
  | aborts listener closes owner pool expired =>
      exact h.same pool rfl rfl rfl (Registry.sameCounts_release _ _)
  | settles listener closes owner pool seen counted =>
      exact h.settles sound listener closes owner pool rfl rfl counted
  | fails listener closes allEnded => exact h.quiet rfl rfl (.refl _)
  | seq first _ ih ih' => exact ih' (ih h sound) (sound.change first)

theorem arrive (h : s.Accounted) (c : Nat) (bytes : List UInt8) :
    (s.arrive c bytes).Accounted := by
  rcases arrive_cases s c bytes with ⟨-, heq⟩ | ⟨x, -, heq⟩
  · rw [heq]
    exact h
  · rw [heq]
    exact h.quiet rfl rfl (.refl _)

theorem run {actions : List Action} (h : s.Accounted) (sound : s.Sound)
    (ha : ∀ a ∈ actions, a.byHand = false) : (s.run actions).Accounted :=
  sound.run_induct ha h (fun _ _ sound change h => h.change sound change) fun _ c bytes h =>
    h.arrive c bytes

end Accounted

/-! ## Listeners and their points -/

def accepted (s : Relay) (x : Listener) : List Point :=
  x.pool.elim [] fun i => acceptedPoints i s.journal

def returned (s : Relay) (x : Listener) : List WorkUnit :=
  x.pool.elim [] fun i => returnedUnits i s.journal

def inFlight (s : Relay) (x : Listener) : Nat := (s.pool? x).elim 0 FlushPool.inFlight

/-- How many points the stop of a listener gave up. -/
def lost (s : Relay) (x : Listener) : Nat := x.pool.elim 0 s.lostAt

def running (s : Relay) : List Listener := s.listeners.filter fun x => x.state = .running

theorem length_unitPoints (us : List WorkUnit) :
    (unitPoints us).length = total (us.map WorkUnit.size) := by
  induction us with
  | nil => rfl
  | cons u us ih =>
      rw [unitPoints_cons, List.length_append, ih]
      rfl

theorem overPools_eq (h : s.Sound) (f : Nat → Nat) :
    s.overPools f = total (s.listeners.map fun x => x.pool.elim 0 f) := by
  have hlisteners (xs : List Listener) : total ((xs.flatMap fun x => x.pool.toList).map f) =
      total (xs.map fun x => x.pool.elim 0 f) := by
    induction xs with
    | nil => rfl
    | cons x xs ih =>
        rw [List.flatMap_cons, List.map_append, total_append, ih, List.map_cons, total_cons]
        cases x.pool <;> simp
  rw [overPools, ← hlisteners]
  exact (total_perm (h.owned.map f)).symm

/-- Where the accepted points of a listener are: returned, held by its pool, or lost. -/
theorem Sound.partition (h : s.Sound) {x : Listener} (hx : x ∈ s.listeners) :
    ∃ held lost : List Point,
      (s.accepted x).Perm (unitPoints (s.returned x) ++ (held ++ lost)) ∧
        held.length = s.inFlight x + s.buffered x ∧ lost.length = s.lost x ∧
        (x.state ≠ .stopped → lost = []) ∧ (x.state = .stopped → held = []) := by
  obtain ⟨l, hl⟩ := List.mem_iff_getElem?.mp hx
  rcases Option.eq_none_or_eq_some x.pool with poolless | ⟨i, owner⟩
  · refine ⟨[], [], ?_, ?_, ?_, fun _ => rfl, fun _ => rfl⟩
    · simp [accepted, returned, poolless]
    · simp [inFlight, buffered, pool?, poolless]
    · simp [Relay.lost, poolless]
  obtain ⟨p, pool, life, -⟩ := h.life_of hl owner
  have haccepted : s.accepted x = acceptedPoints i s.journal := by rw [accepted, owner]; rfl
  have hreturned : s.returned x = returnedUnits i s.journal := by rw [returned, owner]; rfl
  have hcarried : s.inFlight x + s.buffered x = p.carried := by
    simp [inFlight, buffered, pool?, owner, pool, FlushPool.carried]
  have hlost : s.lost x = s.lostAt i := by rw [Relay.lost, owner]; rfl
  rw [haccepted, hreturned, hcarried, hlost]
  by_cases state : x.state = .stopped
  · obtain ⟨-, retired, lost, hperm⟩ := life.of_stopped state
    have hzero := retired.carried_eq_zero
    have hlength := hperm.length_eq
    refine ⟨[], lost, hperm, hzero.symm, ?_, fun hne => absurd state hne, fun _ => rfl⟩
    rw [List.length_append] at hlength
    rw [lostAt, acceptedAt, carriedAt_eq pool, hzero, returnedSize]
    omega
  · have books := life.books state
    obtain ⟨abandoned, hsends, hflight⟩ := books.sends
    refine ⟨unitPoints (p.flying ++ abandoned) ++ p.buffer.toList, [], ?_, ?_, ?_,
      fun _ => rfl, fun hstopped => absurd hstopped state⟩
    · rw [books.order, List.append_nil, ← List.append_assoc, ← unitPoints_append]
      exact (unitPoints_perm hsends).append_right _
    · rw [List.length_append, ← hflight, Buffer.length_toList, FlushPool.carried]
    · rw [lostAt_eq_zero h hl owner state]
      rfl

/-- Outside of stops only running listeners hold points. -/
theorem Sound.total_carried (h : s.Sound) (calm : ∀ x ∈ s.listeners, x.state ≠ .stopping) :
    total (s.listeners.map fun x => s.inFlight x + s.buffered x) =
      total (s.running.map s.inFlight) + total (s.running.map s.buffered) := by
  have hfilter (xs : List Listener) (hsub : ∀ x ∈ xs, x ∈ s.listeners) :
      total (xs.map fun x => s.inFlight x + s.buffered x) =
        total ((xs.filter fun x => x.state = .running).map
          fun x => s.inFlight x + s.buffered x) := by
    induction xs with
    | nil => rfl
    | cons x xs ih =>
        have htail := ih fun y hy => hsub y (List.mem_cons_of_mem _ hy)
        by_cases hrunning : x.state = .running
        · rw [List.filter_cons_of_pos (by simpa using hrunning), List.map_cons, List.map_cons,
            total_cons, total_cons, htail]
        · have hmem := hsub x List.mem_cons_self
          obtain ⟨l, hl⟩ := List.mem_iff_getElem?.mp hmem
          have hnothing : s.inFlight x + s.buffered x = 0 := by
            rcases Option.eq_none_or_eq_some x.pool with poolless | ⟨i, owner⟩
            · simp [inFlight, buffered, pool?, poolless]
            · obtain ⟨p, pool, life, -⟩ := h.life_of hl owner
              have hcarried : s.inFlight x + s.buffered x = p.carried := by
                simp [inFlight, buffered, pool?, owner, pool, FlushPool.carried]
              rw [hcarried]
              cases life with
              | broken _ _ _ _ books unfed => exact books.carried_eq_zero unfed
              | running state _ _ _ _ => exact absurd state hrunning
              | stopping _ state _ _ _ _ _ => exact absurd state (calm x hmem)
              | failed state _ _ _ _ _ => exact absurd state (calm x hmem)
              | stopped _ _ _ retired _ => exact retired.carried_eq_zero
          rw [List.filter_cons_of_neg (by simpa using hrunning), List.map_cons, total_cons,
            hnothing, htail, Nat.zero_add]
  rw [hfilter s.listeners fun _ hx => hx, total_map_add]
  rfl

end

/-- The points received are those that came back from sends, those that running
listeners have in sends or buffers, and those counted as dropped, at every moment
when no stop is in progress; counters are words. One by one, a point was rejected
or was accepted by one listener; and of the points that a listener accepted, those
in units whose sends have returned, those it holds and those that its stop gave up
are a partition. Dropped are the rejected points and those given up. -/
theorem run_conserves (wallClock : Int) (sends : Script SendPlan)
    (checkIns : Script (Option ShippingError)) (actions : List Action)
    (ha : ∀ a ∈ actions, a.byHand = false) :
    let s := (create wallClock sends checkIns).run actions
    ((∀ x ∈ s.listeners, x.state ≠ .stopping) →
      s.registry.counter MetricName.pointsReceived =
        (total (s.listeners.map fun x => total ((s.returned x).map WorkUnit.size)) +
          total (s.running.map s.inFlight) + total (s.running.map s.buffered) +
          s.registry.counter MetricName.pointsDropped) % UInt64.size) ∧
    ∃ rejected : Nat,
      s.registry.counter MetricName.pointsReceived =
        (rejected + total (s.listeners.map fun x => (s.accepted x).length)) % UInt64.size ∧
      s.registry.counter MetricName.pointsDropped =
        (rejected + total (s.listeners.map s.lost)) % UInt64.size ∧
      ∀ x ∈ s.listeners, ∃ held lost : List Point,
        (s.accepted x).Perm (unitPoints (s.returned x) ++ (held ++ lost)) ∧
          held.length = s.inFlight x + s.buffered x ∧ lost.length = s.lost x ∧
          (x.state ≠ .stopped → lost = []) ∧ (x.state = .stopped → held = []) := by
  intro s
  have sound : s.Sound := sound_run wallClock sends checkIns ha
  have hempty : (create wallClock sends checkIns).Accounted := ⟨0, 0, Registry.Counts.empty⟩
  obtain ⟨rejected, errors, counts⟩ : s.Accounted := hempty.run (sound_create _ _ _) ha
  have haccepted : s.overPools s.acceptedAt =
      total (s.listeners.map fun x => (s.accepted x).length) := by
    rw [overPools_eq sound]
    refine total_map_congr fun x _ => ?_
    cases hpool : x.pool <;> simp [accepted, acceptedAt, hpool]
  have hlost : s.overPools s.lostAt = total (s.listeners.map s.lost) := overPools_eq sound _
  have hreceived := counts.received
  have hdropped := counts.dropped
  rw [haccepted] at hreceived
  rw [hlost] at hdropped
  refine ⟨fun calm => ?_, rejected, hreceived, hdropped, fun x hx => sound.partition hx⟩
  have hsplit : total (s.listeners.map fun x => (s.accepted x).length) =
      total (s.listeners.map fun x => total ((s.returned x).map WorkUnit.size)) +
        (total (s.listeners.map fun x => s.inFlight x + s.buffered x) +
          total (s.listeners.map s.lost)) := by
    rw [← total_map_add, ← total_map_add]
    refine total_map_congr fun x hx => ?_
    obtain ⟨held, lost, hperm, hheld, hlostx, -, -⟩ := sound.partition hx
    rw [hperm.length_eq, List.length_append, List.length_append, length_unitPoints, hheld, hlostx]
  rw [hreceived, hdropped, hsplit, sound.total_carried calm, Nat.add_mod_mod]
  congr 1
  omega

/-- A listener with room for two points gets three; one is sent, one is left when
the listener stops. -/
def threePoints : List Action :=
  [.addListener { ListenerSettings.standard 2878 .graphite with
      flushThreads := 1, maxBufferSize := 2, maxPointsPerFlush := 1 },
    .start 0 (.ok "0.0.0.0:2878"), .connect 0, .arrive 0 "a 1 1\nb 2 2\nc 3 3\n".toUTF8.toList,
    .readOn 0, .readOn 0, .readOn 0, .wait 1000, .tick 0 0, .beginStop 0, .quit 0 0, .readOn 0,
    .endAccepting 0, .awaitTask 0, .awaitTask 0, .awaitTask 0]

theorem run_conserves_threePoints :
    (∀ a ∈ threePoints, a.byHand = false) ∧
      (∀ x ∈ ((create 0 (.always .deliver) (.always none)).run threePoints).listeners,
        x.state = .stopped) ∧
      ((create 0 (.always .deliver) (.always none)).run threePoints).registry.counter
        MetricName.pointsReceived = 3 ∧
      3 = (total (((create 0 (.always .deliver) (.always none)).run threePoints).listeners.map
          fun x => total ((((create 0 (.always .deliver) (.always none)).run
            threePoints).returned x).map WorkUnit.size)) + 0 + 0 + 2) % UInt64.size := by
  have hstopped : ∀ x ∈ ((create 0 (.always .deliver) (.always none)).run threePoints).listeners,
      x.state = .stopped := by decide +kernel
  have hreceived : ((create 0 (.always .deliver) (.always none)).run threePoints).registry.counter
      MetricName.pointsReceived = 3 := by decide +kernel
  have hdropped : ((create 0 (.always .deliver) (.always none)).run threePoints).registry.counter
      MetricName.pointsDropped = 2 := by decide +kernel
  have hrunning : ((create 0 (.always .deliver) (.always none)).run threePoints).running = [] := by
    decide +kernel
  refine ⟨by decide, hstopped, hreceived, ?_⟩
  have hbalance := (run_conserves 0 (.always .deliver) (.always none) threePoints (by decide)).1
    fun x hx => by rw [hstopped x hx]; exact nofun
  rw [hreceived, hdropped, hrunning] at hbalance
  exact hbalance

end Relay
end MetricsProxy
