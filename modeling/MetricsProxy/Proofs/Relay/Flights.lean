import MetricsProxy.Proofs.Relay.Hands

/-!
# What is on its way

The flights of a pool are the sends that its workers and its callers wait for.
Each send that a pool begins is one of three things: it has returned, it is one of
the flights, or it was cut off. `SendAccount` says so and that the pool counts the
points of the last two kinds. What begins, returns or is cut off is told by how the
flights change (`begins`, `lands`, `cuts`), whoever waits for them.

The account of a pool is kept by workers and by hand, and by all else that happens
to a relay; only the count of points ends when the listener of the pool has stopped
(`Tended.run_sends`).
-/
namespace MetricsProxy
open Journal

def Phase.flights : Phase → List Flight
  | sending f => [f]
  | _ => []

/-- The sends of a pool that somebody waits for. -/
def FlushPool.flights (p : FlushPool) : List Flight :=
  (p.workers.flatMap fun w => w.phase.flights) ++ p.calls

/-- The pool of a send that has returned, and how many points it was about. -/
def Event.landing? : Event → Option (Nat × Nat)
  | .returned o _ r => o.pool?.map fun i => (i, r.points)
  | _ => none

/-- The sends of pools that have returned, newest first. -/
def Journal.landings (journal : List Event) : List (Nat × Nat) := journal.filterMap Event.landing?

/-- The points of the sends of one pool that have returned, newest first. -/
def Journal.landed (i : Nat) (journal : List Event) : List Nat :=
  ((landings journal).filter fun a => a.1 == i).map Prod.snd

theorem Journal.landings_cons {e : Event} {a : Nat × Nat} (h : e.landing? = some a)
    (older : List Event) : landings (e :: older) = a :: landings older :=
  List.filterMap_cons_some h

theorem Journal.landed_cons_of_ne {i : Nat} {e : Event} (h : ∀ n, e.landing? ≠ some (i, n))
    (older : List Event) : landed i (e :: older) = landed i older := by
  unfold landed
  cases hlanding : e.landing? with
  | none => rw [landings, List.filterMap_cons_none hlanding, landings]
  | some a =>
      have hne : ¬ (a.1 == i) = true := by
        rw [beq_iff_eq]
        rintro rfl
        exact h a.2 hlanding
      rw [landings_cons hlanding]
      exact congrArg (List.map Prod.snd) (List.filter_cons_of_neg hne)

theorem Journal.landed_cons {i n : Nat} {e : Event} (h : e.landing? = some (i, n))
    (older : List Event) : landed i (e :: older) = n :: landed i older := by
  rw [landed, landings_cons h]
  exact congrArg (List.map Prod.snd) (List.filter_cons_of_pos (beq_self_eq_true i))

/-- The pool of a landing is the one that the event is about. -/
theorem Event.pool?_of_landing {e : Event} {i n : Nat} (h : e.landing? = some (i, n)) :
    e.pool? = some i := by
  cases e with
  | returned o t r =>
      obtain ⟨k, hk, heq⟩ := Option.map_eq_some_iff.mp h
      cases heq
      exact hk
  | _ => cases h

/-- Whether an event begins a send of a pool or lets one return. -/
def Event.Sends (i : Nat) (e : Event) : Prop :=
  (∃ o t u, e = .begun o t u ∧ o.pool? = some i) ∨ ∃ n, e.landing? = some (i, n)

theorem Event.not_sends_of_pool {i : Nat} {e : Event} (h : e.pool? ≠ some i) : ¬ e.Sends i := by
  rintro (⟨o, t, u, rfl, ho⟩ | ⟨n, hn⟩)
  · exact h ho
  · exact h (pool?_of_landing hn)

theorem Event.accepted_not_sends (i k : Nat) (c : Option Nat) (point : Point) :
    ¬ (Event.accepted k c point).Sends i := by
  rintro (⟨o, t, u, heq, -⟩ | ⟨n, hn⟩)
  · cases heq
  · cases hn

/-- Events that neither begin a send nor end one. -/
theorem Journal.sends_append {i : Nat} {events : List Event} (quiet : ∀ e ∈ events, ¬ e.Sends i)
    (older : List Event) :
    begunUnits i (events ++ older) = begunUnits i older ∧
      landed i (events ++ older) = landed i older := by
  induction events with
  | nil => exact ⟨rfl, rfl⟩
  | cons e events ih =>
      obtain ⟨begun, back⟩ := ih fun e' he' => quiet e' (List.mem_cons_of_mem _ he')
      have he := quiet e List.mem_cons_self
      refine ⟨?_, ?_⟩
      · rw [List.cons_append, ← begun]
        cases e with
        | begun o t u => exact if_neg fun ho => he (.inl ⟨o, t, u, rfl, ho⟩)
        | _ => rfl
      · rw [List.cons_append, landed_cons_of_ne fun n hn => he (.inr ⟨n, hn⟩), back]

/-- The points of the sends that have not returned: the flights and those cut off. -/
def FlushPool.aloft (p : FlushPool) (cut : List WorkUnit) : List WorkUnit :=
  p.flights.map Flight.unit ++ cut

/-- The sends of pool `i`, which is `p`; these units were cut off. The points of those that
have not returned are counted as long as `counted` holds. -/
structure SendAccount (counted : Prop) (i : Nat) (journal : List Event) (p : FlushPool)
    (cut : List WorkUnit) : Prop where
  /-- Every unit begun has returned, is aloft or was cut off. -/
  sends : ∃ back : List WorkUnit, (begunUnits i journal).Perm (back ++ p.aloft cut) ∧
    (back.map WorkUnit.size).Perm (landed i journal)
  inFlight : counted → p.inFlight = total ((p.aloft cut).map WorkUnit.size)

namespace SendAccount
variable {counted : Prop} {i time : Nat} {journal events : List Event} {p q : FlushPool}
  {cut : List WorkUnit} {f : Flight} {o : Origin}

theorem fresh (silent : ∀ e ∈ journal, e.pool? ≠ some i) (none : p.flights = [])
    (zero : p.inFlight = 0) : SendAccount counted i journal p [] := by
  obtain ⟨begun, back⟩ := sends_append (fun e he => Event.not_sends_of_pool (silent e he)) []
  rw [List.append_nil] at begun back
  refine ⟨⟨[], ?_, ?_⟩, fun _ => ?_⟩
  · rw [begun, FlushPool.aloft, none]
    exact .refl _
  · rw [back]
    exact .refl _
  · rw [zero, FlushPool.aloft, none]
    rfl

theorem keeps (h : SendAccount counted i journal p cut) (quiet : ∀ e ∈ events, ¬ e.Sends i)
    (flights : q.flights.Perm p.flights) (inFlight : q.inFlight = p.inFlight) :
    SendAccount counted i (events ++ journal) q cut := by
  obtain ⟨back, hbegun, hback⟩ := h.sends
  obtain ⟨begun, landed⟩ := sends_append quiet journal
  have hloft : (q.aloft cut).Perm (p.aloft cut) := (flights.map _).append_right _
  refine ⟨⟨back, ?_, ?_⟩, fun reason => ?_⟩
  · rw [begun]
    exact hbegun.trans (hloft.symm.append_left _)
  · rw [landed]
    exact hback
  · rw [inFlight, h.inFlight reason, total_perm (hloft.map _)]

/-- A send begins. -/
theorem begins (h : SendAccount counted i journal p cut) (origin : o.pool? = some i)
    (flights : q.flights.Perm (f :: p.flights))
    (inFlight : q.inFlight = p.inFlight + f.unit.size) :
    SendAccount counted i (.begun o time f.unit :: journal) q cut := by
  obtain ⟨back, hbegun, hback⟩ := h.sends
  have hloft : (q.aloft cut).Perm (f.unit :: p.aloft cut) := (flights.map _).append_right _
  refine ⟨⟨back, ?_, ?_⟩, fun reason => ?_⟩
  · rw [begunUnits, if_pos origin]
    have hnew := (List.perm_append_singleton f.unit (begunUnits i journal)).trans (hbegun.cons _)
    exact hnew.trans (List.perm_middle.symm.trans (hloft.symm.append_left back))
  · exact hback
  · rw [inFlight, h.inFlight reason, total_perm (hloft.map _), List.map_cons, total_cons,
      Nat.add_comm]

/-- A send returns. -/
theorem lands (h : SendAccount counted i journal p cut) (origin : o.pool? = some i)
    (sized : f.Sized) (flights : p.flights.Perm (f :: q.flights))
    (inFlight : q.inFlight = p.inFlight - f.unit.size) :
    SendAccount counted i (.returned o time f.result :: journal) q cut := by
  obtain ⟨back, hbegun, hback⟩ := h.sends
  have hloft : (p.aloft cut).Perm (f.unit :: q.aloft cut) := (flights.map _).append_right _
  have hlanding : (Event.returned o time f.result).landing? = some (i, f.unit.size) := by
    rw [Event.landing?, origin, Option.map_some, sized]
  have hsize := total_perm (hloft.map WorkUnit.size)
  rw [List.map_cons, total_cons] at hsize
  refine ⟨⟨f.unit :: back, ?_, ?_⟩, fun reason => ?_⟩
  · exact hbegun.trans ((hloft.append_left back).trans List.perm_middle)
  · rw [landed_cons hlanding, List.map_cons]
    exact hback.cons _
  · have hcount := h.inFlight reason
    omega

/-- Sends are cut off. -/
theorem cuts (h : SendAccount counted i journal p cut) {lost : List Flight}
    (flights : p.flights.Perm (q.flights ++ lost)) (inFlight : q.inFlight = p.inFlight) :
    SendAccount counted i journal q (lost.map Flight.unit ++ cut) := by
  obtain ⟨back, hbegun, hback⟩ := h.sends
  have hloft : (p.aloft cut).Perm (q.aloft (lost.map Flight.unit ++ cut)) := by
    have hmap := (flights.map Flight.unit).append_right cut
    rwa [List.map_append, List.append_assoc] at hmap
  refine ⟨⟨back, hbegun.trans (hloft.append_left _), hback⟩, fun reason => ?_⟩
  rw [inFlight, h.inFlight reason, total_perm (hloft.map _)]

end SendAccount

/-- Every flight of the pool tells how many points it is about. -/
def FlushPool.Sized (p : FlushPool) : Prop := ∀ f ∈ p.flights, f.Sized

theorem FlushPool.Sized.of_subset {p q : FlushPool} (h : p.Sized)
    (flights : q.flights ⊆ p.flights) : q.Sized := fun f hf => h f (flights hf)

/-- What becomes of the flights of pool `i`, with the events that are made, newest first,
and the flights that are cut off. -/
inductive FlightStep (i : Nat) : FlushPool → List Event → List Flight → FlushPool → Prop where
  | keeps {p q : FlushPool} {events : List Event} (quiet : ∀ e ∈ events, ¬ e.Sends i)
      (flights : q.flights.Perm p.flights) (inFlight : q.inFlight = p.inFlight) :
      FlightStep i p events [] q
  | begins {p q : FlushPool} (o : Origin) (time : Nat) (f : Flight) (origin : o.pool? = some i)
      (sized : f.Sized) (flights : q.flights.Perm (f :: p.flights))
      (inFlight : q.inFlight = p.inFlight + f.unit.size) :
      FlightStep i p [.begun o time f.unit] [] q
  | lands {p q : FlushPool} (o : Origin) (time : Nat) (f : Flight) (origin : o.pool? = some i)
      (flights : p.flights.Perm (f :: q.flights))
      (inFlight : q.inFlight = p.inFlight - f.unit.size) :
      FlightStep i p [.returned o time f.result] [] q
  | cuts {p q : FlushPool} {lost : List Flight} (flights : p.flights.Perm (q.flights ++ lost))
      (inFlight : q.inFlight = p.inFlight) : FlightStep i p [] lost q
  | seq {p q r : FlushPool} {earlier later : List Event}
      (first : FlightStep i p earlier [] q) (second : FlightStep i q later [] r) :
      FlightStep i p (later ++ earlier) [] r

namespace FlightStep
variable {counted : Prop} {i : Nat} {p q : FlushPool} {events journal : List Event}
  {lost : List Flight} {cut : List WorkUnit}

theorem sized (h : FlightStep i p events lost q) (before : p.Sized) : q.Sized := by
  induction h with
  | keeps _ flights => exact before.of_subset flights.subset
  | begins _ _ _ _ sized flights =>
      intro f hf
      rcases List.mem_cons.mp (flights.subset hf) with rfl | hf
      · exact sized
      · exact before f hf
  | lands _ _ _ _ flights =>
      exact before.of_subset fun f hf => flights.symm.subset (List.mem_cons_of_mem _ hf)
  | cuts flights =>
      exact before.of_subset fun f hf => flights.symm.subset (List.mem_append_left _ hf)
  | seq _ _ ih ih' => exact ih' (ih before)

theorem account (h : FlightStep i p events lost q) (sized : p.Sized)
    (before : SendAccount counted i journal p cut) :
    SendAccount counted i (events ++ journal) q (lost.map Flight.unit ++ cut) := by
  induction h generalizing journal with
  | keeps quiet flights inFlight => exact before.keeps quiet flights inFlight
  | begins o time f origin _ flights inFlight => exact before.begins origin flights inFlight
  | lands o time f origin flights inFlight =>
      have hsized := sized f (flights.symm.subset List.mem_cons_self)
      exact before.lands origin hsized flights inFlight
  | cuts flights inFlight => exact before.cuts flights inFlight
  | seq first _ ih ih' =>
      rw [List.append_assoc]
      exact ih' (first.sized sized) (ih sized before)

end FlightStep

/-! ## What workers and callers do to the flights -/

theorem Phase.flights_of_isOver {phase : Phase} (h : phase.isOver = true) : phase.flights = [] := by
  cases phase <;> first | rfl | cases h

namespace FlushPool
variable {p q : FlushPool} {j : Nat} {w w' : Worker}

/-- A worker is exchanged, and with it what it waits for. -/
theorem flights_set (worker : p.workers[j]? = some w) (workers : q.workers = p.workers.set j w')
    (calls : q.calls = p.calls) :
    (w.phase.flights ++ q.flights).Perm (w'.phase.flights ++ p.flights) := by
  have hset := (perm_flatMap_set (fun w => w.phase.flights) worker w').append_right p.calls
  simpa only [flights, workers, calls, List.append_assoc] using hset

theorem flights_set_eq (before after : List Flight) (worker : p.workers[j]? = some w)
    (hbefore : w.phase.flights = before) (hafter : w'.phase.flights = after)
    (workers : q.workers = p.workers.set j w') (calls : q.calls = p.calls) :
    (before ++ q.flights).Perm (after ++ p.flights) :=
  hbefore ▸ hafter ▸ flights_set worker workers calls

theorem flights_abort (p : FlushPool) (j : Nat) :
    ∃ lost, p.flights.Perm
      (flights { p with workers := p.workers.modify j Worker.abort } ++ lost) := by
  cases hw : p.workers[j]? with
  | none =>
      refine ⟨[], ?_⟩
      rw [modify_eq_self_of_getElem? hw, List.append_nil]
  | some w =>
      have hset := flights_set (q := { p with workers := p.workers.set j w.abort }) hw rfl rfl
      -- A worker that is over waits for nothing, whether it was over before or not.
      have hover : w.abort.phase.flights = [] := by
        unfold Worker.abort
        split
        · exact Phase.flights_of_isOver ‹_›
        · rfl
      rw [hover] at hset
      refine ⟨w.phase.flights, ?_⟩
      rw [modify_eq_set_of_getElem? hw]
      exact hset.symm.trans List.perm_append_comm

theorem flights_aborted (p : FlushPool) :
    p.flights.Perm (p.aborted.flights ++ p.workers.flatMap fun w => w.phase.flights) := by
  have hnone : (p.aborted.workers.flatMap fun w => w.phase.flights) = [] :=
    List.flatMap_eq_nil_iff.mpr fun w hw =>
      Phase.flights_of_isOver (Relay.allOver_aborted p w hw)
  rw [flights, flights, hnone]
  exact List.perm_append_comm

theorem flights_staffed {settings : ListenerSettings} {workers : List Worker}
    (started : ∀ w ∈ workers, w.Started settings.flushInterval) :
    (staffed settings workers).flights = [] := by
  refine List.append_eq_nil_iff.mpr ⟨List.flatMap_eq_nil_iff.mpr fun w hw => ?_, rfl⟩
  rw [(started w hw).idle]
  rfl

theorem flights_spawned {now : Nat} {workers : List Worker}
    (new : ∀ w ∈ workers, w.New now p.interval) :
    flights { p with workers := p.workers ++ workers } = p.flights := by
  have hnone : (workers.flatMap fun w => w.phase.flights) = [] := by
    refine List.flatMap_eq_nil_iff.mpr fun w hw => ?_
    rw [(new w hw).phase]
    split <;> rfl
  simp [flights, List.flatMap_append, hnone]

end FlushPool

theorem PoolStep.flightStep {now i : Nat} {p q : FlushPool} {events : List Event}
    (h : PoolStep now i p events q) : FlightStep i p events [] q := by
  induction h with
  | idles ticket _ worker _ idle =>
      exact .keeps (fun _ he => nomatch he)
        (FlushPool.flights_set_eq [] [] worker (by rw [idle]; rfl) rfl rfl rfl) rfl
  | begins flight ticket _ worker _ idle _ _ _ sized =>
      exact .begins _ _ flight rfl sized
        (FlushPool.flights_set_eq [] [flight] worker (by rw [idle]; rfl) rfl rfl rfl) rfl
  | lands flight ticket _ worker sends =>
      refine .lands _ _ flight rfl (List.Perm.symm ?_) rfl
      exact FlushPool.flights_set_eq [flight] [] worker (by rw [sends]; rfl) rfl rfl rfl
  | quits worker _ idle =>
      exact .keeps (fun _ he => nomatch he)
        (FlushPool.flights_set_eq [] [] worker (by rw [idle]; rfl) rfl rfl rfl) rfl
  | seq _ _ ih ih' => exact .seq ih ih'

theorem HandStep.flightStep {now i : Nat} {p q : FlushPool} {events : List Event}
    (h : HandStep now i p events q) : ∃ lost, FlightStep i p events lost q := by
  cases h with
  | offers points =>
      refine ⟨[], .keeps (fun e he => ?_) (.refl _) rfl⟩
      obtain ⟨point, -, rfl⟩ := List.mem_map.mp (List.mem_reverse.mp he)
      exact Event.accepted_not_sends _ _ _ _
  | begins flight _ _ sized =>
      refine ⟨[], .begins _ _ flight rfl sized ?_ rfl⟩
      simp only [FlushPool.flights, FlushPool.drained, ← List.append_assoc]
      exact List.perm_append_singleton _ _
  | lands call =>
      obtain ⟨hk, rfl⟩ := List.getElem?_eq_some_iff.mp call
      have hcalls := (List.getElem_cons_eraseIdx_perm hk).symm.append_left
        (p.workers.flatMap fun w => w.phase.flights)
      exact ⟨[], .lands _ _ _ rfl (hcalls.trans List.perm_middle) rfl⟩
  | spawns workers new =>
      exact ⟨[], .keeps (List.forall_mem_nil _) (.of_eq (FlushPool.flights_spawned new)) rfl⟩
  | aborts j =>
      obtain ⟨lost, hlost⟩ := p.flights_abort j
      exact ⟨lost, .cuts hlost rfl⟩
  | _ => exact ⟨[], .keeps (List.forall_mem_nil _) (.refl _) rfl⟩

/-! ## What actions do to the flights -/

namespace Relay

/-- The listener that owns a pool has stopped. -/
def GivenUp (s : Relay) (i : Nat) : Prop :=
  ∃ (l : Nat) (x : Listener), s.listeners[l]? = some x ∧ x.pool = some i ∧ x.state = .stopped

theorem GivenUp.lasts {s s' : Relay} {i : Nat} (h : s.GivenUp i) (leads : s.Leads s') :
    s'.GivenUp i := by
  obtain ⟨l, x, hx, owner, stopped⟩ := h
  obtain ⟨y, hy, way⟩ := leads l x hx
  exact ⟨l, y, hy, (way.pool (by rw [stopped]; exact nofun)).trans owner, way.stopped stopped⟩

/-- What becomes of the flights of all pools: nothing, a step of one pool, a pool more, or
a pool that is given up. -/
inductive Flies : Relay → Relay → Prop where
  | rests {s s' : Relay} (events : List Event) (pools : s'.pools = s.pools)
      (journal : s'.journal = events ++ s.journal) (foreign : ∀ e ∈ events, e.pool? = none) :
      Flies s s'
  | steps {s s' : Relay} {i : Nat} {p q : FlushPool} {lost : List Flight} (events : List Event)
      (pool : s.pools[i]? = some p) (move : FlightStep i p events lost q)
      (own : ∀ e ∈ events, e.pool? = some i) (pools : s'.pools = s.pools.set i q)
      (journal : s'.journal = events ++ s.journal) : Flies s s'
  | opens {s s' : Relay} {p : FlushPool} (pools : s'.pools = s.pools ++ [p])
      (journal : s'.journal = s.journal) (none : p.flights = []) (zero : p.inFlight = 0) :
      Flies s s'
  | settles {s s' : Relay} {i : Nat} {p : FlushPool} (pool : s.pools[i]? = some p)
      (pools : s'.pools = s.pools.set i p.settled) (journal : s'.journal = s.journal)
      (given : s'.GivenUp i) : Flies s s'
  | seq {s s' s'' : Relay} (first : Flies s s') (second : Flies s' s'')
      (leads : s'.Leads s'') : Flies s s''

namespace Flies
variable {s s' : Relay} {i : Nat} {p q : FlushPool}

theorem still (pools : s'.pools = s.pools) (journal : s'.journal = s.journal) : s.Flies s' :=
  .rests [] pools journal fun _ he => nomatch he

/-- A pool changes, but for its flights. -/
theorem changes (pool : s.pools[i]? = some p) (pools : s'.pools = s.pools.set i q)
    (journal : s'.journal = s.journal) (flights : q.flights = p.flights)
    (inFlight : q.inFlight = p.inFlight) : s.Flies s' :=
  .steps [] pool (.keeps (fun _ he => nomatch he) (.of_eq flights) inFlight)
    (fun _ he => nomatch he) pools journal

end Flies

theorem Reading.flies {s s' : Relay} {c : Nat} (reading : s.Reading c s') : s.Flies s' := by
  cases reading with
  | closes => exact .still rfl rfl
  | keeps => exact .still rfl rfl
  | takes _ _ _ _ _ _ _ handled =>
      cases handled with
      | accepted pool room =>
          refine .steps [_] pool (.keeps (fun e he => ?_) ?_ ?_) (fun e he => ?_) rfl rfl
          · exact List.mem_singleton.mp he ▸ Event.accepted_not_sends _ _ _ _
          · exact .refl _
          · rfl
          · rw [List.mem_singleton.mp he]
            rfl
      | rejected => exact .still rfl rfl
      | error => exact .still rfl rfl
      | blank => exact .still rfl rfl

theorem Becomes.flies {s s' : Relay} {i : Nat} {p q : FlushPool} {events : List Event}
    {lost : List Flight} (becomes : s.Becomes i q events s') (pool : s.pools[i]? = some p)
    (move : FlightStep i p events lost q) (own : ∀ e ∈ events, e.pool? = some i) :
    s.Flies s' := by
  obtain ⟨registry, tickets, sends, -, rfl⟩ := becomes
  exact .steps events pool move own rfl rfl

theorem Shift.flies {opens : Bool} {s s' : Relay} (c : Shift opens s s') (h : s.Tended) :
    s.Flies s' := by
  induction c with
  | passes events _ _ _ foreign => exact .rests events rfl rfl foreign
  | works pool move becomes => exact becomes.flies pool move.flightStep move.pool?_of_mem
  | reads reading => exact reading.flies
  | starts _ _ _ _ _ _ started =>
      exact .opens rfl rfl (FlushPool.flights_staffed started) rfl
  | cancels _ _ _ pool => exact .changes pool rfl rfl rfl rfl
  | drops _ _ pool => exact .changes pool rfl rfl rfl rfl
  | aborts _ _ _ pool =>
      exact .steps [] pool (.cuts (FlushPool.flights_aborted _) rfl) (fun _ he => nomatch he)
        rfl rfl
  | settles listener _ owner pool =>
      have hl := (List.getElem?_eq_some_iff.mp listener).choose
      exact .settles pool rfl rfl ⟨_, _, List.getElem?_set_self hl, owner, rfl⟩
  | seq first second ih ih' =>
      have between := h.change first.change
      exact .seq (ih h) (ih' between) (second.leads between)
  | _ => exact .still rfl rfl

theorem Does.flies {s s' : Relay} {a : Action} (does : s.Does a s') (h : s.Tended) :
    s.Flies s' := by
  cases does with
  | changes change => exact change.flies h
  | takesTickets => exact .still rfl rfl
  | arrives => exact .still rfl rfl
  | opens => exact .opens rfl rfl rfl rfl
  | hands _ pool move becomes =>
      obtain ⟨lost, hmove⟩ := move.flightStep
      exact becomes.flies pool hmove move.pool?_of_mem

/-! ## The account of a pool -/

/-- Every flight tells how many points it is about. -/
def Sized (s : Relay) : Prop := ∀ (i : Nat) (p : FlushPool), s.pools[i]? = some p → p.Sized

/-- The account of pool `i` is exact, and these units were cut off, besides others. Before
the pool is there, nothing is sent for it. -/
structure SendsExact (counted : Prop) (old : List WorkUnit) (s : Relay) (i : Nat) : Prop where
  silent : s.pools[i]? = none → old = [] ∧ ∀ e ∈ s.journal, e.pool? ≠ some i
  exact : ∀ p, s.pools[i]? = some p → ∃ lost, SendAccount counted i s.journal p (lost ++ old)

namespace SendsExact
variable {counted : Prop} {old : List WorkUnit} {s s' : Relay} {i k : Nat} {p q : FlushPool}

theorem aside (h : SendsExact counted old s i) (events : List Event)
    (pool : s'.pools[i]? = s.pools[i]?) (journal : s'.journal = events ++ s.journal)
    (foreign : ∀ e ∈ events, e.pool? ≠ some i) : SendsExact counted old s' i where
  silent none := by
    obtain ⟨hold, hsilent⟩ := h.silent (pool ▸ none)
    refine ⟨hold, fun e he => ?_⟩
    rw [journal] at he
    rcases List.mem_append.mp he with he | he
    · exact foreign e he
    · exact hsilent e he
  exact r hr := by
    obtain ⟨lost, account⟩ := h.exact r (pool ▸ hr)
    rw [journal]
    exact ⟨lost, account.keeps (fun e he => Event.not_sends_of_pool (foreign e he)) (.refl _) rfl⟩

theorem update (h : SendsExact counted old s i) (events : List Event) (pool : s.pools[k]? = some p)
    (pools : s'.pools = s.pools.set k q) (journal : s'.journal = events ++ s.journal)
    (own : ∀ e ∈ events, e.pool? = some k)
    (now : k = i → ∀ cut, SendAccount counted i s.journal p cut →
      ∃ lost, SendAccount counted i (events ++ s.journal) q (lost ++ cut)) :
    SendsExact counted old s' i := by
  by_cases hki : k = i
  · subst hki
    have hk : k < s.pools.length := (List.getElem?_eq_some_iff.mp pool).choose
    have hset : s'.pools[k]? = some q := by rw [pools, List.getElem?_set_self hk]
    refine ⟨fun none => (nomatch none.symm.trans hset), fun r hr => ?_⟩
    obtain rfl := Option.some.inj (hset.symm.trans hr)
    obtain ⟨lost, account⟩ := h.exact p pool
    obtain ⟨more, account'⟩ := now rfl _ account
    rw [journal]
    exact ⟨more ++ lost, by rwa [List.append_assoc]⟩
  · refine h.aside events ?_ journal fun e he => ?_
    · rw [pools, List.getElem?_set_ne hki]
    · rw [own e he]
      exact fun heq => hki (Option.some.inj heq)

theorem append (h : SendsExact counted old s i) (pools : s'.pools = s.pools ++ [p])
    (journal : s'.journal = s.journal) (none : p.flights = []) (zero : p.inFlight = 0) :
    SendsExact counted old s' i := by
  -- The pool was there, or it is the new one, or it is still to come.
  rcases Nat.lt_trichotomy i s.pools.length with hlt | heq | hgt
  · refine h.aside [] ?_ journal fun _ he => nomatch he
    rw [pools, List.getElem?_append_left hlt]
  · have hlast : s'.pools[i]? = some p := by rw [pools, heq, List.getElem?_concat_length]
    refine ⟨fun none => (nomatch none.symm.trans hlast), fun r hr => ?_⟩
    obtain rfl := Option.some.inj (hlast.symm.trans hr)
    have hnone : s.pools[i]? = Option.none := List.getElem?_eq_none (Nat.le_of_eq heq.symm)
    obtain ⟨rfl, hsilent⟩ := h.silent hnone
    rw [journal]
    exact ⟨[], .fresh hsilent none zero⟩
  · refine h.aside [] ?_ journal fun _ he => nomatch he
    rw [pools, List.getElem?_eq_none (Nat.le_of_lt hgt), List.getElem?_eq_none]
    rw [List.length_append, List.length_singleton]
    exact hgt

end SendsExact

namespace Flies
variable {s s' : Relay} {i : Nat}

theorem sized (h : s.Flies s') (before : s.Sized) : s'.Sized := by
  induction h with
  | rests events pools => rw [Sized, pools]; exact before
  | steps events pool move _ pools =>
      intro k r hr
      rw [pools] at hr
      rcases of_getElem?_set hr with ⟨rfl, rfl⟩ | ⟨-, hr⟩
      · exact move.sized (before _ _ pool)
      · exact before k r hr
  | opens pools _ none =>
      intro k r hr
      rw [pools] at hr
      rcases List.mem_append.mp (List.mem_of_getElem? hr) with hmem | hmem
      · obtain ⟨j, hj⟩ := List.mem_iff_getElem?.mp hmem
        exact before j r hj
      · intro f hf
        rw [List.mem_singleton.mp hmem, none] at hf
        cases hf
  | settles pool pools =>
      intro k r hr
      rw [pools] at hr
      rcases of_getElem?_set hr with ⟨rfl, rfl⟩ | ⟨-, hr⟩
      · have hsized := before _ _ pool
        exact hsized
      · exact before k r hr
  | seq _ _ _ ih ih' => exact ih' (ih before)

/-- The account of a pool stays exact. A stop lets go of the count. -/
theorem account {counted : Prop} {old : List WorkUnit} (h : s.Flies s') (sized : s.Sized)
    (kept : counted → ¬ s'.GivenUp i) (before : SendsExact counted old s i) :
    SendsExact counted old s' i := by
  induction h with
  | rests events pools journal foreign =>
      refine before.aside events (by rw [pools]) journal fun e he => ?_
      rw [foreign e he]
      exact nofun
  | steps events pool move own pools journal =>
      refine before.update events pool pools journal own fun heq cut account => ?_
      subst heq
      exact ⟨_, move.account (sized _ _ pool) account⟩
  | opens pools journal none zero => exact before.append pools journal none zero
  | settles pool pools journal given =>
      refine before.update [] pool pools journal (fun _ he => nomatch he) ?_
      rintro rfl cut account
      exact ⟨[], account.sends, fun reason => absurd given (kept reason)⟩
  | seq first second leads ih ih' =>
      have between := fun reason given => kept reason (GivenUp.lasts given leads)
      exact ih' (first.sized sized) kept (ih sized between before)

end Flies

/-- What is known of the sends at every moment. -/
theorem Tended.run_sends {s : Relay} (h : s.Tended) (sized : s.Sized) (actions : List Action) :
    (s.run actions).Sized ∧ ∀ (counted : Prop) (old : List WorkUnit) (i : Nat),
      (counted → ¬ (s.run actions).GivenUp i) → SendsExact counted old s i →
        SendsExact counted old (s.run actions) i := by
  induction actions generalizing s with
  | nil => exact ⟨sized, fun _ _ _ _ exact => exact⟩
  | cons a as ih =>
      have flies := (step_does h a).flies h
      obtain ⟨hsized, hexact⟩ := ih (h.step a) (flies.sized sized)
      refine ⟨hsized, fun counted old i kept before => hexact counted old i kept ?_⟩
      have early := fun reason given =>
        kept reason (GivenUp.lasts given ((h.step a).run_leads as))
      exact flies.account sized early before

theorem sized_create (wallClock : Int) (sends : Script SendPlan)
    (checkIns : Script (Option ShippingError)) : (create wallClock sends checkIns).Sized :=
  fun _ _ hp => nomatch hp

theorem sendsExact_create (counted : Prop) (wallClock : Int) (sends : Script SendPlan)
    (checkIns : Script (Option ShippingError)) (i : Nat) :
    SendsExact counted [] (create wallClock sends checkIns) i :=
  ⟨fun _ => ⟨rfl, fun _ he => nomatch he⟩, fun _ hp => nomatch hp⟩

end Relay
end MetricsProxy
