import MetricsProxy.Proofs.Relay.Hands

/-!
# What holds of every relay that can be reached

Whatever is done to the pools by hand, every connection is with a listener that
has a pool, and every worker that is not over ticks at some distance, on a ticket
behind the owner's. All actions keep this (`Orderly.run`), and it is what following
the agenda needs to come to its end.
-/
namespace MetricsProxy

/-- What holds of every worker. -/
structure Worker.Orderly (w : Worker) : Prop where
  behind : 0 < w.ticket
  ticks : w.phase.isOver = false → 0 < w.ticker.period

/-- What holds of the workers of every pool. -/
def FlushPool.Orderly (p : FlushPool) : Prop := ∀ w ∈ p.workers, w.Orderly

namespace Worker
variable {now interval : Nat} {w : Worker}

theorem New.orderly (h : w.New now interval) : w.Orderly where
  behind := h.behind
  ticks awake := by
    rw [h.ticker]
    by_cases hinterval : interval = 0
    · rw [h.phase, if_pos hinterval] at awake
      cases awake
    · exact Nat.pos_of_ne_zero hinterval

theorem Started.orderly (h : w.Started interval) (positive : 0 < interval) : w.Orderly :=
  ⟨h.behind, fun _ => h.period ▸ positive⟩

theorem Orderly.abort (h : w.Orderly) : w.abort.Orderly := by
  unfold Worker.abort
  split
  · exact h
  · exact ⟨h.behind, nofun⟩

end Worker

namespace FlushPool.Orderly
variable {p q : FlushPool} {now i j : Nat} {w w' : Worker} {events : List Event}

theorem of_workers (h : p.Orderly) (workers : q.workers = p.workers) : q.Orderly := by
  rw [FlushPool.Orderly, workers]
  exact h

theorem set (h : p.Orderly) (workers : q.workers = p.workers.set j w') (own : w'.Orderly) :
    q.Orderly := by
  intro v hv
  rw [workers] at hv
  rcases List.mem_or_eq_of_mem_set hv with hv | rfl
  · exact h v hv
  · exact own

theorem aborted (h : p.Orderly) : p.aborted.Orderly := by
  intro w hw
  obtain ⟨v, hv, rfl⟩ := List.mem_map.mp hw
  exact (h v hv).abort

theorem works (h : p.Orderly) (move : PoolStep now i p events q) : q.Orderly := by
  induction move with
  | idles ticket behind worker _ idle =>
      have own := h _ (List.mem_of_getElem? worker)
      exact h.set rfl ⟨behind, fun _ => own.ticks (by rw [idle]; rfl)⟩
  | begins flight ticket behind worker _ idle =>
      have own := h _ (List.mem_of_getElem? worker)
      exact h.set rfl ⟨behind, fun _ => own.ticks (by rw [idle]; rfl)⟩
  | lands flight ticket behind worker sends =>
      have own := h _ (List.mem_of_getElem? worker)
      exact h.set rfl ⟨behind, fun _ => own.ticks (by rw [sends]; rfl)⟩
  | quits worker =>
      have own := h _ (List.mem_of_getElem? worker)
      exact h.set rfl ⟨own.behind, nofun⟩
  | seq _ _ ih ih' => exact ih' (ih h)

theorem hands (h : p.Orderly) (move : HandStep now i p events q) : q.Orderly := by
  cases move with
  | spawns workers new =>
      intro w hw
      rcases List.mem_append.mp hw with hw | hw
      · exact h w hw
      · exact (new w hw).orderly
  | aborts j =>
      cases hw : p.workers[j]? with
      | none => exact h.of_workers (modify_eq_self_of_getElem? hw _)
      | some w =>
          have own := h w (List.mem_of_getElem? hw)
          exact h.set (modify_eq_set_of_getElem? hw _) own.abort
  | _ => exact h.of_workers rfl

end FlushPool.Orderly

namespace Relay

/-- What holds of every relay, whatever is done to its pools by hand. -/
structure Orderly (s : Relay) : Prop where
  tended : s.Tended
  /-- Connections are with listeners that have pools. -/
  served : ∀ c ∈ s.connections, ∃ x i, s.listeners[c.listener]? = some x ∧ x.pool = some i
  pools : ∀ p ∈ s.pools, p.Orderly

theorem Tended.owner_of_closing {s : Relay} {l : Nat} {x : Listener} {closing : Closing}
    (h : s.Tended) (listener : s.listeners[l]? = some x) (closes : x.closing = some closing) :
    ∃ i p, x.pool = some i ∧ s.pools[i]? = some p := by
  rcases Option.eq_none_or_eq_some x.pool with poolless | ⟨i, owner⟩
  · have hnone := ((h l x listener).unstarted poolless).closing
    rw [closes] at hnone
    cases hnone
  · obtain ⟨p, pool⟩ := h.wired l x i listener owner
    exact ⟨i, p, owner, pool⟩

theorem Leads.pool {s s' : Relay} {l i : Nat} {x : Listener} (h : s.Leads s') (tended : s.Tended)
    (listener : s.listeners[l]? = some x) (owner : x.pool = some i) :
    ∃ y, s'.listeners[l]? = some y ∧ y.pool = some i := by
  obtain ⟨y, hy, leads⟩ := h l x listener
  refine ⟨y, hy, (leads.pool fun fresh => ?_).trans owner⟩
  have poolless := (tended l x listener).fresh fresh
  rw [owner] at poolless
  cases poolless

namespace Orderly
variable {s s' : Relay} {i : Nat} {p q : FlushPool}

theorem create (wallClock : Int) (sends : Script SendPlan)
    (checkIns : Script (Option ShippingError)) : (create wallClock sends checkIns).Orderly where
  tended := .create wallClock sends checkIns
  served _ hc := nomatch hc
  pools _ hp := nomatch hp

theorem pool (h : s.Orderly) (pool : s.pools[i]? = some p) : p.Orderly :=
  h.pools p (List.mem_of_getElem? pool)

theorem pools_set (h : s.Orderly) (own : q.Orderly) : ∀ r ∈ s.pools.set i q, r.Orderly := by
  intro r hr
  rcases List.mem_or_eq_of_mem_set hr with hr | rfl
  · exact h.pools r hr
  · exact own

theorem pools_append (h : s.Orderly) (own : q.Orderly) : ∀ r ∈ s.pools ++ [q], r.Orderly := by
  intro r hr
  rcases List.mem_append.mp hr with hr | hr
  · exact h.pools r hr
  · rw [List.mem_singleton.mp hr]
    exact own

theorem served_of (h : s.Orderly) {connections : List Connection}
    (same : ∀ d ∈ connections, ∃ e ∈ s.connections, d.listener = e.listener) :
    ∀ c ∈ connections, ∃ x i, s.listeners[c.listener]? = some x ∧ x.pool = some i := by
  intro c hc
  obtain ⟨e, he, heq⟩ := same c hc
  rw [heq]
  exact h.served e he

theorem served_set (h : s.Orderly) {c : Nat} {z z' : Connection} (hz : s.connections[c]? = some z)
    (same : z'.listener = z.listener) :
    ∀ d ∈ s.connections.set c z', ∃ x i, s.listeners[d.listener]? = some x ∧ x.pool = some i :=
  h.served_of (Sound.served_set hz same)

/-- A step keeps the relay orderly if its connections are with listeners that were there
and its workers are as they should be. -/
theorem next (h : s.Orderly) (tended : s'.Tended) (leads : s.Leads s')
    (served : ∀ c ∈ s'.connections, ∃ x i, s.listeners[c.listener]? = some x ∧ x.pool = some i)
    (pools : ∀ p ∈ s'.pools, p.Orderly) : s'.Orderly where
  tended := tended
  served c hc := by
    obtain ⟨x, i, listener, owner⟩ := served c hc
    obtain ⟨y, hy, owner'⟩ := leads.pool h.tended listener owner
    exact ⟨y, i, hy, owner'⟩
  pools := pools

theorem reads (h : s.Orderly) {c : Nat} (reading : s.Reading c s') : s'.Orderly := by
  have tended := h.tended.reads reading
  cases reading with
  | closes connection =>
      exact h.next tended (.of_eq rfl) (h.served_set connection rfl) h.pools
  | keeps connection =>
      exact h.next tended (.of_eq rfl) (h.served_set connection rfl) h.pools
  | takes connection _ _ _ _ _ _ handled =>
      cases handled with
      | accepted pool =>
          exact h.next tended (.of_eq rfl) (h.served_set connection rfl)
            (h.pools_set ((h.pool pool).of_workers rfl))
      | rejected => exact h.next tended (.of_eq rfl) (h.served_set connection rfl) h.pools
      | error => exact h.next tended (.of_eq rfl) (h.served_set connection rfl) h.pools
      | blank => exact h.next tended (.of_eq rfl) (h.served_set connection rfl) h.pools

theorem of_change (h : s.Orderly) (c : Change s s')
    (served : ∀ c ∈ s'.connections, ∃ x i, s.listeners[c.listener]? = some x ∧ x.pool = some i)
    (pools : ∀ p ∈ s'.pools, p.Orderly) : s'.Orderly :=
  h.next (h.tended.change c) (c.leads h.tended) served pools

theorem change {opens : Bool} (h : s.Orderly) (c : Shift opens s s') : s'.Orderly := by
  induction c with
  | passes events later ticking counts foreign slots =>
      exact h.of_change (.passes events later ticking counts foreign slots) h.served h.pools
  | works pool move becomes =>
      have c : Change _ _ := .works pool move becomes
      obtain ⟨registry, tickets, sends, -, rfl⟩ := becomes
      exact h.of_change c h.served (h.pools_set ((h.pool pool).works move))
  | reads reading => exact h.reads reading
  | signals finished broken connection lasting beyond =>
      exact h.of_change (.signals finished broken connection lasting beyond)
        (h.served_set connection rfl) h.pools
  | adds settings => exact h.of_change (.adds settings) h.served h.pools
  | refuses listener fresh valid =>
      exact h.of_change (.refuses listener fresh valid) h.served h.pools
  | starts address listener fresh valid counts staff started slots =>
      obtain ⟨-, -, positive, -⟩ := (ListenerSettings.validate_eq_ok_iff _).mp valid
      exact h.of_change (.starts address listener fresh valid counts staff started slots) h.served
        (h.pools_append fun w hw => (started w hw).orderly positive)
  | @connects s l x registry listener accepting running counts allowed room =>
      refine h.of_change (.connects listener accepting running counts rfl room) (fun d hd => ?_)
        h.pools
      rcases List.mem_append.mp hd with hd | hd
      · exact h.served d hd
      · obtain rfl := List.mem_singleton.mp hd
        rcases Option.eq_none_or_eq_some x.pool with poolless | ⟨i, owner⟩
        · have hclosed := ((h.tended l x listener).unstarted poolless).accepting
          rw [accepting] at hclosed
          cases hclosed
        · exact ⟨x, i, listener, owner⟩
  | cancels listener running owner pool =>
      exact h.of_change (.cancels listener running owner pool) h.served
        (h.pools_set ((h.pool pool).of_workers rfl))
  | forsakes listener poolless =>
      exact h.of_change (.forsakes listener poolless) h.served h.pools
  | drops listener owner pool =>
      exact h.of_change (.drops listener owner pool) h.served
        (h.pools_set ((h.pool pool).of_workers rfl))
  | leaves listener accepting cancelled alone =>
      exact h.of_change (.leaves listener accepting cancelled alone) h.served h.pools
  | sees listener closes ended =>
      exact h.of_change (.sees listener closes ended) h.served h.pools
  | aborts listener closes owner pool expired =>
      refine h.of_change (.aborts listener closes owner pool expired) (h.served_of fun d hd => ?_)
        (h.pools_set (h.pool pool).aborted)
      obtain ⟨e, he, rfl⟩ := List.mem_map.mp hd
      refine ⟨e, he, ?_⟩
      unfold Connection.closedBy
      split <;> rfl
  | settles listener closes owner pool seen counted slots =>
      exact h.of_change (.settles listener closes owner pool seen counted slots) h.served
        (h.pools_set ((h.pool pool).of_workers rfl))
  | fails listener closes allEnded =>
      exact h.of_change (.fails listener closes allEnded) h.served h.pools
  | seq _ _ ih ih' => exact ih' (ih h)

theorem does {a : Action} (h : s.Orderly) (does : s.Does a s') : s'.Orderly := by
  have tended := h.tended.does does
  have leads := does.leads h.tended
  cases does with
  | changes change => exact h.change change
  | takesTickets tickets => exact h.next tended leads h.served h.pools
  | arrives c bytes =>
      refine h.next tended leads ?_ h.pools
      rcases arrive_cases s c bytes with ⟨-, heq⟩ | ⟨x, connection, heq⟩
      · rw [heq]
        exact h.served
      · rw [heq]
        exact h.served_set connection rfl
  | opens => exact h.next tended leads h.served (h.pools_append fun _ hw => nomatch hw)
  | hands _ pool move becomes =>
      obtain ⟨registry, tickets, sends, -, rfl⟩ := becomes
      exact h.next tended leads h.served (h.pools_set ((h.pool pool).hands move))

theorem step (h : s.Orderly) (a : Action) : (s.step a).Orderly := h.does (step_does h.tended a)

theorem run (h : s.Orderly) (actions : List Action) : (s.run actions).Orderly := by
  induction actions generalizing s with
  | nil => exact h
  | cons a as ih => exact ih (h.step a)

end Orderly

theorem Does.ticking {s s' : Relay} {a : Action} (does : s.Does a s')
    (ticks : ∀ r ∈ s.reporters, r.Ticks) : ∀ r ∈ s'.reporters, r.Ticks := by
  cases does with
  | changes change => exact change.ticking ticks
  | takesTickets => exact ticks
  | arrives => exact ticks
  | opens => exact ticks
  | hands _ _ _ becomes =>
      obtain ⟨registry, tickets, sends, -, rfl⟩ := becomes
      exact ticks

def Reachable (s : Relay) : Prop :=
  ∃ wallClock sends checkIns actions, s = (Relay.create wallClock sends checkIns).run actions

namespace Reachable
variable {s : Relay}

theorem run (h : s.Reachable) (actions : List Action) : (s.run actions).Reachable := by
  obtain ⟨wallClock, sends, checkIns, before, rfl⟩ := h
  exact ⟨wallClock, sends, checkIns, before ++ actions, (run_append _ before actions).symm⟩

theorem step (h : s.Reachable) (a : Action) : (s.step a).Reachable := h.run [a]

theorem orderly (h : s.Reachable) : s.Orderly := by
  obtain ⟨wallClock, sends, checkIns, before, rfl⟩ := h
  exact (Orderly.create wallClock sends checkIns).run before

theorem ticking (h : s.Reachable) : ∀ r ∈ s.reporters, r.Ticks := by
  obtain ⟨wallClock, sends, checkIns, before, rfl⟩ := h
  exact (Tended.create wallClock sends checkIns).run_induct
    (motive := fun t => ∀ r ∈ t.reporters, r.Ticks) (fun _ hr => nomatch hr)
    (fun _ _ _ _ does ticks => does.ticking ticks) before

end Reachable

/-- A relay whose pools are left to their listeners is orderly. -/
theorem Sound.toOrderly {s : Relay} (h : s.Sound) : s.Orderly where
  tended l x hx := by
    refine ⟨fun i owner => h.wired l x i hx owner, h.unstarted l x hx,
      h.poolless_of_created hx, fun closing closes => ?_, fun i p owner pool state => ?_⟩
    · obtain ⟨i, owner⟩ := h.owner_of_closing hx closes
      obtain ⟨p, pool⟩ := h.wired l x i hx owner
      exact (h.stopping_of hx owner pool closes).1
    · cases (h.life l i x p hx owner pool).1 with
      | broken starting => rcases state with state | state <;> cases starting.symm.trans state
      | running running => rcases state with state | state <;> cases running.symm.trans state
      | stopping _ _ _ _ cancelled => exact cancelled
      | failed _ _ _ cancelled => exact cancelled
      | stopped _ _ _ retired => exact retired.cancelled
  served c hc := by
    obtain ⟨x, i, hx, owner, -⟩ := h.served c hc
    exact ⟨x, i, hx, owner⟩
  pools p hp := by
    obtain ⟨i, pool⟩ := List.mem_iff_getElem?.mp hp
    obtain ⟨l, x, listener, owner⟩ := h.exists_owner pool
    have staffed := (h.life l i x p listener owner pool).2
    obtain ⟨-, -, positive, -⟩ := (ListenerSettings.validate_eq_ok_iff _).mp staffed.valid
    exact fun w hw => ⟨staffed.behind w hw, fun _ => staffed.period w hw ▸ positive⟩

end Relay
end MetricsProxy
