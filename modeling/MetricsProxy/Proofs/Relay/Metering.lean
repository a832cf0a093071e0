import MetricsProxy.Proofs.Binary64.Whole
import MetricsProxy.Proofs.Relay.Flights

/-!
# What is metered of flushing

All pools share three metrics: a gauge to which each pool adds the changes of its
own share, a timer and a histogram with a sample for each send that has returned.
`Metering` says how they follow what happens: a share is moved to a size, a send
returns, or neither. Each action moves one share at most, and `shareMoves` tells
which one from outside: a flush moves the share of its pool to what the drain has
left in the buffer, and giving a pool up moves it to zero (`step_meters`).
-/
namespace MetricsProxy

/-! ## The three metrics -/

namespace Registry

/-- What the metrics of flushing say. -/
structure Flush (r : Registry) (size : Binary64) (times samples : Histogram) : Prop where
  size : r.Holds MetricName.bufferSize (.gauge size)
  times : r.Holds MetricName.flushDuration (.timer times)
  samples : r.Holds MetricName.flushPoints (.histogram samples)

/-- Whatever the metrics of flushing say in the first registry, they say in the second one. -/
def SameFlush (r r' : Registry) : Prop := ∀ v t h, r.Flush v t h → r'.Flush v t h

theorem flush_empty : Flush .empty .zero .empty .empty :=
  ⟨holds_empty _ .gauge, holds_empty _ .timer, holds_empty _ .histogram⟩

namespace SameFlush
variable {r r' r'' : Registry}

theorem refl (r : Registry) : r.SameFlush r := fun _ _ _ h => h

theorem trans (h : r.SameFlush r') (h' : r'.SameFlush r'') : r.SameFlush r'' :=
  fun v t s hf => h' v t s (h v t s hf)

end SameFlush

theorem sameFlush_apply (r : Registry) {name : String} (u : MetricUse)
    (apart : name ∉ Relay.flushMetrics) : r.SameFlush (r.apply name u) := fun _ _ _ h =>
  have hne {other : String} (ho : other ∈ Relay.flushMetrics) : other ≠ name :=
    fun heq => apart (heq ▸ ho)
  ⟨h.size.apply_of_ne u (hne (by decide)), h.times.apply_of_ne u (hne (by decide)),
    h.samples.apply_of_ne u (hne (by decide))⟩

theorem sameFlush_release (r : Registry) (n : Nat) : r.SameFlush (r.release n) := by
  induction n with
  | zero => exact .refl r
  | succ n ih => exact ih.trans (sameFlush_apply _ _ (by decide))

namespace Flush
variable {r : Registry} {size : Binary64} {times samples : Histogram}

theorem look (h : r.Flush size times samples) :
    (((r.apply MetricName.bufferSize (.look .gauge)).apply MetricName.flushDuration
      (.look .timer)).apply MetricName.flushPoints (.look .histogram)).Flush size times samples :=
  ⟨((h.size.apply (u := .look .gauge) rfl).apply_of_ne _ (by decide)).apply_of_ne _ (by decide),
    ((h.times.apply_of_ne _ (by decide)).apply (u := .look .timer) rfl).apply_of_ne _ (by decide),
    ((h.samples.apply_of_ne _ (by decide)).apply_of_ne _ (by decide)).apply
      (u := .look .histogram) rfl⟩

theorem add (h : r.Flush size times samples) (delta : Binary64) :
    (r.apply MetricName.bufferSize (.addGauge delta)).Flush (size.add delta) times samples :=
  ⟨h.size.apply (u := .addGauge delta) rfl, h.times.apply_of_ne _ (by decide),
    h.samples.apply_of_ne _ (by decide)⟩

theorem record (h : r.Flush size times samples) (nanoseconds : Nat) (sample : UInt64) :
    ((r.apply MetricName.flushDuration (.recordTime nanoseconds)).apply MetricName.flushPoints
      (.recordSample sample)).Flush size (times.record (timerSample nanoseconds))
        (samples.record sample) :=
  ⟨(h.size.apply_of_ne _ (by decide)).apply_of_ne _ (by decide),
    (h.times.apply (u := .recordTime nanoseconds) rfl).apply_of_ne _ (by decide),
    (h.samples.apply_of_ne _ (by decide)).apply (u := .recordSample sample) rfl⟩

end Flush
end Registry

/-! ## Shares of the gauge -/

/-- The share of a pool is moved to this size. -/
structure ShareMove where
  pool : Nat
  size : Nat

/-- What a flush moves the share of the pool to: what the drain leaves in the buffer. -/
def FlushPool.flushMove (p : FlushPool) (i : Nat) : ShareMove :=
  ⟨i, (p.buffer.drain p.unitLimit).1.size⟩

namespace Relay

/-- The shares of the pools, as they keep them. -/
def shares (s : Relay) : List Nat := s.pools.map fun p => p.reported

/-- The pool of listener `l`, if the listener has stopped in `s'` and not before. -/
def stopped? (s s' : Relay) (l : Nat) : Option Nat :=
  s.listeners[l]?.bind fun x => s'.listeners[l]?.bind fun y =>
    if x.state ≠ .stopped ∧ y.state = .stopped then x.pool else none

/-- The share that an action moves. Flushes move it, by hand or at a tick, and so does
who gives a pool up: its owner or a stop that ends. -/
def shareMove? (s : Relay) : Action → Option ShareMove
  | .beginCall i => s.pools[i]?.map fun p => p.flushMove i
  | .tick i j => (s.ticking? i j).map fun p => p.flushMove i
  | .releaseSize i => s.pools[i]?.map fun _ => ⟨i, 0⟩
  | .awaitTask l => (s.stopped? (s.awaitTask l) l).map fun i => ⟨i, 0⟩
  | .expire l => (s.stopped? (s.expire l) l).map fun i => ⟨i, 0⟩
  | _ => none

/-- The shares that a run moves, newest first. -/
def shareMoves (s : Relay) : List Action → List ShareMove
  | [] => []
  | a :: as => (s.step a).shareMoves as ++ (s.shareMove? a).toList

/-- How the metrics of flushing follow the journal and these moves, newest first. -/
inductive Metering : Relay → List ShareMove → Relay → Prop where
  | rests {s s' : Relay} (events : List Event) (shares : s'.shares = s.shares)
      (journal : s'.journal = events ++ s.journal) (quiet : ∀ e ∈ events, e.landing? = none)
      (flush : s.registry.SameFlush s'.registry) : Metering s [] s'
  | opens {s s' : Relay} (shares : s'.shares = s.shares ++ [0])
      (journal : s'.journal = s.journal) (flush : s.registry.SameFlush s'.registry) :
      Metering s [] s'
  | moves {s s' : Relay} {i size old : Nat} {delta : Binary64} (share : s.shares[i]? = some old)
      (shares : s'.shares = s.shares.set i size) (journal : s'.journal = s.journal)
      (change : delta = (Binary64.ofNat size).sub (Binary64.ofNat old) ∨
        size = 0 ∧ delta = (Binary64.ofNat old).neg)
      (flush : ∀ v t h, s.registry.Flush v t h → s'.registry.Flush (v.add delta) t h) :
      Metering s [⟨i, size⟩] s'
  | lands {s s' : Relay} {i n : Nat} {e : Event} (nanoseconds : Nat)
      (landing : e.landing? = some (i, n)) (shares : s'.shares = s.shares)
      (journal : s'.journal = e :: s.journal)
      (flush : ∀ v t h, s.registry.Flush v t h →
        s'.registry.Flush v (t.record (timerSample nanoseconds)) (h.record (UInt64.ofNat n))) :
      Metering s [] s'
  | seq {s s' s'' : Relay} {earlier later : List ShareMove} (first : Metering s earlier s')
      (second : Metering s' later s'') : Metering s (later ++ earlier) s''

variable {s s' s'' : Relay} {i j k l c : Nat} {p : FlushPool} {moves : List ShareMove}

namespace Metering

theorem still (shares : s'.shares = s.shares) (journal : s'.journal = s.journal)
    (registry : s'.registry = s.registry) : Metering s [] s' :=
  .rests [] shares journal (fun _ he => nomatch he) (registry ▸ .refl _)

theorem uses (s : Relay) {name : String} (u : MetricUse) (apart : name ∉ flushMetrics) :
    Metering s [] (s.use name u) :=
  .rests [] rfl rfl (fun _ he => nomatch he) (Registry.sameFlush_apply _ _ apart)

theorem logs (s : Relay) {e : Event} (quiet : e.landing? = none) : Metering s [] (s.log e) :=
  .rests [e] rfl rfl (fun _ he => List.mem_singleton.mp he ▸ quiet) (.refl _)

theorem andRests (h : Metering s moves s') (h' : Metering s' [] s'') : Metering s moves s'' :=
  h.seq h'

theorem afterRest (h' : Metering s' moves s'') (h : Metering s [] s') : Metering s moves s'' := by
  have hseq := h.seq h'
  rwa [List.append_nil] at hseq

end Metering

theorem map_modify_eq {α β : Type} (g : α → β) {f : α → α} (keeps : ∀ x, g (f x) = g x)
    (xs : List α) (i : Nat) : (xs.modify i f).map g = xs.map g := by
  apply List.ext_getElem?
  intro k
  rw [List.getElem?_map, List.getElem?_map, List.getElem?_modify]
  cases xs[k]? with
  | none => rfl
  | some x => by_cases hk : i = k <;> simp [hk, keeps]

theorem modifyPool_meters (s : Relay) (i : Nat) (f : FlushPool → FlushPool)
    (keeps : ∀ p, (f p).reported = p.reported) : Metering s [] (s.modifyPool i f) :=
  .still (map_modify_eq _ keeps _ _) rfl rfl

theorem modifyWorker_meters (s : Relay) (i j : Nat) (f : Worker → Worker) :
    Metering s [] (s.modifyWorker i j f) := modifyPool_meters s i _ fun _ => rfl

theorem cancelPool_meters (s : Relay) (i : Nat) : Metering s [] (s.cancelPool i) :=
  modifyPool_meters s i (fun p => { p with cancelled := true }) fun _ => rfl

theorem modifyListener_meters (s : Relay) (l : Nat) (f : Listener → Listener) :
    Metering s [] (s.modifyListener l f) := .still rfl rfl rfl

theorem modifyConnection_meters (s : Relay) (c : Nat) (f : Connection → Connection) :
    Metering s [] (s.modifyConnection c f) := .still rfl rfl rfl

theorem getElem?_shares (pool : s.pools[i]? = some p) : s.shares[i]? = some p.reported := by
  rw [shares, List.getElem?_map, pool]
  rfl

theorem shares_modifyPool (s : Relay) (i size : Nat) :
    (s.modifyPool i fun p => { p with reported := size }).shares = s.shares.set i size := by
  apply List.ext_getElem?
  intro k
  simp only [shares, modifyPool, List.getElem?_map, List.getElem?_modify, List.getElem?_set,
    List.length_map]
  by_cases hk : i = k
  · subst hk
    by_cases hi : i < s.pools.length
    · simp [hi]
    · simp [hi]
  · simp [hk]

/-! ## Flushes -/

theorem reportSize_meters (pool : s.pools[i]? = some p) (size : Nat) :
    Metering s [⟨i, size⟩] (s.reportSize i size) := by
  rw [reportSize, pool]
  exact .moves (getElem?_shares pool) (shares_modifyPool s i size) rfl (.inl rfl)
    fun v t h hf => hf.add _

theorem releaseSize_meters (pool : s.pools[i]? = some p) :
    Metering s [⟨i, 0⟩] (s.releaseSize i) := by
  rw [releaseSize, pool]
  exact .moves (getElem?_shares pool) (shares_modifyPool s i 0) rfl (.inr ⟨rfl, rfl⟩)
    fun v t h hf => hf.add _

theorem launch_meters (s : Relay) (o : Origin) (unit : WorkUnit) :
    Metering s [] (s.launch o unit).1 :=
  (Metering.logs { s with sends := s.sends.next.2 } (e := .begun o s.now unit) rfl).afterRest
    (.still rfl rfl rfl)

/-- A flush moves the share, whether or not there is something to send. -/
theorem beginFlush_meters (pool : s.pools[i]? = some p) (o : Origin) :
    Metering s [p.flushMove i] (s.beginFlush i o).1 := by
  have hpool := modifyPool_eq pool fun q => { q with buffer := (p.buffer.drain p.unitLimit).1 }
  have hi : i < s.pools.length := (List.getElem?_eq_some_iff.mp pool).choose
  have hbuffer := modifyPool_meters s i
    (fun q => { q with buffer := (p.buffer.drain p.unitLimit).1 }) fun _ => rfl
  have hsize := (reportSize_meters (s := s.modifyPool i fun q =>
    { q with buffer := (p.buffer.drain p.unitLimit).1 }) (i := i)
    (by rw [hpool]; exact List.getElem?_set_self hi) (p.buffer.drain p.unitLimit).1.size).afterRest
      hbuffer
  rw [beginFlush, pool]
  dsimp only
  split
  · exact hsize
  · exact (hsize.andRests (launch_meters _ _ _)).andRests (modifyPool_meters _ _ _ fun _ => rfl)

theorem sized_of_beginFlush {o : Origin} {f : Flight} (h : s.beginFlush i o = (s', some f)) :
    f.Sized := by
  unfold beginFlush at h
  split at h
  · cases h
  · dsimp only at h
    split at h
    · cases h
    · obtain rfl := Option.some.inj (congrArg Prod.snd h)
      exact SendPlan.points_result _ _

/-- A send that returns is recorded once by the timer and once by the histogram. -/
theorem endFlush_meters (s : Relay) {o : Origin} {f : Flight} (origin : o.pool? = some i)
    (sized : f.Sized) : Metering s [] (s.endFlush i o f) := by
  have hlanding : (Event.returned o s.now f.result).landing? = some (i, f.unit.size) := by
    rw [Event.landing?, origin, Option.map_some, sized]
  refine .lands ((s.now - f.began) * 1000000) hlanding ?_ rfl fun v t h hf => hf.record _ _
  exact map_modify_eq (fun p : FlushPool => p.reported)
    (f := fun p => { p with inFlight := p.inFlight - f.unit.size }) (fun _ => rfl) _ _

theorem rest_meters (s : Relay) (i j : Nat) : Metering s [] (s.rest i j) := by
  unfold rest
  split
  · exact .still rfl rfl rfl
  · dsimp only [ticketFor]
    split
    · exact modifyWorker_meters _ _ _ _
    · exact (modifyWorker_meters { s with tickets := s.tickets + 1 } _ _ _).afterRest
        (.still rfl rfl rfl)

theorem await_meters (s : Relay) (i j : Nat) (f : Flight) : Metering s [] (s.await i j f) :=
  (modifyWorker_meters { s with tickets := s.tickets + 1 } _ _ _).afterRest (.still rfl rfl rfl)

theorem spawnWorkers_meters (s : Relay) (i n : Nat) : Metering s [] (s.spawnWorkers i n) := by
  induction n generalizing s with
  | zero => exact .still rfl rfl rfl
  | succ n ih =>
      have hspawn := (modifyPool_meters { s with tickets := s.tickets + 1 } i (fun p =>
        { p with workers := p.workers ++ [{
            ticker := .start s.now p.interval
            phase := if p.interval = 0 then .aborted else .idle
            ticket := firstTicket + s.tickets }] }) fun _ => rfl).afterRest
        (Metering.still (s := s) rfl rfl rfl)
      exact hspawn.andRests (ih _)

/-! ## Workers and callers -/

theorem tick_meters (s : Relay) (i j : Nat) :
    Metering s (s.shareMove? (.tick i j)).toList (s.tick i j) := by
  rcases tick_cases s i j with ⟨p, w, pool, worker, running, idle, due⟩ | ⟨heq, never⟩
  · have hi : i < s.pools.length := (List.getElem?_eq_some_iff.mp pool).choose
    have htake := modifyWorker_meters s i j fun w => { w with ticker := w.ticker.take s.now }
    have hpool : (s.modifyWorker i j fun w => { w with ticker := w.ticker.take s.now }).pools[i]? =
        some { p with workers := p.workers.modify j fun w =>
          { w with ticker := w.ticker.take s.now } } := by
      rw [modifyWorker, modifyPool_eq pool]
      exact List.getElem?_set_self hi
    have hbegin := (beginFlush_meters hpool (.worker i j)).afterRest htake
    rw [shareMove?, ticking?_eq_some pool worker ⟨running, idle, due⟩, tick, pool,
      worker?_eq pool worker]
    dsimp only
    rw [if_pos ⟨running, idle, due⟩]
    -- The share is moved by the drain, so it does not matter what becomes of the send.
    cases hflush : (s.modifyWorker i j fun w =>
      { w with ticker := w.ticker.take s.now }).beginFlush i (.worker i j) with
    | mk s₁ flight =>
        rw [hflush] at hbegin
        cases flight with
        | none => exact hbegin.andRests (rest_meters _ _ _)
        | some f =>
            dsimp only
            split
            · exact (hbegin.andRests (endFlush_meters _ rfl (sized_of_beginFlush hflush))).andRests
                (rest_meters _ _ _)
            · exact hbegin.andRests (await_meters _ _ _ _)
  · rw [heq, shareMove?, ticking?_eq_none never]
    exact .still rfl rfl rfl

theorem deliver_meters (sized : s.Sized) (i j : Nat) : Metering s [] (s.deliver i j) := by
  rcases deliver_cases s i j with ⟨p, w, f, pool, worker, sends, elapsed⟩ | heq
  · have hflight : f ∈ p.flights := List.mem_append_left _
      (List.mem_flatMap.mpr ⟨w, List.mem_of_getElem? worker, by simp [sends, Phase.flights]⟩)
    rw [deliver, worker?_eq pool worker]
    dsimp only
    rw [sends]
    dsimp only
    rw [if_pos elapsed]
    exact (endFlush_meters s rfl (sized i p pool f hflight)).andRests (rest_meters _ _ _)
  · rw [heq]
    exact .still rfl rfl rfl

theorem quit_meters (s : Relay) (i j : Nat) : Metering s [] (s.quit i j) := by
  unfold quit
  split
  · split
    · exact modifyWorker_meters _ _ _ _
    · exact .still rfl rfl rfl
  · exact .still rfl rfl rfl

theorem beginCall_meters (s : Relay) (i : Nat) :
    Metering s (s.shareMove? (.beginCall i)).toList (s.beginCall i) := by
  rw [shareMove?, beginCall]
  cases pool : s.pools[i]? with
  | none =>
      rw [beginFlush, pool]
      exact .still rfl rfl rfl
  | some p =>
      have hbegin := beginFlush_meters pool (.flushCall i)
      cases hflush : s.beginFlush i (.flushCall i) with
      | mk s₁ flight =>
          rw [hflush] at hbegin
          cases flight with
          | none => exact hbegin
          | some f => exact hbegin.andRests (modifyPool_meters _ _ _ fun _ => rfl)

theorem endCall_meters (sized : s.Sized) (i k : Nat) : Metering s [] (s.endCall i k) := by
  rw [endCall]
  cases pool : s.pools[i]? with
  | none => exact .still rfl rfl rfl
  | some p =>
      rw [Option.bind_some]
      cases call : p.calls[k]? with
      | none => exact .still rfl rfl rfl
      | some f =>
          have hsized := sized i p pool f (List.mem_append_right _ (List.mem_of_getElem? call))
          dsimp only
          split
          · exact (endFlush_meters _ rfl hsized).afterRest (modifyPool_meters _ _ _ fun _ => rfl)
          · exact .still rfl rfl rfl

theorem offer_meters (s : Relay) (i : Nat) (points : List Point) :
    Metering s [] (s.offer i points).1 := by
  rw [offer]
  cases pool : s.pools[i]? with
  | none => exact .still rfl rfl rfl
  | some p =>
      dsimp only
      rw [foldl_log]
      have hpool := modifyPool_meters s i
        (fun q => { q with buffer := (p.buffer.enqueueBatch points).1 }) fun _ => rfl
      refine hpool.andRests (.rests _ rfl rfl (fun e he => ?_) (.refl _))
      obtain ⟨point, -, rfl⟩ := List.mem_map.mp (List.mem_reverse.mp he)
      rfl

/-! ## Reporters, listeners and clients -/

theorem Event.landing?_of_pool {e : Event} (h : e.pool? = none) : e.landing? = none := by
  cases hlanding : e.landing? with
  | none => rfl
  | some a => exact nomatch h.symm.trans (Event.pool?_of_landing hlanding)

theorem meters_of_reports
    (h : (∃ r, s.reporters[k]? = some r ∧ s.Reports k r s') ∨ s' = s) : Metering s [] s' := by
  rcases h with ⟨r, -, task, -, tickets, sends, events, foreign, rfl⟩ | rfl
  · exact .rests events rfl rfl (fun e he => Event.landing?_of_pool (foreign e he)) (.refl _)
  · exact .still rfl rfl rfl

theorem addPool_meters (s : Relay) {p : FlushPool} (fresh : p.reported = 0) :
    Metering s [] (s.addPool p) := by
  refine .opens ?_ rfl fun v t h hf => hf.look
  rw [shares, addPool, List.map_append, List.map_singleton, fresh]
  rfl

theorem registerListenerMetrics_meters (s : Relay) : Metering s [] s.registerListenerMetrics :=
  ((((Metering.uses s _ (by decide)).andRests (.uses _ _ (by decide))).andRests
    (.uses _ _ (by decide))).andRests (.uses _ _ (by decide))).andRests (.uses _ _ (by decide))

theorem start_meters (s : Relay) (l : Nat) (answer : Except String String) :
    Metering s [] (s.start l answer).1 := by
  unfold start
  split
  · exact .still rfl rfl rfl
  · split
    · exact .still rfl rfl rfl
    · split
      · exact .still rfl rfl rfl
      · split
        · exact modifyListener_meters _ _ _
        · have staffs (p : FlushPool) (fresh : p.reported = 0) (n : Nat) :
              Metering s [] ((s.addPool p).spawnWorkers s.pools.length n) :=
            (addPool_meters s fresh).andRests (spawnWorkers_meters _ _ n)
          dsimp only
          split
          · exact ((staffs _ rfl _).andRests (registerListenerMetrics_meters _)).andRests
              (modifyListener_meters _ _ _)
          · exact (staffs _ rfl _).andRests (modifyListener_meters _ _ _)

theorem beginStop_meters (s : Relay) (l : Nat) : Metering s [] (s.beginStop l) := by
  unfold beginStop
  split
  · split
    · exact (cancelPool_meters _ _).andRests (modifyListener_meters _ _ _)
    · exact .still rfl rfl rfl
  · exact .still rfl rfl rfl

theorem endAccepting_meters (s : Relay) (l : Nat) : Metering s [] (s.endAccepting l) := by
  unfold endAccepting
  split
  · split
    · exact modifyListener_meters _ _ _
    · exact .still rfl rfl rfl
  · exact .still rfl rfl rfl

theorem dropListener_meters (s : Relay) (l : Nat) : Metering s [] (s.dropListener l) := by
  unfold dropListener
  split
  · rename_i x _
    have hmark := modifyListener_meters s l fun x => { x with dropped := true }
    cases x.pool with
    | none => exact hmark
    | some i => exact hmark.andRests (cancelPool_meters _ _)
  · exact .still rfl rfl rfl

theorem connect_meters (s : Relay) (l : Nat) : Metering s [] (s.connect l).1 := by
  unfold connect
  split
  · exact .still rfl rfl rfl
  · split
    · split
      · exact .rests [] rfl rfl (fun _ he => nomatch he)
          (Registry.sameFlush_apply _ _ (by decide))
      · exact .uses _ _ (by decide)
    · exact .still rfl rfl rfl

theorem shares_set {q : FlushPool} (pool : s.pools[i]? = some p)
    (same : q.reported = p.reported) : (s.pools.set i q).map (fun p => p.reported) = s.shares := by
  rw [List.map_set, same]
  exact set_eq_self_of_getElem? (getElem?_shares pool)

theorem Reading.meters (reading : s.Reading c s') : Metering s [] s' := by
  cases reading with
  | closes =>
      exact .rests [] rfl rfl (fun _ he => nomatch he) (Registry.sameFlush_apply _ _ (by decide))
  | keeps => exact .still rfl rfl rfl
  | takes _ _ _ _ _ _ _ handled =>
      cases handled with
      | accepted pool =>
          exact .rests [_] (shares_set pool rfl) rfl
            (fun e he => by rw [List.mem_singleton.mp he]; rfl)
            (Registry.sameFlush_apply _ _ (by decide))
      | rejected =>
          exact .rests [] rfl rfl (fun _ he => nomatch he)
            ((Registry.sameFlush_apply _ _ (by decide)).trans
              (Registry.sameFlush_apply _ _ (by decide)))
      | error =>
          exact .rests [] rfl rfl (fun _ he => nomatch he)
            (Registry.sameFlush_apply _ _ (by decide))
      | blank => exact .still rfl rfl rfl

theorem readOn_meters (wired : s.Wired) (c : Nat) : Metering s [] (s.readOn c) := by
  rcases readOn_cases wired c with reading | heq
  · exact reading.meters
  · rw [heq]
    exact .still rfl rfl rfl

/-! ## Stops that end -/

theorem stopped?_eq_some {x y : Listener} (before : s.listeners[l]? = some x)
    (after : s'.listeners[l]? = some y) (running : x.state ≠ .stopped)
    (stopped : y.state = .stopped) : s.stopped? s' l = x.pool := by
  simp [stopped?, before, after, running, stopped]

theorem stopped?_eq_none {x y : Listener} (before : s.listeners[l]? = some x)
    (after : s'.listeners[l]? = some y) (same : y.state = x.state) : s.stopped? s' l = none := by
  simp [stopped?, before, after, same]

theorem Metering.unchanged (l : Nat) (h : s' = s) :
    Metering s ((s.stopped? s' l).map fun i => ⟨i, 0⟩).toList s' := by
  have hnone : s.stopped? s l = none := by
    cases listener : s.listeners[l]? with
    | none => rw [stopped?, listener]; rfl
    | some x => exact stopped?_eq_none listener listener rfl
  rw [h, hnone]
  exact .still rfl rfl rfl

theorem countDropped_meters (s : Relay) (n : Nat) : Metering s [] (s.countDropped n) := by
  unfold countDropped
  split
  · exact .uses _ _ (by decide)
  · exact .still rfl rfl rfl

/-- What remains of a listener is given up, and with it the share of its pool. -/
theorem settle_meters (pool : s.pools[i]? = some p) (l : Nat) :
    Metering s [⟨i, 0⟩] (s.settle l i) := by
  have hpool : (s.countDropped p.inFlight).pools[i]? = some p := by
    unfold countDropped
    split <;> exact pool
  have hrelease := (releaseSize_meters hpool).afterRest (countDropped_meters s p.inFlight)
  have hclear := hrelease.andRests (modifyPool_meters _ i
    (fun q => { q with buffer := p.buffer.clear.1, inFlight := 0 }) fun _ => rfl)
  rw [settle, pool]
  exact (hclear.andRests (countDropped_meters _ _)).andRests (modifyListener_meters _ _ _)

theorem getElem?_modifyListener {x : Listener} (listener : s.listeners[l]? = some x)
    (f : Listener → Listener) : (s.modifyListener l f).listeners[l]? = some (f x) := by
  rw [modifyListener_eq listener]
  exact List.getElem?_set_self (List.getElem?_eq_some_iff.mp listener).choose

theorem getElem?_settle {x : Listener} (listener : s.listeners[l]? = some x)
    (pool : s.pools[i]? = some p) :
    (s.settle l i).listeners[l]? = some { x with state := .stopped, closing := none } := by
  obtain ⟨registry, -, heq⟩ := settle_eq listener pool
  rw [heq]
  exact List.getElem?_set_self (List.getElem?_eq_some_iff.mp listener).choose

/-- A listener whose tasks are waited for has not stopped. -/
theorem Tended.ne_stopped (h : s.Tended) {l : Nat} {x : Listener} {closing : Closing}
    (listener : s.listeners[l]? = some x) (closes : x.closing = some closing) :
    x.state ≠ .stopped := by
  rw [(h l x listener).stopping closing closes]
  decide

theorem awaitTask_meters (h : s.Tended) (l : Nat) :
    Metering s (s.shareMove? (.awaitTask l)).toList (s.awaitTask l) := by
  rw [shareMove?]
  cases listener : s.listeners[l]? with
  | none => exact .unchanged l (by rw [awaitTask, listener])
  | some x =>
      cases closes : x.closing with
      | none => exact .unchanged l (by simp [awaitTask, listener, closes])
      | some closing =>
          cases owner : x.pool with
          | none => exact .unchanged l (by simp [awaitTask, listener, closes, owner])
          | some i =>
              obtain ⟨p, pool⟩ := h.wired l x i listener owner
              rw [awaitTask_eq listener closes owner]
              split
              · have hy := getElem?_modifyListener listener
                  fun x => { x with closing := some ⟨closing.deadline, closing.awaited + 1⟩ }
                rw [stopped?_eq_none listener hy rfl]
                exact modifyListener_meters _ _ _
              · exact .unchanged l rfl
              · have state := h.ne_stopped listener closes
                rw [stopped?_eq_some listener (getElem?_settle listener pool) state rfl, owner]
                exact settle_meters pool l

theorem afterAbort_meters (s : Relay) (l i : Nat) : Metering s [] (s.afterAbort l i) := by
  have hworkers : Metering s [] (s.abortAll i) := modifyPool_meters _ _ _ fun _ => rfl
  have hclients : Metering (s.abortAll i) [] ((s.abortAll i).closeAll l) := by
    rw [closeAll_eq]
    exact .rests [] rfl rfl (fun _ he => nomatch he) (Registry.sameFlush_release _ _)
  exact (hworkers.andRests hclients).andRests (modifyListener_meters _ _ _)

theorem expire_meters (h : s.Tended) (l : Nat) :
    Metering s (s.shareMove? (.expire l)).toList (s.expire l) := by
  rw [shareMove?]
  cases listener : s.listeners[l]? with
  | none => exact .unchanged l (by rw [expire, listener])
  | some x =>
      cases closes : x.closing with
      | none => exact .unchanged l (by simp [expire, listener, closes])
      | some closing =>
          cases owner : x.pool with
          | none => exact .unchanged l (by simp [expire, listener, closes, owner])
          | some i =>
              obtain ⟨p, pool⟩ := h.wired l x i listener owner
              by_cases guard : closing.deadline ≤ s.now ∧ closing.awaited < (s.tasksOver x).length
              · obtain ⟨hx, hp⟩ := getElem?_afterAbort listener pool
                rw [expire_eq listener closes owner guard]
                -- The stop settles, unless it has seen a task end and fails.
                split
                · have state := h.ne_stopped listener closes
                  rw [stopped?_eq_some listener (getElem?_settle hx hp) state rfl, owner]
                  exact (settle_meters hp l).afterRest (afterAbort_meters s l i)
                · have hy := getElem?_modifyListener hx
                    fun x => { x with closing := none, failed := true }
                  rw [stopped?_eq_none listener hy rfl]
                  exact (afterAbort_meters s l i).andRests (modifyListener_meters _ _ _)
              · exact .unchanged l (by simp [expire, listener, closes, owner, guard])

/-! ## All actions -/

theorem step_meters (h : s.Tended) (sized : s.Sized) (a : Action) :
    Metering s (s.shareMove? a).toList (s.step a) := by
  cases a with
  | wait d => exact .still rfl rfl rfl
  | addPool capacity maxPoints interval => exact addPool_meters s rfl
  | offer i points => exact offer_meters s i points
  | beginCall i => exact beginCall_meters s i
  | endCall i k => exact endCall_meters sized i k
  | releaseSize i =>
      rw [step, shareMove?]
      cases pool : s.pools[i]? with
      | none =>
          rw [releaseSize, pool]
          exact .still rfl rfl rfl
      | some p => exact releaseSize_meters pool
  | spawn i n => exact spawnWorkers_meters s i n
  | cancelPool i => exact cancelPool_meters s i
  | abort i j => exact modifyWorker_meters s i j _
  | tick i j => exact tick_meters s i j
  | deliver i j => exact deliver_meters sized i j
  | quit i j => exact quit_meters s i j
  | addReporter agent interval => exact .still rfl rfl rfl
  | cancelReporters => exact .still rfl rfl rfl
  | reporterTick k => exact meters_of_reports (reporterTick_cases s k)
  | reporterDeliver k => exact meters_of_reports (reporterDeliver_cases s k)
  | reporterQuit k => exact meters_of_reports (reporterQuit_cases s k)
  | addListener settings => exact .still rfl rfl rfl
  | start l answer => exact start_meters s l answer
  | beginStop l => exact beginStop_meters s l
  | awaitTask l => exact awaitTask_meters h l
  | expire l => exact expire_meters h l
  | endAccepting l => exact endAccepting_meters s l
  | dropListener l => exact dropListener_meters s l
  | connect l => exact connect_meters s l
  | arrive c bytes => exact modifyConnection_meters s c _
  | endInput c => exact modifyConnection_meters s c _
  | breakOff c => exact modifyConnection_meters s c _
  | readOn c => exact readOn_meters h.wired c

theorem Tended.step_sized (h : s.Tended) (sized : s.Sized) (a : Action) : (s.step a).Sized :=
  ((step_does h a).flies h).sized sized

theorem run_meters (h : s.Tended) (sized : s.Sized) (actions : List Action) :
    Metering s (s.shareMoves actions) (s.run actions) := by
  induction actions generalizing s with
  | nil => exact .still rfl rfl rfl
  | cons a as ih => exact (step_meters h sized a).seq (ih (h.step a) (h.step_sized sized a))

end Relay
end MetricsProxy
