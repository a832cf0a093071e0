import MetricsProxy.Proofs.Framing
import MetricsProxy.Proofs.Relay.Lifecycle

/-!
# Readers and their streams

The reader of a connection is followed through the stream of its client: what it
has taken are whole lines, each with the frame it is due (`Reached`). It moves on
only when it reads. Of whatever else happens to a relay it notices no more than
that its client ends or breaks off, or that its connection is closed for one of
the reasons there are (`Alike`), so that a statement about streams is proved for
the steps of a reader, for new connections and once for all the rest
(`Change.streams_induct`).
-/
namespace MetricsProxy
open Journal

/-! ## How far a reader has come -/

/-- The reader of a connection has taken the lines of `done` from the stream of its client. -/
inductive Reached (limit : Nat) (x : Connection) (stream : List UInt8) : List UInt8 → Prop where
  /-- It reads the line that begins with `part`. -/
  | within (done part : List UInt8) (split : stream = done ++ (part ++ x.arrived))
      (ended : LineEnded done) (apart : newline ∉ part) (reader : x.reader = .after limit part) :
      Reached limit x stream done
  /-- It has taken all lines of a stream that has ended. -/
  | through (finished : x.finished = true) (arrived : x.arrived = [])
      (reader : x.reader = .fresh limit) : Reached limit x stream stream

namespace Reached
variable {limit : Nat} {x : Connection} {stream done : List UInt8}

theorem opened (listener limit : Nat) : Reached limit (.opened listener limit) [] [] :=
  .within [] [] rfl (.inl rfl) (by simp) (by rw [LineReader.after_nil]; rfl)

/-- What is not taken yet are further lines. -/
theorem exists_rest (h : Reached limit x stream done) :
    ∃ rest, segments stream = segments done ++ segments rest := by
  cases h with
  | within _ part split ended apart reader =>
      exact ⟨part ++ x.arrived, by rw [split, segments_append ended]⟩
  | through => exact ⟨[], by simp [segments]⟩

theorem congr {y : Connection} (h : Reached limit x stream done) (reader : y.reader = x.reader)
    (arrived : y.arrived = x.arrived) (lasting : x.finished = true → y.finished = true) :
    Reached limit y stream done := by
  cases h with
  | within _ part split ended apart hreader =>
      exact .within done part (by rw [arrived]; exact split) ended apart (reader.trans hreader)
  | through finished harrived hreader =>
      exact .through (lasting finished) (arrived.trans harrived) (reader.trans hreader)

theorem arrives (h : Reached limit x stream done) (unfinished : x.finished = false)
    (bytes : List UInt8) :
    Reached limit { x with arrived := x.arrived ++ bytes } (stream ++ bytes) done := by
  cases h with
  | within _ part split ended apart reader =>
      refine .within done part ?_ ended apart reader
      rw [split, List.append_assoc, List.append_assoc]
  | through finished arrived reader =>
      rw [unfinished] at finished
      cases finished

theorem keeps {reader : LineReader} (h : Reached limit x stream done) (some : x.arrived ≠ [])
    (fed : x.reader.feed x.arrived = .pending reader) :
    Reached limit { x with reader := reader, arrived := [] } stream done := by
  cases h with
  | within _ part split ended apart hreader =>
      rw [hreader] at fed
      obtain ⟨hnone, rfl⟩ := LineReader.of_feed_after_pending fed
      refine .within done (part ++ x.arrived) (by simpa using split) ended ?_ rfl
      rw [List.mem_append]
      exact fun hmem => hmem.elim apart hnone
  | through finished arrived hreader => exact absurd arrived some

theorem takes {frame : Frame} {rest : List UInt8} (h : Reached limit x stream done)
    (framed : x.arrived ≠ [] ∧ x.reader.feed x.arrived = .complete frame rest ∨
      x.arrived = [] ∧ rest = [] ∧ x.broken = false ∧ x.finished = true ∧
        x.reader.finish = some frame) :
    ∃ line, frame = .ofSegment limit line ∧ segments (done ++ line) = segments done ++ [line] ∧
      Reached limit { x with reader := .fresh limit, arrived := rest } stream (done ++ line) := by
  cases h with
  | within _ part split ended apart reader =>
      rw [reader] at framed
      rcases framed with ⟨-, hfeed⟩ | ⟨harrived, rfl, -, hfinished, hfinish⟩
      · obtain ⟨body, hbody, hchunk, rfl⟩ := LineReader.of_feed_after_complete hfeed
        have hline : segments (part ++ body ++ [newline]) = [part ++ body ++ [newline]] := by
          have hnone : newline ∉ part ++ body := by
            rw [List.mem_append]
            exact fun hmem => hmem.elim apart hbody
          have hsplit := segments_newline (part ++ body) [] hnone
          simpa [segments] using hsplit
        refine ⟨part ++ body ++ [newline], rfl, by rw [segments_append ended, hline], ?_⟩
        refine .within _ [] ?_ ?_ (by simp) (LineReader.after_nil _).symm
        · rw [split, hchunk]
          simp
        · exact .inr ⟨done ++ (part ++ body), by simp⟩
      · rw [LineReader.finish_after _ part apart] at hfinish
        split at hfinish
        · cases hfinish
        · rename_i hpart
          have hstream : stream = done ++ part := by rw [split, harrived, List.append_nil]
          refine ⟨part, (Option.some.inj hfinish).symm, ?_, ?_⟩
          · rw [segments_append ended, segments_tail part apart hpart]
          · rw [← hstream]
            exact .through hfinished rfl rfl
  | through finished arrived reader =>
      rcases framed with ⟨hsome, -⟩ | ⟨-, -, -, -, hfinish⟩
      · exact absurd arrived hsome
      · rw [reader] at hfinish
        cases hfinish

theorem eq_stream (h : Reached limit x stream done) (arrived : x.arrived = [])
    (nothing : x.reader.finish = none) : done = stream := by
  cases h with
  | within _ part split ended apart reader =>
      rw [reader, LineReader.finish_after limit part apart] at nothing
      split at nothing
      · rename_i hpart
        rw [split, hpart, arrived]
        simp
      · cases nothing
  | through => rfl

end Reached

/-! ## What readers do not notice -/

/-- A connection after something that has to do with no stream. -/
structure Connection.Kept (x y : Connection) : Prop where
  listener : y.listener = x.listener
  reader : y.reader = x.reader
  arrived : y.arrived = x.arrived
  finished : x.finished = true → y.finished = true
  broken : x.broken = true → y.broken = true
  closed : x.live = false → y.live = false

theorem Connection.Kept.refl (x : Connection) : x.Kept x := ⟨rfl, rfl, rfl, id, id, id⟩

namespace Relay

/-- Whether there is a reason to close a connection: its listener is cancelled, its client
has broken it, or its client has ended its input and all of that has been read. -/
def Closable (s : Relay) (x : Connection) : Prop :=
  (∃ z, s.listeners[x.listener]? = some z ∧ s.isCancelled z = true) ∨ x.broken = true ∨
    x.finished = true ∧ x.arrived = [] ∧ x.reader.finish = none

/-- A listener that has a pool keeps it, and its settings. -/
def ListenersStay (s s' : Relay) : Prop :=
  ∀ (l i : Nat) (z : Listener), s.listeners[l]? = some z → z.pool = some i →
    ∃ z', s'.listeners[l]? = some z' ∧ z'.settings = z.settings ∧ z'.pool = some i

/-- A pool that is cancelled remains so. -/
def CancelledStay (s s' : Relay) : Prop :=
  ∀ i : Nat, (∃ p : FlushPool, s.pools[i]? = some p ∧ p.cancelled = true) →
    ∃ p : FlushPool, s'.pools[i]? = some p ∧ p.cancelled = true

/-- A relay after something that has to do with no stream. -/
structure Alike (s s' : Relay) : Prop where
  wallClock : s'.wallClock = s.wallClock
  length : s'.connections.length = s.connections.length
  connections : ∀ (c : Nat) (y : Connection), s'.connections[c]? = some y →
    ∃ x, s.connections[c]? = some x ∧ x.Kept y ∧
      (y.live = false → x.live = false ∨ s'.Closable y)
  listeners : s.ListenersStay s'
  pools : s.CancelledStay s'
  acceptances : ∀ i, acceptances i s'.journal = acceptances i s.journal
  counts : ∀ a b e, s.registry.Counts a b e → ∃ b', s'.registry.Counts a b' e

section
variable {s s' : Relay} {l i c : Nat}

theorem isCancelled_iff {z : Listener} :
    s.isCancelled z = true ↔
      ∃ i, z.pool = some i ∧ ∃ p, s.pools[i]? = some p ∧ p.cancelled = true := by
  constructor
  · intro h
    cases hpool : z.pool with
    | none => simp [isCancelled, pool?, hpool] at h
    | some i =>
        cases hp : s.pools[i]? with
        | none => simp [isCancelled, pool?, hpool, hp] at h
        | some p =>
            rw [isCancelled_eq hpool hp] at h
            exact ⟨i, rfl, p, hp, h⟩
  · rintro ⟨i, owner, p, pool, cancelled⟩
    rw [isCancelled_eq owner pool, cancelled]

theorem ListenersStay.of_eq (listeners : s'.listeners = s.listeners) : s.ListenersStay s' :=
  fun _ _ z hz owner => ⟨z, by rw [listeners, hz], rfl, owner⟩

theorem Closable.kept {x y : Connection} (h : s.Closable x) (kept : x.Kept y)
    (listeners : s.ListenersStay s') (pools : s.CancelledStay s') : s'.Closable y := by
  rcases h with ⟨z, hz, cancelled⟩ | broken | ⟨finished, arrived, nothing⟩
  · obtain ⟨i, owner, hpool⟩ := isCancelled_iff.mp cancelled
    obtain ⟨z', hz', -, owner'⟩ := listeners _ i z hz owner
    refine .inl ⟨z', by rw [kept.listener, hz'], ?_⟩
    exact isCancelled_iff.mpr ⟨i, owner', pools i hpool⟩
  · exact .inr (.inl (kept.broken broken))
  · exact .inr (.inr ⟨kept.finished finished, kept.arrived.trans arrived,
      by rw [kept.reader, nothing]⟩)

namespace Alike

theorem connections_rfl (c : Nat) (y : Connection) (h : s.connections[c]? = some y) :
    ∃ x, s.connections[c]? = some x ∧ x.Kept y ∧
      (y.live = false → x.live = false ∨ s'.Closable y) :=
  ⟨y, h, .refl y, .inl⟩

theorem connections_set {x z : Connection} (hx : s.connections[c]? = some x) (kept : x.Kept z)
    (closed : z.live = false → x.live = false ∨ s'.Closable z) (d : Nat) (y : Connection)
    (h : (s.connections.set c z)[d]? = some y) :
    ∃ x, s.connections[d]? = some x ∧ x.Kept y ∧
      (y.live = false → x.live = false ∨ s'.Closable y) := by
  rcases of_getElem?_set h with ⟨rfl, rfl⟩ | ⟨-, hy⟩
  · exact ⟨x, hx, kept, closed⟩
  · exact connections_rfl d y hy

theorem connections_map {z : Listener} (hz : s'.listeners[l]? = some z)
    (cancelled : s'.isCancelled z = true) (d : Nat) (y : Connection)
    (h : (s.connections.map (Connection.closedBy l))[d]? = some y) :
    ∃ x, s.connections[d]? = some x ∧ x.Kept y ∧
      (y.live = false → x.live = false ∨ s'.Closable y) := by
  rw [List.getElem?_map] at h
  obtain ⟨x, hx, rfl⟩ := Option.map_eq_some_iff.mp h
  refine ⟨x, hx, ?_⟩
  unfold Connection.closedBy
  split
  · rename_i howner
    exact ⟨⟨rfl, rfl, rfl, id, id, fun _ => rfl⟩,
      fun _ => .inr (.inl ⟨z, by rw [howner]; exact hz, cancelled⟩)⟩
  · exact ⟨.refl x, .inl⟩

theorem listeners_set {x y : Listener} (hx : s.listeners[l]? = some x)
    (settings : y.settings = x.settings) (pool : ∀ i, x.pool = some i → y.pool = some i)
    (m i : Nat) (z : Listener) (hz : s.listeners[m]? = some z) (owner : z.pool = some i) :
    ∃ z', (s.listeners.set l y)[m]? = some z' ∧ z'.settings = z.settings ∧ z'.pool = some i := by
  by_cases hm : l = m
  · subst hm
    obtain rfl := Option.some.inj (hx.symm.trans hz)
    have hl : l < s.listeners.length := (List.getElem?_eq_some_iff.mp hx).choose
    exact ⟨y, List.getElem?_set_self hl, settings, pool i owner⟩
  · rw [List.getElem?_set_ne hm]
    exact ⟨z, hz, rfl, owner⟩

theorem listeners_append (x : Listener) (l i : Nat) (z : Listener)
    (hz : s.listeners[l]? = some z) (owner : z.pool = some i) :
    ∃ z', (s.listeners ++ [x])[l]? = some z' ∧ z'.settings = z.settings ∧ z'.pool = some i := by
  have hl : l < s.listeners.length := (List.getElem?_eq_some_iff.mp hz).choose
  exact ⟨z, by rw [List.getElem?_append_left hl, hz], rfl, owner⟩

theorem counts_of {registry : Registry} (same : s.registry.SameCounts registry) (a b e : Nat)
    (h : s.registry.Counts a b e) : ∃ b', registry.Counts a b' e := ⟨b, same a b e h⟩

theorem of_listener {x y : Listener} (hx : s.listeners[l]? = some x)
    (settings : y.settings = x.settings) (pool : ∀ i, x.pool = some i → y.pool = some i) :
    Alike s { s with listeners := s.listeners.set l y } :=
  ⟨rfl, rfl, connections_rfl, listeners_set hx settings pool, fun _ => id, fun _ => rfl,
    counts_of (.refl _)⟩

theorem of_pool {x y : Listener} {p q : FlushPool} {registry : Registry}
    (hx : s.listeners[l]? = some x) (settings : y.settings = x.settings)
    (pool : ∀ i, x.pool = some i → y.pool = some i) (hp : s.pools[i]? = some p)
    (lasting : p.cancelled = true → q.cancelled = true)
    (counts : ∀ a b e, s.registry.Counts a b e → ∃ b', registry.Counts a b' e) :
    Alike s
      { s with
        registry := registry
        pools := s.pools.set i q
        listeners := s.listeners.set l y } :=
  ⟨rfl, rfl, connections_rfl, listeners_set hx settings pool,
    fun _ h => exists_set h hp lasting, fun _ => rfl, counts⟩

end Alike

theorem closes_alike {x : Connection} {listener : Listener}
    (connection : s.connections[c]? = some x) (server : s.listeners[x.listener]? = some listener)
    (reason : s.isCancelled listener = true ∨ x.arrived = [] ∧
      (x.broken = true ∨ x.finished = true ∧ x.reader.finish = none)) :
    Alike s
      { s with
        connections := s.connections.set c { x with live := false }
        registry := s.registry.apply MetricName.connectionsActive
          (.addGauge (Binary64.ofNat 1).neg) } := by
  refine ⟨rfl, List.length_set, Alike.connections_set connection
    ⟨rfl, rfl, rfl, id, id, fun _ => rfl⟩ fun _ => .inr ?_, .of_eq rfl, fun _ => id,
    fun _ => rfl, Alike.counts_of (Registry.sameCounts_apply _ _ _ (by decide))⟩
  rcases reason with cancelled | ⟨arrived, broken | ⟨finished, nothing⟩⟩
  · exact .inl ⟨listener, server, cancelled⟩
  · exact .inr (.inl broken)
  · exact .inr (.inr ⟨finished, arrived, nothing⟩)

theorem works_alike {p q : FlushPool} {events : List Event} (pool : s.pools[i]? = some p)
    (move : PoolStep s.now i p events q) (becomes : s.Becomes i q events s') : Alike s s' := by
  obtain ⟨registry, tickets, sends, same, rfl⟩ := becomes
  refine ⟨rfl, rfl, Alike.connections_rfl, .of_eq rfl,
    fun _ h => exists_set h pool fun hp => move.cancelled_eq.trans hp, fun k => ?_,
    Alike.counts_of (same.sameCounts (by decide))⟩
  by_cases hk : i = k
  · exact hk ▸ move.acceptances_eq _
  · refine (sameFor_append (fun e he => ?_) _).acceptances
    rw [move.pool?_of_mem e he]
    exact fun heq => hk (Option.some.inj heq)

/-- The connections of a listener that aborts its tasks are closed. -/
theorem aborts_alike (sound : s.Sound) {x : Listener} {closing : Closing} {p : FlushPool}
    (listener : s.listeners[l]? = some x) (closes : x.closing = some closing)
    (owner : x.pool = some i) (pool : s.pools[i]? = some p) :
    Alike s
      { s with
        registry := s.registry.release (s.liveCount l)
        pools := s.pools.set i p.aborted
        connections := s.connections.map (Connection.closedBy l)
        listeners := s.listeners.set l { x with accepting := false } } := by
  obtain ⟨-, -, cancelled, -, -⟩ := sound.stopping_of listener owner pool closes
  have hl : l < s.listeners.length := (List.getElem?_eq_some_iff.mp listener).choose
  have hi : i < s.pools.length := (List.getElem?_eq_some_iff.mp pool).choose
  refine ⟨rfl, List.length_map _, Alike.connections_map (List.getElem?_set_self hl) ?_,
    Alike.listeners_set listener rfl fun _ => id, fun _ h => exists_set h pool id, fun _ => rfl,
    Alike.counts_of (Registry.sameCounts_release _ _)⟩
  exact isCancelled_iff.mpr ⟨i, owner, p.aborted, List.getElem?_set_self hi, cancelled⟩

/-- What the steps of readers, new connections and everything else keep is kept by a change. -/
theorem Change.streams_induct {motive : Relay → Prop} (h : Change s s') (sound : s.Sound)
    (start : motive s) (alike : ∀ t t' : Relay, t.Sound → Alike t t' → motive t → motive t')
    (reads : ∀ (t t' : Relay) (c : Nat), t.Sound → t.Reading c t' → motive t → motive t')
    (connects : ∀ (t : Relay) (l : Nat) (x : Listener) (registry : Registry), t.Sound →
      t.listeners[l]? = some x → t.registry.SameCounts registry → motive t →
      motive
        { t with
          connections := t.connections ++ [.opened l x.settings.maxLineLength]
          registry := registry }) : motive s' := by
  induction h with
  | passes events later ticking counts foreign =>
      refine alike _ _ sound ⟨rfl, rfl, Alike.connections_rfl, .of_eq rfl, fun _ => id,
        fun i => ?_, Alike.counts_of counts⟩ start
      refine (sameFor_append (fun e he => ?_) _).acceptances
      rw [foreign e he]
      exact nofun
  | works pool move becomes => exact alike _ _ sound (works_alike pool move becomes) start
  | reads reading => exact reads _ _ _ sound reading start
  | signals finished broken connection lasting beyond =>
      exact alike _ _ sound ⟨rfl, List.length_set, Alike.connections_set connection
        ⟨rfl, rfl, rfl, lasting, beyond, id⟩ .inl, .of_eq rfl, fun _ => id, fun _ => rfl,
        Alike.counts_of (.refl _)⟩ start
  | adds settings =>
      exact alike _ _ sound ⟨rfl, rfl, Alike.connections_rfl, Alike.listeners_append _,
        fun _ => id, fun _ => rfl, Alike.counts_of (.refl _)⟩ start
  | refuses listener fresh =>
      exact alike _ _ sound (.of_listener listener rfl fun _ => id) start
  | starts address listener fresh valid counts staff started =>
      have poolless := sound.poolless_of_created listener fresh
      refine alike _ _ sound ⟨rfl, rfl, Alike.connections_rfl,
        Alike.listeners_set listener rfl fun i owner => ?_, fun _ h => exists_append h _,
        fun _ => rfl, Alike.counts_of counts⟩ start
      rw [poolless] at owner
      cases owner
  | connects listener accepting running counts =>
      exact connects _ _ _ _ sound listener counts start
  | cancels listener running owner pool =>
      exact alike _ _ sound (.of_pool listener rfl (fun _ => id) pool (fun _ => rfl)
        (Alike.counts_of (.refl _))) start
  | forsakes listener poolless =>
      exact alike _ _ sound (.of_listener listener rfl fun _ => id) start
  | drops listener owner pool =>
      exact alike _ _ sound (.of_pool listener rfl (fun _ => id) pool (fun _ => rfl)
        (Alike.counts_of (.refl _))) start
  | leaves listener accepting cancelled alone =>
      exact alike _ _ sound (.of_listener listener rfl fun _ => id) start
  | sees listener closes ended =>
      exact alike _ _ sound (.of_listener listener rfl fun _ => id) start
  | aborts listener closes owner pool expired =>
      exact alike _ _ sound (aborts_alike sound listener closes owner pool) start
  | settles listener closes owner pool seen counted =>
      exact alike _ _ sound (.of_pool listener rfl (fun _ => id) pool id
        fun a b e h => ⟨_, counted a b e h⟩) start
  | fails listener closes allEnded =>
      exact alike _ _ sound (.of_listener listener rfl fun _ => id) start
  | seq first _ ih ih' => exact ih' (sound.change first) (ih sound start)

end

/-! ## Runs -/

/-- The bytes that arrive on connection `c` in a run. -/
def streamOf (c : Nat) (s : Relay) : List Action → List UInt8
  | [] => []
  | a :: as =>
      (match a.arrival? with
        | some (k, bytes) => if c = k ∧ k < s.connections.length then bytes else []
        | none => []) ++ streamOf c (s.step a) as

/-- Whether no client sends anything after it has ended its input. -/
def orderly (s : Relay) : List Action → Bool
  | [] => true
  | a :: as =>
      (match a.arrival? with
        | some (c, _) => s.connections[c]?.all fun x => !x.finished
        | none => true) && orderly (s.step a) as

/-- What changes and arrivals keep of the streams holds after a run, of all that has arrived. -/
theorem Sound.streams_run_induct {motive : Relay → (Nat → List UInt8) → Prop} {s : Relay}
    {stream : Nat → List UInt8} {actions : List Action} (sound : s.Sound)
    (ha : ∀ a ∈ actions, a.byHand = false) (ordered : s.orderly actions = true)
    (start : motive s stream)
    (changes : ∀ (t t' : Relay) (stream : Nat → List UInt8), t.Sound → Change t t' →
      motive t stream → motive t' stream)
    (arrivals : ∀ (t : Relay) (stream : Nat → List UInt8) (c : Nat) (x : Connection)
      (bytes : List UInt8), t.connections[c]? = some x → x.finished = false → motive t stream →
      motive { t with connections := t.connections.set c { x with arrived := x.arrived ++ bytes } }
        fun d => stream d ++ if d = c then bytes else []) :
    motive (s.run actions) fun c => stream c ++ s.streamOf c actions := by
  induction actions generalizing s stream with
  | nil => simpa [streamOf, Relay.run] using start
  | cons a as ih =>
      have hfirst := ha a List.mem_cons_self
      have hrest : ∀ b ∈ as, b.byHand = false := fun b hb => ha b (List.mem_cons_of_mem _ hb)
      rw [run_cons]
      simp only [orderly, Bool.and_eq_true] at ordered
      cases hinput : a.arrival? with
      | none =>
          have hnext := changes s _ stream sound (step_change sound.wired a hfirst hinput) start
          have hrun := ih (sound.step hfirst) hrest ordered.2 hnext
          simpa [streamOf, hinput] using hrun
      | some input =>
          obtain ⟨k, bytes⟩ := input
          obtain rfl := Action.eq_arrive hinput
          have hnext : motive (s.step (.arrive k bytes)) fun c => stream c ++
              if c = k ∧ k < s.connections.length then bytes else [] := by
            change motive (s.arrive k bytes) _
            rcases arrive_cases s k bytes with ⟨hnone, heq⟩ | ⟨x, hx, heq⟩
            · have hlt : ¬ k < s.connections.length := by
                simpa [List.getElem?_eq_none_iff] using hnone
              rw [heq]
              simpa [hlt] using start
            · have hlt : k < s.connections.length := (List.getElem?_eq_some_iff.mp hx).choose
              have unfinished : x.finished = false := by
                simpa [Action.arrival?, hx] using ordered.1
              rw [heq]
              simpa [hlt] using arrivals s stream k x bytes hx unfinished start
          have hrun := ih (sound.step hfirst) hrest ordered.2 hnext
          simpa [streamOf, Action.arrival?] using hrun

end Relay
end MetricsProxy
