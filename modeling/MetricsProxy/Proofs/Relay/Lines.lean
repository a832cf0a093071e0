import MetricsProxy.Proofs.Intake
import MetricsProxy.Proofs.Relay.Conservation
import MetricsProxy.Proofs.Relay.Meanwhile
import MetricsProxy.Proofs.Relay.Progress
import MetricsProxy.Proofs.Relay.Streams

/-!
# Every line is counted by its class

Two counters say how many lines were decoded and how many were errors. At every
moment they have counted what readers have taken of the streams of their
clients, line by line (`Tallied.change`). A connection is closed only for a
reason, and nothing is left to do once a relay has settled (`settleNow_rests`):
so when every client has ended its input and no listener was stopped, the
counters have grown by the lines of all streams, however the bytes came
(`run_counts_lines`).
-/
namespace MetricsProxy
namespace Relay

/-- The settings under which a connection is served. -/
def settingsOf (s : Relay) (c : Nat) : Option ListenerSettings :=
  (s.connections[c]?.bind fun x => s.listeners[x.listener]?).map Listener.settings

/-- How many lines of a kind there are in the streams of the connections from `first` on. -/
def linesOf (s : Relay) (first : Nat) (kind : LineClass → Bool) (stream : Nat → List UInt8) : Nat :=
  total ((List.range s.connections.length).map fun c =>
    if c < first then 0
    else (s.settingsOf c).elim 0 fun settings => settings.lines s.wallClock kind (stream c))

/-- What the counters say about the connections from `first` on: of the stream of each of them
its reader has taken the lines of `done`. Before, they said `received` and `errors`, and the
earlier connections were closed. -/
structure Tallied (first received errors : Nat) (s : Relay) (stream done : Nat → List UInt8) :
    Prop where
  present : first ≤ s.connections.length
  absent : ∀ c, s.connections.length ≤ c → stream c = [] ∧ done c = []
  idle : ∀ (c : Nat) (x : Connection), c < first → s.connections[c]? = some x → x.live = false
  reached : ∀ (c : Nat) (x : Connection) (z : Listener), first ≤ c →
    s.connections[c]? = some x → s.listeners[x.listener]? = some z →
      Reached z.settings.maxLineLength x (stream c) (done c)
  closed : ∀ (c : Nat) (x : Connection), first ≤ c → s.connections[c]? = some x →
    x.live = false → s.Closable x
  counts : ∃ dropped, s.registry.Counts (received + s.linesOf first LineClass.isDecoded done)
    dropped (errors + s.linesOf first LineClass.isError done)

section
variable {s s' : Relay} {c i l first received errors : Nat} {stream done : Nat → List UInt8}

theorem settingsOf_eq {x : Connection} {z : Listener} (hx : s.connections[c]? = some x)
    (hz : s.listeners[x.listener]? = some z) : s.settingsOf c = some z.settings := by
  simp [settingsOf, hx, hz]

theorem Alike.settingsOf_eq (a : Alike s s') (sound : s.Sound) (hc : c < s.connections.length) :
    s'.settingsOf c = s.settingsOf c := by
  have hy := List.getElem?_eq_getElem (a.length.symm ▸ hc)
  obtain ⟨x, hx, kept, -⟩ := a.connections c _ hy
  obtain ⟨z, i, hz, owner, -⟩ := sound.served x (List.mem_of_getElem? hx)
  obtain ⟨z', hz', hsettings, -⟩ := a.listeners _ i z hz owner
  rw [Relay.settingsOf_eq hx hz, Relay.settingsOf_eq hy (by rw [kept.listener, hz']), hsettings]

theorem linesOf_congr (wallClock : s'.wallClock = s.wallClock)
    (length : s'.connections.length = s.connections.length)
    (settings : ∀ c, c < s.connections.length → s'.settingsOf c = s.settingsOf c) (first : Nat)
    (kind : LineClass → Bool) (stream : Nat → List UInt8) :
    s'.linesOf first kind stream = s.linesOf first kind stream := by
  unfold linesOf
  rw [wallClock, length]
  refine total_map_congr fun c hc => ?_
  rw [settings c (List.mem_range.mp hc)]

theorem linesOf_eq_zero (s : Relay) (kind : LineClass → Bool) (stream : Nat → List UInt8) :
    s.linesOf s.connections.length kind stream = 0 := by
  have hzero : total ((List.range s.connections.length).map fun _ => 0) = 0 := by
    induction s.connections.length with
    | zero => rfl
    | succ n ih => rw [List.range_succ, List.map_append, total_append, ih]; rfl
  rw [linesOf, total_map_congr fun c hc => if_pos (List.mem_range.mp hc), hzero]

theorem linesOf_line {x : Connection} {z : Listener} {line : List UInt8} (kind : LineClass → Bool)
    (hx : s.connections[c]? = some x) (hz : s.listeners[x.listener]? = some z) (later : first ≤ c)
    (hsegments : segments (stream c ++ line) = segments (stream c) ++ [line]) :
    s.linesOf first kind (Function.update stream c (stream c ++ line)) =
      s.linesOf first kind stream +
        (kind (z.settings.format.segmentClass s.wallClock z.settings.maxLineLength
          line)).toNat := by
  have hc : c < s.connections.length := (List.getElem?_eq_some_iff.mp hx).choose
  refine total_range_grow hc (fun k _ hne => ?_) ?_
  · rw [Function.update_of_ne hne]
  · have hearlier : ¬ c < first := Nat.not_lt.mpr later
    rw [settingsOf_eq hx hz, if_neg hearlier, if_neg hearlier, Function.update_self]
    exact z.settings.lines_line kind hsegments

theorem linesOf_connect {registry : Registry} {y : Connection} (kind : LineClass → Bool)
    (nothing : stream s.connections.length = []) :
    linesOf { s with connections := s.connections ++ [y], registry := registry } first kind stream =
      s.linesOf first kind stream := by
  have hold : ∀ c ∈ List.range s.connections.length,
      settingsOf { s with connections := s.connections ++ [y], registry := registry } c =
        s.settingsOf c := by
    intro c hc
    unfold settingsOf
    rw [List.getElem?_append_left (List.mem_range.mp hc)]
  have hnew (settings : Option ListenerSettings) : (if s.connections.length < first then 0
      else settings.elim 0 fun settings =>
        settings.lines s.wallClock kind (stream s.connections.length)) = 0 := by
    rw [nothing]
    split
    · rfl
    · cases settings <;> rfl
  unfold linesOf
  rw [List.length_append, List.length_singleton, List.range_succ, List.map_append, total_append,
    total_map_congr fun c hc => by rw [hold c hc], List.map_singleton, hnew]
  rfl

theorem settingsOf_set {x y : Connection} (hx : s.connections[c]? = some x)
    (connections : s'.connections = s.connections.set c y) (listener : y.listener = x.listener)
    (listeners : s'.listeners = s.listeners) (d : Nat) : s'.settingsOf d = s.settingsOf d := by
  have hc : c < s.connections.length := (List.getElem?_eq_some_iff.mp hx).choose
  unfold settingsOf
  rw [connections, listeners]
  by_cases hd : c = d
  · subst hd
    rw [List.getElem?_set_self hc, hx, Option.bind_some, Option.bind_some, listener]
  · rw [List.getElem?_set_ne hd]

/-- What becomes of a relay by a frame, apart from buffers and journal. -/
structure Counted (s : Relay) (cls : LineClass) (s' : Relay) : Prop where
  wallClock : s'.wallClock = s.wallClock
  connections : s'.connections = s.connections
  listeners : s'.listeners = s.listeners
  pools : s.CancelledStay s'
  counts : ∀ a b e, s.registry.Counts a b e →
    ∃ b', s'.registry.Counts (a + cls.isDecoded.toNat) b' (e + cls.isError.toNat)

theorem Handled.counted {cls : LineClass} (h : s.Handled i c cls s') : Counted s cls s' := by
  cases h with
  | accepted pool room =>
      exact ⟨rfl, rfl, rfl, fun _ h => exists_set h pool id,
        fun a b e h => ⟨b, h.count_received⟩⟩
  | rejected pool full =>
      exact ⟨rfl, rfl, rfl, fun _ => id,
        fun a b e h => ⟨b + 1, h.count_received.count_dropped 1⟩⟩
  | error cause => exact ⟨rfl, rfl, rfl, fun _ => id, fun a b e h => ⟨b, h.count_error⟩⟩
  | blank => exact ⟨rfl, rfl, rfl, fun _ => id, fun a b e h => ⟨b, h⟩⟩

namespace Tallied

theorem alike (h : Tallied first received errors s stream done) (sound : s.Sound)
    (a : Alike s s') : Tallied first received errors s' stream done where
  present := a.length.symm ▸ h.present
  absent c hc := h.absent c (a.length ▸ hc)
  idle c y hc hy := by
    obtain ⟨x, hx, kept, -⟩ := a.connections c y hy
    exact kept.closed (h.idle c x hc hx)
  reached c y z hc hy hz := by
    obtain ⟨x, hx, kept, -⟩ := a.connections c y hy
    obtain ⟨w, k, hw, hk, -⟩ := sound.served x (List.mem_of_getElem? hx)
    obtain ⟨w', hw', hsettings, -⟩ := a.listeners _ k w hw hk
    rw [kept.listener] at hz
    obtain rfl := Option.some.inj (hw'.symm.trans hz)
    rw [hsettings]
    exact (h.reached c x w hc hx hw).congr kept.reader kept.arrived kept.finished
  closed c y hc hy dead := by
    obtain ⟨x, hx, kept, hclosed⟩ := a.connections c y hy
    rcases hclosed dead with before | now
    · exact (h.closed c x hc hx before).kept kept a.listeners a.pools
    · exact now
  counts := by
    obtain ⟨dropped, hcounts⟩ := h.counts
    have hsettings (k : Nat) (hk : k < s.connections.length) := a.settingsOf_eq sound hk
    rw [linesOf_congr a.wallClock a.length hsettings,
      linesOf_congr a.wallClock a.length hsettings]
    exact a.counts _ _ _ hcounts

/-- So far nothing has come from any later connection. -/
theorem start (counts : ∃ dropped, s.registry.Counts received dropped errors)
    (idle : ∀ x ∈ s.connections, x.live = false) :
    Tallied s.connections.length received errors s (fun _ => []) fun _ => [] where
  present := Nat.le_refl _
  absent _ _ := ⟨rfl, rfl⟩
  idle _ x _ hx := idle x (List.mem_of_getElem? hx)
  reached c x _ hc hx :=
    absurd (List.getElem?_eq_some_iff.mp hx).choose (Nat.not_lt_of_le hc)
  closed c x hc hx :=
    absurd (List.getElem?_eq_some_iff.mp hx).choose (Nat.not_lt_of_le hc)
  counts := by
    rw [linesOf_eq_zero, linesOf_eq_zero]
    exact counts

theorem update {stream' done' : Nat → List UInt8} {x y : Connection}
    (h : Tallied first received errors s stream done) (hx : s.connections[c]? = some x)
    (connections : s'.connections = s.connections.set c y) (listener : y.listener = x.listener)
    (listeners : s'.listeners = s.listeners)
    (pools : s.CancelledStay s')
    (others : ∀ d, d ≠ c → stream' d = stream d ∧ done' d = done d)
    (idle : c < first → y.live = false)
    (reached : first ≤ c → ∀ z, s.listeners[x.listener]? = some z →
      Reached z.settings.maxLineLength y (stream' c) (done' c))
    (closed : first ≤ c → y.live = false → s'.Closable y)
    (counts : ∃ dropped, s'.registry.Counts (received + s'.linesOf first LineClass.isDecoded done')
      dropped (errors + s'.linesOf first LineClass.isError done')) :
    Tallied first received errors s' stream' done' where
  present := by
    rw [connections, List.length_set]
    exact h.present
  absent d hd := by
    have hc : c < s.connections.length := (List.getElem?_eq_some_iff.mp hx).choose
    rw [connections, List.length_set] at hd
    obtain ⟨hstream, hdone⟩ := others d (by omega)
    rw [hstream, hdone]
    exact h.absent d hd
  idle d w hd hw := by
    rw [connections] at hw
    rcases of_getElem?_set hw with ⟨rfl, rfl⟩ | ⟨-, hw⟩
    · exact idle hd
    · exact h.idle d w hd hw
  reached d w z hd hw hz := by
    rw [connections] at hw
    rw [listeners] at hz
    rcases of_getElem?_set hw with ⟨rfl, rfl⟩ | ⟨hne, hw⟩
    · exact reached hd z (by rw [← listener]; exact hz)
    · obtain ⟨hstream, hdone⟩ := others d (Ne.symm hne)
      rw [hstream, hdone]
      exact h.reached d w z hd hw hz
  closed d w hd hw dead := by
    rw [connections] at hw
    rcases of_getElem?_set hw with ⟨rfl, rfl⟩ | ⟨hne, hw⟩
    · exact closed hd dead
    · exact (h.closed d w hd hw dead).kept (.refl w) (.of_eq listeners) pools
  counts := counts

theorem counts_set {x y : Connection} (h : Tallied first received errors s stream done)
    (hx : s.connections[c]? = some x) (connections : s'.connections = s.connections.set c y)
    (listener : y.listener = x.listener) (listeners : s'.listeners = s.listeners)
    (wallClock : s'.wallClock = s.wallClock) (registry : s'.registry = s.registry) :
    ∃ dropped, s'.registry.Counts (received + s'.linesOf first LineClass.isDecoded done) dropped
      (errors + s'.linesOf first LineClass.isError done) := by
  have hsettings := settingsOf_set hx connections listener listeners
  have hlength : s'.connections.length = s.connections.length := by
    rw [connections, List.length_set]
  rw [linesOf_congr wallClock hlength fun k _ => hsettings k,
    linesOf_congr wallClock hlength fun k _ => hsettings k, registry]
  exact h.counts

theorem arrives {x : Connection} (h : Tallied first received errors s stream done)
    (hx : s.connections[c]? = some x) (unfinished : x.finished = false) (bytes : List UInt8) :
    Tallied first received errors
      { s with connections := s.connections.set c { x with arrived := x.arrived ++ bytes } }
      (fun d => stream d ++ if d = c then bytes else []) done := by
  refine h.update hx rfl rfl rfl (fun _ => id) (fun d hd => ?_) (fun hc => h.idle c x hc hx) ?_ ?_
    ?_
  · rw [if_neg hd, List.append_nil]
    exact ⟨rfl, rfl⟩
  · intro hc z hz
    rw [if_pos rfl]
    exact (h.reached c x z hc hx hz).arrives unfinished bytes
  · intro hc dead
    rcases h.closed c x hc hx dead with cancelled | broken | ⟨finished, -⟩
    · exact .inl cancelled
    · exact .inr (.inl broken)
    · rw [unfinished] at finished
      cases finished
  · exact h.counts_set hx rfl rfl rfl rfl rfl

/-- Only readers of the later connections are there. -/
theorem later {x : Connection} (h : Tallied first received errors s stream done)
    (hx : s.connections[c]? = some x) (live : x.live = true) : first ≤ c := by
  rw [← Nat.not_lt]
  intro earlier
  rw [h.idle c x earlier hx] at live
  cases live

theorem takes {x : Connection} {z : Listener} {frame : Frame} {rest : List UInt8}
    (h : Tallied first received errors s stream done) (hx : s.connections[c]? = some x)
    (live : x.live = true) (hz : s.listeners[x.listener]? = some z)
    (framed : x.arrived ≠ [] ∧ x.reader.feed x.arrived = .complete frame rest ∨
      x.arrived = [] ∧ rest = [] ∧ x.broken = false ∧ x.finished = true ∧
        x.reader.finish = some frame)
    (counted : Counted
      { s with
        connections := s.connections.set c
          { x with
            reader := .fresh z.settings.maxLineLength
            arrived := rest } }
      (z.settings.format.classify s.wallClock z.settings.maxLineLength frame) s') :
    ∃ done', Tallied first received errors s' stream done' := by
  have hlater := h.later hx live
  obtain ⟨line, rfl, hsegments, reached⟩ := (h.reached c x z hlater hx hz).takes framed
  have hothers : ∀ d, d ≠ c → Function.update done c (done c ++ line) d = done d :=
    fun d hd => Function.update_of_ne hd _ _
  have hself : Function.update done c (done c ++ line) c = done c ++ line :=
    Function.update_self c _ _
  refine ⟨Function.update done c (done c ++ line), ?_⟩
  refine h.update hx counted.connections rfl counted.listeners counted.pools
    (fun d hd => ⟨rfl, hothers d hd⟩) (fun earlier => absurd hlater (Nat.not_le_of_lt earlier)) ?_
    (fun _ dead => ?_) ?_
  · intro _ w hw
    obtain rfl := Option.some.inj (hz.symm.trans hw)
    rw [hself]
    exact reached
  · rw [live] at dead
    cases dead
  · obtain ⟨dropped, hcounts⟩ := h.counts
    obtain ⟨dropped', hcounts'⟩ := counted.counts _ _ _ hcounts
    have hlength : s'.connections.length = s.connections.length := by
      rw [counted.connections]
      exact List.length_set
    have hsettings : ∀ k, s'.settingsOf k = s.settingsOf k :=
      settingsOf_set hx counted.connections rfl counted.listeners
    have hclock : s'.wallClock = s.wallClock := counted.wallClock
    refine ⟨dropped', ?_⟩
    rw [linesOf_congr hclock hlength fun k _ => hsettings k,
      linesOf_congr hclock hlength fun k _ => hsettings k,
      linesOf_line LineClass.isDecoded hx hz hlater hsegments,
      linesOf_line LineClass.isError hx hz hlater hsegments, ← Nat.add_assoc, ← Nat.add_assoc]
    exact hcounts'

theorem reads (h : Tallied first received errors s stream done) (sound : s.Sound)
    (reading : s.Reading c s') : ∃ done', Tallied first received errors s' stream done' := by
  cases reading with
  | closes connection live server pool reason =>
      exact ⟨done, h.alike sound (closes_alike connection server reason)⟩
  | @keeps x listener i reader connection live server pool running some fed =>
      refine ⟨done, h.update connection rfl rfl rfl (fun _ => id) (fun _ _ => ⟨rfl, rfl⟩)
        (fun earlier => h.idle c x earlier connection) (fun hc z hz => ?_) (fun _ dead => ?_) ?_⟩
      · exact (h.reached c x z hc connection hz).keeps some fed
      · have open' : x.live = false := dead
        rw [live] at open'
        cases open'
      · exact h.counts_set connection rfl rfl rfl rfl rfl
  | takes connection live server owner running framed classified handled =>
      exact h.takes connection live server framed (classified ▸ handled.counted)

theorem connects {registry : Registry} {x : Listener}
    (h : Tallied first received errors s stream done) (hx : s.listeners[l]? = some x)
    (same : s.registry.SameCounts registry) :
    Tallied first received errors
      { s with
        connections := s.connections ++ [.opened l x.settings.maxLineLength]
        registry := registry } stream done where
  present := by
    rw [List.length_append]
    exact Nat.le_add_right_of_le h.present
  absent c hc := by
    rw [List.length_append] at hc
    exact h.absent c (Nat.le_of_add_right_le hc)
  idle c y hc hy := by
    rw [List.getElem?_append_left (Nat.lt_of_lt_of_le hc h.present)] at hy
    exact h.idle c y hc hy
  reached c y z hc hy hz := by
    rw [List.getElem?_append] at hy
    split at hy
    · exact h.reached c y z hc hy hz
    · rename_i hnew
      obtain ⟨hstream, hdone⟩ := h.absent c (Nat.le_of_not_lt hnew)
      obtain rfl := List.mem_singleton.mp (List.mem_of_getElem? hy)
      obtain rfl := Option.some.inj (hx.symm.trans hz)
      rw [hstream, hdone]
      exact .opened l _
  closed c y hc hy dead := by
    rw [List.getElem?_append] at hy
    split at hy
    · exact (h.closed c y hc hy dead).kept (.refl y) (.of_eq rfl) fun _ => id
    · obtain rfl := List.mem_singleton.mp (List.mem_of_getElem? hy)
      cases dead
  counts := by
    obtain ⟨dropped, hcounts⟩ := h.counts
    have nothing := (h.absent _ (Nat.le_refl _)).2
    refine ⟨dropped, ?_⟩
    rw [linesOf_connect LineClass.isDecoded nothing, linesOf_connect LineClass.isError nothing]
    exact same _ _ _ hcounts

theorem change (h : Tallied first received errors s stream done) (sound : s.Sound)
    (c : Change s s') : ∃ done', Tallied first received errors s' stream done' :=
  c.streams_induct (motive := fun t => ∃ done', Tallied first received errors t stream done')
    sound ⟨done, h⟩
    (fun _ _ sound alike ⟨done, h⟩ => ⟨done, h.alike sound alike⟩)
    (fun _ _ _ sound reading ⟨_, h⟩ => h.reads sound reading)
    fun _ _ _ _ _ listener same ⟨done, h⟩ => ⟨done, h.connects listener same⟩

theorem run {actions : List Action} (h : Tallied first received errors s stream done)
    (sound : s.Sound) (ha : ∀ a ∈ actions, a.byHand = false)
    (ordered : s.orderly actions = true) :
    ∃ done', Tallied first received errors (s.run actions)
      (fun c => stream c ++ s.streamOf c actions) done' :=
  sound.streams_run_induct
    (motive := fun t stream => ∃ done', Tallied first received errors t stream done') ha ordered
    ⟨done, h⟩
    (fun _ _ _ sound change ⟨_, h⟩ => h.change sound change)
    fun _ _ _ _ bytes hx unfinished ⟨done, h⟩ => ⟨done, h.arrives hx unfinished bytes⟩

end Tallied

/-- The token of a listener that runs has not fired, unless its owner let it go. -/
theorem isCancelled_of_running {z : Listener} (sound : s.Sound)
    (listener : s.listeners[l]? = some z) (running : z.state = .running)
    (kept : z.dropped = false) : s.isCancelled z = false := by
  obtain ⟨i, owner⟩ := sound.owner_of_running listener running
  obtain ⟨p, pool, life, -⟩ := sound.life_of listener owner
  rw [isCancelled_eq owner pool]
  exact (life.of_running running kept).1

/-- A stream that has ended is taken to its end, if its listener runs on. -/
theorem Tallied.eq_stream (h : Tallied first received errors s stream done) (sound : s.Sound)
    {x : Connection} {z : Listener} (later : first ≤ c) (hx : s.connections[c]? = some x)
    (hz : s.listeners[x.listener]? = some z) (dead : x.live = false) (whole : x.broken = false)
    (running : z.state = .running) (kept : z.dropped = false) : done c = stream c := by
  rcases h.closed c x later hx dead with ⟨w, hw, cancelled⟩ | broken | ⟨-, arrived, nothing⟩
  · obtain rfl := Option.some.inj (hz.symm.trans hw)
    rw [isCancelled_of_running sound hz running kept] at cancelled
    cases cancelled
  · rw [whole] at broken
    cases broken
  · exact (h.reached c x z later hx hz).eq_stream arrived nothing

/-- A relay that has settled serves no connection on which there is something to see. -/
theorem settleNow_rests {x : Connection} (sound : s.Sound) (ticks : ∀ r ∈ s.reporters, r.Ticks)
    (connection : s.settleNow.connections[c]? = some x)
    (reason : x.broken = true ∨ x.finished = true ∨ x.arrived ≠ []) : x.live = false := by
  rw [← Bool.not_eq_true]
  intro live
  exact Nat.lt_irrefl _ (advanceUntil_late sound.toOrderly ticks (Nat.le_refl _)
    (readOn_mem_agenda connection live (.inr reason))).2

end

/-- Every segment is decoded, an error or blank, whatever stands around it; and when
all clients that have connected since some moment have ended their input, the counters have grown
by the decoded segments of their streams and by those that are errors. Neither the
chunks in which the bytes came nor their order between the connections matters. -/
theorem run_counts_lines (wallClock : Int) (sends : Script SendPlan)
    (checkIns : Script (Option ShippingError)) (before actions : List Action)
    (ha : ∀ a ∈ before ++ actions, a.byHand = false)
    (idle : ∀ x ∈ ((create wallClock sends checkIns).run before).connections, x.live = false)
    (ordered : ((create wallClock sends checkIns).run before).orderly actions = true) :
    let s₀ := (create wallClock sends checkIns).run before
    let first := s₀.connections.length
    let s := (s₀.run actions).settleNow
    (∀ (format : Format) (now : Int) (limit : Nat) (segment : List UInt8),
      format.Classified now limit segment) ∧
    (∀ (settings : ListenerSettings) (now : Int) (done body rest : List UInt8),
      LineEnded done → newline ∉ body →
        settings.classes now (done ++ (body ++ newline :: rest)) =
          settings.classes now done ++
            settings.format.segmentClass now settings.maxLineLength (body ++ [newline]) ::
              settings.classes now rest) ∧
    ((∀ x ∈ s.connections.drop first, x.finished = true ∧ x.broken = false ∧
        ∃ z, s.listeners[x.listener]? = some z ∧ z.state = .running ∧ z.dropped = false) →
      s.registry.counter MetricName.pointsReceived =
        (s₀.registry.counter MetricName.pointsReceived +
          s.linesOf first LineClass.isDecoded fun c => s₀.streamOf c actions) % UInt64.size ∧
      s.registry.counter MetricName.pointsDecodeErrors =
        (s₀.registry.counter MetricName.pointsDecodeErrors +
          s.linesOf first LineClass.isError fun c => s₀.streamOf c actions) % UInt64.size) := by
  intro s₀ first s
  refine ⟨Format.classified, fun settings now done body rest ended line =>
    ListenerSettings.classes_within ended line rest, fun ended => ?_⟩
  have hbefore : ∀ a ∈ before, a.byHand = false := fun a h => ha a (List.mem_append_left _ h)
  have hactions : ∀ a ∈ actions, a.byHand = false := fun a h => ha a (List.mem_append_right _ h)
  have sound₀ : s₀.Sound := sound_run wallClock sends checkIns hbefore
  have sound₁ : (s₀.run actions).Sound := sound₀.run hactions
  have sound : s.Sound := sound₁.change (settleNow_change sound₁.toOrderly)
  have ticks : ∀ r ∈ (s₀.run actions).reporters, r.Ticks := by
    refine sound₀.ticking_run hactions ?_
    exact (sound_create wallClock sends checkIns).ticking_run hbefore fun _ hr => nomatch hr
  have hempty : (create wallClock sends checkIns).Accounted := ⟨0, 0, Registry.Counts.empty⟩
  obtain ⟨rejected, errors, counts₀⟩ : s₀.Accounted := hempty.run (sound_create _ _ _) hbefore
  -- What the counters say at each of the three moments.
  obtain ⟨done₁, tallied₁⟩ := (Tallied.start ⟨_, counts₀⟩ idle).run sound₀ hactions ordered
  obtain ⟨done, tallied⟩ := tallied₁.change sound₁ (settleNow_change sound₁.toOrderly)
  have hdone (c : Nat) (hc : c < s.connections.length) (later : first ≤ c) :
      done c = s₀.streamOf c actions := by
    have hx := List.getElem?_eq_getElem hc
    have hmem : s.connections[c] ∈ s.connections.drop first := by
      refine List.mem_of_getElem? (i := c - first) ?_
      rw [List.getElem?_drop, Nat.add_sub_cancel' later, hx]
    obtain ⟨finished, whole, z, hz, running, kept⟩ := ended _ hmem
    have dead := settleNow_rests sound₁ ticks hx (.inr (.inl finished))
    exact tallied.eq_stream sound later hx hz dead whole running kept
  have hlines (kind : LineClass → Bool) : s.linesOf first kind done =
      s.linesOf first kind fun c => s₀.streamOf c actions := by
    refine total_map_congr fun c hc => ?_
    by_cases earlier : c < first
    · rw [if_pos earlier, if_pos earlier]
    · rw [hdone c (List.mem_range.mp hc) (Nat.le_of_not_lt earlier)]
  obtain ⟨dropped, counts⟩ := tallied.counts
  rw [hlines, hlines] at counts
  rw [counts.received, counts.errors, counts₀.received, counts₀.errors, Nat.mod_add_mod,
    Nat.mod_add_mod]
  exact ⟨rfl, rfl⟩

/-- A listener of short lines. -/
def shortLines : List Action :=
  [.addListener { ListenerSettings.standard 2878 .graphite with maxLineLength := 16 },
    .start 0 (.ok "0.0.0.0:2878")]

/-- Two clients take turns. One sends a line in two parts and a blank one, the other one
sends what is no text, a line that is too long and a line that lacks its newline. -/
def twoStreams : List Action :=
  [.connect 0, .connect 0, .arrive 0 "a 1 1\nb 2".toUTF8.toList, .arrive 1 [0xff, newline],
    .arrive 0 " 2\n \n".toUTF8.toList, .endInput 0,
    .arrive 1 "a line that is too long\nc 3 3".toUTF8.toList, .endInput 1]

theorem run_counts_lines_twoStreams :
    let s₀ := (create 0 (.always .deliver) (.always none)).run shortLines
    let s := (s₀.run twoStreams).settleNow
    (∀ a ∈ shortLines ++ twoStreams, a.byHand = false) ∧
      (∀ x ∈ s₀.connections, x.live = false) ∧ s₀.orderly twoStreams = true ∧
      (∀ x ∈ s.connections.drop s₀.connections.length, x.finished = true ∧ x.broken = false ∧
        ∃ z, s.listeners[x.listener]? = some z ∧ z.state = .running ∧ z.dropped = false) ∧
      s.registry.counter MetricName.pointsReceived = 3 ∧
      s.registry.counter MetricName.pointsDecodeErrors = 2 := by
  intro s₀ s
  have idle : ∀ x ∈ ((create 0 (.always .deliver) (.always none)).run shortLines).connections,
      x.live = false := by decide +kernel
  have ordered : ((create 0 (.always .deliver) (.always none)).run shortLines).orderly
      twoStreams = true := by decide +kernel
  have hclients : ∀ x ∈ ((((create 0 (.always .deliver) (.always none)).run shortLines).run
      twoStreams).settleNow).connections.drop 0,
      x.finished = true ∧ x.broken = false ∧ x.listener = 0 := by decide +kernel
  have hlistener : ((((create 0 (.always .deliver) (.always none)).run shortLines).run
      twoStreams).settleNow.listeners[0]?.map fun z => (z.state, z.dropped)) =
      some (.running, false) := by decide +kernel
  obtain ⟨z, hz, hstate⟩ := Option.map_eq_some_iff.mp hlistener
  have ended : ∀ x ∈ s.connections.drop s₀.connections.length, x.finished = true ∧
      x.broken = false ∧
      ∃ z, s.listeners[x.listener]? = some z ∧ z.state = .running ∧ z.dropped = false := by
    intro x hx
    obtain ⟨finished, whole, hserver⟩ := hclients x hx
    exact ⟨finished, whole, z, by rw [hserver]; exact hz, congrArg Prod.fst hstate,
      congrArg Prod.snd hstate⟩
  obtain ⟨-, -, hcounts⟩ := run_counts_lines 0 (.always .deliver) (.always none) shortLines
    twoStreams (by decide) idle ordered
  obtain ⟨hreceived, herrors⟩ := hcounts ended
  refine ⟨by decide, idle, ordered, ended, hreceived.trans ?_, herrors.trans ?_⟩
  · decide +kernel
  · decide +kernel

end Relay
end MetricsProxy
