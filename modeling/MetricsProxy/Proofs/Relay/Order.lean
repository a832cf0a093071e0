import MetricsProxy.Proofs.Relay.Streams

/-!
# Points keep their order

A pool hands over its points in the order in which its buffer accepted them,
and the buffer accepts the points of one connection in the order of its lines.
The first is kept in the books of the pool. For the second, the reader of a
connection is followed through the stream of its client (`Follows`): what it has
taken are whole lines, and the points accepted from them are, in order, some of
the points that these lines stand for.
-/
namespace MetricsProxy
open Journal

/-- The point of a line, if it is decoded. -/
def LineClass.point? : LineClass → Option Point
  | decoded point => some point
  | _ => none

/-- The points that the lines of a stream stand for. -/
def ListenerSettings.points (settings : ListenerSettings) (wallClock : Int)
    (stream : List UInt8) : List Point :=
  (segments stream).filterMap fun segment =>
    (settings.format.classify wallClock settings.maxLineLength
      (.ofSegment settings.maxLineLength segment)).point?

theorem ListenerSettings.points_append (settings : ListenerSettings) (wallClock : Int)
    {stream done rest : List UInt8} (h : segments stream = segments done ++ segments rest) :
    settings.points wallClock stream =
      settings.points wallClock done ++ settings.points wallClock rest := by
  rw [points, h, List.filterMap_append]
  rfl

/-- The points of one more line. -/
theorem ListenerSettings.points_line (settings : ListenerSettings) (wallClock : Int)
    {done line : List UInt8} (h : segments (done ++ line) = segments done ++ [line]) :
    settings.points wallClock (done ++ line) =
      settings.points wallClock done ++
        (settings.format.classify wallClock settings.maxLineLength
          (.ofSegment settings.maxLineLength line)).point?.toList := by
  rw [points, h, List.filterMap_append, List.filterMap_cons]
  cases (settings.format.classify wallClock settings.maxLineLength
    (.ofSegment settings.maxLineLength line)).point? <;> rfl

/-- How far the reader of a connection has come in the stream of its client, and
what was accepted of it. -/
inductive Follows (wallClock : Int) (settings : ListenerSettings) (accepted : List Point)
    (x : Connection) (stream : List UInt8) : Prop where
  /-- It has taken the lines of `done` and reads the line that begins with `part`. -/
  | reading (done part : List UInt8) (split : stream = done ++ (part ++ x.arrived))
      (ended : LineEnded done) (within : newline ∉ part)
      (reader : x.reader = .after settings.maxLineLength part)
      (points : accepted.Sublist (settings.points wallClock done))
  /-- It has taken all lines of a stream that has ended. -/
  | finished (finished : x.finished = true) (arrived : x.arrived = [])
      (reader : x.reader = .fresh settings.maxLineLength)
      (points : accepted.Sublist (settings.points wallClock stream))

namespace Follows
variable {wallClock : Int} {settings : ListenerSettings} {accepted : List Point}
  {x : Connection} {stream : List UInt8}

theorem iff_reached :
    Follows wallClock settings accepted x stream ↔
      ∃ done, Reached settings.maxLineLength x stream done ∧
        accepted.Sublist (settings.points wallClock done) := by
  constructor
  · intro h
    cases h with
    | reading done part split ended within reader points =>
        exact ⟨done, .within done part split ended within reader, points⟩
    | finished finished arrived reader points =>
        exact ⟨stream, .through finished arrived reader, points⟩
  · rintro ⟨done, reached, points⟩
    cases reached with
    | within _ part split ended apart reader =>
        exact .reading done part split ended apart reader points
    | through finished arrived reader => exact .finished finished arrived reader points

theorem opened (listener : Nat) :
    Follows wallClock settings [] (.opened listener settings.maxLineLength) [] :=
  iff_reached.mpr ⟨[], .opened listener _, .refl _⟩

theorem sublist (h : Follows wallClock settings accepted x stream) :
    accepted.Sublist (settings.points wallClock stream) := by
  obtain ⟨done, reached, points⟩ := iff_reached.mp h
  obtain ⟨rest, hsegments⟩ := reached.exists_rest
  rw [settings.points_append wallClock hsegments]
  exact points.trans (List.sublist_append_left _ _)

theorem congr {y : Connection} (h : Follows wallClock settings accepted x stream)
    (reader : y.reader = x.reader) (arrived : y.arrived = x.arrived)
    (lasting : x.finished = true → y.finished = true) :
    Follows wallClock settings accepted y stream := by
  obtain ⟨done, reached, points⟩ := iff_reached.mp h
  exact iff_reached.mpr ⟨done, reached.congr reader arrived lasting, points⟩

theorem arrives (h : Follows wallClock settings accepted x stream) (unfinished : x.finished = false)
    (bytes : List UInt8) :
    Follows wallClock settings accepted { x with arrived := x.arrived ++ bytes }
      (stream ++ bytes) := by
  obtain ⟨done, reached, points⟩ := iff_reached.mp h
  exact iff_reached.mpr ⟨done, reached.arrives unfinished bytes, points⟩

theorem keeps {reader : LineReader} (h : Follows wallClock settings accepted x stream)
    (some : x.arrived ≠ []) (fed : x.reader.feed x.arrived = .pending reader) :
    Follows wallClock settings accepted { x with reader := reader, arrived := [] } stream := by
  obtain ⟨done, reached, points⟩ := iff_reached.mp h
  exact iff_reached.mpr ⟨done, reached.keeps some fed, points⟩

theorem takes {frame : Frame} {rest : List UInt8} {accepted' : List Point}
    (h : Follows wallClock settings accepted x stream)
    (framed : x.arrived ≠ [] ∧ x.reader.feed x.arrived = .complete frame rest ∨
      x.arrived = [] ∧ rest = [] ∧ x.broken = false ∧ x.finished = true ∧
        x.reader.finish = some frame)
    (more : accepted'.Sublist (accepted ++
      (settings.format.classify wallClock settings.maxLineLength frame).point?.toList)) :
    Follows wallClock settings accepted'
      { x with reader := .fresh settings.maxLineLength, arrived := rest } stream := by
  obtain ⟨done, reached, points⟩ := iff_reached.mp h
  obtain ⟨line, rfl, hsegments, reached⟩ := reached.takes framed
  refine iff_reached.mpr ⟨done ++ line, reached, ?_⟩
  rw [settings.points_line wallClock hsegments]
  exact more.trans (points.append_right _)

end Follows

namespace Relay

/-- What the clients of a relay have sent, connection by connection, and how far it was read. -/
structure Faithful (s : Relay) (stream : Nat → List UInt8) : Prop where
  absent : ∀ c, s.connections.length ≤ c → stream c = []
  /-- Every accepted point came from a connection of the pool's listener. -/
  origin : ∀ i, ∀ a ∈ acceptances i s.journal, ∃ c x z, a.1 = some c ∧
    s.connections[c]? = some x ∧ s.listeners[x.listener]? = some z ∧ z.pool = some i
  follows : ∀ (c i : Nat) (x : Connection) (z : Listener), s.connections[c]? = some x →
    s.listeners[x.listener]? = some z → z.pool = some i →
      Follows s.wallClock z.settings (acceptedFrom i c s.journal) x (stream c)

section
variable {s s' : Relay} {stream : Nat → List UInt8} {l i c : Nat}

namespace Faithful

theorem alike (h : s.Faithful stream) (sound : s.Sound) (a : Alike s s') :
    s'.Faithful stream where
  absent c hc := h.absent c (a.length ▸ hc)
  origin i e he := by
    rw [a.acceptances] at he
    obtain ⟨c, x, z, hc, hx, hz, owner⟩ := h.origin i e he
    have hlt : c < s'.connections.length := by
      rw [a.length]
      exact (List.getElem?_eq_some_iff.mp hx).choose
    have hy := List.getElem?_eq_getElem hlt
    obtain ⟨x', hx', kept, -⟩ := a.connections c _ hy
    obtain rfl := Option.some.inj (hx.symm.trans hx')
    obtain ⟨z', hz', -, owner'⟩ := a.listeners _ i z hz owner
    exact ⟨c, _, z', hc, hy, by rw [kept.listener, hz'], owner'⟩
  follows c i y z hy hz owner := by
    obtain ⟨x, hx, kept, -⟩ := a.connections c y hy
    obtain ⟨w, k, hw, hk, -⟩ := sound.served x (List.mem_of_getElem? hx)
    obtain ⟨w', hw', hsettings, hk'⟩ := a.listeners _ k w hw hk
    rw [kept.listener] at hz
    obtain rfl := Option.some.inj (hw'.symm.trans hz)
    obtain rfl := Option.some.inj (hk'.symm.trans owner)
    rw [a.wallClock, hsettings, acceptedFrom, a.acceptances]
    exact (h.follows c k x w hx hw hk).congr kept.reader kept.arrived kept.finished

theorem update {stream' : Nat → List UInt8} {x y : Connection} (h : s.Faithful stream)
    (hx : s.connections[c]? = some x) (wallClock : s'.wallClock = s.wallClock)
    (connections : s'.connections = s.connections.set c y) (listener : y.listener = x.listener)
    (listeners : s'.listeners = s.listeners) (others : ∀ d, d ≠ c → stream' d = stream d)
    (apart : ∀ i d, d ≠ c → acceptedFrom i d s'.journal = acceptedFrom i d s.journal)
    (origin : ∀ i, ∀ a ∈ acceptances i s'.journal, a ∈ acceptances i s.journal ∨
      a.1 = some c ∧ ∃ z, s.listeners[x.listener]? = some z ∧ z.pool = some i)
    (follows : ∀ i z, s.listeners[x.listener]? = some z → z.pool = some i →
      Follows s.wallClock z.settings (acceptedFrom i c s'.journal) y (stream' c)) :
    s'.Faithful stream' where
  absent d hd := by
    have hlt : c < s.connections.length := (List.getElem?_eq_some_iff.mp hx).choose
    rw [connections, List.length_set] at hd
    rw [others d (by omega)]
    exact h.absent d hd
  origin i a ha := by
    have hlt : c < s.connections.length := (List.getElem?_eq_some_iff.mp hx).choose
    rw [connections, listeners]
    rcases origin i a ha with hold | ⟨hc, z, hz, owner⟩
    · obtain ⟨d, w, z, hd, hw, hz, owner⟩ := h.origin i a hold
      by_cases hdc : c = d
      · subst hdc
        obtain rfl := Option.some.inj (hx.symm.trans hw)
        exact ⟨c, y, z, hd, List.getElem?_set_self hlt, by rw [listener, hz], owner⟩
      · exact ⟨d, w, z, hd, by rw [List.getElem?_set_ne hdc, hw], hz, owner⟩
    · exact ⟨c, y, z, hc, List.getElem?_set_self hlt, by rw [listener, hz], owner⟩
  follows d i w z hw hz owner := by
    rw [connections] at hw
    rw [listeners] at hz
    rw [wallClock]
    rcases of_getElem?_set hw with ⟨rfl, rfl⟩ | ⟨hne, hw⟩
    · exact follows i z (by rw [← listener]; exact hz) owner
    · rw [apart i d (Ne.symm hne), others d (Ne.symm hne)]
      exact h.follows d i w z hw hz owner

theorem arrives {x : Connection} (h : s.Faithful stream) (hx : s.connections[c]? = some x)
    (unfinished : x.finished = false) (bytes : List UInt8) :
    Faithful { s with connections := s.connections.set c { x with arrived := x.arrived ++ bytes } }
      fun d => stream d ++ if d = c then bytes else [] := by
  refine h.update hx rfl rfl rfl rfl (fun d hd => ?_) (fun _ _ _ => rfl) (fun i a ha => .inl ha) ?_
  · rw [if_neg hd, List.append_nil]
  · intro i z hz owner
    rw [if_pos rfl]
    exact (h.follows c i x z hx hz owner).arrives unfinished bytes

theorem reads (h : s.Faithful stream) (sound : s.Sound) (reading : s.Reading c s') :
    s'.Faithful stream := by
  cases reading with
  | closes connection live server pool reason =>
      exact h.alike sound (closes_alike connection server reason)
  | keeps connection live server pool running some fed =>
      refine h.update connection rfl rfl rfl rfl (fun _ _ => rfl) (fun _ _ _ => rfl)
        (fun i a ha => .inl ha) ?_
      intro k z hz owner
      exact (h.follows c k _ z connection hz owner).keeps some fed
  | takes connection live server owner running framed classified handled =>
      rename_i x listener i frame rest cls
      -- Nothing was accepted, whatever else has become of the frame.
      have hsilent {t : Relay} (wallClock : t.wallClock = s.wallClock)
          (connections : t.connections = s.connections.set c
            { x with
              reader := .fresh listener.settings.maxLineLength
              arrived := rest })
          (listeners : t.listeners = s.listeners) (journal : t.journal = s.journal) :
          t.Faithful stream := by
        refine h.update connection wallClock connections rfl listeners (fun _ _ => rfl)
          (fun _ _ _ => by rw [journal]) (fun k a ha => .inl (journal ▸ ha)) ?_
        intro k z hz hk
        obtain rfl := Option.some.inj (server.symm.trans hz)
        rw [journal]
        exact (h.follows c k x listener connection hz hk).takes framed
          (List.sublist_append_left _ _)
      cases handled with
      | accepted pool room =>
          rename_i p point
          refine h.update connection rfl rfl rfl rfl (fun _ _ => rfl)
            (fun k d hd => acceptedFrom_accepted_of_ne hd k point) ?_ ?_
          · intro k a ha
            rcases mem_acceptances_accepted ha with hold | ⟨rfl, rfl⟩
            · exact .inl hold
            · exact .inr ⟨rfl, listener, server, owner⟩
          · intro k z hz hk
            obtain rfl := Option.some.inj (server.symm.trans hz)
            obtain rfl := Option.some.inj (owner.symm.trans hk)
            refine (h.follows c i x listener connection hz hk).takes framed ?_
            rw [← classified, acceptedFrom_accepted]
            exact .refl _
      | rejected pool full => exact hsilent rfl rfl rfl rfl
      | error cause => exact hsilent rfl rfl rfl rfl
      | blank => exact hsilent rfl rfl rfl rfl

theorem acceptedFrom_eq_nil (h : s.Faithful stream) (hc : s.connections.length ≤ c) (i : Nat) :
    acceptedFrom i c s.journal = [] := by
  rw [acceptedFrom, List.map_eq_nil_iff, List.filter_eq_nil_iff]
  intro a ha hac
  obtain ⟨d, x, z, hd, hx, -⟩ := h.origin i a ha
  have hlt : d < s.connections.length := (List.getElem?_eq_some_iff.mp hx).choose
  have hcd : d = c := by simpa [hd] using hac
  omega

theorem connects {registry : Registry} {x : Listener} (h : s.Faithful stream)
    (hx : s.listeners[l]? = some x) :
    Faithful
      { s with
        connections := s.connections ++ [.opened l x.settings.maxLineLength]
        registry := registry } stream where
  absent c hc := by
    rw [List.length_append, List.length_singleton] at hc
    exact h.absent c (by omega)
  origin i a ha := by
    obtain ⟨c, y, z, hc, hy, hz, owner⟩ := h.origin i a ha
    have hlt : c < s.connections.length := (List.getElem?_eq_some_iff.mp hy).choose
    exact ⟨c, y, z, hc, by rw [List.getElem?_append_left hlt, hy], hz, owner⟩
  follows c i y z hy hz owner := by
    rw [List.getElem?_append] at hy
    split at hy
    · exact h.follows c i y z hy hz owner
    · rename_i hc
      obtain rfl := List.mem_singleton.mp (List.mem_of_getElem? hy)
      obtain rfl := Option.some.inj (hx.symm.trans hz)
      rw [h.acceptedFrom_eq_nil (by omega) i, h.absent c (by omega)]
      exact .opened l

theorem change (h : s.Faithful stream) (sound : s.Sound) (c : Change s s') :
    s'.Faithful stream :=
  c.streams_induct (motive := fun t => t.Faithful stream) sound h
    (fun _ _ sound alike h => h.alike sound alike)
    (fun _ _ _ sound reading h => h.reads sound reading) fun _ _ _ _ _ listener _ h =>
      h.connects listener

end Faithful
end

/-! ## Runs -/

theorem Faithful.run {s : Relay} {stream : Nat → List UInt8} {actions : List Action}
    (h : s.Faithful stream) (sound : s.Sound) (ha : ∀ a ∈ actions, a.byHand = false)
    (ordered : s.orderly actions = true) :
    (s.run actions).Faithful fun c => stream c ++ s.streamOf c actions :=
  sound.streams_run_induct (motive := fun t stream => t.Faithful stream) ha ordered h
    (fun _ _ _ sound change h => h.change sound change) fun _ _ _ _ bytes hx unfinished h =>
      h.arrives hx unfinished bytes

/-- Points leave a running listener in the order in which they came. The points of
its units, in the order in which their sends began, and then those in its buffer are
what the buffer accepted, in that order and nothing else. Everything accepted came
from a connection of the listener, and what came from one connection is, in order,
part of the points that the lines of its stream stand for. -/
theorem run_keeps_order (wallClock : Int) (sends : Script SendPlan)
    (checkIns : Script (Option ShippingError)) (actions : List Action)
    (ha : ∀ a ∈ actions, a.byHand = false)
    (ordered : (create wallClock sends checkIns).orderly actions = true) :
    let s := (create wallClock sends checkIns).run actions
    ∀ (l : Nat) (x : Listener), s.listeners[l]? = some x → x.state = .running →
      ∃ i p, x.pool = some i ∧ s.pools[i]? = some p ∧
        unitPoints (begunUnits i s.journal) ++ p.buffer.toList =
          (acceptances i s.journal).map Prod.snd ∧
        (∀ a ∈ acceptances i s.journal, ∃ c y,
          a.1 = some c ∧ s.connections[c]? = some y ∧ y.listener = l) ∧
        ∀ (c : Nat) (y : Connection), s.connections[c]? = some y → y.listener = l →
          (acceptedFrom i c s.journal).Sublist
            (x.settings.points wallClock
              ((create wallClock sends checkIns).streamOf c actions)) := by
  intro s l x hx state
  have sound : s.Sound := sound_run wallClock sends checkIns ha
  have hempty : (create wallClock sends checkIns).Faithful fun _ => [] :=
    ⟨fun _ _ => rfl, (fun _ _ he => nomatch he), fun _ _ _ _ hx => nomatch hx⟩
  have faithful : s.Faithful _ := hempty.run (sound_create _ _ _) ha ordered
  obtain ⟨i, owner⟩ := sound.owner_of_running hx state
  obtain ⟨p, pool, life, -⟩ := sound.life_of hx owner
  have books := life.books (by rw [state]; exact nofun)
  refine ⟨i, p, owner, pool, books.order.symm, fun a hmem => ?_, fun c y hy hl => ?_⟩
  · obtain ⟨c, y, z, hc, hy, hz, hk⟩ := faithful.origin i a hmem
    exact ⟨c, y, hc, hy, sound.owner_unique hz hx hk owner⟩
  · subst hl
    have hfollows := (faithful.follows c i y x hy hx owner).sublist
    have hclock : s.wallClock = wallClock :=
      (sound_create wallClock sends checkIns).wallClock_run ha
    rw [hclock] at hfollows
    simpa using hfollows

/-- Two clients take turns; one worker is still sending when the other one, whose
send is dropped, has returned. -/
def twoClients : List Action :=
  [.addListener { ListenerSettings.standard 2878 .graphite with
      flushThreads := 2, maxPointsPerFlush := 1 },
    .start 0 (.ok "0.0.0.0:2878"), .connect 0, .connect 0, .arrive 0 "a 1 1\nb 2".toUTF8.toList,
    .arrive 1 "c 3 3\n".toUTF8.toList, .readOn 0, .readOn 1, .readOn 0,
    .arrive 0 " 2\n".toUTF8.toList, .readOn 0, .wait 1000, .tick 0 0, .tick 0 1]

theorem run_keeps_order_twoClients :
    let sends : Script SendPlan := ⟨[⟨5000, none⟩, ⟨0, some (.payload "")⟩], .deliver⟩
    let s := (create 0 sends (.always none)).run twoClients
    (∀ a ∈ twoClients, a.byHand = false) ∧
      (create 0 sends (.always none)).orderly twoClients = true ∧
      ∃ x i p, s.listeners[0]? = some x ∧ x.state = .running ∧ x.pool = some i ∧
        s.pools[i]? = some p ∧
        unitPoints (begunUnits i s.journal) ++ p.buffer.toList =
          (acceptances i s.journal).map Prod.snd := by
  intro sends s
  have hstate : (((create 0 ⟨[⟨5000, none⟩, ⟨0, some (.payload "")⟩], .deliver⟩
      (.always none)).run twoClients).listeners[0]?.map fun x => x.state) = some .running := by
    decide +kernel
  have ordered : (create 0 ⟨[⟨5000, none⟩, ⟨0, some (.payload "")⟩], .deliver⟩
      (.always none)).orderly twoClients = true := by decide +kernel
  obtain ⟨x, hx, state⟩ := Option.map_eq_some_iff.mp hstate
  obtain ⟨i, p, owner, pool, horder, -, -⟩ :=
    run_keeps_order 0 sends (.always none) twoClients (by decide) ordered 0 x hx state
  exact ⟨by decide, ordered, x, i, p, hx, state, owner, pool, horder⟩

end Relay
end MetricsProxy
