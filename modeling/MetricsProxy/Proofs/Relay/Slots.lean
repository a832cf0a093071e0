import MetricsProxy.Proofs.Binary64.Whole
import MetricsProxy.Proofs.Relay.Lines

/-!
# The slots of connections

A reader holds one of its listener's slots from when its client connects until
the connection is closed, whichever way it ends. Every change but a connect only
gives slots back, and the gauge that all listeners share goes down by one for
each (`Shift.frees`); a connect takes one if its listener has one left
(`connect_eq`). So the gauge says how many connections are served as long as
whole numbers of that size are exact (`Gauged`), and no listener serves more than
it may, nor any once its accepting task is over (`Slotted`). Both hold after
every run (`run_keeps_slots`).
-/
namespace MetricsProxy

/-- Going down is exact among the whole numbers that are. -/
theorem Registry.lowered_ofNat {m n : Nat} (small : m + n ≤ Binary64.wholeLimit) :
    lowered (Binary64.ofNat (m + n)) n = Binary64.ofNat m := by
  induction n generalizing m with
  | zero => rfl
  | succ n ih =>
      have hmore := ih (m := m + 1) (by omega)
      rw [show m + (n + 1) = m + 1 + n by omega, lowered, hmore]
      exact Binary64.add_neg_one (by omega)

namespace Relay

def openCount (s : Relay) : Nat := total ((List.range s.listeners.length).map s.liveCount)

/-- At no moment of a run do the connections that are served outgrow the whole numbers that
are exact. -/
def Uncrowded (s : Relay) (actions : List Action) : Prop :=
  ∀ earlier, earlier <+: actions → (s.run earlier).openCount ≤ Binary64.wholeLimit

/-- How a listener that runs answers a client. It serves the client if it has a slot left.
Else it counts one more connection that is not served, and leaves all else as it is. -/
structure Answers (s : Relay) (l : Nat) (x : Listener) : Prop where
  served : (∃ c y, (s.connect l).2 = .served c ∧ (s.connect l).1.connections[c]? = some y ∧
    y.listener = l ∧ y.live = true) ↔ s.liveCount l < x.settings.maxConnections
  rejected : ¬ s.liveCount l < x.settings.maxConnections →
    (s.connect l).2 = .rejected ∧ ∃ registry, (s.connect l).1 = { s with registry := registry } ∧
      s.registry.SameBut [MetricName.connectionsRejected] registry ∧
      registry.counter MetricName.connectionsRejected =
        (s.registry.counter MetricName.connectionsRejected + 1) % UInt64.size

/-- What holds of the slots of each listener. -/
structure SlotsExact (s : Relay) : Prop where
  bounded : ∀ (l : Nat) (x : Listener), s.listeners[l]? = some x →
    s.liveCount l ≤ x.settings.maxConnections
  answers : ∀ (l : Nat) (x : Listener), s.listeners[l]? = some x → x.state = .running →
    x.dropped = false → s.Answers l x
  vacated : ∀ (l : Nat) (x : Listener), s.listeners[l]? = some x →
    (∀ b ∈ s.tasksOver x, b = true) → s.liveCount l = 0
  ended : ∀ (l : Nat) (x : Listener), s.listeners[l]? = some x → x.state = .stopped →
    (∀ b ∈ s.tasksOver x, b = true) ∧ s.liveCount l = 0

section
variable {s s' : Relay} {l i c : Nat}

/-! ## Counting connections -/

theorem liveCount_set {x y : Connection} (connection : s.connections[c]? = some x)
    (connections : s'.connections = s.connections.set c y) (listener : y.listener = x.listener)
    (live : y.live = true → x.live = true) (m : Nat) : s'.liveCount m ≤ s.liveCount m := by
  have hset := countP_set_add (fun z => z.listener == m && z.live) connection y
  have hless : (if (y.listener == m && y.live) = true then 1 else 0) ≤
      if (x.listener == m && x.live) = true then 1 else 0 := by
    split
    · rename_i hy
      rw [Bool.and_eq_true, listener] at hy
      rw [if_pos (by rw [hy.1, live hy.2]; rfl)]
    · exact Nat.zero_le _
  unfold liveCount
  rw [connections]
  omega

theorem liveCount_append (s : Relay) (x : Connection) (m : Nat) :
    Relay.liveCount { s with connections := s.connections ++ [x] } m =
      s.liveCount m + if (x.listener == m && x.live) = true then 1 else 0 := by
  simp only [liveCount, List.countP_append, List.countP_cons, List.countP_nil, Nat.zero_add]

theorem liveCount_closedBy (xs : List Connection) (l m : Nat) :
    (xs.map (Connection.closedBy l)).countP (fun x => x.listener == m && x.live) =
      if m = l then 0 else xs.countP fun x => x.listener == m && x.live := by
  induction xs with
  | nil => simp
  | cons x xs ih =>
      rw [List.map_cons, List.countP_cons, List.countP_cons, ih, Connection.closedBy]
      by_cases hm : m = l
      · by_cases hx : x.listener = l
        · simp [hm, hx]
        · simp [hm, hx]
      · by_cases hx : x.listener = l
        · simp [hm, hx, Ne.symm hm]
        · simp [hm, hx]

/-- Closing the connections of a listener gives its slots back and no others. -/
theorem countP_closedBy (xs : List Connection) (l : Nat) :
    xs.countP (fun x => x.live) = (xs.map (Connection.closedBy l)).countP (fun x => x.live) +
      xs.countP fun x => x.listener == l && x.live := by
  induction xs with
  | nil => rfl
  | cons x xs ih =>
      rw [List.map_cons, List.countP_cons, List.countP_cons, List.countP_cons, ih,
        Connection.closedBy]
      by_cases hx : x.listener = l
      · simp [hx, Nat.add_assoc]
      · simp [hx, Nat.add_right_comm]

theorem total_liveCount {xs : List Connection} {n : Nat} (within : ∀ x ∈ xs, x.listener < n) :
    total ((List.range n).map fun l => xs.countP fun x => x.listener == l && x.live) =
      xs.countP fun x => x.live := by
  induction xs with
  | nil =>
      induction n with
      | zero => rfl
      | succ n ih => simpa [List.range_succ] using ih nofun
  | cons x xs ih =>
      have hrest := ih fun y hy => within y (List.mem_cons_of_mem _ hy)
      cases hlive : x.live with
      | false => simpa [List.countP_cons, hlive] using hrest
      | true =>
          have hone := total_range_grow (d := 1) (f := fun l =>
            xs.countP fun x => x.listener == l && x.live) (g := fun l =>
            (x :: xs).countP fun x => x.listener == l && x.live)
            (within x List.mem_cons_self)
            (fun l _ hl => by simp [Ne.symm hl]) (by simp [hlive])
          rw [hone, hrest]
          simp [hlive]

theorem Sound.openCount_eq (sound : s.Sound) :
    s.openCount = s.connections.countP fun x => x.live := by
  refine total_liveCount fun x hx => ?_
  obtain ⟨z, -, hz, -⟩ := sound.served x hx
  exact (List.getElem?_eq_some_iff.mp hz).choose

/-- The accepting task is the last of a listener's tasks. -/
theorem accepting_of_tasksOver {x : Listener} (ended : ∀ b ∈ s.tasksOver x, b = true) :
    x.accepting = false := by
  simpa using ended (!x.accepting) (List.mem_append_right _ (List.mem_singleton_self _))

/-! ## Slots are given back -/

/-- No slot is taken, and the gauge goes down by one for each slot that is given back. -/
structure Frees (s s' : Relay) : Prop where
  fewer : ∀ m, s'.liveCount m ≤ s.liveCount m
  lowers : ∃ n, (s.connections.countP fun x => x.live) =
      (s'.connections.countP fun x => x.live) + n ∧
    ∀ value, s.registry.Slots value → s'.registry.Slots (Registry.lowered value n)

namespace Frees

theorem of_eq (connections : s'.connections = s.connections)
    (slots : s.registry.SameSlots s'.registry) : Frees s s' where
  fewer m := by rw [liveCount, connections]; exact Nat.le_refl _
  lowers := ⟨0, by rw [connections, Nat.add_zero], slots⟩

theorem of_set {x y : Connection} (connection : s.connections[c]? = some x)
    (connections : s'.connections = s.connections.set c y) (listener : y.listener = x.listener)
    (live : y.live = x.live) (slots : s.registry.SameSlots s'.registry) : Frees s s' where
  fewer := liveCount_set connection connections listener fun h => live ▸ h
  lowers := by
    have hset := countP_set_add (fun z => z.live) connection y
    rw [live] at hset
    exact ⟨0, by rw [connections, Nat.add_zero]; omega, slots⟩

theorem trans {s'' : Relay} (h : Frees s s') (h' : Frees s' s'') : Frees s s'' where
  fewer m := (h'.fewer m).trans (h.fewer m)
  lowers := by
    obtain ⟨n, hn, lowers⟩ := h.lowers
    obtain ⟨n', hn', lowers'⟩ := h'.lowers
    refine ⟨n + n', by omega, fun value slots => ?_⟩
    rw [← Registry.lowered_add]
    exact lowers' _ (lowers value slots)

end Frees

theorem Handled.sameSlots {cls : LineClass} (h : s.Handled i c cls s') :
    s.registry.SameSlots s'.registry := by
  cases h with
  | accepted => exact Registry.sameSlots_apply _ _ _ (by decide)
  | rejected =>
      exact (Registry.sameSlots_apply _ _ _ (by decide)).trans
        (Registry.sameSlots_apply _ _ _ (by decide))
  | error => exact Registry.sameSlots_apply _ _ _ (by decide)
  | blank => exact .refl _

/-- A reader gives its slot back when it closes its connection. -/
theorem Reading.frees (reading : s.Reading c s') : Frees s s' := by
  cases reading with
  | @closes x listener i connection live server pool reason =>
      refine ⟨liveCount_set connection rfl rfl nofun, 1, ?_, fun value slots => slots.add _⟩
      have hset := countP_set_add (fun z => z.live) connection { x with live := false }
      rw [if_pos live, if_neg Bool.false_ne_true] at hset
      exact hset.symm
  | keeps connection => exact .of_set connection rfl rfl rfl (.refl _)
  | takes connection _ _ _ _ _ _ handled =>
      exact .of_set connection handled.counted.connections rfl rfl handled.sameSlots

/-- Whatever happens but a connect, slots are only given back. -/
theorem Shift.frees (shift : Shift false s s') : Frees s s' := by
  induction shift with
  | passes _ _ _ _ _ slots => exact .of_eq rfl slots
  | works _ _ becomes =>
      obtain ⟨registry, tickets, sends, same, rfl⟩ := becomes
      exact .of_eq rfl (same.sameSlots (by decide))
  | reads reading => exact reading.frees
  | signals _ _ connection => exact .of_set connection rfl rfl rfl (.refl _)
  | starts _ _ _ _ _ _ _ slots => exact .of_eq rfl slots
  | connects _ _ _ _ allowed => cases allowed
  | @aborts s l =>
      refine ⟨fun m => ?_, s.liveCount l, countP_closedBy _ l, fun value slots => slots.release _⟩
      rw [liveCount, liveCount_closedBy]
      split
      · exact Nat.zero_le _
      · exact Nat.le_refl _
  | settles _ _ _ _ _ _ slots => exact .of_eq rfl slots
  | seq _ _ ih ih' => exact ih.trans ih'
  | _ => exact .of_eq rfl (.refl _)

/-! ## What the gauge says -/

/-- The gauge tells how many connections are served, if `small` holds: that the numbers so
far were small enough to be exact. Even if they were not, the metrics are of their kinds. -/
def Gauged (small : Prop) (s : Relay) : Prop :=
  ∃ value, s.registry.Slots value ∧
    (small → value = Binary64.ofNat (s.connections.countP fun x => x.live))

namespace Gauged
variable {small : Prop}

theorem create (wallClock : Int) (sends : Script SendPlan)
    (checkIns : Script (Option ShippingError)) :
    (Relay.create wallClock sends checkIns).Gauged small :=
  ⟨_, .empty, fun _ => Binary64.ofNat_zero.symm⟩

theorem frees (h : s.Gauged small)
    (few : small → (s.connections.countP fun x => x.live) ≤ Binary64.wholeLimit)
    (frees : Frees s s') : s'.Gauged small := by
  obtain ⟨value, slots, agrees⟩ := h
  obtain ⟨n, hn, lowers⟩ := frees.lowers
  refine ⟨_, lowers value slots, fun hsmall => ?_⟩
  have hfew := few hsmall
  rw [agrees hsmall, hn]
  exact Registry.lowered_ofNat (hn ▸ hfew)

theorem connect (h : s.Gauged small)
    (few : small → (s.connections.countP fun x => x.live) ≤ Binary64.wholeLimit) (l : Nat) :
    (s.connect l).1.Gauged small := by
  obtain ⟨value, slots, agrees⟩ := h
  unfold Relay.connect
  cases s.listeners[l]? with
  | none => exact ⟨value, slots, agrees⟩
  | some x =>
      dsimp only
      split
      · split
        · refine ⟨_, slots.add _, fun hsmall => ?_⟩
          rw [agrees hsmall, Binary64.add_one (few hsmall)]
          simp [use]
        · exact ⟨value, Registry.sameSlots_rejected _ rfl value slots, agrees⟩
      · exact ⟨value, slots, agrees⟩

theorem step (h : s.Gauged small) (sound : s.Sound)
    (few : small → (s.connections.countP fun x => x.live) ≤ Binary64.wholeLimit) {a : Action}
    (ha : a.byHand = false) : (s.step a).Gauged small := by
  cases hinput : a.arrival? with
  | some input =>
      rw [Action.eq_arrive hinput]
      refine h.frees few ?_
      rcases arrive_cases s input.1 input.2 with ⟨-, heq⟩ | ⟨x, connection, heq⟩
      · rw [Relay.step, heq]
        exact .of_eq rfl (.refl _)
      · rw [Relay.step, heq]
        exact .of_set connection rfl rfl rfl (.refl _)
  | none =>
      have shift := step_shift sound.wired a ha hinput
      cases a with
      | connect l => exact h.connect few l
      | _ => exact h.frees few shift.frees

/-- As long as whole numbers of its size are exact, the gauge is. -/
theorem run (h : s.Gauged small) (sound : s.Sound) {actions : List Action}
    (ha : ∀ a ∈ actions, a.byHand = false)
    (few : small → ∀ earlier, earlier <+: actions →
      ((s.run earlier).connections.countP fun x => x.live) ≤ Binary64.wholeLimit) :
    (s.run actions).Gauged small := by
  induction actions generalizing s with
  | nil => exact h
  | cons a as ih =>
      -- The first moment has no action before it; each later one has this action before it.
      have hfirst := ha a List.mem_cons_self
      rw [run_cons]
      refine ih (h.step sound (fun hsmall => few hsmall [] (List.nil_prefix)) hfirst)
        (sound.step hfirst) (fun b hb => ha b (List.mem_cons_of_mem _ hb)) ?_
      intro hsmall earlier hearlier
      exact few hsmall (a :: earlier) (List.cons_prefix_cons.mpr ⟨rfl, hearlier⟩)

end Gauged

/-! ## What a listener serves -/

/-- No listener serves more than it may, nor any once its accepting task is over. -/
structure Slotted (s : Relay) : Prop where
  bounded : ∀ (l : Nat) (x : Listener), s.listeners[l]? = some x →
    s.liveCount l ≤ x.settings.maxConnections
  vacated : ∀ (l : Nat) (x : Listener), s.listeners[l]? = some x → x.accepting = false →
    s.liveCount l = 0
  closed : ∀ (l : Nat) (x : Listener), s.listeners[l]? = some x → x.state = .stopped →
    x.accepting = false

namespace Slotted

theorem create (wallClock : Int) (sends : Script SendPlan)
    (checkIns : Script (Option ShippingError)) :
    (Relay.create wallClock sends checkIns).Slotted :=
  ⟨fun _ _ => nofun, fun _ _ => nofun, fun _ _ => nofun⟩

theorem of_fewer (h : s.Slotted) (listeners : s'.listeners = s.listeners)
    (fewer : ∀ m, s'.liveCount m ≤ s.liveCount m) : s'.Slotted where
  bounded m z hz := (fewer m).trans (h.bounded m z (listeners ▸ hz))
  vacated m z hz ended := Nat.le_zero.mp ((fewer m).trans_eq (h.vacated m z (listeners ▸ hz) ended))
  closed m z hz := h.closed m z (listeners ▸ hz)

theorem of_listener (h : s.Slotted) {x y : Listener} (listener : s.listeners[l]? = some x)
    (listeners : s'.listeners = s.listeners.set l y)
    (fewer : ∀ m, s'.liveCount m ≤ s.liveCount m) (settings : y.settings = x.settings)
    (vacated : y.accepting = false → s'.liveCount l = 0)
    (closed : y.state = .stopped → y.accepting = false) : s'.Slotted where
  bounded m z hz := by
    rw [listeners] at hz
    rcases of_getElem?_set hz with ⟨rfl, rfl⟩ | ⟨-, hz⟩
    · rw [settings]
      exact (fewer _).trans (h.bounded _ x listener)
    · exact (fewer m).trans (h.bounded m z hz)
  vacated m z hz ended := by
    rw [listeners] at hz
    rcases of_getElem?_set hz with ⟨rfl, rfl⟩ | ⟨-, hz⟩
    · exact vacated ended
    · exact Nat.le_zero.mp ((fewer m).trans_eq (h.vacated m z hz ended))
  closed m z hz state := by
    rw [listeners] at hz
    rcases of_getElem?_set hz with ⟨-, rfl⟩ | ⟨-, hz⟩
    · exact closed state
    · exact h.closed m z hz state

theorem mark (h : s.Slotted) {x y : Listener} (listener : s.listeners[l]? = some x)
    (listeners : s'.listeners = s.listeners.set l y) (connections : s'.connections = s.connections)
    (settings : y.settings = x.settings) (accepting : y.accepting = x.accepting)
    (closed : y.state = .stopped → x.state = .stopped ∨ x.accepting = false) : s'.Slotted := by
  have hsame (m : Nat) : s'.liveCount m = s.liveCount m := by rw [liveCount, connections]; rfl
  refine h.of_listener listener listeners (fun m => (hsame m).le) settings (fun ended => ?_)
    fun state => accepting.trans ?_
  · exact (hsame l).trans (h.vacated l x listener (accepting.symm.trans ended))
  · exact (closed state).elim (h.closed l x listener) id

theorem adds (h : s.Slotted) (sound : s.Sound) (settings : ListenerSettings) :
    Slotted { s with listeners := s.listeners ++ [.create settings] } := by
  have hnew : s.liveCount s.listeners.length = 0 := by
    refine List.countP_eq_zero.mpr fun x hx served => ?_
    obtain ⟨z, -, hz, -⟩ := sound.served x hx
    have hlt := (List.getElem?_eq_some_iff.mp hz).choose
    rw [Bool.and_eq_true, beq_iff_eq] at served
    omega
  have hcases {m : Nat} {z : Listener} (hz : (s.listeners ++ [.create settings])[m]? = some z) :
      s.listeners[m]? = some z ∨ m = s.listeners.length ∧ z = .create settings := by
    rw [List.getElem?_append] at hz
    split at hz
    · exact .inl hz
    · obtain ⟨hm, hz⟩ := List.getElem?_eq_some_iff.mp hz
      refine .inr ⟨?_, ?_⟩
      · rw [List.length_singleton] at hm
        omega
      · rw [← hz, List.getElem_singleton]
  constructor
  · intro m z hz
    rcases hcases hz with hz | ⟨rfl, -⟩
    · exact h.bounded m z hz
    · exact hnew.trans_le (Nat.zero_le _)
  · intro m z hz ended
    rcases hcases hz with hz | ⟨rfl, -⟩
    · exact h.vacated m z hz ended
    · exact hnew
  · intro m z hz state
    rcases hcases hz with hz | ⟨-, rfl⟩
    · exact h.closed m z hz state
    · rfl

theorem connects (h : s.Slotted) {x : Listener} {registry : Registry}
    (listener : s.listeners[l]? = some x) (accepting : x.accepting = true)
    (room : s.liveCount l < x.settings.maxConnections) :
    Slotted
      { s with
        connections := s.connections ++ [.opened l x.settings.maxLineLength]
        registry := registry } := by
  have hcount (m : Nat) := s.liveCount_append (.opened l x.settings.maxLineLength) m
  have hother {m : Nat} (hm : m ≠ l) : Relay.liveCount
      { s with connections := s.connections ++ [.opened l x.settings.maxLineLength] } m =
        s.liveCount m := by
    rw [hcount, if_neg (by simp [Connection.opened, Ne.symm hm]), Nat.add_zero]
  constructor
  · intro m z hz
    by_cases hm : m = l
    · subst hm
      obtain rfl := Option.some.inj (listener.symm.trans hz)
      refine (hcount m).trans_le ?_
      split
      · exact room
      · exact room.le
    · exact (hother hm).trans_le (h.bounded m z hz)
  · intro m z hz ended
    by_cases hm : m = l
    · subst hm
      obtain rfl := Option.some.inj (listener.symm.trans hz)
      rw [accepting] at ended
      cases ended
    · exact (hother hm).trans (h.vacated m z hz ended)
  · exact h.closed

theorem reads (h : s.Slotted) (reading : s.Reading c s') : s'.Slotted := by
  have hfewer := reading.frees.fewer
  cases reading with
  | closes => exact h.of_fewer rfl hfewer
  | keeps => exact h.of_fewer rfl hfewer
  | takes _ _ _ _ _ _ _ handled => exact h.of_fewer handled.counted.listeners hfewer

theorem change (h : s.Slotted) (sound : s.Sound) (c : Change s s') : s'.Slotted := by
  induction c with
  | passes => exact h.of_fewer rfl fun _ => Nat.le_refl _
  | works _ _ becomes =>
      obtain ⟨registry, tickets, sends, -, rfl⟩ := becomes
      exact h.of_fewer rfl fun _ => Nat.le_refl _
  | reads reading => exact h.reads reading
  | signals _ _ connection => exact h.of_fewer rfl (liveCount_set connection rfl rfl id)
  | adds settings => exact h.adds sound settings
  | refuses listener fresh =>
      have poolless := sound.poolless_of_created listener fresh
      exact h.mark listener rfl rfl rfl rfl fun _ =>
        .inr (sound.unstarted _ _ listener poolless).accepting
  | starts _ listener =>
      refine h.of_listener listener rfl (fun _ => Nat.le_refl _) rfl (fun ended => ?_)
        fun stopped => absurd stopped (Listener.begun_ne _ _ _).2.2
      exact h.vacated _ _ listener (Bool.or_eq_false_iff.mp ended).1
  | connects listener accepting _ _ _ room => exact h.connects listener accepting room
  | cancels listener => exact h.mark listener rfl rfl rfl rfl nofun
  | forsakes listener => exact h.mark listener rfl rfl rfl rfl .inl
  | drops listener => exact h.mark listener rfl rfl rfl rfl .inl
  | leaves listener _ _ alone =>
      exact h.of_listener listener rfl (fun _ => Nat.le_refl _) rfl (fun _ => alone) fun _ => rfl
  | sees listener => exact h.mark listener rfl rfl rfl rfl .inl
  | @aborts s l i x closing p listener closes owner pool expired =>
      have frees := (Shift.aborts listener closes owner pool expired : Shift false s _).frees
      exact h.of_listener listener rfl frees.fewer rfl
        (fun _ => (liveCount_closedBy s.connections l l).trans (if_pos rfl)) fun _ => rfl
  | settles listener closes owner pool seen =>
      have hover := sound.tasksOver_of_seen listener closes owner pool seen
      exact h.mark listener rfl rfl rfl rfl fun _ => .inr (accepting_of_tasksOver hover)
  | fails listener => exact h.mark listener rfl rfl rfl rfl .inl
  | seq first _ ih ih' => exact ih' (ih h sound) (sound.change first)

theorem arrive (h : s.Slotted) (c : Nat) (bytes : List UInt8) : (s.arrive c bytes).Slotted := by
  rcases arrive_cases s c bytes with ⟨-, heq⟩ | ⟨x, connection, heq⟩
  · rw [heq]
    exact h
  · rw [heq]
    exact h.of_fewer rfl (liveCount_set connection rfl rfl id)

theorem run (h : s.Slotted) (sound : s.Sound) {actions : List Action}
    (ha : ∀ a ∈ actions, a.byHand = false) : (s.run actions).Slotted :=
  sound.run_induct ha h (fun _ _ sound change h => h.change sound change) fun _ c bytes h =>
    h.arrive c bytes

end Slotted

/-! ## What a run leaves -/

/-- What a listener that runs does with a client. -/
theorem connect_eq {x : Listener} (listener : s.listeners[l]? = some x)
    (accepting : x.accepting = true) (running : s.isCancelled x = false) :
    s.connect l =
      if s.liveCount l < x.settings.maxConnections then
        (Relay.use { s with connections := s.connections ++ [.opened l x.settings.maxLineLength] }
          MetricName.connectionsActive (.addGauge (Binary64.ofNat 1)), .served s.connections.length)
      else (s.use MetricName.connectionsRejected (.count 1), .rejected) := by
  rw [connect, listener]
  dsimp only
  rw [if_pos ⟨accepting, running⟩]
  rfl

theorem answers (sound : s.Sound) {x : Listener} (listener : s.listeners[l]? = some x)
    (running : x.state = .running) (kept : x.dropped = false)
    (metrics : ∃ value, s.registry.Slots value) : s.Answers l x := by
  obtain ⟨i, owner⟩ := sound.owner_of_running listener running
  obtain ⟨p, pool, life, -⟩ := sound.life_of listener owner
  have heq := connect_eq listener (life.of_running running kept).2.1
    (isCancelled_of_running sound listener running kept)
  refine ⟨⟨fun ⟨c, y, hserved, _⟩ => ?_, fun room => ?_⟩, fun full => ?_⟩
  · by_contra full
    rw [heq, if_neg full] at hserved
    cases hserved
  · rw [heq, if_pos room]
    exact ⟨_, _, rfl, List.getElem?_concat_length, rfl, rfl⟩
  · obtain ⟨value, slots⟩ := metrics
    rw [heq, if_neg full]
    exact ⟨rfl, _, rfl, (Registry.SameBut.refl _ _).apply (List.mem_singleton_self _) _,
      Registry.counter_apply_count _ _ 1 slots.rejected⟩

theorem slotsExact (sound : s.Sound) (slotted : s.Slotted)
    (metrics : ∃ value, s.registry.Slots value) : s.SlotsExact where
  bounded := slotted.bounded
  answers _ _ listener running kept := answers sound listener running kept metrics
  vacated l x listener ended := slotted.vacated l x listener (accepting_of_tasksOver ended)
  ended l x listener state := by
    have accepting := slotted.closed l x listener state
    refine ⟨fun b hb => ?_, slotted.vacated l x listener accepting⟩
    rcases List.mem_append.mp hb with hb | hb
    · rcases Option.eq_none_or_eq_some x.pool with owner | ⟨i, owner⟩
      · simp [pool?, owner] at hb
      · obtain ⟨p, pool, life, -⟩ := sound.life_of listener owner
        have hpool : s.pool? x = some p := by rw [pool?, owner]; exact pool
        rw [hpool] at hb
        obtain ⟨w, hw, rfl⟩ := List.mem_map.mp hb
        exact (life.of_stopped state).2.1.allOver w hw
    · rw [List.mem_singleton.mp hb, accepting]
      rfl

/-- A listener whose token has fired is left by every client once the relay has settled. -/
theorem settleNow_vacates {x : Listener} (sound : s.Sound) (ticks : ∀ r ∈ s.reporters, r.Ticks)
    (listener : s.settleNow.listeners[l]? = some x)
    (cancelled : s.settleNow.isCancelled x = true) :
    s.settleNow.liveCount l = 0 ∧ x.accepting = false := by
  have alone : s.settleNow.liveCount l = 0 := by
    refine List.countP_eq_zero.mpr fun y hy served => ?_
    rw [Bool.and_eq_true, beq_iff_eq] at served
    obtain ⟨c, connection⟩ := List.mem_iff_getElem?.mp hy
    have reason : s.settleNow.listeners[y.listener]?.elim false s.settleNow.isCancelled = true := by
      rw [served.1, listener]
      exact cancelled
    exact Nat.lt_irrefl _ (advanceUntil_late sound.toOrderly ticks (Nat.le_refl _)
      (readOn_mem_agenda connection served.2 (.inl reason))).2
  -- The accepting task only waited for them.
  refine ⟨alone, ?_⟩
  rw [← Bool.not_eq_true]
  intro accepting
  exact Nat.lt_irrefl _ (advanceUntil_late sound.toOrderly ticks (Nat.le_refl _)
    (endAccepting_mem_agenda listener accepting cancelled alone)).2

end

/-- Slots are exact at every moment of a run, also when the relay has settled. No listener
serves more clients than it may. One that runs serves a client if it has a slot left, and
otherwise only counts it. One whose tasks are over serves nobody, and once its token has
fired its clients are gone when the relay has settled. The gauge that all listeners share
tells how many clients they serve, as long as whole numbers of that size are exact. -/
theorem run_keeps_slots (wallClock : Int) (sends : Script SendPlan)
    (checkIns : Script (Option ShippingError)) (actions : List Action)
    (ha : ∀ a ∈ actions, a.byHand = false) :
    let start := create wallClock sends checkIns
    let s := start.run actions
    (∀ t, t = s ∨ t = s.settleNow → t.SlotsExact ∧ (start.Uncrowded actions →
      t.registry.gauge MetricName.connectionsActive = Binary64.ofNat t.openCount)) ∧
    ∀ (l : Nat) (x : Listener), s.settleNow.listeners[l]? = some x →
      s.settleNow.isCancelled x = true → s.settleNow.liveCount l = 0 ∧ x.accepting = false := by
  intro start s
  have first : start.Sound := sound_create wallClock sends checkIns
  have sound : s.Sound := first.run ha
  have ticks : ∀ r ∈ s.reporters, r.Ticks := first.ticking_run ha fun _ hr => nomatch hr
  refine ⟨fun t ht => ?_, fun l x => settleNow_vacates sound ticks⟩
  have few (small : start.Uncrowded actions) (earlier : List Action)
      (hearlier : earlier <+: actions) :
      ((start.run earlier).connections.countP fun x => x.live) ≤ Binary64.wholeLimit := by
    rw [← (first.run fun a h => ha a (hearlier.subset h)).openCount_eq]
    exact small earlier hearlier
  have slotted : s.Slotted := (Slotted.create wallClock sends checkIns).run first ha
  have gauged : s.Gauged (start.Uncrowded actions) :=
    (Gauged.create wallClock sends checkIns).run first ha few
  have hkept : t.Sound ∧ t.Slotted ∧ t.Gauged (start.Uncrowded actions) := by
    rcases ht with rfl | rfl
    · exact ⟨sound, slotted, gauged⟩
    · have settled : Change s s.settleNow := settleNow_change sound.toOrderly
      exact ⟨sound.change settled, slotted.change sound settled,
        gauged.frees (fun small => few small actions (List.prefix_refl _))
          (settleNow_change sound.toOrderly).frees⟩
  obtain ⟨sound', slotted', value, slots, agrees⟩ := hkept
  refine ⟨slotsExact sound' slotted' ⟨value, slots⟩, fun small => ?_⟩
  rw [slots.value, agrees small, sound'.openCount_eq]

/-- Two listeners with one slot each take three clients, and the second one is dropped. -/
def threeClients : List Action :=
  let settings := { ListenerSettings.standard 2878 .graphite with maxConnections := 1 }
  [.addListener settings, .addListener settings, .start 0 (.ok "0.0.0.0:2878"),
    .start 1 (.ok "0.0.0.0:2879"), .connect 0, .connect 0, .connect 1, .dropListener 1]

theorem run_keeps_slots_threeClients :
    let start := create 0 (.always .deliver) (.always none)
    let s := start.run threeClients
    (∀ a ∈ threeClients, a.byHand = false) ∧ start.Uncrowded threeClients ∧
      s.registry.gauge MetricName.connectionsActive = Binary64.ofNat 2 ∧
      s.settleNow.registry.gauge MetricName.connectionsActive = Binary64.ofNat 1 ∧
      s.registry.counter MetricName.connectionsRejected = 1 ∧
      (s.settleNow.connect 0).2 = .rejected ∧ s.settleNow.liveCount 1 = 0 := by
  intro start s
  have small : start.Uncrowded threeClients := by
    have htake : ∀ n ≤ threeClients.length, ((create 0 (.always .deliver)
        (.always none)).run (threeClients.take n)).openCount ≤ Binary64.wholeLimit := by
      decide +kernel
    intro earlier hearlier
    rw [List.prefix_iff_eq_take.mp hearlier]
    exact htake _ hearlier.length_le
  obtain ⟨hslots, hgone⟩ :=
    run_keeps_slots 0 (.always .deliver) (.always none) threeClients (by decide)
  obtain ⟨-, hbefore⟩ := hslots s (.inl rfl)
  obtain ⟨hexact, hafter⟩ := hslots s.settleNow (.inr rfl)
  refine ⟨by decide, small, (hbefore small).trans ?_, (hafter small).trans ?_, ?_, ?_, ?_⟩
  · exact congrArg Binary64.ofNat (by decide +kernel)
  · exact congrArg Binary64.ofNat (by decide +kernel)
  · decide +kernel
  · obtain ⟨x, hx, hstate⟩ := Option.map_eq_some_iff.mp (show
      (s.settleNow.listeners[0]?.map fun x => (x.state, x.dropped, x.settings.maxConnections)) =
        some (.running, false, 1) by decide +kernel)
    simp only [Prod.mk.injEq] at hstate
    refine ((hexact.answers 0 x hx hstate.1 hstate.2.1).rejected ?_).1
    rw [hstate.2.2]
    decide +kernel
  · obtain ⟨x, hx, hfired⟩ := Option.map_eq_some_iff.mp (show
      (s.settleNow.listeners[1]?.map s.settleNow.isCancelled) = some true by decide +kernel)
    exact (hgone 1 x hx hfired).1

end Relay
end MetricsProxy
