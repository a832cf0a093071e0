import MetricsProxy.Proofs.Relay.Aftermath
import MetricsProxy.Proofs.Relay.Hands

/-!
# Starts and stops in any order

A listener goes forward through its states, whatever is asked of it and in which
order (`Shift.leads`). So at most one of its starts succeeds
(`successes_le_chances`), one whose settings are refused is refused for ever, and
one that could not be bound has stopped for good. A start that fails touches
nothing but the state of its listener, and a stop of a listener that does not run
touches nothing at all. Only a start that breaks off leaves something behind, and
its listener is stuck. `LifecycleAt` says all of this about a listener in a relay
that some run has led to, and about what any later run can make of it.
-/
namespace MetricsProxy

theorem ListenerSettings.validate_error {settings : ListenerSettings} {e : ListenerError}
    (h : settings.validate = .error e) : ∃ detail, e = .invalidConfig detail := by
  unfold validate at h
  repeat' split at h
  all_goals first | exact ⟨_, (Except.error.inj h).symm⟩ | cases h

namespace Relay
variable {s : Relay} {l : Nat} {x : Listener}

/-! ## What a start and a stop do -/

theorem start_of_late (listener : s.listeners[l]? = some x) (late : x.state ≠ .created)
    (answer : Except String String) :
    s.start l answer = (s, some (.error (.invalidState x.state .created))) := by
  rw [start, listener]
  exact if_pos late

theorem start_of_invalid (listener : s.listeners[l]? = some x) (fresh : x.state = .created)
    {e : ListenerError} (invalid : x.settings.validate = .error e)
    (answer : Except String String) : s.start l answer = (s, some (.error e)) := by
  rw [start, listener]
  dsimp only
  rw [if_neg (not_not_intro fresh), invalid]

theorem start_of_unbound (listener : s.listeners[l]? = some x) (fresh : x.state = .created)
    (valid : x.settings.validate = .ok ()) (reason : String) :
    s.start l (.error reason) =
      ({ s with listeners := s.listeners.set l { x with state := .stopped } },
        some (.error (.bind x.settings.address reason))) := by
  rw [start, listener]
  dsimp only
  rw [if_neg (not_not_intro fresh), valid]
  dsimp only
  rw [modifyListener_eq listener]

theorem start_of_bound (listener : s.listeners[l]? = some x) (fresh : x.state = .created)
    (valid : x.settings.validate = .ok ())
    (within : x.settings.maxConnections ≤ Semaphore.maxPermits) (address : String) :
    (s.start l (.ok address)).2 = some (.ok ()) ∧
      ∃ y, (s.start l (.ok address)).1.listeners[l]? = some y ∧ y.state = .running ∧
        y.bound = some address := by
  have hl : l < s.listeners.length := (List.getElem?_eq_some_iff.mp listener).choose
  obtain ⟨registry, workers, -, -, -, -, -, heq⟩ := start_eq_begun listener fresh valid address
  rw [heq]
  exact ⟨if_pos within, _, List.getElem?_set_self hl, if_pos within, rfl⟩

/-- A start that breaks off has made a pool and staffed it. -/
theorem start_of_beyond (listener : s.listeners[l]? = some x) (fresh : x.state = .created)
    (valid : x.settings.validate = .ok ())
    (beyond : Semaphore.maxPermits < x.settings.maxConnections) (address : String) :
    ∃ t workers, s.start l (.ok address) = (t, none) ∧
      t.pools = s.pools ++ [.staffed x.settings workers] ∧
      workers.length = x.settings.flushThreads ∧
      (∀ w ∈ workers, w.Started x.settings.flushInterval) ∧
      t.registry = s.registerFlushMetrics.registry ∧
      t.listeners[l]? = some (x.begun address s.pools.length) ∧
      (x.begun address s.pools.length).state = .starting := by
  have hl : l < s.listeners.length := (List.getElem?_eq_some_iff.mp listener).choose
  have hbeyond := Nat.not_le_of_lt beyond
  obtain ⟨-, -, positive, -⟩ := (ListenerSettings.validate_eq_ok_iff _).mp valid
  obtain ⟨registry, workers, -, -, left, hlength, hnew, heq⟩ :=
    start_eq_begun listener fresh valid address
  rw [if_neg hbeyond] at heq
  exact ⟨_, workers, heq, rfl, hlength, fun w hw => (hnew w hw).started positive, left beyond,
    List.getElem?_set_self hl, if_neg hbeyond⟩

theorem beginStop_of_ne (listener : s.listeners[l]? = some x) (state : x.state ≠ .running) :
    s.beginStop l = s := by
  rw [beginStop, listener]
  dsimp only
  split
  · contradiction
  · rfl

/-- A stop that has nothing to wait for only lets happen what is due. -/
theorem stop_of_ne (listener : s.listeners[l]? = some x) (state : x.state ≠ .running)
    (closing : x.closing = none) : (s.stop l).1 = s.settleNow := by
  have enough : (!s.isClosing l) = true := by simp [isClosing, listener, closing]
  have hadvance (limit : Nat) : s.advanceUntil limit (fun s => !s.isClosing l) = s := by
    unfold advanceUntil
    cases s.budget limit with
    | zero => rfl
    | succ n => rw [follow, if_pos enough]
  rw [stop, beginStop_of_ne listener state]
  dsimp only
  rw [hadvance]

theorem stop_run (s : Relay) (l : Nat) : ∃ actions, (s.stop l).1 = s.run actions := by
  obtain ⟨actions, -, heq⟩ := stop_reaches s l
  exact ⟨.beginStop l :: actions, heq⟩

/-! ## How often a listener starts -/

def succeeds (s : Relay) (l : Nat) : Action → Bool
  | .start m answer => m == l && (s.listeners[l]?).isSome && (s.start l answer).2 == some (.ok ())
  | _ => false

def successes (l : Nat) (s : Relay) : List Action → Nat
  | [] => 0
  | a :: as => (if s.succeeds l a then 1 else 0) + successes l (s.step a) as

/-- How many starts of listener `l` may still succeed. -/
def chances (s : Relay) (l : Nat) : Nat :=
  if s.listeners[l]?.all fun x => x.state == .created then 1 else 0

theorem chances_le_one (s : Relay) (l : Nat) : s.chances l ≤ 1 := by
  unfold chances
  split <;> decide

theorem chances_step (h : s.Tended) (a : Action) : (s.step a).chances l ≤ s.chances l := by
  cases hx : s.listeners[l]? with
  | none =>
      have hone : s.chances l = 1 := by simp [chances, hx]
      exact hone ▸ chances_le_one _ l
  | some x =>
      by_cases fresh : x.state = .created
      · have hone : s.chances l = 1 := by simp [chances, hx, fresh]
        exact hone ▸ chances_le_one _ l
      · obtain ⟨y, hy, leads⟩ := (step_does h a).leads h l x hx
        have hnone : (s.step a).chances l = 0 := by
          simp [chances, hy, leads.ne_created fresh]
        omega

theorem succeeds_chances {a : Action} (h : s.succeeds l a = true) :
    s.chances l = 1 ∧ (s.step a).chances l = 0 := by
  cases a with
  | start m answer =>
      simp only [succeeds, Bool.and_eq_true, beq_iff_eq, Option.isSome_iff_exists] at h
      obtain ⟨⟨rfl, x, listener⟩, succeeded⟩ := h
      by_cases fresh : x.state = .created
      · refine ⟨by simp [chances, listener, fresh], ?_⟩
        cases hvalid : x.settings.validate with
        | error e =>
            rw [start_of_invalid listener fresh hvalid] at succeeded
            cases succeeded
        | ok u =>
            cases answer with
            | error reason =>
                rw [start_of_unbound listener fresh hvalid] at succeeded
                cases succeeded
            | ok address =>
                by_cases within : x.settings.maxConnections ≤ Semaphore.maxPermits
                · obtain ⟨-, y, hy, running, -⟩ :=
                    start_of_bound listener fresh hvalid within address
                  simp [chances, step, hy, running]
                · obtain ⟨t, workers, heq, -⟩ :=
                    start_of_beyond listener fresh hvalid (Nat.lt_of_not_le within) address
                  rw [heq] at succeeded
                  cases succeeded
      · rw [start_of_late listener fresh] at succeeded
        cases succeeded
  | _ => cases h

theorem successes_le_chances (h : s.Tended) (actions : List Action) :
    successes l s actions ≤ s.chances l := by
  induction actions generalizing s with
  | nil => exact Nat.zero_le _
  | cons a as ih =>
      have hrest := ih (h.step a)
      rw [successes]
      by_cases succeeded : s.succeeds l a = true
      · obtain ⟨hbefore, hafter⟩ := succeeds_chances succeeded
        rw [if_pos succeeded]
        omega
      · have hstep := chances_step (l := l) h a
        rw [if_neg succeeded]
        omega

/-! ## The way of a listener -/

/-- A listener that has nothing: no flush pool, so neither buffer nor workers, and no task
that accepts connections. -/
structure Bare (s : Relay) (x : Listener) : Prop where
  pool : x.pool = none
  tasks : ∀ b ∈ s.tasksOver x, b = true

theorem bare_of_unstarted (h : x.Unstarted) (pool : x.pool = none) : s.Bare x := by
  refine ⟨pool, fun b hb => ?_⟩
  simpa [tasksOver, pool?, pool, h.accepting] using hb

/-- What can be asked of listener `l`, which is `x`, and what becomes of it. -/
structure LifecycleAt (s : Relay) (l : Nat) (x : Listener) : Prop where
  /-- It only goes forward. -/
  forward : ∀ later : List Action, ∃ y, (s.run later).listeners[l]? = some y ∧
    y.settings = x.settings ∧ x.state.rank ≤ y.state.rank
  /-- It is started once. -/
  late : x.state ≠ .created → ∀ answer,
    s.start l answer = (s, some (.error (.invalidState x.state .created)))
  /-- Settings that are refused are refused for ever, and nothing else changes. -/
  invalid : x.state = .created → ∀ e, x.settings.validate = .error e →
    (∃ detail, e = .invalidConfig detail) ∧
      ∀ (later : List Action) (answer : Except String String),
        (∃ y, (s.run later).listeners[l]? = some y ∧ y.state = .created ∧ (s.run later).Bare y) ∧
          (s.run later).start l answer = (s.run later, some (.error e))
  /-- A listener that cannot be bound has stopped for good and has nothing. -/
  unbound : x.state = .created → x.settings.validate = .ok () → ∀ reason : String,
    ∃ t : Relay, s.start l (.error reason) = (t, some (.error (.bind x.settings.address reason))) ∧
      t = { s with listeners := s.listeners.set l { x with state := .stopped } } ∧
      ∀ later : List Action, ∃ y, (t.run later).listeners[l]? = some y ∧ y.state = .stopped ∧
        (t.run later).Bare y
  /-- A listener that can be bound runs, as long as its connections can be counted. -/
  bound : x.state = .created → x.settings.validate = .ok () →
    x.settings.maxConnections ≤ Semaphore.maxPermits → ∀ address : String,
    ∃ t : Relay, s.start l (.ok address) = (t, some (.ok ())) ∧
      ∃ y, t.listeners[l]? = some y ∧ y.state = .running ∧ y.bound = some address
  /-- If they cannot, the start has no answer. It leaves a pool with its workers and has
  registered metrics, and the listener is in its start for ever. -/
  broken : x.state = .created → x.settings.validate = .ok () →
    Semaphore.maxPermits < x.settings.maxConnections → ∀ address : String,
    ∃ (t : Relay) (workers : List Worker), s.start l (.ok address) = (t, none) ∧
      t.pools = s.pools ++ [.staffed x.settings workers] ∧
      workers.length = x.settings.flushThreads ∧
      (∀ w ∈ workers, w.Started x.settings.flushInterval) ∧
      t.registry = s.registerFlushMetrics.registry ∧
      ∀ later : List Action, ∃ y, (t.run later).listeners[l]? = some y ∧ y.state = .starting ∧
        y.pool = some s.pools.length
  /-- A stop is a run, but for a listener that runs it is none. -/
  stops : ∃ actions : List Action, (s.stop l).1 = s.run actions
  unstoppable : x.state ≠ .running → s.beginStop l = s ∧
    (x.closing = none → (s.stop l).1 = s.settleNow)

theorem Tended.lifecycleAt (h : s.Tended) (listener : s.listeners[l]? = some x) :
    s.LifecycleAt l x where
  forward later := by
    obtain ⟨y, hy, leads⟩ := h.run_leads later l x listener
    exact ⟨y, hy, leads.settings, leads.forward⟩
  late := start_of_late listener
  invalid fresh e invalid := by
    refine ⟨ListenerSettings.validate_error invalid, fun later answer => ?_⟩
    obtain ⟨y, hy, leads⟩ := h.run_leads later l x listener
    have held := leads.held fresh fun valid => by cases invalid.symm.trans valid
    have after := h.run later l y hy
    have poolless := after.fresh held
    exact ⟨⟨y, hy, held, bare_of_unstarted (after.unstarted poolless) poolless⟩,
      start_of_invalid hy held (leads.settings ▸ invalid) answer⟩
  unbound fresh valid reason := by
    refine ⟨_, start_of_unbound listener fresh valid reason, rfl, fun later => ?_⟩
    have hl : l < s.listeners.length := (List.getElem?_eq_some_iff.mp listener).choose
    -- The way of the listener goes on from where the failed start has left it.
    have hstep := h.step (.start l (.error reason))
    rw [Relay.step, start_of_unbound listener fresh valid reason] at hstep
    obtain ⟨y, hy, leads⟩ := hstep.run_leads later l _ (List.getElem?_set_self hl)
    have after := hstep.run later l y hy
    have poolless : y.pool = none :=
      (leads.pool fun created => by cases created).trans ((h l x listener).fresh fresh)
    exact ⟨y, hy, leads.stopped rfl, bare_of_unstarted (after.unstarted poolless) poolless⟩
  bound fresh valid within address := by
    obtain ⟨succeeded, y, hy, running, bound⟩ := start_of_bound listener fresh valid within address
    exact ⟨_, Prod.ext rfl succeeded, y, hy, running, bound⟩
  broken fresh valid beyond address := by
    obtain ⟨t, workers, heq, pools, staff, started, registry, hx, starting⟩ :=
      start_of_beyond listener fresh valid beyond address
    refine ⟨t, workers, heq, pools, staff, started, registry, fun later => ?_⟩
    have hstep := h.step (.start l (.ok address))
    rw [Relay.step, heq] at hstep
    obtain ⟨y, hy, leads⟩ := hstep.run_leads later l _ hx
    exact ⟨y, hy, leads.stuck starting,
      leads.pool fun created => by cases starting.symm.trans created⟩
  stops := stop_run s l
  unstoppable state := ⟨beginStop_of_ne listener state, stop_of_ne listener state⟩

/-- Of three listeners the first one has settings that are refused, the second one finds
its port taken, and the third one is started twice. -/
def threeStarts : List Action :=
  let refused := { ListenerSettings.standard 2878 .graphite with flushThreads := 0 }
  [.addListener refused, .addListener (.standard 2879 .graphite),
    .addListener (.standard 4242 .openTsdb), .start 0 (.ok "0.0.0.0:2878"),
    .start 1 (.error "address in use"), .start 2 (.ok "0.0.0.0:4242"),
    .start 2 (.ok "0.0.0.0:4242")]

end Relay
end MetricsProxy
