import MetricsProxy.Proofs.Relay.Progress
import MetricsProxy.Proofs.Relay.Turns

/-!
# The pace of a worker

A worker that takes each tick as soon as it is due, or as soon as it is free again,
flushes at instants that follow from when it started, from its interval and from how
long its own sends take: a `Pace` goes through them. `Punctual` says of a run that no
time passes while the worker has something to do, and following the agenda is such a
run (`advance_punctual`). In every such run, whatever else happens in it, the flushes of
a worker come at the instants of its pace (`worker_keeps_pace`).
-/
namespace MetricsProxy
open Journal

/-! ## Instants -/

/-- When a worker can flush next: its tick must be due and its last flush over. -/
structure Pace where
  ticker : Ticker
  free : Nat

namespace Pace

def start (now interval : Nat) : Pace := ⟨.start now interval, now⟩

def next (c : Pace) : Nat := max c.ticker.due c.free

/-- After a flush that takes this long. -/
def after (c : Pace) (duration : Nat) : Pace := ⟨c.ticker.take c.next, c.next + duration⟩

/-- When a worker that started at `now` flushes, once its flushes so far have taken this
long, oldest first. -/
def instant (now interval : Nat) (durations : List Nat) : Nat :=
  (durations.foldl after (start now interval)).next

/-- A worker's flushes come when it can flush next. -/
def Times : Pace → List Turn → Prop
  | _, [] => True
  | c, a :: as => a.time = c.next ∧ (c.after a.duration).Times as

def afterAll (c : Pace) (turns : List Turn) : Pace := (turns.map Turn.duration).foldl after c

variable {c : Pace} {turns : List Turn} {a : Turn}

theorem instant_nil (now interval : Nat) : instant now interval [] = now + interval :=
  Nat.max_eq_left (Nat.le_add_right now interval)

theorem add_duration_le_next_after (c : Pace) (duration : Nat) :
    c.next + duration ≤ (c.after duration).next := Nat.le_max_right _ _

/-- The next flush waits for a tick, which is due a period later less the tolerance. -/
theorem add_period_le_next_after (c : Pace) (duration : Nat) :
    c.next + c.ticker.period ≤ (c.after duration).next + Ticker.tolerance := by
  have hdue := c.ticker.sub_tolerance_le_due_take c.next
  have hnext : (c.ticker.take c.next).due ≤ (c.after duration).next := Nat.le_max_left _ _
  omega

theorem period_afterAll (c : Pace) (turns : List Turn) :
    (c.afterAll turns).ticker.period = c.ticker.period := by
  induction turns generalizing c with
  | nil => rfl
  | cons a as ih => exact ih (c.after a.duration)

theorem afterAll_append (c : Pace) (turns more : List Turn) :
    c.afterAll (turns ++ more) = (c.afterAll turns).afterAll more := by
  rw [afterAll, List.map_append, List.foldl_append]
  rfl

theorem Times.append {more : List Turn} (h : c.Times turns)
    (h' : (c.afterAll turns).Times more) : c.Times (turns ++ more) := by
  induction turns generalizing c with
  | nil => exact h'
  | cons a as ih => exact ⟨h.1, ih h.2 h'⟩

theorem Times.time_eq (h : c.Times turns) {k : Nat} (turn : turns[k]? = some a) :
    a.time = (c.afterAll (turns.take k)).next := by
  induction turns generalizing c k with
  | nil => cases turn
  | cons b bs ih =>
      cases k with
      | zero =>
          obtain rfl := Option.some.inj turn
          exact h.1
      | succ k => exact ih h.2 turn

/-- Two flushes, one after the other. -/
theorem Times.spaced (h : c.Times turns) {k : Nat} {b : Turn} (first : turns[k]? = some a)
    (second : turns[k + 1]? = some b) :
    a.time + a.duration ≤ b.time ∧ a.time + c.ticker.period ≤ b.time + Ticker.tolerance := by
  have htake : turns.take (k + 1) = turns.take k ++ [a] := by
    rw [List.take_add_one, first]
    rfl
  have hnext : b.time = ((c.afterAll (turns.take k)).after a.duration).next := by
    rw [h.time_eq second, htake, afterAll_append]
    rfl
  rw [hnext, h.time_eq first, ← c.period_afterAll (turns.take k)]
  exact ⟨add_duration_le_next_after _ _, add_period_le_next_after _ _⟩

end Pace

/-- What flushes enter into the journal, newest first. -/
def Turn.history (o : Origin) (turns : List Turn) : List Event :=
  turns.reverse.flatMap (Turn.events o)

theorem Turn.history_append (o : Origin) (turns more : List Turn) :
    Turn.history o (turns ++ more) = Turn.history o more ++ Turn.history o turns := by
  simp [Turn.history]

namespace Relay

/-! ## Runs in time -/

/-- In a run from `s` no time passes over an entry of worker `j` of pool `i`. -/
def Punctual (i j : Nat) (s : Relay) : List Action → Prop
  | [] => True
  | a :: as =>
      (∀ d, a = .wait d → ∀ e ∈ s.agenda, e.action = .tick i j ∨ e.action = .deliver i j →
        s.now + d ≤ e.time) ∧ Punctual i j (s.step a) as

variable {s s' : Relay} {i j : Nat} {p : FlushPool} {w w' : Worker} {c : Pace}
  {left : List Event}

theorem Punctual.append {as bs : List Action} (h : Punctual i j s as)
    (h' : Punctual i j (s.run as) bs) : Punctual i j s (as ++ bs) := by
  induction as generalizing s with
  | nil => exact h'
  | cons a as ih => exact ⟨h.1, ih h.2 h'⟩

/-- Following the agenda is a punctual run for every worker. -/
theorem advance_punctual (orderly : s.Orderly) (ticks : ∀ r ∈ s.reporters, r.Ticks) {time : Nat}
    (early : s.now ≤ time) :
    ∃ actions, s.advance time = s.run actions ∧ ∀ i j, Punctual i j s actions := by
  obtain ⟨before, punctual, heq, hadvance⟩ := s.advance_run time
    (motive := fun before => ∀ i j, Punctual i j s before) (fun _ _ => trivial) <| by
      intro before e punctual next i j
      obtain ⟨scheduled, -, -⟩ := of_next? next
      refine (punctual i j).append ⟨fun d hd f hf _ => ?_, fun d hd => ?_, trivial⟩
      · obtain rfl := Action.wait.inj hd
        rw [Nat.add_sub_of_le scheduled.now_le]
        exact time_le_of_next? next hf
      · exact absurd hd (scheduled.timeless d)
  refine ⟨_, hadvance, fun i j => (punctual i j).append ⟨fun d hd f hf _ => ?_, trivial⟩⟩
  obtain rfl := Action.wait.inj hd
  rw [← heq] at hf ⊢
  have late := advanceUntil_late orderly ticks early hf
  omega

/-! ## Keeping pace -/

/-- Where worker `j` of pool `i` stands in its pace, and what is still missing of its
flushes: the return of the last one, until it comes. -/
inductive Paced (s : Relay) (i j : Nat) (c : Pace) : Worker → List Event → Prop where
  | waits {w : Worker} (idle : w.phase = .idle) (ticker : w.ticker = c.ticker)
      (free : c.free ≤ s.now) (onTime : s.fired (.worker i j) = false → s.now ≤ c.next) :
      Paced s i j c w []
  | sends {w : Worker} {flight : Flight} (sends : w.phase = .sending flight)
      (ticker : w.ticker = c.ticker) (ends : flight.ends = c.free) (onTime : s.now ≤ c.free) :
      Paced s i j c w [.returned (.worker i j) c.free flight.result]
  | finished {w : Worker} {left : List Event} (finished : w.phase.isOver = true)
      (short : left.length ≤ 1) : Paced s i j c w left

namespace Paced

theorem of_new {interval : Nat} (new : w.New s.now interval) :
    s.Paced i j (.start s.now interval) w [] := by
  by_cases hinterval : interval = 0
  · exact .finished (by rw [new.phase, if_pos hinterval]; rfl) (Nat.zero_le _)
  · refine .waits (new.phase.trans (if_neg hinterval)) new.ticker (Nat.le_refl _) fun _ => ?_
    exact Nat.le_max_right _ _

theorem short (h : s.Paced i j c w left) : left.length ≤ 1 := by
  cases h with
  | waits => exact Nat.zero_le _
  | sends => exact Nat.le_refl _
  | finished _ short => exact short

theorem spared (h : s.Paced i j c w left) (now : s'.now = s.now)
    (fired : s.fired (.worker i j) = true → s'.fired (.worker i j) = true) :
    s'.Paced i j c w left := by
  cases h with
  | waits idle ticker free onTime =>
      refine .waits idle ticker (now ▸ free) fun hf => now ▸ onTime ?_
      exact Bool.not_eq_true _ ▸ fun h => Bool.false_ne_true (hf.symm.trans (fired h))
  | sends sends ticker ends onTime => exact .sends sends ticker ends (now ▸ onTime)
  | finished finished short => exact .finished finished short

theorem wait (h : s.Paced i j c w left) (pool : s.pools[i]? = some p)
    (worker : p.workers[j]? = some w) {d : Nat}
    (onTime : ∀ e ∈ s.agenda, e.action = .tick i j ∨ e.action = .deliver i j → s.now + d ≤ e.time) :
    Paced { s with now := s.now + d } i j c w left := by
  cases h with
  | waits idle ticker free early =>
      refine .waits idle ticker (Nat.le_add_right_of_le free) fun unfired => ?_
      have running : p.cancelled = false := (fired_worker pool j).symm.trans unfired
      have hentry := onTime _ (tick_mem_agenda pool worker running idle) (.inl rfl)
      have hnow := early unfired
      have hdue : c.ticker.due ≤ c.next := Nat.le_max_left _ _
      rw [ticker] at hentry
      dsimp only at hentry ⊢
      omega
  | sends sends ticker ends early =>
      refine .sends sends ticker ends ?_
      have hentry := onTime _ (deliver_mem_agenda pool worker sends) (.inr rfl)
      rw [ends] at hentry
      dsimp only at hentry ⊢
      omega
  | finished finished short => exact .finished finished short

theorem ticks (h : s.Paced i j c w left) (pool : s.pools[i]? = some p) (ticks : s.Ticks p w) :
    left = [] ∧ w.ticker = c.ticker ∧ s.now = c.next := by
  obtain ⟨running, idle, due⟩ := ticks
  cases h with
  | waits _ ticker free onTime =>
      refine ⟨rfl, ticker, Nat.le_antisymm (onTime ?_) ?_⟩
      · exact (fired_worker pool j).trans running
      · rw [ticker] at due
        exact Nat.max_le.mpr ⟨due, free⟩
  | sends sends => rw [idle] at sends; cases sends
  | finished finished => rw [idle] at finished; cases finished

/-- After a flush that takes no time the worker waits for its next tick. -/
theorem after_flush (ticker : w.ticker = c.ticker) (next : s'.now = c.next) (ticket : Nat) :
    s'.Paced i j (c.after 0) ⟨w.ticker.take c.next, .idle, ticket⟩ [] := by
  refine .waits rfl (congrArg (Ticker.take · c.next) ticker) (Nat.le_of_eq next.symm) fun _ => ?_
  rw [next]
  exact Nat.le_max_right _ _

end Paced

/-- From `s` to `s'` the worker keeps its pace with these flushes and then is `w'`. -/
structure KeepsPace (s : Relay) (i j : Nat) (c : Pace) (left : List Event) (flushes : List Turn)
    (s' : Relay) (w' : Worker) (left' : List Event) : Prop where
  times : c.Times flushes
  task : s'.task? (.worker i j) = some w'
  paced : s'.Paced i j (c.afterAll flushes) w' left'
  /-- The flushes are in the journal, but for what is still missing. -/
  history : left' ++ own (.worker i j) s'.journal =
    Turn.history (.worker i j) flushes ++ (left ++ own (.worker i j) s.journal)

namespace KeepsPace
variable {events left' left'' : List Event} {flushes more : List Turn} {s'' : Relay}
  {w'' : Worker}

theorem trans (h : s.KeepsPace i j c left flushes s' w' left')
    (h' : s'.KeepsPace i j (c.afterAll flushes) left' more s'' w'' left'') :
    s.KeepsPace i j c left (flushes ++ more) s'' w'' left'' where
  times := h.times.append h'.times
  task := h'.task
  paced := by
    rw [Pace.afterAll_append]
    exact h'.paced
  history := by rw [h'.history, h.history, Turn.history_append, List.append_assoc]

/-- Without a flush the pace stays, and what is entered was missing. -/
theorem quiet (moved : Moved (.worker i j) s s' events w') (paced : s'.Paced i j c w' left')
    (missing : left' ++ events = left) : s.KeepsPace i j c left [] s' w' left' where
  times := trivial
  task := moved.task
  paced := paced
  history := by
    rw [moved.own, ← missing, ← List.append_assoc]
    rfl

/-- With a flush the tick is taken just now, and the pace goes on from here. -/
theorem flush (h : s.Paced i j c w left) (pool : s.pools[i]? = some p) (ticks : s.Ticks p w)
    (moved : Moved (.worker i j) s s' events w')
    (paced : w.ticker = c.ticker → s.now = c.next →
      s'.Paced i j (c.after (s.turn p).duration) w' left')
    (missing : left' ++ events = (s.turn p).events (.worker i j)) :
    s.KeepsPace i j c left [s.turn p] s' w' left' := by
  obtain ⟨rfl, ticker, next⟩ := h.ticks pool ticks
  refine ⟨⟨next, trivial⟩, moved.task, paced ticker next, ?_⟩
  rw [moved.own, ← List.append_assoc, missing]
  simp [Turn.history]

end KeepsPace

/-- What an action makes of a worker and of its pace. -/
theorem Paced.step (h : s.Paced i j c w left) (pool : s.pools[i]? = some p)
    (worker : p.workers[j]? = some w) (a : Action)
    (onTime : ∀ d, a = .wait d → ∀ e ∈ s.agenda,
      e.action = .tick i j ∨ e.action = .deliver i j → s.now + d ≤ e.time) :
    ∃ w' left', s.KeepsPace i j c left (s.turn? i j a).toList (s.step a) w' left' := by
  by_cases timeless : ∃ d, a = .wait d
  · obtain ⟨d, rfl⟩ := timeless
    have waits := ((Spares.refl s).moved (task?_worker pool worker)).waits (s.now + d)
    exact ⟨w, left, .quiet waits (h.wait pool worker (onTime d rfl)) (List.append_nil _)⟩
  have now : (s.step a).now = s.now := step_now s fun d hd => timeless ⟨d, hd⟩
  obtain ⟨events, w', moved, move⟩ := step_worker pool worker a
  cases move with
  | spared _ other =>
      rw [other]
      exact ⟨w, left, .quiet moved (h.spared now moved.fired) (List.append_nil _)⟩
  | idles ticket ticks empty =>
      rw [turn?_tick pool worker ticks]
      refine ⟨_, [], .flush h pool ticks moved (fun ticker next => ?_) ?_⟩
      · rw [s.duration_turn_of_empty empty, next]
        exact after_flush ticker (now.trans next) ticket
      · exact (s.events_turn_of_empty _ empty).symm
  | sends ticket ticks full atOnce =>
      rw [turn?_tick pool worker ticks]
      refine ⟨_, [], .flush h pool ticks moved (fun ticker next => ?_) ?_⟩
      · rw [s.duration_turn_of_full full, atOnce, next]
        exact after_flush ticker (now.trans next) ticket
      · rw [s.events_turn_of_full _ full, nextFlight, atOnce]
        rfl
  | begins ticket ticks full lasting =>
      rw [turn?_tick pool worker ticks]
      have hends (next : s.now = c.next) : (s.nextFlight ⟨p.nextPoints⟩).ends =
          (c.after (s.turn p).duration).free := by
        rw [s.duration_turn_of_full full, Pace.after, ← next]
        rfl
      refine ⟨_, _, .flush h pool ticks moved (fun ticker next => .sends rfl ?_ (hends next) ?_) ?_⟩
      · exact congrArg₂ Ticker.take ticker next
      · rw [now, ← hends next]
        exact Nat.le_add_right _ _
      · rw [s.events_turn_of_full _ full, ← hends (h.ticks pool ticks).2.2]
        rfl
  | lands ticket sends elapsed =>
      cases h with
      | waits idle => rw [idle] at sends; cases sends
      | sends sends' ticker ends onTime' =>
          obtain rfl := Phase.sending.inj (sends.symm.trans sends')
          have hnow : s.now = c.free := Nat.le_antisymm onTime' (ends ▸ elapsed)
          refine ⟨_, [], .quiet moved (.waits rfl ticker ?_ fun _ => ?_) ?_⟩
          · exact Nat.le_of_eq (hnow.symm.trans now.symm)
          · rw [now, hnow]
            exact Nat.le_max_right _ _
          · rw [hnow]
            rfl
      | finished finished => rw [sends] at finished; cases finished
  | quits cancelled idle =>
      exact ⟨_, left, .quiet moved (.finished rfl h.short) (List.append_nil _)⟩
  | cut reason awake =>
      have none : s.turn? i j a = none := by
        cases reason <;> rfl
      rw [none]
      exact ⟨_, left, .quiet moved (.finished rfl h.short) (List.append_nil _)⟩

theorem Paced.run (h : s.Paced i j c w left) (task : s.task? (.worker i j) = some w)
    {actions : List Action} (punctual : Punctual i j s actions) :
    ∃ w' left', s.KeepsPace i j c left (s.turns i j actions) (s.run actions) w' left' := by
  induction actions generalizing s c w left with
  | nil =>
      exact ⟨w, left, .quiet ((Spares.refl s).moved task) h (List.append_nil _)⟩
  | cons a as ih =>
      obtain ⟨p, pool, worker⟩ := worker?_eq_some task
      obtain ⟨v, between, first⟩ := h.step pool worker a punctual.1
      obtain ⟨w', left', rest⟩ := ih first.paced first.task punctual.2
      exact ⟨w', left', first.trans rest⟩

/-! ## New workers -/

theorem new_of_spawn (pool : s.pools[i]? = some p) {n : Nat} (beyond : p.workers.length ≤ j)
    (within : j < p.workers.length + n) :
    ∃ w, (s.step (.spawn i n)).task? (.worker i j) = some w ∧
      w.New (s.step (.spawn i n)).now p.interval := by
  have hi : i < s.pools.length := (List.getElem?_eq_some_iff.mp pool).choose
  obtain ⟨workers, hlength, hnew, heq⟩ := spawnWorkers_eq pool n
  have hj : j - p.workers.length < workers.length := by omega
  rw [Relay.step, heq]
  refine ⟨_, task?_worker (List.getElem?_set_self hi) ?_, hnew _ (List.getElem_mem hj)⟩
  rw [List.getElem?_append_right beyond]
  exact List.getElem?_eq_getElem hj

theorem new_of_start {l : Nat} {x : Listener} (listener : s.listeners[l]? = some x)
    (fresh : x.state = .created) (valid : x.settings.validate = .ok ()) (address : String)
    (within : j < x.settings.flushThreads) :
    ∃ w, (s.step (.start l (.ok address))).task? (.worker s.pools.length j) = some w ∧
      w.New (s.step (.start l (.ok address))).now x.settings.flushInterval := by
  obtain ⟨registry, workers, -, -, -, hlength, hnew, heq⟩ :=
    start_eq_begun listener fresh valid address
  have hj : j < workers.length := hlength ▸ within
  rw [Relay.step, heq]
  exact ⟨_, task?_worker List.getElem?_concat_length (List.getElem?_eq_getElem hj),
    hnew _ (List.getElem_mem hj)⟩

/-- A worker that starts now, with a pool's new workers or with a listener, flushes at
instants that follow from now, its interval and how long its own sends take, as long as it
takes its ticks when it can: first after one interval, then each time when its last flush is
over and not earlier than an interval less the tolerance after it began. Following the
agenda goes on like this. -/
theorem worker_keeps_pace (wallClock : Int) (sends : Script SendPlan)
    (checkIns : Script (Option ShippingError)) (before : List Action) :
    let s := (create wallClock sends checkIns).run before
    (∀ (i : Nat) (p : FlushPool) (n j : Nat), s.pools[i]? = some p → p.workers.length ≤ j →
      j < p.workers.length + n → ∃ w, (s.step (.spawn i n)).task? (.worker i j) = some w ∧
        w.New (s.step (.spawn i n)).now p.interval) ∧
    (∀ (l : Nat) (x : Listener) (address : String) (j : Nat), s.listeners[l]? = some x →
      x.state = .created → x.settings.validate = .ok () → j < x.settings.flushThreads →
      ∃ w, (s.step (.start l (.ok address))).task? (.worker s.pools.length j) = some w ∧
        w.New (s.step (.start l (.ok address))).now x.settings.flushInterval) ∧
    ∀ (i j : Nat) (w : Worker) (interval : Nat), s.task? (.worker i j) = some w →
      w.New s.now interval → ∀ actions, s.Punctual i j actions →
        let flushes := s.turns i j actions
        (∃ w' left, s.KeepsPace i j (.start s.now interval) [] flushes (s.run actions) w' left) ∧
        (∀ k a, flushes[k]? = some a →
          a.time = Pace.instant s.now interval ((flushes.take k).map Turn.duration)) ∧
        (∀ a, flushes[0]? = some a → a.time = s.now + interval) ∧
        (∀ k a b, flushes[k]? = some a → flushes[k + 1]? = some b →
          a.time + a.duration ≤ b.time ∧ a.time + interval ≤ b.time + Ticker.tolerance) ∧
        ∀ time, (s.run actions).now ≤ time → ∃ more,
          (s.run actions).advance time = s.run (actions ++ more) ∧
            s.Punctual i j (actions ++ more) := by
  intro s
  have reachable : s.Reachable := ⟨wallClock, sends, checkIns, before, rfl⟩
  refine ⟨fun i p n j pool beyond within => new_of_spawn pool beyond within,
    fun l x address j listener fresh valid within =>
      new_of_start listener fresh valid address within, ?_⟩
  intro i j w interval task new actions punctual flushes
  obtain ⟨w', left, keeps⟩ := (Paced.of_new new).run task punctual
  have instants (k : Nat) (a : Turn) (h : flushes[k]? = some a) :
      a.time = Pace.instant s.now interval ((flushes.take k).map Turn.duration) :=
    keeps.times.time_eq h
  refine ⟨⟨w', left, keeps⟩, instants, fun a h => ?_, fun k a b ha hb => ?_, fun time early => ?_⟩
  · exact (instants 0 a h).trans (Pace.instant_nil _ _)
  · exact keeps.times.spaced ha hb
  · have reached := reachable.run actions
    obtain ⟨more, heq, onTime⟩ := advance_punctual reached.orderly reached.ticking early
    exact ⟨more, by rw [heq, run_append], punctual.append (onTime i j)⟩

/-- Two workers of a pool, whose sends take longer than two intervals. -/
def slowSends : List Action :=
  [.wait 1000, .tick 0 0, .tick 0 1, .wait 2500, .deliver 0 0, .tick 0 0]

theorem worker_keeps_pace_slowSends :
    let point := Point.make "m" (.ofNat 1) 1 .empty
    let s := (create 0 (.always ⟨2500, none⟩) (.always none)).run
      [.addPool 10 1 1000, .offer 0 [point, point, point], .spawn 0 2]
    (∃ w, s.task? (.worker 0 0) = some w ∧ w.New s.now 1000) ∧ s.Punctual 0 0 slowSends ∧
      (s.turns 0 0 slowSends).map Turn.duration = [2500, 2500] ∧
      ∀ k a, (s.turns 0 0 slowSends)[k]? = some a →
        a.time = Pace.instant 0 1000 ([2500, 2500].take k) := by
  intro point s
  have task : s.task? (.worker 0 0) = some ⟨⟨1000, 1000⟩, .idle, 2⟩ := by decide +kernel
  have new : Worker.New s.now 1000 ⟨⟨1000, 1000⟩, .idle, 2⟩ := ⟨by decide +kernel, rfl, by decide⟩
  have durations : (s.turns 0 0 slowSends).map Turn.duration = [2500, 2500] := by decide +kernel
  have waits {t : Relay} {d : Nat} (free : ∀ e ∈ t.agenda, t.now + d ≤ e.time) (d' : Nat)
      (same : Action.wait d = .wait d') (e : Entry) (he : e ∈ t.agenda) : t.now + d' ≤ e.time :=
    Action.wait.inj same ▸ free e he
  have punctual : s.Punctual 0 0 slowSends := by
    refine ⟨fun d hd e he _ => waits ?_ d hd e he, nofun, nofun,
      fun d hd e he _ => waits ?_ d hd e he, nofun, nofun, trivial⟩
    · decide +kernel
    · decide +kernel
  obtain ⟨-, -, paces⟩ := worker_keeps_pace 0 (.always ⟨2500, none⟩) (.always none)
    [.addPool 10 1 1000, .offer 0 [point, point, point], .spawn 0 2]
  obtain ⟨-, instants, -⟩ := paces 0 0 _ 1000 task new slowSends punctual
  refine ⟨⟨_, task, new⟩, punctual, durations, fun k a ha => ?_⟩
  rw [← durations, ← List.map_take]
  exact instants k a ha

end Relay
end MetricsProxy
