import MetricsProxy.Proofs.Relay.Schedule

/-!
# What happens to a listener while it stops

Between two steps of the owner, what the agenda does leaves the listener and its
workers alone, ends the accepting task, or has a worker of the listener make a
step (`perform_meanwhile`). Only the last two are of a task, whose ticket is
behind the owner's.
-/
namespace MetricsProxy.Relay

/-- In `s'` it is the same time as in `s`, and listener `l` and the workers of
pool `i` are as they were. -/
structure Undisturbed (l i : Nat) (s s' : Relay) : Prop where
  now : s'.now = s.now
  listener : s'.listeners[l]? = s.listeners[l]?
  workers : s'.pools[i]?.map FlushPool.workers = s.pools[i]?.map FlushPool.workers

section
variable {s s' : Relay} {c i j k l m : Nat}

theorem Becomes.undisturbed {q : FlushPool} {events : List Event} (h : s.Becomes j q events s')
    (other : j ≠ i) : Undisturbed l i s s' := by
  obtain ⟨registry, tickets, sends, -, rfl⟩ := h
  exact ⟨rfl, rfl, by rw [List.getElem?_set_ne other]⟩

theorem Reports.undisturbed {r : Reporter} (h : s.Reports k r s') : Undisturbed l i s s' := by
  obtain ⟨task, -, tickets, sends, events, -, rfl⟩ := h
  exact ⟨rfl, rfl, rfl⟩

theorem Handled.undisturbed {cls : LineClass} (h : s.Handled j c cls s') :
    Undisturbed l i s s' := by
  cases h with
  | @accepted p point pool room =>
      refine ⟨rfl, rfl, ?_⟩
      by_cases other : j = i
      · subst other
        have hj : j < s.pools.length := (List.getElem?_eq_some_iff.mp pool).choose
        rw [List.getElem?_set_self hj, pool]
        rfl
      · rw [List.getElem?_set_ne other]
  | rejected => exact ⟨rfl, rfl, rfl⟩
  | error => exact ⟨rfl, rfl, rfl⟩
  | blank => exact ⟨rfl, rfl, rfl⟩

theorem Reading.undisturbed (h : s.Reading c s') : Undisturbed l i s s' := by
  cases h with
  | closes => exact ⟨rfl, rfl, rfl⟩
  | keeps => exact ⟨rfl, rfl, rfl⟩
  | takes _ _ _ _ _ _ _ handled =>
      obtain ⟨now, listener, workers⟩ := handled.undisturbed (l := l) (i := i)
      exact ⟨now, listener, workers⟩

/-! ## The stop of another listener -/

theorem modifyListener_undisturbed (s : Relay) (other : m ≠ l) (f : Listener → Listener) :
    Undisturbed l i s (s.modifyListener m f) := by
  refine ⟨rfl, ?_, rfl⟩
  simp [modifyListener, other]

theorem settle_undisturbed {x : Listener} {p : FlushPool} (listener : s.listeners[m]? = some x)
    (pool : s.pools[j]? = some p) (other : m ≠ l) (apart : j ≠ i) :
    Undisturbed l i s (s.settle m j) := by
  obtain ⟨registry, -, heq⟩ := settle_eq listener pool
  rw [heq]
  refine ⟨rfl, List.getElem?_set_ne other, ?_⟩
  rw [List.getElem?_set_ne apart]

theorem awaitTask_undisturbed {x : Listener} {closing : Closing} {p : FlushPool}
    (listener : s.listeners[m]? = some x) (closes : x.closing = some closing)
    (owner : x.pool = some j) (pool : s.pools[j]? = some p) (other : m ≠ l) (apart : j ≠ i) :
    Undisturbed l i s (s.awaitTask m) := by
  rw [awaitTask_eq listener closes owner]
  split
  · exact modifyListener_undisturbed s other _
  · exact ⟨rfl, rfl, rfl⟩
  · exact settle_undisturbed listener pool other apart

theorem Undisturbed.trans {s'' : Relay} (h : Undisturbed l i s s')
    (h' : Undisturbed l i s' s'') : Undisturbed l i s s'' where
  now := h'.now.trans h.now
  listener := h'.listener.trans h.listener
  workers := h'.workers.trans h.workers

theorem expire_undisturbed {x : Listener} {closing : Closing} {p : FlushPool}
    (listener : s.listeners[m]? = some x) (closes : x.closing = some closing)
    (owner : x.pool = some j) (pool : s.pools[j]? = some p)
    (guard : closing.deadline ≤ s.now ∧ closing.awaited < (s.tasksOver x).length)
    (other : m ≠ l) (apart : j ≠ i) : Undisturbed l i s (s.expire m) := by
  have heq := afterAbort_eq listener pool
  have haborts : Undisturbed l i s (s.afterAbort m j) := by
    rw [heq]
    refine ⟨rfl, List.getElem?_set_ne other, ?_⟩
    rw [List.getElem?_set_ne apart]
  obtain ⟨hx, hp⟩ := getElem?_afterAbort listener pool
  rw [expire_eq listener closes owner guard]
  split
  · exact haborts.trans (settle_undisturbed hx hp other apart)
  · exact haborts.trans (modifyListener_undisturbed _ other _)

end

/-- What becomes of listener `x` with pool `i`, which is `p`, by an entry of the
agenda that is not its owner's. -/
inductive Meanwhile (e : Entry) (i : Nat) (x : Listener) (p : FlushPool) :
    Listener → FlushPool → Prop where
  | rests {q : FlushPool} (workers : q.workers = p.workers) : Meanwhile e i x p x q
  | leaves (behind : 0 < e.ticket) : Meanwhile e i x p { x with accepting := false } p
  | works {q : FlushPool} {events : List Event} (behind : 0 < e.ticket)
      (move : PoolStep e.time i p events q) : Meanwhile e i x p x q

section
variable {s : Relay} {e : Entry} {l i : Nat} {x : Listener} {p : FlushPool}

theorem Undisturbed.meanwhile {t : Relay} (h : Undisturbed l i { s with now := e.time } t)
    (listener : s.listeners[l]? = some x) (pool : s.pools[i]? = some p) :
    t.now = e.time ∧ ∃ y q, t.listeners[l]? = some y ∧ t.pools[i]? = some q ∧
      Meanwhile e i x p y q := by
  have hlistener : t.listeners[l]? = s.listeners[l]? := h.listener
  have hworkers : t.pools[i]?.map FlushPool.workers = s.pools[i]?.map FlushPool.workers :=
    h.workers
  rw [pool, Option.map_some] at hworkers
  obtain ⟨q, hq, workers⟩ := Option.map_eq_some_iff.mp hworkers
  exact ⟨h.now, x, q, hlistener.trans listener, hq, .rests workers⟩

/-- A worker of some pool makes a step. -/
theorem Moves.meanwhile {t : Relay} {j : Nat} {r : FlushPool}
    (h : Moves { s with now := e.time } j r t) (inPool : s.pools[j]? = some r)
    (behind : 0 < e.ticket) (listener : s.listeners[l]? = some x) (pool : s.pools[i]? = some p) :
    t.now = e.time ∧ ∃ y q, t.listeners[l]? = some y ∧ t.pools[i]? = some q ∧
      Meanwhile e i x p y q := by
  obtain ⟨events, q, move, becomes⟩ := h
  by_cases apart : j = i
  · subst apart
    obtain rfl := Option.some.inj (inPool.symm.trans pool)
    have hj : j < s.pools.length := (List.getElem?_eq_some_iff.mp pool).choose
    have hq := becomes.getElem? hj
    obtain ⟨registry, tickets, sends, -, rfl⟩ := becomes
    exact ⟨rfl, x, q, listener, hq, .works behind move⟩
  · exact (becomes.undisturbed apart).meanwhile listener pool

/-- Every entry but those of its owner. -/
theorem perform_meanwhile (sound : s.Sound) (h : Scheduled s e)
    (listener : s.listeners[l]? = some x) (owner : x.pool = some i) (pool : s.pools[i]? = some p)
    (others : e.action ≠ .awaitTask l ∧ e.action ≠ .expire l) :
    (s.perform e).now = e.time ∧ ∃ y q, (s.perform e).listeners[l]? = some y ∧
      (s.perform e).pools[i]? = some q ∧ Meanwhile e i x p y q := by
  have hapart {m j : Nat} {y : Listener} (listener' : s.listeners[m]? = some y)
      (owns : y.pool = some j) (other : m ≠ l) : j ≠ i := by
    rintro rfl
    exact other (sound.owner_unique listener' listener owns owner)
  have performed := perform_performed sound.toOrderly h
  generalize s.perform e = t at performed ⊢
  cases performed with
  | works inPool behind moves => exact moves.meanwhile inPool behind listener pool
  | reports reporter reports => exact reports.undisturbed.meanwhile listener pool
  | reads reading => exact reading.undisturbed.meanwhile listener pool
  | @leaves m y listener' accepting behind =>
      by_cases same : m = l
      · subst same
        obtain rfl := Option.some.inj (listener'.symm.trans listener)
        have hm : m < s.listeners.length := (List.getElem?_eq_some_iff.mp listener).choose
        exact ⟨rfl, _, p, List.getElem?_set_self hm, pool, .leaves behind⟩
      · exact ⟨rfl, x, p, (List.getElem?_set_ne same).trans listener, pool, .rests rfl⟩
  | @awaits m y closing action listener' closes ready =>
      have other : m ≠ l := fun same => others.1 (same ▸ action)
      obtain ⟨j, owns⟩ := sound.owner_of_closing listener' closes
      obtain ⟨r, inPool, -, -⟩ := sound.life_of listener' owns
      exact (awaitTask_undisturbed (s := { s with now := e.time }) listener' closes owns inPool
        other (hapart listener' owns other)).meanwhile listener pool
  | @expires m y closing action listener' closes guard =>
      have other : m ≠ l := fun same => others.2 (same ▸ action)
      obtain ⟨j, owns⟩ := sound.owner_of_closing listener' closes
      obtain ⟨r, inPool, -, -⟩ := sound.life_of listener' owns
      exact (expire_undisturbed (s := { s with now := e.time }) listener' closes owns inPool guard
        other (hapart listener' owns other)).meanwhile listener pool

theorem perform_now (orderly : s.Orderly) (h : Scheduled s e) : (s.perform e).now = e.time := by
  have performed := perform_performed orderly h
  generalize s.perform e = t at performed ⊢
  cases performed with
  | works _ _ moves =>
      obtain ⟨events, q, -, registry, tickets, sends, -, rfl⟩ := moves
      rfl
  | reports _ reports => exact (reports.undisturbed (l := 0) (i := 0)).now
  | reads reading => exact (reading.undisturbed (l := 0) (i := 0)).now
  | leaves => rfl
  | awaits _ listener closes _ =>
      obtain ⟨j, p, owner, pool⟩ := orderly.tended.owner_of_closing listener closes
      exact (awaitTask_undisturbed (s := { s with now := e.time }) listener closes owner pool
        (Nat.ne_of_lt (Nat.lt_succ_self _)) (Nat.ne_of_lt (Nat.lt_succ_self _))).now
  | expires _ listener closes guard =>
      obtain ⟨j, p, owner, pool⟩ := orderly.tended.owner_of_closing listener closes
      exact (expire_undisturbed (s := { s with now := e.time }) listener closes owner pool guard
        (Nat.ne_of_lt (Nat.lt_succ_self _)) (Nat.ne_of_lt (Nat.lt_succ_self _))).now

end

/-! ## What entries leave to every listener -/

/-- A listener has the same pool and no new deadline. -/
structure Abides (x y : Listener) : Prop where
  pool : y.pool = x.pool
  waits : ∀ c', y.closing = some c' → ∃ c, x.closing = some c ∧ c.deadline = c'.deadline

theorem Abides.refl (x : Listener) : Abides x x := ⟨rfl, fun c' hc => ⟨c', hc, rfl⟩⟩

theorem Abides.trans {x y z : Listener} (h : Abides x y) (h' : Abides y z) : Abides x z where
  pool := h'.pool.trans h.pool
  waits c' hc := by
    obtain ⟨c, hy, heq⟩ := h'.waits c' hc
    obtain ⟨b, hx, heq'⟩ := h.waits c hy
    exact ⟨b, hx, heq'.trans heq⟩

/-- Every listener of `s'` was there in `s`. -/
def Abide (s s' : Relay) : Prop :=
  ∀ (l : Nat) (y : Listener), s'.listeners[l]? = some y →
    ∃ x, s.listeners[l]? = some x ∧ Abides x y

namespace Abide
variable {s s' s'' : Relay} {l i : Nat} {x y : Listener} {p : FlushPool} {closing : Closing}

theorem trans (h : Abide s s') (h' : Abide s' s'') : Abide s s'' := by
  intro l z hz
  obtain ⟨y, hy, later⟩ := h' l z hz
  obtain ⟨x, hx, earlier⟩ := h l y hy
  exact ⟨x, hx, earlier.trans later⟩

theorem of_eq (listeners : s'.listeners = s.listeners) : Abide s s' := by
  intro l y hy
  rw [listeners] at hy
  exact ⟨y, hy, .refl y⟩

theorem of_set (listener : s.listeners[l]? = some x)
    (listeners : s'.listeners = s.listeners.set l y) (abides : Abides x y) : Abide s s' := by
  intro m z hz
  rw [listeners] at hz
  rcases of_getElem?_set hz with ⟨rfl, rfl⟩ | ⟨-, hz⟩
  · exact ⟨x, listener, abides⟩
  · exact ⟨z, hz, .refl z⟩

theorem settle (listener : s.listeners[l]? = some x) (pool : s.pools[i]? = some p) :
    Abide s (s.settle l i) := by
  obtain ⟨registry, -, heq⟩ := settle_eq listener pool
  rw [heq]
  exact .of_set listener rfl ⟨rfl, fun c' hc => nomatch hc⟩

theorem awaitTask (listener : s.listeners[l]? = some x) (closes : x.closing = some closing)
    (owner : x.pool = some i) (pool : s.pools[i]? = some p) : Abide s (s.awaitTask l) := by
  rw [awaitTask_eq listener closes owner]
  split
  · rw [modifyListener_eq listener]
    refine .of_set listener rfl ⟨rfl, fun c' hc => ⟨closing, closes, ?_⟩⟩
    obtain rfl := Option.some.inj hc
    rfl
  · exact .of_eq rfl
  · exact .settle listener pool

theorem expire (listener : s.listeners[l]? = some x) (closes : x.closing = some closing)
    (owner : x.pool = some i) (pool : s.pools[i]? = some p)
    (guard : closing.deadline ≤ s.now ∧ closing.awaited < (s.tasksOver x).length) :
    Abide s (s.expire l) := by
  obtain ⟨hx, hp⟩ := getElem?_afterAbort listener pool
  have aborted : Abide s (s.afterAbort l i) := by
    rw [afterAbort_eq listener pool]
    exact .of_set listener rfl ⟨rfl, fun c' hc => ⟨c', hc, rfl⟩⟩
  rw [expire_eq listener closes owner guard]
  split
  · exact aborted.trans (.settle hx hp)
  · rw [modifyListener_eq hx]
    exact aborted.trans (.of_set hx rfl ⟨rfl, fun c' hc => nomatch hc⟩)

/-- Listeners start and begin to stop by hand only, so no entry of the agenda gives one a
pool or a deadline. -/
theorem perform {e : Entry} (orderly : s.Orderly) (h : Scheduled s e) :
    Abide s (s.perform e) := by
  have waits : Abide s { s with now := e.time } := .of_eq rfl
  have performed := perform_performed orderly h
  generalize s.perform e = t at performed ⊢
  cases performed with
  | works _ _ moves =>
      obtain ⟨events, q, -, registry, tickets, sends, -, rfl⟩ := moves
      exact .of_eq rfl
  | reports _ reports =>
      obtain ⟨task, -, tickets, sends, events, -, rfl⟩ := reports
      exact .of_eq rfl
  | reads reading =>
      refine .of_eq (List.ext_getElem? fun l => ?_)
      exact (reading.undisturbed (l := l) (i := 0)).listener
  | leaves listener => exact .of_set listener rfl ⟨rfl, fun c' hc => ⟨c', hc, rfl⟩⟩
  | awaits _ listener closes _ =>
      obtain ⟨i, p, owner, pool⟩ := orderly.tended.owner_of_closing listener closes
      exact waits.trans (.awaitTask listener closes owner pool)
  | expires _ listener closes guard =>
      obtain ⟨i, p, owner, pool⟩ := orderly.tended.owner_of_closing listener closes
      exact waits.trans (.expire listener closes owner pool guard)

end Abide
end MetricsProxy.Relay
