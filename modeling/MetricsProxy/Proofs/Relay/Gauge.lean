import MetricsProxy.Proofs.Relay.Metering

/-!
# The gauge of the points that wait

The gauge says how many points wait in all buffers, as of the last flush of each. It
is never set: each pool adds what its own share has changed by. `latestShare` tells
from the moves of a run what the share of a pool is, whoever has made them, and as
long as whole numbers of its size are exact the gauge is the sum of the shares
(`Metering.latest`, `Metering.gauge`). A stop moves the share of its pool to zero,
and nothing moves it after that (`Shift.cleared`). `run_gauge_never_drifts` says all
of this of every run.
-/
namespace MetricsProxy

/-- The size that the share of pool `i` was moved to last; zero if it never was. -/
def latestShare (i : Nat) : List ShareMove → Nat
  | [] => 0
  | m :: older => if m.pool = i then m.size else latestShare i older

/-- Workers whose token has fired leave the share of their pool alone. -/
theorem PoolStep.reported_of_cancelled {now i : Nat} {p q : FlushPool} {events : List Event}
    (h : PoolStep now i p events q) (cancelled : p.cancelled = true) :
    q.reported = p.reported := by
  induction h with
  | idles _ _ _ running => exact absurd cancelled (by simp [running])
  | begins _ _ _ _ running => exact absurd cancelled (by simp [running])
  | lands => rfl
  | quits => rfl
  | seq first _ ih ih' => exact (ih' (first.cancelled_eq.trans cancelled)).trans (ih cancelled)

namespace Relay

def share (s : Relay) (i : Nat) : Nat := s.shares[i]?.getD 0

/-- At no moment of a run do the shares outgrow the whole numbers that are exact. -/
def Modest (s : Relay) (actions : List Action) : Prop :=
  ∀ earlier, earlier <+: actions → total (s.run earlier).shares ≤ Binary64.wholeLimit

def Owned (s : Relay) (i : Nat) : Prop := ∃ x ∈ s.listeners, x.pool = some i

/-- Nobody but its listener touches a pool that a listener owns. -/
def HandsOff (s : Relay) : List Action → Prop
  | [] => True
  | a :: as => (∀ i ∈ a.hand?, ¬ s.Owned i) ∧ (s.step a).HandsOff as

instance (s : Relay) (i : Nat) : Decidable (s.Owned i) :=
  inferInstanceAs (Decidable (∃ x ∈ s.listeners, x.pool = some i))

instance decidableHandsOff : (s : Relay) → (actions : List Action) → Decidable (s.HandsOff actions)
  | _, [] => isTrue trivial
  | s, a :: as =>
      have := decidableHandsOff (s.step a) as
      inferInstanceAs (Decidable ((∀ i ∈ a.hand?, ¬ s.Owned i) ∧ (s.step a).HandsOff as))

variable {s s' : Relay} {i l : Nat} {p q : FlushPool} {moves older : List ShareMove}

/-! ## The shares and their sum -/

theorem share_eq (pool : s.pools[i]? = some p) : s.share i = p.reported := by
  rw [share, getElem?_shares pool]
  rfl

theorem shares_eq (s : Relay) : s.shares = (List.range s.pools.length).map s.share := by
  have hlength : s.shares.length = s.pools.length := List.length_map _
  refine List.ext_getElem (by simp [hlength]) fun i hi _ => ?_
  rw [List.getElem_map, List.getElem_range, share, List.getElem?_eq_getElem hi, Option.getD_some]

theorem total_shares_eq_zero (h : ∀ i, i < s.pools.length → s.share i = 0) :
    total s.shares = 0 := by
  have hle : total s.shares ≤ s.shares.length * 0 := total_le fun n hn => by
    rw [shares_eq] at hn
    obtain ⟨i, hi, rfl⟩ := List.mem_map.mp hn
    exact Nat.le_of_eq (h i (List.mem_range.mp hi))
  exact Nat.le_zero.mp hle

theorem share_append (shares : s'.shares = s.shares ++ [0]) (i : Nat) :
    s'.share i = s.share i := by
  rw [share, share, shares]
  rcases Nat.lt_trichotomy i s.shares.length with hlt | heq | hgt
  · rw [List.getElem?_append_left hlt]
  · rw [heq, List.getElem?_concat_length, List.getElem?_eq_none (Nat.le_refl _)]
    rfl
  · rw [List.getElem?_eq_none (Nat.le_of_lt hgt), List.getElem?_eq_none]
    rw [List.length_append, List.length_singleton]
    exact hgt

theorem share_set {size old : Nat} (share : s.shares[i]? = some old)
    (shares : s'.shares = s.shares.set i size) (k : Nat) :
    s'.share k = if i = k then size else s.share k := by
  rw [Relay.share, Relay.share, shares]
  by_cases hk : i = k
  · subst hk
    rw [if_pos rfl, List.getElem?_set_self (List.getElem?_eq_some_iff.mp share).choose]
    rfl
  · rw [if_neg hk, List.getElem?_set_ne hk]

namespace Metering

/-- The shares are where the moves have left them. -/
theorem latest (h : Metering s moves s') (before : ∀ i, latestShare i older = s.share i) :
    ∀ i, latestShare i (moves ++ older) = s'.share i := by
  induction h generalizing older with
  | rests _ shares => intro i; rw [share, shares]; exact before i
  | opens shares => intro i; rw [share_append shares]; exact before i
  | moves share shares =>
      intro k
      rw [share_set share shares, ← before k]
      rfl
  | lands _ _ shares => intro i; rw [share, shares]; exact before i
  | seq _ _ ih ih' =>
      rw [List.append_assoc]
      exact ih' (ih before)

theorem total_of_nil (h : Metering s moves s') (none : moves = []) :
    total s'.shares = total s.shares := by
  induction h with
  | rests _ shares => rw [shares]
  | opens shares => rw [shares, total_append]; rfl
  | moves => cases none
  | lands _ _ shares => rw [shares]
  | seq _ _ ih ih' =>
      obtain ⟨later, earlier⟩ := List.append_eq_nil_iff.mp none
      exact (ih' later).trans (ih earlier)

/-- The gauge follows one move, if the numbers before and after it are exact. -/
theorem gauge (h : Metering s moves s') (one : moves.length ≤ 1)
    (before : total s.shares ≤ Binary64.wholeLimit)
    (after : total s'.shares ≤ Binary64.wholeLimit) {times samples : Histogram}
    (flush : s.registry.Flush (.ofNat (total s.shares)) times samples) :
    ∃ times samples, s'.registry.Flush (.ofNat (total s'.shares)) times samples := by
  induction h generalizing times samples with
  | rests _ shares _ _ same => exact ⟨times, samples, shares ▸ same _ _ _ flush⟩
  | opens shares journal same =>
      rw [(Metering.opens shares journal same).total_of_nil rfl]
      exact ⟨times, samples, same _ _ _ flush⟩
  | @moves s s' i size old delta share shares _ change moved =>
      have hset := total_map_set id share size
      have hleft := total_map_set id share 0
      simp only [List.map_id, id, ← shares] at hset hleft
      have hpart : old ≤ total s.shares := by omega
      have hsum : total s'.shares = total s.shares - old + size := by omega
      have hsize : size ≤ Binary64.wholeLimit := by omega
      have hmoved := moved _ _ _ flush
      refine ⟨times, samples, ?_⟩
      rcases change with hdelta | ⟨hzero, hdelta⟩
      · rwa [hdelta, Binary64.add_sub hpart before hsize, ← hsum] at hmoved
      · rw [hzero, Nat.add_zero] at hsum
        rwa [hdelta, Binary64.add_neg hpart before, ← hsum] at hmoved
  | lands _ _ shares _ recorded => exact ⟨_, _, shares ▸ recorded _ _ _ flush⟩
  | @seq s s' s'' earlier later first second ih ih' =>
      -- One of the two parts moves no share, so the sum between them is exact too.
      rw [List.length_append] at one
      have hbetween : total s'.shares ≤ Binary64.wholeLimit := by
        by_cases hlater : later = []
        · rwa [← second.total_of_nil hlater]
        · have hearlier : earlier = [] := by
            have hpositive := List.length_pos_iff.mpr hlater
            exact List.length_eq_zero_iff.mp (by omega)
          rwa [first.total_of_nil hearlier]
      obtain ⟨times', samples', hflush⟩ := ih (by omega) before hbetween flush
      exact ih' (by omega) hbetween after hflush

end Metering

theorem Modest.cons {a : Action} {as : List Action} (h : s.Modest (a :: as)) :
    total s.shares ≤ Binary64.wholeLimit ∧ (s.step a).Modest as :=
  ⟨h [] List.nil_prefix, fun earlier hearlier =>
    h (a :: earlier) (List.cons_prefix_cons.mpr ⟨rfl, hearlier⟩)⟩

theorem Modest.start {actions : List Action} (h : s.Modest actions) :
    total s.shares ≤ Binary64.wholeLimit := h [] List.nil_prefix

/-- The gauge is the sum of the shares throughout a run. -/
theorem run_gauge (h : s.Tended) (sized : s.Sized) {actions : List Action}
    (modest : s.Modest actions) {times samples : Histogram}
    (flush : s.registry.Flush (.ofNat (total s.shares)) times samples) :
    ∃ times samples, (s.run actions).registry.Flush (.ofNat (total (s.run actions).shares))
      times samples := by
  induction actions generalizing s times samples with
  | nil => exact ⟨times, samples, flush⟩
  | cons a as ih =>
      obtain ⟨before, rest⟩ := modest.cons
      have hone : (s.shareMove? a).toList.length ≤ 1 := by cases s.shareMove? a <;> simp
      obtain ⟨times', samples', hflush⟩ :=
        (step_meters h sized a).gauge hone before rest.start flush
      exact ih (h.step a) (h.step_sized sized a) rest hflush

/-! ## Pools that are given up -/

/-- The share of every pool that is given up is zero. -/
def Cleared (s : Relay) : Prop := ∀ i, s.GivenUp i → s.share i = 0

theorem Tended.cancelled_of_givenUp (h : s.Tended) (given : s.GivenUp i)
    (pool : s.pools[i]? = some p) : p.cancelled = true := by
  obtain ⟨l, x, hx, owner, stopped⟩ := given
  exact (h l x hx).fired i p owner pool (.inr stopped)

/-- A change of one listener that does not stop it, or that has no pool. -/
theorem GivenUp.of_set {x y : Listener} (given : s'.GivenUp i)
    (listener : s.listeners[l]? = some x) (listeners : s'.listeners = s.listeners.set l y)
    (own : y.state = .stopped → y.pool = some i → x.state = .stopped ∧ x.pool = some i) :
    s.GivenUp i := by
  obtain ⟨m, z, hz, owner, stopped⟩ := given
  rw [listeners] at hz
  rcases of_getElem?_set hz with ⟨rfl, rfl⟩ | ⟨-, hz⟩
  · exact ⟨l, x, listener, (own stopped owner).2, (own stopped owner).1⟩
  · exact ⟨m, z, hz, owner, stopped⟩

namespace Cleared

theorem keeps (h : s.Cleared) (shares : s'.shares = s.shares)
    (back : ∀ i, s'.GivenUp i → s.GivenUp i) : s'.Cleared := by
  intro i given
  rw [share, shares]
  exact h i (back i given)

theorem marks {x y : Listener} (h : s.Cleared) (listener : s.listeners[l]? = some x)
    (listeners : s'.listeners = s.listeners.set l y) (shares : s'.shares = s.shares)
    (state : y.state = x.state) (pool : y.pool = x.pool) : s'.Cleared :=
  h.keeps shares fun _ given => given.of_set listener listeners fun stopped owner =>
    ⟨state ▸ stopped, pool ▸ owner⟩

theorem aside (h : s.Cleared) (listeners : s'.listeners = s.listeners)
    (kept : ∀ i, s.GivenUp i → s'.share i = s.share i) : s'.Cleared := by
  intro i given
  have hgiven : s.GivenUp i := by
    obtain ⟨l, x, hx, rest⟩ := given
    exact ⟨l, x, listeners ▸ hx, rest⟩
  rw [kept i hgiven]
  exact h i hgiven

end Cleared

theorem share_set_pool (pool : s.pools[i]? = some p) (pools : s'.pools = s.pools.set i q)
    (k : Nat) : s'.share k = if i = k then q.reported else s.share k :=
  share_set (getElem?_shares pool) (by rw [shares, pools, List.map_set]; rfl) k

theorem Reading.cleared {c : Nat} (reading : s.Reading c s') (before : s.Cleared) :
    s'.Cleared := by
  cases reading with
  | closes => exact before.keeps rfl fun _ given => given
  | keeps => exact before.keeps rfl fun _ given => given
  | takes _ _ _ _ _ _ _ handled =>
      cases handled with
      | accepted pool => exact before.keeps (shares_set pool rfl) fun _ given => given
      | rejected => exact before.keeps rfl fun _ given => given
      | error => exact before.keeps rfl fun _ given => given
      | blank => exact before.keeps rfl fun _ given => given

theorem Shift.cleared {opens : Bool} (c : Shift opens s s') (h : s.Tended) (before : s.Cleared) :
    s'.Cleared := by
  induction c with
  | @works s s' i p q events pool move becomes =>
      obtain ⟨registry, tickets, sends, -, rfl⟩ := becomes
      refine before.aside rfl fun k given => ?_
      rw [share_set_pool pool rfl k]
      by_cases hk : i = k
      · -- Only a tick moves the share, and none is taken once the token has fired.
        subst hk
        rw [if_pos rfl, share_eq pool]
        exact move.reported_of_cancelled (h.cancelled_of_givenUp given pool)
      · rw [if_neg hk]
  | reads reading => exact reading.cleared before
  | adds settings =>
      refine before.keeps rfl fun i given => ?_
      obtain ⟨m, z, hz, owner, stopped⟩ := given
      rcases List.mem_append.mp (List.mem_of_getElem? hz) with hmem | hmem
      · obtain ⟨l, hl⟩ := List.mem_iff_getElem?.mp hmem
        exact ⟨l, z, hl, owner, stopped⟩
      · rw [List.mem_singleton.mp hmem] at stopped
        cases stopped
  | refuses listener fresh =>
      have poolless := (h _ _ listener).fresh fresh
      exact before.keeps rfl fun i given => given.of_set listener rfl fun _ owner => by
        cases poolless.symm.trans owner
  | starts address listener =>
      intro i given
      refine (share_append ?_ i).trans (before i (given.of_set listener rfl
        fun stopped => absurd stopped (Listener.begun_ne _ _ _).2.2))
      rw [shares, List.map_append]
      rfl
  | cancels listener _ _ pool =>
      exact before.keeps (shares_set pool rfl) fun i given =>
        given.of_set listener rfl fun stopped => by cases stopped
  | forsakes listener => exact before.marks listener rfl rfl rfl rfl
  | drops listener _ pool => exact before.marks listener rfl (shares_set pool rfl) rfl rfl
  | leaves listener => exact before.marks listener rfl rfl rfl rfl
  | sees listener => exact before.marks listener rfl rfl rfl rfl
  | aborts listener _ _ pool => exact before.marks listener rfl (shares_set pool rfl) rfl rfl
  | @settles s l i x closing p registry listener closes owner pool =>
      intro k given
      rw [share_set_pool pool rfl k]
      by_cases hk : i = k
      · rw [if_pos hk]
        rfl
      · rw [if_neg hk]
        exact before k (given.of_set listener rfl fun _ owner' =>
          absurd (Option.some.inj (owner.symm.trans owner')) hk)
  | fails listener => exact before.marks listener rfl rfl rfl rfl
  | seq first _ ih ih' => exact ih' (h.change first.change) (ih h before)
  | _ => exact before.keeps rfl fun _ given => given

theorem GivenUp.owned (given : s.GivenUp i) : s.Owned i := by
  obtain ⟨l, x, hx, owner, -⟩ := given
  exact ⟨x, List.mem_of_getElem? hx, owner⟩

theorem Does.cleared {a : Action} (does : s.Does a s') (h : s.Tended)
    (off : ∀ i ∈ a.hand?, ¬ s.Owned i) (before : s.Cleared) : s'.Cleared := by
  cases does with
  | changes change => exact change.cleared h before
  | takesTickets => exact before.keeps rfl fun _ given => given
  | arrives => exact before.keeps rfl fun _ given => given
  | opens =>
      refine before.aside rfl fun i _ => share_append ?_ i
      rw [shares, addPool, List.map_append]
      rfl
  | hands hand pool _ becomes =>
      obtain ⟨registry, tickets, sends, -, rfl⟩ := becomes
      refine before.aside rfl fun k given => ?_
      rw [share_set_pool pool rfl k, if_neg]
      rintro rfl
      exact off _ hand given.owned

theorem run_cleared (h : s.Tended) {actions : List Action} (off : s.HandsOff actions)
    (before : s.Cleared) : (s.run actions).Cleared := by
  induction actions generalizing s with
  | nil => exact before
  | cons a as ih => exact ih (h.step a) off.2 ((step_does h a).cleared h off.1 before)

/-! ## Every run -/

/-- However flushes, aborts and stops follow each other, the gauge is the sum of the shares
of all pools, and the share of a pool is what its latest flush has left in the buffer, or
zero if it has been given up since or was never flushed. So a listener that has stopped
has no share in it, as long as nobody else flushes its pool, and the gauge is zero when
no pool has. -/
theorem run_gauge_never_drifts (wallClock : Int) (sends : Script SendPlan)
    (checkIns : Script (Option ShippingError)) (actions : List Action) :
    let start := create wallClock sends checkIns
    let s := start.run actions
    let shareOf := fun i => latestShare i (start.shareMoves actions)
    (∀ (i : Nat) (p : FlushPool), s.pools[i]? = some p → p.reported = shareOf i) ∧
      (start.Modest actions → s.registry.gauge MetricName.bufferSize =
        .ofNat (total ((List.range s.pools.length).map shareOf))) ∧
      (start.HandsOff actions → ∀ i, s.GivenUp i → shareOf i = 0) ∧
      (start.Modest actions → start.HandsOff actions →
        (∀ i, i < s.pools.length → s.GivenUp i ∨ shareOf i = 0) →
          s.registry.gauge MetricName.bufferSize = .zero) := by
  intro start s shareOf
  have tended : start.Tended := .create wallClock sends checkIns
  have sized : start.Sized := sized_create wallClock sends checkIns
  have hshare : shareOf = s.share := by
    funext i
    have hfirst : ∀ i, latestShare i [] = start.share i := fun _ => rfl
    have hlatest := (run_meters tended sized actions).latest hfirst i
    rwa [List.append_nil] at hlatest
  have hgauge (modest : start.Modest actions) : s.registry.gauge MetricName.bufferSize =
      .ofNat (total s.shares) := by
    have hzero : start.registry.Flush (.ofNat (total start.shares)) .empty .empty := by
      rw [show total start.shares = 0 from rfl, Binary64.ofNat_zero]
      exact Registry.flush_empty
    obtain ⟨times, samples, hflush⟩ := run_gauge tended sized modest hzero
    exact hflush.size.gauge_eq
  have hcleared (off : start.HandsOff actions) : s.Cleared :=
    run_cleared tended off fun _ ⟨_, _, hx, _⟩ => nomatch hx
  -- From here on the shares are those that the pools keep.
  rw [hshare]
  refine ⟨fun i p pool => (share_eq pool).symm, fun modest => ?_, hcleared, ?_⟩
  · rw [← shares_eq]
    exact hgauge modest
  · intro modest off each
    have hnone : ∀ i, i < s.pools.length → s.share i = 0 := fun i hi =>
      (each i hi).elim (hcleared off i) id
    rw [hgauge modest, total_shares_eq_zero hnone, Binary64.ofNat_zero]

/-- A listener whose worker takes a tick, and a pool that is flushed by hand. -/
def twoFlushers : List Action :=
  let point := Point.make "m" (.ofNat 1) 1 .empty
  [.addPool 10 2 1000, .offer 0 [point, point, point],
    .addListener { ListenerSettings.standard 2878 .graphite with
      flushThreads := 1, maxPointsPerFlush := 1 },
    .start 0 (.ok "0.0.0.0:2878"), .connect 0, .arrive 0 "m 1 1\nn 2 2\n".toUTF8.toList,
    .readOn 0, .readOn 0, .wait 1000, .tick 1 0, .beginCall 0]

/-- The listener is stopped, and the other pool is given up by hand. -/
def twoReleases : List Action :=
  [.beginStop 0, .quit 1 0, .readOn 0, .endAccepting 0, .awaitTask 0, .awaitTask 0,
    .awaitTask 0, .releaseSize 0]

theorem run_gauge_never_drifts_twoFlushers :
    let start := create 0 (.always .deliver) (.always none)
    let s := start.run (twoFlushers ++ twoReleases)
    start.Modest (twoFlushers ++ twoReleases) ∧ start.HandsOff (twoFlushers ++ twoReleases) ∧
      (start.run twoFlushers).registry.gauge MetricName.bufferSize = .ofNat 2 ∧
      s.GivenUp 1 ∧ latestShare 1 (start.shareMoves (twoFlushers ++ twoReleases)) = 0 ∧
      (∀ i, i < s.pools.length → s.GivenUp i ∨
        latestShare i (start.shareMoves (twoFlushers ++ twoReleases)) = 0) ∧
      s.registry.gauge MetricName.bufferSize = .zero := by
  intro start s
  have modest : start.Modest (twoFlushers ++ twoReleases) := by
    have htake : ∀ n ≤ (twoFlushers ++ twoReleases).length, total ((create 0 (.always .deliver)
        (.always none)).run ((twoFlushers ++ twoReleases).take n)).shares ≤
          Binary64.wholeLimit := by decide +kernel
    intro earlier hearlier
    rw [List.prefix_iff_eq_take.mp hearlier]
    exact htake _ hearlier.length_le
  have early : start.Modest twoFlushers := fun earlier hearlier =>
    modest earlier (hearlier.trans (List.prefix_append _ _))
  have off : start.HandsOff (twoFlushers ++ twoReleases) := by decide +kernel
  have given : s.GivenUp 1 := by
    obtain ⟨x, hx, hstate⟩ := Option.map_eq_some_iff.mp (show
      (s.listeners[0]?.map fun x => (x.pool, x.state)) = some (some 1, .stopped) by decide +kernel)
    exact ⟨0, x, hx, congrArg Prod.fst hstate, congrArg Prod.snd hstate⟩
  have each : ∀ i, i < s.pools.length → s.GivenUp i ∨
      latestShare i (start.shareMoves (twoFlushers ++ twoReleases)) = 0 := by
    have hzero : ∀ i, i < s.pools.length →
        latestShare i (start.shareMoves (twoFlushers ++ twoReleases)) = 0 := by decide +kernel
    exact fun i hi => .inr (hzero i hi)
  obtain ⟨-, hsum, -, -⟩ := run_gauge_never_drifts 0 (.always .deliver) (.always none) twoFlushers
  obtain ⟨-, -, hgiven, hzero⟩ :=
    run_gauge_never_drifts 0 (.always .deliver) (.always none) (twoFlushers ++ twoReleases)
  refine ⟨modest, off, (hsum early).trans ?_, given, hgiven off 1 given, each, ?_⟩
  · exact congrArg Binary64.ofNat (by decide +kernel)
  · exact hzero modest off each

end Relay
end MetricsProxy
