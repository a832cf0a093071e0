import MetricsProxy.Proofs.Relay.Metering

/-!
# Statistics of sends

A pool counts the points of its sends that have not returned, and all pools record
their sends that have in one timer and one histogram. Whatever is aborted and in
which order sends return, the count is what was begun less what has returned, and
the timer and the histogram have one sample for each send that has returned and no
other (`run_counts_sends`). A send that was cut off neither returns nor leaves the
count, which is why a stop can tell from it how many points were abandoned.
-/
namespace MetricsProxy
open Journal

/-- The histogram has these samples, as words. -/
structure Histogram.Tells (h : Histogram) (samples : List Nat) : Prop where
  count : h.count.toNat = samples.length % UInt64.size
  sum : h.sum.toNat = total samples % UInt64.size
  max : h.max.toNat = largest (samples.map fun n => n % UInt64.size)

namespace Histogram.Tells

theorem empty : Histogram.empty.Tells [] := ⟨rfl, rfl, rfl⟩

theorem record {h : Histogram} {samples : List Nat} (tells : h.Tells samples) (n : Nat) :
    (h.record (UInt64.ofNat n)).Tells (n :: samples) where
  count := by
    rw [toNat_count_record, tells.count, Nat.mod_add_mod]
    rfl
  sum := by
    rw [toNat_sum_record, UInt64.toNat_ofNat', tells.sum, total_cons, ← Nat.add_mod, Nat.add_comm]
  max := by
    rw [toNat_max_record, UInt64.toNat_ofNat', tells.max]
    rfl

end Histogram.Tells

/-- The timer has a sample for each send that has returned, and the histogram its points. -/
structure Tallied (journal : List Event) (times samples : Histogram) : Prop where
  times : times.count.toNat = (landings journal).length % UInt64.size
  samples : samples.Tells ((landings journal).map Prod.snd)

namespace Tallied
variable {journal journal' : List Event} {times samples : Histogram}

theorem congr (h : Tallied journal times samples) (same : landings journal' = landings journal) :
    Tallied journal' times samples := ⟨same ▸ h.times, same ▸ h.samples⟩

theorem record (h : Tallied journal times samples) {e : Event} {i n : Nat}
    (landing : e.landing? = some (i, n)) (nanoseconds : Nat) :
    Tallied (e :: journal) (times.record (timerSample nanoseconds))
      (samples.record (UInt64.ofNat n)) where
  times := by
    rw [Histogram.toNat_count_record, h.times, Nat.mod_add_mod, landings_cons landing]
    rfl
  samples := by
    rw [landings_cons landing]
    exact h.samples.record n

end Tallied

namespace Relay

/-- The sends of pool `i`, which is `p`; these units were cut off. -/
structure Accounts (s : Relay) (i : Nat) (p : FlushPool) (cut : List WorkUnit) : Prop where
  /-- Every unit begun has returned, is waited for or was cut off. -/
  sends : ∃ back : List WorkUnit,
    (begunUnits i s.journal).Perm (back ++ (p.flights.map Flight.unit ++ cut)) ∧
      (back.map WorkUnit.size).Perm (landed i s.journal)
  inFlight : ¬ s.GivenUp i →
    p.inFlight + total (landed i s.journal) = total ((begunUnits i s.journal).map WorkUnit.size)
  /-- The points that would be abandoned if nothing returned any more. -/
  residue : ¬ s.GivenUp i →
    p.inFlight = total (p.flights.map fun f => f.unit.size) + total (cut.map WorkUnit.size)
  /-- A send that returns never takes more from the count than there is. -/
  covered : ¬ s.GivenUp i → ∀ f ∈ p.flights, f.unit.size ≤ p.inFlight

variable {s s' : Relay} {i : Nat} {p : FlushPool} {cut : List WorkUnit} {moves : List ShareMove}

theorem Accounts.of_account (account : SendAccount (¬ s.GivenUp i) i s.journal p cut) :
    s.Accounts i p cut := by
  have residue (kept : ¬ s.GivenUp i) : p.inFlight =
      total (p.flights.map fun f => f.unit.size) + total (cut.map WorkUnit.size) := by
    rw [account.inFlight kept, FlushPool.aloft, List.map_append, total_append, List.map_map]
    rfl
  refine ⟨account.sends, fun kept => ?_, residue, fun kept f flight => ?_⟩
  · obtain ⟨back, hbegun, hback⟩ := account.sends
    have htotal := total_perm (hbegun.map WorkUnit.size)
    rw [List.map_append, total_append, total_perm hback, ← account.inFlight kept] at htotal
    rw [htotal, Nat.add_comm]
  · have hpart := le_total (List.mem_map_of_mem flight (f := fun f => f.unit.size))
    rw [residue kept]
    omega

theorem Metering.tallied (h : Metering s moves s') {value : Binary64} {times samples : Histogram}
    (flush : s.registry.Flush value times samples) (before : Tallied s.journal times samples) :
    ∃ value times samples, s'.registry.Flush value times samples ∧
      Tallied s'.journal times samples := by
  induction h generalizing value times samples with
  | rests events _ journal quiet same =>
      refine ⟨_, _, _, same _ _ _ flush, ?_⟩
      have hnone : events.filterMap Event.landing? = [] := List.filterMap_eq_nil_iff.mpr quiet
      rw [journal]
      exact before.congr (by rw [landings, List.filterMap_append, hnone]; rfl)
  | opens _ journal same => exact ⟨_, _, _, same _ _ _ flush, journal ▸ before⟩
  | moves _ _ journal _ moved => exact ⟨_, _, _, moved _ _ _ flush, journal ▸ before⟩
  | lands nanoseconds landing _ journal recorded =>
      refine ⟨_, _, _, recorded _ _ _ flush, ?_⟩
      rw [journal]
      exact before.record landing nanoseconds
  | seq _ _ ih ih' =>
      obtain ⟨_, _, _, hflush, between⟩ := ih flush before
      exact ih' hflush between

/-- Every send that a pool begins is accounted for at every moment of every run: it has
returned, somebody waits for it, or it was cut off, and then it stays so. Until the
listener of the pool has stopped, the pool counts the points of all that have not
returned. The timer and the histogram of flushing have one sample for each send that
has returned, of any pool. -/
theorem run_counts_sends (wallClock : Int) (sends : Script SendPlan)
    (checkIns : Script (Option ShippingError)) (actions : List Action) :
    let s := (create wallClock sends checkIns).run actions
    (∀ (i : Nat) (p : FlushPool), s.pools[i]? = some p → ∃ cut, s.Accounts i p cut ∧
      ∀ (later : List Action) (q : FlushPool), (s.run later).pools[i]? = some q →
        ∃ lost, (s.run later).Accounts i q (lost ++ cut)) ∧
      (s.registry.timer MetricName.flushDuration).count.toNat =
        (landings s.journal).length % UInt64.size ∧
      (s.registry.histogram MetricName.flushPoints).Tells
        ((landings s.journal).map Prod.snd) := by
  intro s
  have start := Tended.create wallClock sends checkIns
  have sizedStart := sized_create wallClock sends checkIns
  have tended : s.Tended := start.run actions
  obtain ⟨sized, hsends⟩ := start.run_sends sizedStart actions
  refine ⟨fun i p pool => ?_, ?_⟩
  · have exact := hsends (¬ s.GivenUp i) [] i id (sendsExact_create _ _ _ _ i)
    obtain ⟨cut, account⟩ := exact.exact p pool
    rw [List.append_nil] at account
    refine ⟨cut, .of_account account, fun later q pool' => ?_⟩
    -- The account of this moment is where the later run starts, so what it has cut off stays.
    have early : ¬ (s.run later).GivenUp i → ¬ s.GivenUp i := fun kept given =>
      kept (given.lasts (tended.run_leads later))
    have now : SendsExact (¬ (s.run later).GivenUp i) cut s i := by
      refine ⟨fun none => (nomatch none.symm.trans pool), fun r hr => ?_⟩
      obtain rfl := Option.some.inj (pool.symm.trans hr)
      exact ⟨[], account.sends, fun kept => account.inFlight (early kept)⟩
    obtain ⟨lost, account'⟩ := ((tended.run_sends sized later).2 _ cut i id now).exact q pool'
    exact ⟨lost, .of_account account'⟩
  · obtain ⟨value, times, samples, flush, tallied⟩ :=
      (run_meters start sizedStart actions).tallied Registry.flush_empty ⟨rfl, .empty⟩
    rw [flush.times.timer_eq, flush.samples.histogram_eq]
    exact ⟨tallied.times, tallied.samples⟩

/-- One worker is aborted in a slow send, another one has sent, and a flush by hand takes
what is left. -/
def slowAborted : List Action :=
  let point := Point.make "m" (.ofNat 1) 1 .empty
  [.addPool 10 2 1000, .offer 0 [point, point, point, point, point], .spawn 0 2, .wait 1000,
    .tick 0 0, .tick 0 1, .abort 0 0, .beginCall 0, .endCall 0 0]

theorem run_counts_sends_slowAborted :
    let s := (create 0 ⟨[⟨60000, none⟩, ⟨0, none⟩], .deliver⟩ (.always none)).run slowAborted
    ¬ s.GivenUp 0 ∧
      (∃ p cut, s.pools[0]? = some p ∧ s.Accounts 0 p cut ∧ p.flights = [] ∧ p.inFlight = 2 ∧
        total (cut.map WorkUnit.size) = 2) ∧
      landings s.journal = [(0, 1), (0, 2)] ∧
      (s.registry.timer MetricName.flushDuration).count.toNat = 2 ∧
      (s.registry.histogram MetricName.flushPoints).Tells [1, 2] := by
  intro s
  have kept : ¬ s.GivenUp 0 := by
    have hnone : s.listeners.length = 0 := by decide +kernel
    rintro ⟨l, x, hx, -⟩
    rw [List.eq_nil_of_length_eq_zero hnone] at hx
    cases hx
  have hlandings : landings s.journal = [(0, 1), (0, 2)] := by decide +kernel
  obtain ⟨hpools, htimer, hhistogram⟩ :=
    run_counts_sends 0 ⟨[⟨60000, none⟩, ⟨0, none⟩], .deliver⟩ (.always none) slowAborted
  obtain ⟨p, pool, hp⟩ := Option.map_eq_some_iff.mp (show
    (s.pools[0]?.map fun p => (p.flights, p.inFlight)) = some ([], 2) by decide +kernel)
  have flights : p.flights = [] := congrArg Prod.fst hp
  have inFlight : p.inFlight = 2 := congrArg Prod.snd hp
  obtain ⟨cut, accounts, -⟩ := hpools 0 p pool
  refine ⟨kept, ⟨p, cut, pool, accounts, flights, inFlight, ?_⟩, hlandings, ?_, ?_⟩
  · have residue := accounts.residue kept
    rw [flights, inFlight] at residue
    simpa using residue.symm
  · rw [htimer, hlandings]
    rfl
  · rwa [hlandings] at hhistogram

end Relay
end MetricsProxy
