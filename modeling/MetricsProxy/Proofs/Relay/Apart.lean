import MetricsProxy.Proofs.Relay.Hands

/-!
# What leaves a task alone

A task is a worker or a reporter, and it is known by the origin of what it sends.
Most of what happens to a relay is not about a given task: the task stays as it is,
its token does not go back, and nothing of its own is entered into the journal
(`Spares`). `Concerns` lists the actions that may be about it; every other action
that takes no time spares it (`step_spares`).
-/
namespace MetricsProxy

/-- Who hands over the unit that an event is about. -/
def Event.origin? : Event → Option Origin
  | .begun o _ _ => some o
  | .returned o _ _ => some o
  | _ => none

/-- The events of one origin, newest first. -/
def Journal.own (o : Origin) (journal : List Event) : List Event :=
  journal.filter fun e => e.origin? = some o

namespace Journal
variable {o : Origin} {e : Event} {events older : List Event}

theorem own_cons (h : e.origin? = some o) : own o (e :: older) = e :: own o older :=
  List.filter_cons_of_pos (decide_eq_true h)

theorem own_cons_of_ne (h : e.origin? ≠ some o) : own o (e :: older) = own o older :=
  List.filter_cons_of_neg (by simpa using h)

theorem own_append (h : ∀ e ∈ events, e.origin? = some o) :
    own o (events ++ older) = events ++ own o older := by
  rw [own, List.filter_append, List.filter_eq_self.mpr fun e he => decide_eq_true (h e he)]
  rfl

end Journal

/-- Every answer that a script may give is so. -/
structure Script.All {α : Type} (P : α → Prop) (s : Script α) : Prop where
  entries : ∀ a ∈ s.entries, P a
  otherwise : s.entries = [] → P s.otherwise

theorem Script.All.next {α : Type} {P : α → Prop} {s : Script α} (h : s.All P) :
    P s.next.1 ∧ s.next.2.All P := by
  unfold Script.next
  split
  · rename_i empty
    exact ⟨h.otherwise empty, h⟩
  · rename_i a only
    exact ⟨h.entries a (by simp [only]), h⟩
  · rename_i a rest _ more
    refine ⟨h.entries a (by simp [more]), fun b hb => h.entries b ?_, fun hrest => ?_⟩
    · rw [more]
      exact List.mem_cons_of_mem _ hb
    · exact absurd hrest ‹_›

namespace Relay

/-- The task behind an origin, if there is one. -/
def task? (s : Relay) : Origin → Option Worker
  | .worker i j => s.worker? i j
  | .reporter k => s.reporters[k]?.map fun r => r.task
  | _ => none

/-- Whether the token of the task behind an origin has fired. -/
def fired (s : Relay) : Origin → Bool
  | .worker i _ => s.pools[i]?.any fun p => p.cancelled
  | .reporter k => s.reporters[k]?.any fun r => r.cancelled
  | _ => false

/-- From `s` to `s'` nothing happens to the task behind `o`, and no time passes. The
destination's script goes on at most. -/
structure Spares (o : Origin) (s s' : Relay) : Prop where
  task : ∀ w, s.task? o = some w → s'.task? o = some w
  fired : s.fired o = true → s'.fired o = true
  own : Journal.own o s'.journal = Journal.own o s.journal
  script : ∀ P, s.sends.All P → s'.sends.All P
  now : s'.now = s.now

variable {o : Origin} {s s' s'' : Relay} {i j k l c : Nat}

namespace Spares

theorem trans (h : Spares o s s') (h' : Spares o s' s'') : Spares o s s'' where
  task w hw := h'.task w (h.task w hw)
  fired hf := h'.fired (h.fired hf)
  own := h'.own.trans h.own
  script P hP := h'.script P (h.script P hP)
  now := h'.now.trans h.now

theorem of_same (pools : s'.pools = s.pools) (reporters : s'.reporters = s.reporters)
    (journal : s'.journal = s.journal) (now : s'.now = s.now)
    (script : ∀ P, s.sends.All P → s'.sends.All P) : Spares o s s' where
  task w hw := by
    cases o with
    | worker i j => rwa [task?, worker?, pools]
    | reporter k => rwa [task?, reporters]
    | _ => cases hw
  fired hf := by
    cases o with
    | worker i j => rwa [Relay.fired, pools]
    | reporter k => rwa [Relay.fired, reporters]
    | _ => cases hf
  own := by rw [journal]
  script := script
  now := now

theorem of_eq (pools : s'.pools = s.pools) (reporters : s'.reporters = s.reporters)
    (journal : s'.journal = s.journal) (sends : s'.sends = s.sends) (now : s'.now = s.now) :
    Spares o s s' := .of_same pools reporters journal now fun _ hP => sends ▸ hP

theorem refl (s : Relay) : Spares o s s := .of_eq rfl rfl rfl rfl rfl

theorem of_pools {pools : List FlushPool}
    (worker : ∀ i j w, o = .worker i j → s.worker? i j = some w →
      (pools[i]?.bind fun p => p.workers[j]?) = some w)
    (fired : ∀ i j p, o = .worker i j → s.pools[i]? = some p → p.cancelled = true →
      ∃ q, pools[i]? = some q ∧ q.cancelled = true) :
    Spares o s { s with pools := pools } where
  task w hw := by
    cases o with
    | worker i j => exact worker i j w rfl hw
    | reporter k => exact hw
    | _ => cases hw
  fired hf := by
    cases o with
    | worker i j =>
        obtain ⟨p, hp, cancelled⟩ := (Option.any_eq_true _ _).mp hf
        exact (Option.any_eq_true _ _).mpr (fired i j p rfl hp cancelled)
    | reporter k => exact hf
    | _ => cases hf
  own := rfl
  script _ hP := hP
  now := rfl

end Spares

/-! ## Steps of the steps -/

theorem modifyPool_spares (s : Relay) (i : Nat) (f : FlushPool → FlushPool)
    (workers : ∀ j, o = .worker i j → ∀ (p : FlushPool) (w : Worker), p.workers[j]? = some w →
      (f p).workers[j]? = some w)
    (fired : ∀ p, p.cancelled = true → (f p).cancelled = true) :
    Spares o s (s.modifyPool i f) := by
  refine .of_pools (fun m j w ho hw => ?_) fun m j p ho hp cancelled => ?_
  · obtain ⟨p, hp, hworker⟩ := worker?_eq_some hw
    rw [List.getElem?_modify, hp]
    by_cases hm : i = m
    · subst hm
      simpa using workers j ho p w hworker
    · simpa [hm] using hworker
  · rw [List.getElem?_modify, hp]
    by_cases hm : i = m
    · exact ⟨f p, by simp [hm], fired p cancelled⟩
    · exact ⟨p, by simp [hm], cancelled⟩

/-- A pool changes, but neither its workers nor its token. -/
theorem modifyPool_spares_all (s : Relay) (i : Nat) (f : FlushPool → FlushPool)
    (workers : ∀ p, (f p).workers = p.workers) (fired : ∀ p, (f p).cancelled = p.cancelled) :
    Spares o s (s.modifyPool i f) :=
  modifyPool_spares s i f (fun _ _ p _ hw => workers p ▸ hw) fun p hp => (fired p).trans hp

theorem modifyWorker_spares (s : Relay) (f : Worker → Worker) (apart : o ≠ .worker i j) :
    Spares o s (s.modifyWorker i j f) := by
  refine modifyPool_spares s i _ (fun k ho p w hw => ?_) fun _ h => h
  have hne : j ≠ k := fun h => apart (h ▸ ho)
  exact (List.getElem?_modify_ne _ _ hne).trans hw

theorem modifyReporter_spares (s : Relay) (f : Reporter → Reporter) (apart : o ≠ .reporter k) :
    Spares o s (s.modifyReporter k f) where
  task w hw := by
    cases o with
    | reporter m =>
        have hne : k ≠ m := fun h => apart (h ▸ rfl)
        rw [task?, modifyReporter]
        dsimp only
        rw [List.getElem?_modify_ne _ _ hne]
        exact hw
    | _ => exact hw
  fired hf := by
    cases o with
    | reporter m =>
        have hne : k ≠ m := fun h => apart (h ▸ rfl)
        rw [fired, modifyReporter]
        dsimp only
        rw [List.getElem?_modify_ne _ _ hne]
        exact hf
    | _ => exact hf
  own := rfl
  script _ hP := hP
  now := rfl

theorem log_spares (s : Relay) {e : Event} (apart : e.origin? ≠ some o) :
    Spares o s (s.log e) where
  task _ hw := by cases o <;> exact hw
  fired hf := by cases o <;> exact hf
  own := Journal.own_cons_of_ne apart
  script _ hP := hP
  now := rfl

theorem accepted_spares (s : Relay) (i : Nat) (c : Option Nat) (point : Point) :
    Spares o s (s.log (.accepted i c point)) := log_spares s (Option.some_ne_none o).symm

theorem use_spares (s : Relay) (name : String) (u : MetricUse) : Spares o s (s.use name u) :=
  .of_eq rfl rfl rfl rfl rfl

theorem modifyListener_spares (s : Relay) (l : Nat) (f : Listener → Listener) :
    Spares o s (s.modifyListener l f) := .of_eq rfl rfl rfl rfl rfl

theorem modifyConnection_spares (s : Relay) (c : Nat) (f : Connection → Connection) :
    Spares o s (s.modifyConnection c f) := .of_eq rfl rfl rfl rfl rfl

theorem ticket_spares (s : Relay) : Spares o s s.ticket.1 := .of_eq rfl rfl rfl rfl rfl

theorem land_spares (s : Relay) {other : Origin} (flight : Flight) (apart : o ≠ other) :
    Spares o s (s.land other flight) :=
  log_spares s fun h => apart (Option.some.inj h).symm

theorem launch_spares (s : Relay) {other : Origin} (unit : WorkUnit) (apart : o ≠ other) :
    Spares o s (s.launch other unit).1 := by
  have hscript : Spares o s { s with sends := s.sends.next.2 } :=
    .of_same rfl rfl rfl rfl fun _ hP => hP.next.2
  exact hscript.trans (log_spares _ fun h => apart (Option.some.inj h).symm)

/-! ## Flushing -/

theorem reportSize_spares (s : Relay) (i size : Nat) : Spares o s (s.reportSize i size) := by
  unfold reportSize
  split
  · exact .refl s
  · refine .trans ?_ (use_spares _ _ _)
    exact modifyPool_spares_all _ _ _ (fun _ => rfl) fun _ => rfl

theorem releaseSize_spares (s : Relay) (i : Nat) : Spares o s (s.releaseSize i) := by
  unfold releaseSize
  split
  · exact .refl s
  · refine .trans ?_ (use_spares _ _ _)
    exact modifyPool_spares_all _ _ _ (fun _ => rfl) fun _ => rfl

theorem beginFlush_spares (s : Relay) (i : Nat) {other : Origin} (apart : o ≠ other) :
    Spares o s (s.beginFlush i other).1 := by
  unfold beginFlush
  split
  · exact .refl s
  · rename_i p _
    have hdrain : Spares o s ((s.modifyPool i fun q =>
        { q with buffer := (p.buffer.drain p.unitLimit).1 }).reportSize i
          (p.buffer.drain p.unitLimit).1.size) := by
      refine .trans ?_ (reportSize_spares _ _ _)
      exact modifyPool_spares_all _ _ _ (fun _ => rfl) fun _ => rfl
    dsimp only
    split
    · exact hdrain
    · refine .trans (hdrain.trans (launch_spares _ ⟨(p.buffer.drain p.unitLimit).2⟩ apart)) ?_
      exact modifyPool_spares_all _ _ _ (fun _ => rfl) fun _ => rfl

theorem endFlush_spares (s : Relay) (i : Nat) {other : Origin} (flight : Flight)
    (apart : o ≠ other) : Spares o s (s.endFlush i other flight) := by
  refine .trans (.trans (.trans (land_spares s flight apart) ?_) (use_spares _ _ _))
    (use_spares _ _ _)
  exact modifyPool_spares_all _ _ _ (fun _ => rfl) fun _ => rfl

theorem ticketFor_spares (s : Relay) (due : Nat) : Spares o s (s.ticketFor due).1 := by
  unfold ticketFor
  split
  · exact .refl s
  · exact ticket_spares s

theorem rest_spares (s : Relay) (apart : o ≠ .worker i j) : Spares o s (s.rest i j) := by
  unfold rest
  split
  · exact .refl s
  · exact .trans (ticketFor_spares s _) (modifyWorker_spares _ _ apart)

theorem await_spares (s : Relay) (flight : Flight) (apart : o ≠ .worker i j) :
    Spares o s (s.await i j flight) := .trans (ticket_spares s) (modifyWorker_spares _ _ apart)

theorem tick_spares (s : Relay) (apart : o ≠ .worker i j) : Spares o s (s.tick i j) := by
  unfold tick
  split
  · split
    · have htake := modifyWorker_spares s (fun w => { w with ticker := w.ticker.take s.now }) apart
      have hbegin := htake.trans (beginFlush_spares _ i apart)
      dsimp only
      split
      · rename_i heq
        rw [heq] at hbegin
        exact hbegin.trans (rest_spares _ apart)
      · rename_i heq
        rw [heq] at hbegin
        split
        · exact (hbegin.trans (endFlush_spares _ i _ apart)).trans (rest_spares _ apart)
        · exact hbegin.trans (await_spares _ _ apart)
    · exact .refl s
  · exact .refl s

theorem deliver_spares (s : Relay) (apart : o ≠ .worker i j) : Spares o s (s.deliver i j) := by
  unfold deliver
  split
  · split
    · split
      · exact (endFlush_spares _ i _ apart).trans (rest_spares _ apart)
      · exact .refl s
    · exact .refl s
  · exact .refl s

theorem quit_spares (s : Relay) (apart : o ≠ .worker i j) : Spares o s (s.quit i j) := by
  unfold quit
  split
  · split
    · exact modifyWorker_spares _ _ apart
    · exact .refl s
  · exact .refl s

theorem offer_spares (s : Relay) (i : Nat) (points : List Point) :
    Spares o s (s.offer i points).1 := by
  have hlog (t : Relay) (points : List Point) :
      Spares o t (points.foldl (fun t q => t.log (.accepted i none q)) t) := by
    induction points generalizing t with
    | nil => exact .refl t
    | cons q points ih => exact (accepted_spares t i none q).trans (ih _)
  unfold offer
  split
  · exact .refl s
  · refine .trans ?_ (hlog _ _)
    exact modifyPool_spares_all _ _ _ (fun _ => rfl) fun _ => rfl

theorem beginCall_spares (s : Relay) (i : Nat) (apart : o ≠ .flushCall i) :
    Spares o s (s.beginCall i) := by
  have hbegin := beginFlush_spares s i apart
  unfold beginCall
  split
  · rename_i heq
    rw [heq] at hbegin
    exact hbegin
  · rename_i heq
    rw [heq] at hbegin
    refine hbegin.trans ?_
    exact modifyPool_spares_all _ _ _ (fun _ => rfl) fun _ => rfl

theorem endCall_spares (s : Relay) (i k : Nat) (apart : o ≠ .flushCall i) :
    Spares o s (s.endCall i k) := by
  unfold endCall
  split
  · split
    · refine .trans ?_ (endFlush_spares _ _ _ apart)
      exact modifyPool_spares_all _ _ _ (fun _ => rfl) fun _ => rfl
    · exact .refl s
  · exact .refl s

theorem spawnWorkers_spares (s : Relay) (i n : Nat) : Spares o s (s.spawnWorkers i n) := by
  induction n generalizing s with
  | zero => exact .refl s
  | succ n ih =>
      refine .trans (.trans (ticket_spares s) ?_) (ih _)
      refine modifyPool_spares _ _ _ (fun j _ p w hw => ?_) fun _ h => h
      exact (List.getElem?_append_left (List.getElem?_eq_some_iff.mp hw).choose).trans hw

theorem cancelPool_spares (s : Relay) (i : Nat) : Spares o s (s.cancelPool i) :=
  modifyPool_spares s i _ (fun _ _ _ _ hw => hw) fun _ _ => rfl

theorem registerFlushMetrics_spares (s : Relay) : Spares o s s.registerFlushMetrics :=
  .of_eq rfl rfl rfl rfl rfl

theorem addPool_spares (s : Relay) (p : FlushPool) : Spares o s (s.addPool p) := by
  refine (registerFlushMetrics_spares s).trans
    (.of_pools (fun i j w _ hw => ?_) fun i j q _ hq cancelled => ?_)
  · obtain ⟨q, hq, hworker⟩ := worker?_eq_some hw
    change s.pools[i]? = some q at hq
    rw [List.getElem?_append_left (List.getElem?_eq_some_iff.mp hq).choose, hq]
    exact hworker
  · exact ⟨q, (List.getElem?_append_left (List.getElem?_eq_some_iff.mp hq).choose).trans hq,
      cancelled⟩

/-! ## Reporting -/

theorem beginReport_spares (s : Relay) (agent : Agent) {other : Origin} (apart : o ≠ other) :
    Spares o s (s.beginReport agent other).1 := by
  unfold beginReport
  dsimp only
  split
  · exact .refl s
  · exact launch_spares _ _ apart

theorem reporterRest_spares (s : Relay) (apart : o ≠ .reporter k) :
    Spares o s (s.reporterRest k) := by
  unfold reporterRest
  split
  · exact .refl s
  · exact .trans (ticketFor_spares s _) (modifyReporter_spares _ _ apart)

theorem reporterTick_spares (s : Relay) (apart : o ≠ .reporter k) :
    Spares o s (s.reporterTick k) := by
  unfold reporterTick
  split
  · rename_i r _
    split
    · have htake := modifyReporter_spares s (fun r =>
        { r with task := { r.task with ticker := r.task.ticker.take s.now } }) apart
      have hbegin := htake.trans (beginReport_spares _ r.agent apart)
      dsimp only
      split
      · rename_i heq
        rw [heq] at hbegin
        exact hbegin.trans (reporterRest_spares _ apart)
      · rename_i heq
        rw [heq] at hbegin
        split
        · exact (hbegin.trans (land_spares _ _ apart)).trans (reporterRest_spares _ apart)
        · exact .trans (hbegin.trans (ticket_spares _)) (modifyReporter_spares _ _ apart)
    · exact .refl s
  · exact .refl s

theorem reporterDeliver_spares (s : Relay) (apart : o ≠ .reporter k) :
    Spares o s (s.reporterDeliver k) := by
  unfold reporterDeliver
  split
  · split
    · split
      · exact (land_spares _ _ apart).trans (reporterRest_spares _ apart)
      · exact .refl s
    · exact .refl s
  · exact .refl s

theorem addReporter_spares (s : Relay) (agent : Agent) (interval : Nat) :
    Spares o s (s.addReporter agent interval) where
  task w hw := by
    cases o with
    | reporter k =>
        obtain ⟨r, hr, heq⟩ := Option.map_eq_some_iff.mp hw
        have hk := (List.getElem?_eq_some_iff.mp hr).choose
        refine Option.map_eq_some_iff.mpr ⟨r, ?_, heq⟩
        exact (List.getElem?_append_left hk).trans hr
    | _ => exact hw
  fired hf := by
    cases o with
    | reporter k =>
        obtain ⟨r, hr, cancelled⟩ := (Option.any_eq_true _ _).mp hf
        have hk := (List.getElem?_eq_some_iff.mp hr).choose
        exact (Option.any_eq_true _ _).mpr ⟨r, (List.getElem?_append_left hk).trans hr, cancelled⟩
    | _ => exact hf
  own := rfl
  script _ hP := hP
  now := rfl

theorem cancelReporters_spares (s : Relay) : Spares o s s.cancelReporters where
  task w hw := by
    cases o with
    | reporter k =>
        obtain ⟨r, hr, heq⟩ := Option.map_eq_some_iff.mp hw
        refine Option.map_eq_some_iff.mpr ⟨{ r with cancelled := true }, ?_, heq⟩
        rw [cancelReporters, List.getElem?_map, hr]
        rfl
    | _ => exact hw
  fired hf := by
    cases o with
    | reporter k =>
        obtain ⟨r, hr, -⟩ := (Option.any_eq_true _ _).mp hf
        refine (Option.any_eq_true _ _).mpr ⟨{ r with cancelled := true }, ?_, rfl⟩
        rw [cancelReporters, List.getElem?_map, hr]
        rfl
    | _ => exact hf
  own := rfl
  script _ hP := hP
  now := rfl

/-! ## Listening -/

theorem registerListenerMetrics_spares (s : Relay) : Spares o s s.registerListenerMetrics :=
  .of_eq rfl rfl rfl rfl rfl

theorem start_spares (s : Relay) (l : Nat) (bind : Except String String) :
    Spares o s (s.start l bind).1 := by
  unfold start
  split
  · exact .refl s
  · split
    · exact .refl s
    · split
      · exact .refl s
      · split
        · exact modifyListener_spares _ _ _
        · have staffs (p : FlushPool) (n : Nat) :
              Spares o s ((s.addPool p).spawnWorkers s.pools.length n) :=
            (addPool_spares s p).trans (spawnWorkers_spares _ _ n)
          dsimp only
          split
          · exact ((staffs _ _).trans (registerListenerMetrics_spares _)).trans
              (modifyListener_spares _ _ _)
          · exact (staffs _ _).trans (modifyListener_spares _ _ _)

theorem connect_spares (s : Relay) (l : Nat) : Spares o s (s.connect l).1 := by
  unfold connect
  split
  · exact .refl s
  · split
    · split <;> exact .of_eq rfl rfl rfl rfl rfl
    · exact .refl s

theorem close_spares (s : Relay) (c : Nat) : Spares o s (s.close c) := by
  unfold close
  split
  · split
    · exact (modifyConnection_spares _ _ _).trans (use_spares _ _ _)
    · exact .refl s
  · exact .refl s

theorem handle_spares (s : Relay) (i c : Nat) (cls : LineClass) :
    Spares o s (s.handle i c cls) := by
  cases cls with
  | blank => exact .refl s
  | error cause => exact use_spares _ _ _
  | decoded point =>
      rw [handle, receive]
      split
      · exact use_spares _ _ _
      · split
        · have huse := use_spares (o := o) s MetricName.pointsReceived (.count 1)
          refine .trans (huse.trans ?_) (accepted_spares _ _ _ _)
          exact modifyPool_spares_all _ _ _ (fun _ => rfl) fun _ => rfl
        · exact (use_spares _ _ _).trans (use_spares _ _ _)

theorem readOn_spares (s : Relay) (c : Nat) : Spares o s (s.readOn c) := by
  unfold readOn
  split
  · exact .refl s
  · split
    · exact .refl s
    · split
      · dsimp only
        split
        · exact close_spares _ _
        · split
          · split
            · exact modifyConnection_spares _ _ _
            · exact (modifyConnection_spares _ _ _).trans (handle_spares _ _ _ _)
          · split
            · exact close_spares _ _
            · split
              · split
                · exact close_spares _ _
                · exact (modifyConnection_spares _ _ _).trans (handle_spares _ _ _ _)
              · exact .refl s
      · exact .refl s

theorem endAccepting_spares (s : Relay) (l : Nat) : Spares o s (s.endAccepting l) := by
  unfold endAccepting
  split
  · split
    · exact modifyListener_spares _ _ _
    · exact .refl s
  · exact .refl s

theorem beginStop_spares (s : Relay) (l : Nat) : Spares o s (s.beginStop l) := by
  unfold beginStop
  split
  · split
    · exact (cancelPool_spares _ _).trans (modifyListener_spares _ _ _)
    · exact .refl s
  · exact .refl s

theorem countDropped_spares (s : Relay) (n : Nat) : Spares o s (s.countDropped n) := by
  unfold countDropped
  split
  · exact use_spares _ _ _
  · exact .refl s

theorem settle_spares (s : Relay) (l i : Nat) : Spares o s (s.settle l i) := by
  unfold settle
  split
  · exact .refl s
  · rename_i p _
    have hrelease := (countDropped_spares (o := o) s p.inFlight).trans (releaseSize_spares _ i)
    refine .trans (.trans (hrelease.trans ?_) (countDropped_spares _ _))
      (modifyListener_spares _ _ _)
    exact modifyPool_spares_all _ _ _ (fun _ => rfl) fun _ => rfl

theorem awaitTask_spares (s : Relay) (l : Nat) : Spares o s (s.awaitTask l) := by
  unfold awaitTask
  split
  · split
    · split
      · exact modifyListener_spares _ _ _
      · exact .refl s
      · exact settle_spares _ _ _
    · exact .refl s
  · exact .refl s

theorem closeAll_spares (s : Relay) (l : Nat) : Spares o s (s.closeAll l) := by
  rw [closeAll_eq]
  exact .of_eq rfl rfl rfl rfl rfl

theorem abortAll_spares (s : Relay) (apart : ∀ j, o ≠ .worker i j) : Spares o s (s.abortAll i) :=
  modifyPool_spares s i _ (fun j ho => absurd ho (apart j)) fun _ h => h

/-- A stop that loses patience is about the workers of the listener. -/
theorem expire_spares (s : Relay) (l : Nat)
    (apart : ∀ x closing i j, s.listeners[l]? = some x → x.closing = some closing →
      closing.deadline ≤ s.now → x.pool = some i → o ≠ .worker i j) :
    Spares o s (s.expire l) := by
  unfold expire
  split
  · rename_i x listener
    split
    · rename_i closing i closes owner
      split
      · rename_i guard
        have haborts := ((abortAll_spares s
          (apart x closing i · listener closes guard.1 owner)).trans
            (closeAll_spares _ l)).trans (modifyListener_spares _ l fun x =>
              { x with accepting := false })
        dsimp only
        split
        · exact haborts.trans (settle_spares _ _ _)
        · exact haborts.trans (modifyListener_spares _ _ _)
      · exact .refl s
    · exact .refl s
  · exact .refl s

theorem dropListener_spares (s : Relay) (l : Nat) : Spares o s (s.dropListener l) := by
  unfold dropListener
  split
  · rename_i x _
    have hdrop := modifyListener_spares (o := o) s l fun x => { x with dropped := true }
    dsimp only
    cases x.pool with
    | none => exact hdrop
    | some i => exact hdrop.trans (cancelPool_spares _ i)
  · exact .refl s

/-! ## Actions -/

/-- The actions that may be about the task behind an origin, or that send on its behalf. -/
inductive Concerns (s : Relay) : Action → Origin → Prop where
  | tick (i j : Nat) : Concerns s (.tick i j) (.worker i j)
  | deliver (i j : Nat) : Concerns s (.deliver i j) (.worker i j)
  | quit (i j : Nat) : Concerns s (.quit i j) (.worker i j)
  | abort (i j : Nat) : Concerns s (.abort i j) (.worker i j)
  | expire {l i : Nat} {x : Listener} {closing : Closing} (listener : s.listeners[l]? = some x)
      (closes : x.closing = some closing) (expired : closing.deadline ≤ s.now)
      (owner : x.pool = some i) (j : Nat) : Concerns s (.expire l) (.worker i j)
  | beginCall (i : Nat) : Concerns s (.beginCall i) (.flushCall i)
  | endCall (i k : Nat) : Concerns s (.endCall i k) (.flushCall i)
  | reporterTick (k : Nat) : Concerns s (.reporterTick k) (.reporter k)
  | reporterDeliver (k : Nat) : Concerns s (.reporterDeliver k) (.reporter k)
  | reporterQuit (k : Nat) : Concerns s (.reporterQuit k) (.reporter k)

/-- Every action that is not about a task spares it, unless time passes. -/
theorem step_spares (s : Relay) {a : Action} (timeless : ∀ d, a ≠ .wait d)
    (apart : ¬ s.Concerns a o) : Spares o s (s.step a) := by
  cases a with
  | wait d => exact absurd rfl (timeless d)
  | addPool capacity maxPoints interval => exact addPool_spares _ _
  | offer i points => exact offer_spares _ _ _
  | beginCall i => exact beginCall_spares _ _ fun h => apart (h ▸ .beginCall i)
  | endCall i k => exact endCall_spares _ _ _ fun h => apart (h ▸ .endCall i k)
  | releaseSize i => exact releaseSize_spares _ _
  | spawn i n => exact spawnWorkers_spares _ _ _
  | cancelPool i => exact cancelPool_spares _ _
  | abort i j => exact modifyWorker_spares _ _ fun h => apart (h ▸ .abort i j)
  | tick i j => exact tick_spares _ fun h => apart (h ▸ .tick i j)
  | deliver i j => exact deliver_spares _ fun h => apart (h ▸ .deliver i j)
  | quit i j => exact quit_spares _ fun h => apart (h ▸ .quit i j)
  | addReporter agent interval => exact addReporter_spares _ _ _
  | cancelReporters => exact cancelReporters_spares _
  | reporterTick k => exact reporterTick_spares _ fun h => apart (h ▸ .reporterTick k)
  | reporterDeliver k => exact reporterDeliver_spares _ fun h => apart (h ▸ .reporterDeliver k)
  | reporterQuit k => exact modifyReporter_spares _ _ fun h => apart (h ▸ .reporterQuit k)
  | addListener settings => exact .of_eq rfl rfl rfl rfl rfl
  | start l answer => exact start_spares _ _ _
  | beginStop l => exact beginStop_spares _ _
  | awaitTask l => exact awaitTask_spares _ _
  | expire l =>
      exact expire_spares _ _ fun x closing i j listener closes expired owner h =>
        apart (h ▸ .expire listener closes expired owner j)
  | endAccepting l => exact endAccepting_spares _ _
  | dropListener l => exact dropListener_spares _ _
  | connect l => exact connect_spares _ _
  | arrive c bytes => exact modifyConnection_spares _ _ _
  | endInput c => exact modifyConnection_spares _ _ _
  | breakOff c => exact modifyConnection_spares _ _ _
  | readOn c => exact readOn_spares _ _

/-- Nothing but the owner of a relay reports by hand, so every action spares that. -/
theorem step_spares_reportCall (s : Relay) {a : Action} (timeless : ∀ d, a ≠ .wait d) :
    Spares .reportCall s (s.step a) := step_spares s timeless nofun

/-- Only waiting takes time. -/
theorem step_now (s : Relay) {a : Action} (timeless : ∀ d, a ≠ .wait d) :
    (s.step a).now = s.now := (step_spares_reportCall s timeless).now

end Relay
end MetricsProxy
