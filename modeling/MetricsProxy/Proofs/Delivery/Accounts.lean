import MetricsProxy.Delivery.Client
import MetricsProxy.Proofs.Lists
import MetricsProxy.Proofs.Telemetry

/-!
# The accounts of a client

Whatever a client counts is a list of entries, a counter's name with a number
each, and a call makes the entries of its outcome (`Client.call_spec`): one for
the retries of its requests, and one or two for the result of a send. Counters
add up their entries (`Registry.counter_book`), so after any calls each of them
has grown by the total over the outcomes. What the outcomes may be is
`Client.Answers`: a send gives the whole size of its unit to one side and nothing
to the other.
-/
namespace MetricsProxy

namespace Registry

/-- Makes entries one after another. -/
def book (r : Registry) (entries : List (String × Nat)) : Registry :=
  entries.foldl (fun r entry => r.count entry.1 entry.2) r

/-- What the entries come to under a name. -/
def amount (entries : List (String × Nat)) (name : String) : Nat :=
  total (entries.map fun entry => if entry.1 = name then entry.2 else 0)

@[simp] theorem book_nil (r : Registry) : r.book [] = r := rfl

@[simp] theorem book_cons (r : Registry) (entry : String × Nat) (entries : List (String × Nat)) :
    r.book (entry :: entries) = (r.count entry.1 entry.2).book entries := rfl

theorem book_append (r : Registry) (es fs : List (String × Nat)) :
    r.book (es ++ fs) = (r.book es).book fs := List.foldl_append

theorem amount_append (es fs : List (String × Nat)) (name : String) :
    amount (es ++ fs) name = amount es name + amount fs name := by
  rw [amount, List.map_append, total_append]
  rfl

theorem amount_flatMap {α : Type} (xs : List α) (f : α → List (String × Nat)) (name : String) :
    amount (xs.flatMap f) name = total (xs.map fun x => amount (f x) name) := by
  induction xs with
  | nil => rfl
  | cons x xs ih => rw [List.flatMap_cons, amount_append, ih, List.map_cons, total_cons]

theorem counter_count (r : Registry) (name other : String) (n : Nat)
    (h : r.admits name .counter = true) :
    (r.count other n).counter name =
      (r.counter name + if other = name then n else 0) % UInt64.size := by
  by_cases hn : other = name
  · subst hn
    rw [count, counter_apply_count r other _ h, UInt64.toNat_ofNat', if_pos rfl, Nat.add_mod_mod]
  · rw [count, counter_apply_of_ne r _ (Ne.symm hn), if_neg hn, Nat.add_zero]
    exact (Nat.mod_eq_of_lt (counter_lt_size r name)).symm

/-- A counter adds up the entries made under its name. -/
theorem counter_book (r : Registry) (entries : List (String × Nat)) {name : String}
    (h : r.admits name .counter = true) :
    (r.book entries).counter name = (r.counter name + amount entries name) % UInt64.size := by
  induction entries generalizing r with
  | nil => exact (Nat.mod_eq_of_lt (counter_lt_size r name)).symm
  | cons entry entries ih =>
      have hadmits : (r.count entry.1 entry.2).admits name .counter = true :=
        admits_apply r entry.1 name _ _ h fun _ => rfl
      rw [book_cons, ih _ hadmits, counter_count r name entry.1 entry.2 h, Nat.mod_add_mod,
        Nat.add_assoc]
      rfl

theorem SameBut.book {names : List String} {r r' : Registry} (h : SameBut names r r')
    {entries : List (String × Nat)} (hn : ∀ entry ∈ entries, entry.1 ∈ names) :
    SameBut names r (r'.book entries) := by
  induction entries generalizing r' with
  | nil => exact h
  | cons entry entries ih =>
      exact ih (h.apply (hn entry List.mem_cons_self) _)
        fun other ho => hn other (List.mem_cons_of_mem _ ho)

end Registry

namespace Delivery

/-- A call of a client and what its requests meet, which is the server's doing;
`defect` says why a body cannot be built, if it cannot. -/
inductive Call where
  | send (id : String) (unit : WorkUnit) (defect : Option String) (answers : Nat → Answer)
  | push (id : String) (unit : WorkUnit) (defect : Option String) (answers : Nat → Answer)
  | checkIn (currentMillis payload : String) (answers : Nat → Answer)

/-- What came of a call: its trial, if it came to one, and the result if it was a send. -/
structure Outcome where
  trial : Option Trial
  result : Option DeliveryResult

namespace Call

def points : Call → Nat
  | send _ unit _ _ => unit.size
  | _ => 0

end Call

namespace Outcome

def retries (o : Outcome) : Nat := o.trial.elim 0 fun t => t.requests - 1

def delivered (o : Outcome) : Nat :=
  match o.result with
  | some (.delivered n) => n
  | _ => 0

def dropped (o : Outcome) : Nat :=
  match o.result with
  | some (.dropped n _) => n
  | _ => 0

/-- Whether a unit was dropped. -/
def isDrop (o : Outcome) : Bool :=
  match o.result with
  | some (.dropped _ _) => true
  | _ => false

end Outcome

namespace Client

/-- The trial of a push. A body that cannot be built ends it before any request. -/
def pushTrial (c : Client) (id : String) (unit : WorkUnit) (defect : Option String)
    (answers : Nat → Answer) : Trial :=
  match defect with
  | some detail => ⟨0, [], .error (.payload detail)⟩
  | none => Trial.run c.strategy (conditions (c.endpoint.push? id unit) answers)

def checkInTrial (c : Client) (currentMillis payload : String) (answers : Nat → Answer) : Trial :=
  Trial.run c.strategy (conditions (c.endpoint.checkIn? currentMillis payload) answers)

def call (c : Client) (r : Registry) : Call → Registry × Outcome
  | .send id unit defect answers =>
      let (r, trial, result) := c.send r id unit defect answers
      (r, ⟨trial, some result⟩)
  | .push id unit defect answers =>
      let (r, trial) := c.push r id unit defect answers
      (r, ⟨some trial, none⟩)
  | .checkIn currentMillis payload answers =>
      let (r, trial) := c.checkIn r currentMillis payload answers
      (r, ⟨some trial, none⟩)

def calls (c : Client) (r : Registry) : List Call → Registry × List Outcome
  | [] => (r, [])
  | call :: rest =>
      let (r, outcome) := c.call r call
      let (r, outcomes) := c.calls r rest
      (r, outcome :: outcomes)

/-- What may come of a call. -/
inductive Answers (c : Client) : Call → Outcome → Prop where
  /-- A send of no points issues no request. -/
  | empty {id : String} {unit : WorkUnit} {defect : Option String} {answers : Nat → Answer}
      (nothing : unit.size = 0) :
      Answers c (.send id unit defect answers) ⟨none, some (.delivered 0)⟩
  | delivered {id : String} {unit : WorkUnit} {defect : Option String} {answers : Nat → Answer}
      {status : Status} (something : unit.size ≠ 0)
      (success : (c.pushTrial id unit defect answers).result = .ok status) :
      Answers c (.send id unit defect answers)
        ⟨some (c.pushTrial id unit defect answers), some (.delivered unit.size)⟩
  | dropped {id : String} {unit : WorkUnit} {defect : Option String} {answers : Nat → Answer}
      {reason : ShippingError} (something : unit.size ≠ 0)
      (failure : (c.pushTrial id unit defect answers).result = .error reason) :
      Answers c (.send id unit defect answers)
        ⟨some (c.pushTrial id unit defect answers), some (.dropped unit.size reason)⟩
  | pushed {id : String} {unit : WorkUnit} {defect : Option String} {answers : Nat → Answer} :
      Answers c (.push id unit defect answers) ⟨some (c.pushTrial id unit defect answers), none⟩
  | checkedIn {currentMillis payload : String} {answers : Nat → Answer} :
      Answers c (.checkIn currentMillis payload answers)
        ⟨some (c.checkInTrial currentMillis payload answers), none⟩

end Client

/-- What a trial is counted as: nothing if nothing was issued. -/
def Trial.entries (t : Trial) : List (String × Nat) :=
  if t.requests = 0 then [] else [(MetricName.deliveryRetries, t.requests - 1)]

/-- What the result of a send is counted as: nothing if no points were sent. -/
def resultEntries : DeliveryResult → List (String × Nat)
  | .delivered n => if n = 0 then [] else [(MetricName.pointsDelivered, n)]
  | .dropped n _ => [(MetricName.unitsDeliveryFailed, 1), (MetricName.pointsDeliveryFailed, n)]

def Outcome.entries (o : Outcome) : List (String × Nat) :=
  o.trial.elim [] Trial.entries ++ o.result.elim [] resultEntries

def accounts : List String :=
  [MetricName.pointsDelivered, MetricName.pointsDeliveryFailed, MetricName.unitsDeliveryFailed,
   MetricName.deliveryRetries]

/-! ## What entries come to -/

open Registry (SameBut amount)

theorem Trial.amount_entries (t : Trial) (name : String) :
    amount t.entries name = if MetricName.deliveryRetries = name then t.requests - 1 else 0 := by
  unfold entries
  split
  case isTrue unissued => simp [amount, unissued]
  case isFalse => simp [amount]

theorem Trial.amount_elim (t : Option Trial) (name : String) :
    amount (t.elim [] Trial.entries) name =
      if MetricName.deliveryRetries = name then t.elim 0 fun t => t.requests - 1 else 0 := by
  cases t with
  | none => exact (ite_self 0).symm
  | some t => exact t.amount_entries name

theorem amount_of_delivered (n : Nat) (name : String) :
    amount (resultEntries (.delivered n)) name =
      if MetricName.pointsDelivered = name then n else 0 := by
  by_cases nothing : n = 0
  · simp [resultEntries, amount, nothing]
  · simp [resultEntries, amount, nothing]

theorem amount_of_dropped (n : Nat) (reason : ShippingError) (name : String) :
    amount (resultEntries (.dropped n reason)) name =
      (if MetricName.unitsDeliveryFailed = name then 1 else 0) +
        if MetricName.pointsDeliveryFailed = name then n else 0 := by
  simp [resultEntries, amount]

namespace Outcome
variable (o : Outcome)

theorem amount_entries (name : String) :
    amount o.entries name =
      (if MetricName.deliveryRetries = name then o.retries else 0) +
        amount (o.result.elim [] resultEntries) name := by
  rw [entries, Registry.amount_append, Trial.amount_elim]
  rfl

theorem amount_delivered : amount o.entries MetricName.pointsDelivered = o.delivered := by
  rw [amount_entries, if_neg (by decide), Nat.zero_add]
  unfold delivered
  rcases o.result with _ | n | ⟨n, reason⟩
  · rfl
  · exact (amount_of_delivered n _).trans (if_pos rfl)
  · rfl

theorem amount_dropped : amount o.entries MetricName.pointsDeliveryFailed = o.dropped := by
  rw [amount_entries, if_neg (by decide), Nat.zero_add]
  unfold dropped
  rcases o.result with _ | n | ⟨n, reason⟩
  · rfl
  · exact (amount_of_delivered n _).trans (if_neg (by decide))
  · exact (amount_of_dropped n reason _).trans (Nat.zero_add n)

theorem amount_drops :
    amount o.entries MetricName.unitsDeliveryFailed = if o.isDrop then 1 else 0 := by
  rw [amount_entries, if_neg (by decide), Nat.zero_add]
  unfold isDrop
  rcases o.result with _ | n | ⟨n, reason⟩
  · rfl
  · exact (amount_of_delivered n _).trans (if_neg (by decide))
  · rfl

theorem amount_retries : amount o.entries MetricName.deliveryRetries = o.retries := by
  rw [amount_entries, if_pos rfl]
  rcases o.result with _ | n | ⟨n, reason⟩
  · rfl
  · exact congrArg (o.retries + ·) ((amount_of_delivered n _).trans (if_neg (by decide)))
  · rfl

end Outcome

namespace Client
variable (c : Client) (r : Registry)

theorem count_pauses (answers : Nat → Answer) :
    r.count MetricName.deliveryRetries (Trial.run c.strategy answers).pauses.length =
      r.book (Trial.run c.strategy answers).entries := by
  have hpauses := Trial.length_pauses_runFrom c.strategy answers 1 (c.strategy.attempts - 1)
  have hissued : (Trial.run c.strategy answers).requests ≠ 0 := by
    unfold Trial.run
    omega
  have hretries : (Trial.run c.strategy answers).pauses.length =
      (Trial.run c.strategy answers).requests - 1 := by
    unfold Trial.run
    omega
  rw [Trial.entries, if_neg hissued, hretries]
  rfl

theorem push_eq (id : String) (unit : WorkUnit) (defect : Option String)
    (answers : Nat → Answer) :
    c.push r id unit defect answers =
      (r.book (c.pushTrial id unit defect answers).entries,
        c.pushTrial id unit defect answers) := by
  cases defect with
  | some detail => rfl
  | none => exact congrArg (·, _) (c.count_pauses r _)

theorem checkIn_eq (currentMillis payload : String) (answers : Nat → Answer) :
    c.checkIn r currentMillis payload answers =
      (r.book (c.checkInTrial currentMillis payload answers).entries,
        c.checkInTrial currentMillis payload answers) :=
  congrArg (·, _) (c.count_pauses r _)

theorem send_of_size_eq_zero (id : String) {unit : WorkUnit} (nothing : unit.size = 0)
    (defect : Option String) (answers : Nat → Answer) :
    c.send r id unit defect answers = (r, none, .delivered 0) := by
  have hempty : unit.isEmpty = true := List.isEmpty_iff_length_eq_zero.mpr nothing
  rw [send, if_pos hempty]

/-- A send of points pushes them and then counts its result. -/
theorem send_of_size_ne_zero (id : String) {unit : WorkUnit} (something : unit.size ≠ 0)
    (defect : Option String) (answers : Nat → Answer) :
    ∃ result, c.Answers (.send id unit defect answers)
        ⟨some (c.pushTrial id unit defect answers), some result⟩ ∧
      c.send r id unit defect answers =
        ((r.book (c.pushTrial id unit defect answers).entries).book (resultEntries result),
          some (c.pushTrial id unit defect answers), result) := by
  have hfull : ¬ unit.isEmpty = true :=
    fun h => something (List.isEmpty_iff_length_eq_zero.mp h)
  rw [send, if_neg hfull, push_eq]
  dsimp only
  cases hresult : (c.pushTrial id unit defect answers).result with
  | ok status =>
      refine ⟨.delivered unit.size, .delivered something hresult, ?_⟩
      rw [resultEntries, if_neg something]
      rfl
  | error reason => exact ⟨.dropped unit.size reason, .dropped something hresult, rfl⟩

/-- A call is counted as its outcome, and the outcome is one that it may have. -/
theorem call_spec (call : Call) :
    c.Answers call (c.call r call).2 ∧ (c.call r call).1 = r.book (c.call r call).2.entries := by
  cases call with
  | send id unit defect answers =>
      by_cases nothing : unit.size = 0
      · rw [Client.call, c.send_of_size_eq_zero r id nothing]
        exact ⟨.empty nothing, rfl⟩
      · obtain ⟨result, hanswers, hsend⟩ := c.send_of_size_ne_zero r id nothing defect answers
        rw [Client.call, hsend]
        exact ⟨hanswers, (r.book_append _ _).symm⟩
  | push id unit defect answers =>
      rw [Client.call, push_eq]
      exact ⟨.pushed, congrArg r.book (List.append_nil _).symm⟩
  | checkIn currentMillis payload answers =>
      rw [Client.call, checkIn_eq]
      exact ⟨.checkedIn, congrArg r.book (List.append_nil _).symm⟩

theorem calls_spec (calls : List Call) :
    List.Forall₂ c.Answers calls (c.calls r calls).2 ∧
      (c.calls r calls).1 = r.book ((c.calls r calls).2.flatMap Outcome.entries) := by
  induction calls generalizing r with
  | nil => exact ⟨.nil, rfl⟩
  | cons call rest ih =>
      obtain ⟨hanswers, hbooked⟩ := c.call_spec r call
      obtain ⟨hrest, hall⟩ := ih (c.call r call).1
      refine ⟨.cons hanswers hrest, ?_⟩
      rw [Client.calls]
      dsimp only
      rw [List.flatMap_cons, Registry.book_append, ← hbooked]
      exact hall

/-- A counter grows by what the outcomes come to under its name. -/
theorem counter_calls (calls : List Call) {name : String} (h : r.admits name .counter = true) :
    (c.calls r calls).1.counter name =
      (r.counter name + total ((c.calls r calls).2.map fun o => amount o.entries name)) %
        UInt64.size := by
  rw [(c.calls_spec r calls).2, r.counter_book _ h, Registry.amount_flatMap]

variable {c}

/-- A send gives the size of its unit to one side; no other call gives anything. -/
theorem Answers.delivered_add_dropped {call : Call} {o : Outcome} (h : c.Answers call o) :
    o.delivered + o.dropped = call.points := by
  cases h with
  | empty nothing => exact nothing.symm
  | delivered => exact Nat.add_zero _
  | dropped => exact Nat.zero_add _
  | pushed => rfl
  | checkedIn => rfl

theorem total_delivered_add_dropped {calls : List Call} {outcomes : List Outcome}
    (h : List.Forall₂ c.Answers calls outcomes) :
    total (outcomes.map Outcome.delivered) + total (outcomes.map Outcome.dropped) =
      total (calls.map Call.points) := by
  induction h with
  | nil => rfl
  | cons hanswers _ ih =>
      have hcall := hanswers.delivered_add_dropped
      simp only [List.map_cons, total_cons]
      omega

theorem sameBut_retries (r : Registry) (t : Trial) :
    SameBut [MetricName.deliveryRetries] r (r.book t.entries) := by
  refine (SameBut.refl _ r).book fun entry h => ?_
  unfold Trial.entries at h
  split at h
  · exact absurd h List.not_mem_nil
  · rw [List.mem_singleton.mp h]
    exact List.mem_singleton_self _

variable (c)

/-- The accounts of any calls are exact, whatever the requests meet. Each point of a
unit that was sent is counted once, as delivered if the result says so and as failed
if it says that the unit was dropped; each dropped unit is counted once. A send of
no points changes nothing and issues nothing, and pushes and check-ins change the
count of the retries alone. Counters are words. -/
theorem calls_accounts (calls : List Call)
    (counters : ∀ name ∈ accounts, r.admits name .counter = true) :
    let after := (c.calls r calls).1
    let outcomes := (c.calls r calls).2
    List.Forall₂ c.Answers calls outcomes ∧
      after.counter MetricName.pointsDelivered =
        (r.counter MetricName.pointsDelivered + total (outcomes.map Outcome.delivered)) %
          UInt64.size ∧
      after.counter MetricName.pointsDeliveryFailed =
        (r.counter MetricName.pointsDeliveryFailed + total (outcomes.map Outcome.dropped)) %
          UInt64.size ∧
      after.counter MetricName.unitsDeliveryFailed =
        (r.counter MetricName.unitsDeliveryFailed + outcomes.countP Outcome.isDrop) %
          UInt64.size ∧
      after.counter MetricName.deliveryRetries =
        (r.counter MetricName.deliveryRetries + total (outcomes.map Outcome.retries)) %
          UInt64.size ∧
      total (outcomes.map Outcome.delivered) + total (outcomes.map Outcome.dropped) =
        total (calls.map Call.points) ∧
      (∀ id unit defect answers, unit.size = 0 →
        c.send after id unit defect answers = (after, none, .delivered 0)) ∧
      (∀ id unit defect answers,
        SameBut [MetricName.deliveryRetries] after (c.push after id unit defect answers).1) ∧
      ∀ currentMillis payload answers,
        SameBut [MetricName.deliveryRetries] after
          (c.checkIn after currentMillis payload answers).1 := by
  intro after outcomes
  have hanswers : List.Forall₂ c.Answers calls outcomes := (c.calls_spec r calls).1
  have grows (name : String) (h : name ∈ accounts) (amounts : Outcome → Nat)
      (hamounts : ∀ o : Outcome, amount o.entries name = amounts o) :
      after.counter name = (r.counter name + total (outcomes.map amounts)) % UInt64.size := by
    rw [c.counter_calls r calls (counters name h), funext hamounts]
  refine ⟨hanswers, grows _ (by decide) _ Outcome.amount_delivered,
    grows _ (by decide) _ Outcome.amount_dropped, ?_,
    grows _ (by decide) _ Outcome.amount_retries, total_delivered_add_dropped hanswers,
    fun id unit defect answers nothing => c.send_of_size_eq_zero after id nothing defect answers,
    fun id unit defect answers => ?_, fun currentMillis payload answers => ?_⟩
  · rw [← total_map_indicator]
    exact grows _ (by decide) _ Outcome.amount_drops
  · rw [push_eq]
    exact sameBut_retries after _
  · rw [checkIn_eq]
    exact sameBut_retries after _

def twice : Client where
  endpoint := .create "http://localhost" "token" "agent" "host" "1" none
  strategy := .immediate 2

/-- A unit that gets through at the second attempt, one that is refused for good, one
that meets nothing, one that cannot be written, one of no points, a push and a check-in. -/
def mixedCalls : List Call :=
  let point : Point := .make "m" .zero 0 .empty
  let busyOnce := fun i => if i = 1 then Answer.response ⟨503⟩ [] else .response ⟨200⟩ []
  let silence := fun _ => Answer.nothing "no answer"
  [.send "a" ⟨[point, point]⟩ none busyOnce,
    .send "b" ⟨[point]⟩ none fun _ => .response ⟨400⟩ [],
    .send "c" ⟨[point, point, point]⟩ none silence,
    .send "d" ⟨[point]⟩ (some "no room") busyOnce,
    .send "e" ⟨[]⟩ none silence,
    .push "f" ⟨[point]⟩ none busyOnce,
    .checkIn "0" "" silence]

theorem calls_accounts_mixedCalls :
    let r := register .empty
    let after := (twice.calls r mixedCalls).1
    (∀ name ∈ accounts, r.admits name .counter = true) ∧
      after.counter MetricName.pointsDelivered = 2 ∧
      after.counter MetricName.pointsDeliveryFailed = 5 ∧
      after.counter MetricName.unitsDeliveryFailed = 3 ∧
      after.counter MetricName.deliveryRetries = 4 := by
  intro r after
  have counters : ∀ name ∈ accounts, (register .empty).admits name .counter = true := by
    decide +kernel
  obtain ⟨-, delivered, dropped, drops, retries, -⟩ :=
    calls_accounts twice (register .empty) mixedCalls counters
  refine ⟨counters, delivered.trans ?_, dropped.trans ?_, drops.trans ?_, retries.trans ?_⟩
  · decide +kernel
  · decide +kernel
  · decide +kernel
  · decide +kernel

end Client
end Delivery
end MetricsProxy
