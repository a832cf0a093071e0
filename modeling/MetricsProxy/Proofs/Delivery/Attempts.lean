import MetricsProxy.Delivery.Course
import MetricsProxy.Proofs.Delivery.Accounts
import MetricsProxy.Proofs.Delivery.Requests

/-!
# How often a request is issued

Attempts go on while the outcomes are transient and attempts are left. `Course.Ends`
says with which attempt they end, and what a course has in it then is plain: before
the last request each one is followed by its pause (`Course.runFrom_spec`). The accounts
keep of a course the number of its requests and its pauses (`Course.trial_runFrom`).
-/
namespace MetricsProxy.Delivery

/-- An outcome that is worth another attempt. -/
def Transient (outcome : Except ShippingError Status) : Prop :=
  ∃ status detail, outcome = .error (.transient status detail)

/-- The three kinds of outcomes that a request has. -/
theorem Answer.verdict_cases (answer : Answer) :
    (∃ status, answer.verdict = .ok status) ∨
      (∃ status detail, answer.verdict = .error (.permanent status detail)) ∨
      Transient answer.verdict := by
  have status_cases (status : Status) (body : String) :
      (∃ s, status.verdict body = .ok s) ∨
        (∃ s detail, status.verdict body = .error (.permanent s detail)) ∨
        Transient (status.verdict body) := by
    unfold Status.verdict
    split
    · exact .inl ⟨status, rfl⟩
    · split
      · exact .inr (.inr ⟨some status, body, rfl⟩)
      · exact .inr (.inl ⟨status, body, rfl⟩)
  cases answer with
  | response status body => exact status_cases status _
  | cutOff status => exact status_cases status _
  | nothing detail => exact .inr (.inr ⟨none, detail, rfl⟩)

/-- The first outcome that is not transient, counted from one. -/
structure FirstFinal (outcome : Nat → Except ShippingError Status) (m : Nat) : Prop where
  positive : 1 ≤ m
  final : ¬ Transient (outcome m)
  before : ∀ i, 1 ≤ i → i < m → Transient (outcome i)

namespace Course

/-- Attempts from the `k`-th on, of which `left` may follow it, end after `n` more. -/
structure Ends (outcome : Nat → Except ShippingError Status) (k left n : Nat) : Prop where
  within : n ≤ left
  retried : ∀ i, k ≤ i → i < k + n → Transient (outcome i)
  final : n < left → ¬ Transient (outcome (k + n))

namespace Ends
variable {outcome : Nat → Except ShippingError Status} {k left n : Nat}

theorem last : Ends outcome k 0 0 := ⟨Nat.le_refl 0, fun _ _ _ => by omega, nofun⟩

theorem stop (final : ¬ Transient (outcome k)) : Ends outcome k left 0 :=
  ⟨Nat.zero_le left, fun _ _ _ => by omega, fun _ => final⟩

theorem retry (transient : Transient (outcome k)) (h : Ends outcome (k + 1) left n) :
    Ends outcome k (left + 1) (n + 1) := by
  refine ⟨Nat.succ_le_succ h.within, fun i hk hi => ?_, fun hn => ?_⟩
  · by_cases hfirst : i = k
    · exact hfirst ▸ transient
    · exact h.retried i (by omega) (by omega)
  · have hlast : k + (n + 1) = k + 1 + n := by omega
    exact hlast ▸ h.final (by omega)

/-- All attempts end with the first final outcome or with the last attempt. -/
theorem eq_min {attempts m : Nat} (positive : 1 ≤ attempts)
    (h : Ends outcome 1 (attempts - 1) n) (first : FirstFinal outcome m) :
    n + 1 = min attempts m := by
  have hle : n + 1 ≤ m := by
    by_contra hlt
    exact first.final (h.retried m first.positive (by omega))
  have hwithin := h.within
  by_cases hn : n < attempts - 1
  · have hge : m ≤ 1 + n := by
      by_contra hlt
      exact h.final hn (first.before (1 + n) (by omega) (by omega))
    omega
  · omega

theorem eq_attempts {attempts : Nat} (positive : 1 ≤ attempts)
    (h : Ends outcome 1 (attempts - 1) n) (never : ∀ m, ¬ FirstFinal outcome m) :
    n + 1 = attempts := by
  have hwithin := h.within
  by_contra hne
  refine never (1 + n) ⟨by omega, h.final (by omega), fun i hi hn => h.retried i hi hn⟩

end Ends

/-- How a call ends with its `k`-th request: as that request did, but a transient failure
is reported with the number of attempts. -/
def closing (k : Nat) : Except ShippingError Status → Except ShippingError Status
  | .error (.transient status _) => .error (Trial.exhausted status k)
  | outcome => outcome

theorem closing_of_final {k : Nat} {outcome : Except ShippingError Status}
    (final : ¬ Transient outcome) : closing k outcome = outcome := by
  unfold closing
  split
  · exact absurd ⟨_, _, rfl⟩ final
  · rfl

variable (strategy : RetryStrategy) (written : Nat → Option (Url × Request))
  (answers : Nat → Answer)

/-- How the `i`-th request of a course goes. -/
def outcomeAt (i : Nat) : Except ShippingError Status :=
  (Client.conditions (written i) answers i).verdict

/-- What comes before the request that ends a course: requests, each with its pause. -/
def retries (k n : Nat) : List Deed :=
  (List.range' k n).flatMap fun i => [.request (written i), .pause (strategy.delay i)]

theorem retries_succ (k n : Nat) :
    retries strategy written k (n + 1) =
      .request (written k) :: .pause (strategy.delay k) :: retries strategy written (k + 1) n := rfl

variable {strategy written answers}

theorem runFrom_last (k : Nat) : runFrom strategy written answers k 0 =
    ⟨[.request (written k)], closing k (outcomeAt written answers k)⟩ := by
  unfold runFrom outcomeAt
  cases (Client.conditions (written k) answers k).verdict with
  | ok => rfl
  | error reason => cases reason <;> rfl

theorem runFrom_of_final {k : Nat} (final : ¬ Transient (outcomeAt written answers k))
    (left : Nat) : runFrom strategy written answers k left =
      ⟨[.request (written k)], outcomeAt written answers k⟩ := by
  cases left with
  | zero => rw [runFrom_last, closing_of_final final]
  | succ left =>
      unfold runFrom
      split
      · rename_i h; exact absurd ⟨_, _, h⟩ final
      · rfl

theorem runFrom_retry {k : Nat} (transient : Transient (outcomeAt written answers k))
    (left : Nat) : runFrom strategy written answers k (left + 1) =
      (runFrom strategy written answers (k + 1) left).after (written k) (strategy.delay k) := by
  obtain ⟨status, detail, h⟩ := transient
  unfold outcomeAt at h
  rw [runFrom, h]

variable (strategy written answers) in
/-- A course is requests with their pauses and one last request, which decides the result. -/
theorem runFrom_spec (k left : Nat) :
    ∃ n, Ends (outcomeAt written answers) k left n ∧
      runFrom strategy written answers k left =
        ⟨retries strategy written k n ++ [.request (written (k + n))],
          closing (k + n) (outcomeAt written answers (k + n))⟩ := by
  induction left generalizing k with
  | zero => exact ⟨0, .last, runFrom_last k⟩
  | succ left ih =>
      by_cases transient : Transient (outcomeAt written answers k)
      · obtain ⟨n, ends, hrun⟩ := ih (k + 1)
        refine ⟨n + 1, ends.retry transient, ?_⟩
        rw [runFrom_retry transient, hrun, retries_succ, show k + (n + 1) = k + 1 + n by omega]
        rfl
      · refine ⟨0, .stop transient, ?_⟩
        rw [runFrom_of_final transient, Nat.add_zero, closing_of_final transient]
        rfl

theorem countP_attempt (written : Option (Url × Request)) (pause : Nat) (deeds : List Deed) :
    (.request written :: .pause pause :: deeds).countP Deed.isRequest =
      deeds.countP Deed.isRequest + 1 := by
  rw [List.countP_cons_of_pos rfl, List.countP_cons_of_neg Bool.false_ne_true]

theorem trial_after (course : Course) (written : Option (Url × Request)) (pause : Nat) :
    (course.after written pause).trial = course.trial.after pause := by
  rw [after, trial, countP_attempt]
  rfl

/-- The accounts keep the number of requests, the pauses and the result. -/
theorem trial_runFrom (request : Option (Url × Request)) (k left : Nat) :
    (runFrom strategy (fun _ => request) answers k left).trial =
      Trial.runFrom strategy (Client.conditions request answers) k left := by
  induction left generalizing k with
  | zero =>
      unfold runFrom Trial.runFrom
      cases (Client.conditions request answers k).verdict with
      | ok => rfl
      | error reason => cases reason <;> rfl
  | succ left ih =>
      rw [runFrom, Trial.runFrom, ← ih]
      cases (Client.conditions request answers k).verdict with
      | ok => rfl
      | error reason =>
          cases reason with
          | transient => exact trial_after _ request _
          | payload => rfl
          | permanent => rfl

theorem countP_retries (k n : Nat) :
    (retries strategy written k n).countP Deed.isRequest = n := by
  induction n generalizing k with
  | zero => rfl
  | succ n ih => rw [retries_succ, countP_attempt, ih]

theorem pauses_retries (k n : Nat) :
    (retries strategy written k n).filterMap Deed.pause? = (List.range' k n).map strategy.delay := by
  induction n generalizing k with
  | zero => rfl
  | succ n ih =>
      rw [retries_succ, List.range'_succ, List.map_cons, ← ih]
      rfl

end Course

/-- What a send of a unit comes to when its trial has ended. -/
def resultOf (unit : WorkUnit) : Except ShippingError Status → DeliveryResult
  | .ok _ => .delivered unit.size
  | .error reason => .dropped unit.size reason

/-- Three kinds of outcomes of the `k`-th request, which was the last one, and what a send
then gives. -/
inductive EndsWith (unit : WorkUnit) (k : Nat) :
    Except ShippingError Status → DeliveryResult → Prop where
  | success (status : Status) : EndsWith unit k (.ok status) (.delivered unit.size)
  | permanent (status : Status) (detail : String) :
      EndsWith unit k (.error (.permanent status detail))
        (.dropped unit.size (.permanent status detail))
  | exhausted (status : Option Status) (detail : String) :
      EndsWith unit k (.error (.transient status detail))
        (.dropped unit.size (.transient status s!"Failed to send request after {k} attempts"))

theorem endsWith_resultOf (unit : WorkUnit) (k : Nat) (answer : Answer) :
    EndsWith unit k answer.verdict (resultOf unit (Course.closing k answer.verdict)) := by
  rcases answer.verdict_cases with ⟨status, h⟩ | ⟨status, detail, h⟩ | ⟨status, detail, h⟩
  · rw [h]
    exact .success status
  · rw [h]
    exact .permanent status detail
  · rw [h]
    exact .exhausted status detail

namespace Client
variable (c : Client) (r : Registry) (id : String) (unit : WorkUnit) (answers : Nat → Answer)

theorem trial_pushCourse :
    (c.pushCourse id unit answers).trial = c.pushTrial id unit none answers :=
  Course.trial_runFrom _ 1 _

theorem send_eq (something : unit.size ≠ 0) (defect : Option String) :
    (c.send r id unit defect answers).2 =
      (some (c.pushTrial id unit defect answers),
        resultOf unit (c.pushTrial id unit defect answers).result) := by
  obtain ⟨result, hanswers, hsend⟩ := c.send_of_size_ne_zero r id something defect answers
  have hresult : result = resultOf unit (c.pushTrial id unit defect answers).result := by
    cases hanswers with
    | delivered _ success => rw [success]; rfl
    | dropped _ failure => rw [failure]; rfl
  rw [hsend, hresult]

theorem counter_send (counted : r.admits MetricName.deliveryRetries .counter = true)
    (something : unit.size ≠ 0) (defect : Option String) :
    (c.send r id unit defect answers).1.counter MetricName.deliveryRetries =
      (r.counter MetricName.deliveryRetries +
        ((c.pushTrial id unit defect answers).requests - 1)) % UInt64.size := by
  have hbooked := (c.call_spec r (.send id unit defect answers)).2
  have hretries : (c.call r (.send id unit defect answers)).2.retries =
      (c.pushTrial id unit defect answers).requests - 1 := by
    have htrial : (c.call r (.send id unit defect answers)).2.trial =
        some (c.pushTrial id unit defect answers) :=
      congrArg Prod.fst (c.send_eq r id unit answers something defect)
    rw [Outcome.retries, htrial]
    rfl
  rw [← hretries, ← Outcome.amount_retries, ← r.counter_book _ counted, ← hbooked]
  rfl

/-- A client that tries six times and waits longer each time, up to a limit. -/
def patient : Client where
  endpoint := .create "http://localhost/" "token" "agent" "host" "1" none
  strategy := .exponential 6 100 300

/-- Busy, silent, too many requests, and then a refusal for good. -/
def busyThenDenied (i : Nat) : Answer :=
  if i = 2 then .nothing "no answer"
  else if i < 4 then .response ⟨if i = 1 then 503 else 429⟩ []
  else .response ⟨401⟩ []

end Client
end MetricsProxy.Delivery
