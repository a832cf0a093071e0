import MetricsProxy.Relay.Basic

/-!
# What the journal says about a pool

The journal has every event, newest first. The views of a pool are lists,
oldest first: the points its buffer accepted, with the connections they came
from, the units that were begun, and the units whose sends have returned. A
send returns to the one who began it, and a worker has one send at a time, so
the unit of a return is the last one that its origin began.

The views of a pool depend on its own events only (`sameFor_append`).
-/
namespace MetricsProxy

/-- The pool whose points an origin hands over, if any. -/
def Origin.pool? : Origin → Option Nat
  | .worker i _ => some i
  | .flushCall i => some i
  | _ => none

/-- The pool that an event is about, if any. -/
def Event.pool? : Event → Option Nat
  | .accepted i _ _ => some i
  | .begun o _ _ => o.pool?
  | .returned o _ _ => o.pool?
  | .checkedIn _ => none

def unitPoints (us : List WorkUnit) : List Point := us.flatMap WorkUnit.points

@[simp] theorem unitPoints_nil : unitPoints [] = [] := rfl

@[simp] theorem unitPoints_cons (u : WorkUnit) (us : List WorkUnit) :
    unitPoints (u :: us) = u.points ++ unitPoints us := rfl

@[simp] theorem unitPoints_append (us vs : List WorkUnit) :
    unitPoints (us ++ vs) = unitPoints us ++ unitPoints vs := List.flatMap_append

@[simp] theorem unitPoints_singleton (u : WorkUnit) : unitPoints [u] = u.points := by
  simp [unitPoints]

namespace Journal

/-- What the buffer of a pool accepted, with the connection it came from. -/
def acceptances (i : Nat) : List Event → List (Option Nat × Point)
  | [] => []
  | .accepted k c q :: older =>
      if k = i then acceptances i older ++ [(c, q)] else acceptances i older
  | _ :: older => acceptances i older

def acceptedPoints (i : Nat) (journal : List Event) : List Point :=
  (acceptances i journal).map Prod.snd

/-- The accepted points of one connection. -/
def acceptedFrom (i c : Nat) (journal : List Event) : List Point :=
  ((acceptances i journal).filter fun a => a.1 == some c).map Prod.snd

def begunUnits (i : Nat) : List Event → List WorkUnit
  | [] => []
  | .begun o _ u :: older =>
      if o.pool? = some i then begunUnits i older ++ [u] else begunUnits i older
  | _ :: older => begunUnits i older

def lastBegun (origin : Origin) : List Event → Option WorkUnit
  | [] => none
  | .begun o _ u :: older => if o = origin then some u else lastBegun origin older
  | _ :: older => lastBegun origin older

/-- The units of a pool whose sends have returned, in the order of the returns. -/
def returnedUnits (i : Nat) : List Event → List WorkUnit
  | [] => []
  | .returned o _ _ :: older =>
      if o.pool? = some i then returnedUnits i older ++ (lastBegun o older).toList
      else returnedUnits i older
  | _ :: older => returnedUnits i older

/-- Points in units whose sends have returned. -/
def returnedSize (i : Nat) (journal : List Event) : Nat :=
  (unitPoints (returnedUnits i journal)).length

section
variable {i : Nat} {e : Event} {older : List Event}

theorem acceptances_cons_of_ne (h : e.pool? ≠ some i) :
    acceptances i (e :: older) = acceptances i older := by
  cases e with
  | accepted k c q => exact if_neg fun hk => h (congrArg some hk)
  | _ => rfl

theorem begunUnits_cons_of_ne (h : e.pool? ≠ some i) :
    begunUnits i (e :: older) = begunUnits i older := by
  cases e with
  | begun o t u => exact if_neg h
  | _ => rfl

theorem returnedUnits_cons_of_ne (h : e.pool? ≠ some i) :
    returnedUnits i (e :: older) = returnedUnits i older := by
  cases e with
  | returned o t r => exact if_neg h
  | _ => rfl

theorem lastBegun_cons_of_ne {o : Origin} (ho : o.pool? = some i) (h : e.pool? ≠ some i) :
    lastBegun o (e :: older) = lastBegun o older := by
  cases e with
  | begun o' t u => exact if_neg fun hoo => h (by rw [← ho, ← hoo]; rfl)
  | _ => rfl

theorem acceptances_accepted (c : Option Nat) (point : Point) :
    acceptances i (.accepted i c point :: older) = acceptances i older ++ [(c, point)] :=
  if_pos rfl

theorem acceptances_accepted_of_ne {k : Nat} (h : i ≠ k) (c : Option Nat) (point : Point) :
    acceptances k (.accepted i c point :: older) = acceptances k older := if_neg h

theorem mem_acceptances_accepted {k : Nat} {c : Option Nat} {point : Point}
    {a : Option Nat × Point} (h : a ∈ acceptances k (.accepted i c point :: older)) :
    a ∈ acceptances k older ∨ i = k ∧ a = (c, point) := by
  by_cases hk : i = k
  · subst hk
    rw [acceptances_accepted] at h
    rcases List.mem_append.mp h with h | h
    · exact .inl h
    · exact .inr ⟨rfl, List.mem_singleton.mp h⟩
  · rw [acceptances_accepted_of_ne hk] at h
    exact .inl h

/-- What was accepted comes last of what its connection has sent. -/
theorem acceptedFrom_accepted (c : Nat) (point : Point) :
    acceptedFrom i c (.accepted i (some c) point :: older) = acceptedFrom i c older ++ [point] := by
  rw [acceptedFrom, acceptances_accepted, List.filter_append]
  simp [acceptedFrom]

theorem acceptedFrom_accepted_of_ne {c d : Nat} (hd : d ≠ c) (k : Nat) (point : Point) :
    acceptedFrom k d (.accepted i (some c) point :: older) = acceptedFrom k d older := by
  by_cases hk : i = k
  · subst hk
    rw [acceptedFrom, acceptances_accepted, List.filter_append]
    simp [acceptedFrom, Ne.symm hd]
  · rw [acceptedFrom, acceptances_accepted_of_ne hk, acceptedFrom]

end

/-- Two journals that say the same about a pool. -/
structure SameFor (i : Nat) (newer older : List Event) : Prop where
  acceptances : acceptances i newer = acceptances i older
  begun : begunUnits i newer = begunUnits i older
  returned : returnedUnits i newer = returnedUnits i older
  last : ∀ o : Origin, o.pool? = some i → lastBegun o newer = lastBegun o older

/-- Events about something else change no view of a pool. -/
theorem sameFor_append {i : Nat} {events : List Event} (h : ∀ e ∈ events, e.pool? ≠ some i)
    (older : List Event) : SameFor i (events ++ older) older := by
  induction events with
  | nil => exact ⟨rfl, rfl, rfl, fun _ _ => rfl⟩
  | cons e events ih =>
      have he := h e List.mem_cons_self
      have hi := ih fun e' m => h e' (List.mem_cons_of_mem _ m)
      exact ⟨(acceptances_cons_of_ne he).trans hi.acceptances,
        (begunUnits_cons_of_ne he).trans hi.begun,
        (returnedUnits_cons_of_ne he).trans hi.returned,
        fun o ho => (lastBegun_cons_of_ne ho he).trans (hi.last o ho)⟩

end Journal
end MetricsProxy
