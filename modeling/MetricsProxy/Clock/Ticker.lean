/-!
# Periodic ticks

A ticker started at `t` with period `p` is due at `t + p`. A tick is taken when
its owner is free. If that is at most five milliseconds late the next one is
due a period after this one was due, otherwise a period after it was taken: a
slow owner delays its ticks and never catches up in a burst.
-/
namespace MetricsProxy

/-- Times are milliseconds. -/
structure Ticker where
  period : Nat
  due : Nat
  deriving DecidableEq, Repr

namespace Ticker

/-- How late a tick may be taken without moving the ones after it. -/
def tolerance : Nat := 5

def start (now period : Nat) : Ticker := ⟨period, now + period⟩

/-- The ticker after its due tick is taken at `now`. -/
def take (t : Ticker) (now : Nat) : Ticker :=
  { t with due := if now ≤ t.due + tolerance then t.due + t.period else now + t.period }

theorem due_le_due_take (t : Ticker) {now : Nat} (h : t.due ≤ now) :
    t.due + t.period ≤ (t.take now).due := by
  unfold take
  split
  · exact Nat.le_refl _
  · exact Nat.add_le_add_right h t.period

/-- The next tick is due at least a period less the tolerance after this one is taken. -/
theorem sub_tolerance_le_due_take (t : Ticker) (now : Nat) :
    now + t.period - tolerance ≤ (t.take now).due := by
  unfold take
  split
  · simp only; omega
  · simp only; omega

end Ticker
end MetricsProxy
