/-!
# The wall clock

A point without a time gets the clock's, in seconds since the epoch. A clock
that stands before the epoch, or beyond the seconds that 64 bits can hold,
counts as standing at the epoch.
-/
namespace MetricsProxy.Clock

def unixSeconds (shown : Int) : Int :=
  if 0 ≤ shown ∧ shown ≤ 0x7fffffffffffffff then shown else 0

theorem unixSeconds_nonneg (shown : Int) : 0 ≤ unixSeconds shown := by
  unfold unixSeconds
  split
  · rename_i h; exact h.1
  · exact Int.le_refl 0

end MetricsProxy.Clock
