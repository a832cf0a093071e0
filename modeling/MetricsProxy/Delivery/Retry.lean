/-!
# Retry strategies

A strategy says how often a transient failure is tried in all, never less than
once, and how long to wait after each attempt. Delays are milliseconds in words
of 64 bits; whatever would exceed the largest word stays at it.
-/
namespace MetricsProxy

inductive RetryStrategy where
  | immediate (attempts : Nat)
  | linear (attempts delay : Nat)
  | exponential (attempts base max : Nat)
  deriving DecidableEq, Repr

namespace RetryStrategy

def maxWord : Nat := 0xffffffffffffffff

def attempts : RetryStrategy → Nat
  | immediate n => max n 1
  | linear n _ => max n 1
  | exponential n _ _ => max n 1

/-- A power of two, at most the largest word. -/
def doublings (k : Nat) : Nat := if k < 64 then Nat.pow 2 k else maxWord

/-- The pause after the given attempt, counted from one. -/
def delay (strategy : RetryStrategy) (attempt : Nat) : Nat :=
  match strategy with
  | immediate _ => 0
  | linear _ d => d
  | exponential _ base most => min (min (base * doublings (attempt - 1)) maxWord) most

theorem one_le_attempts (s : RetryStrategy) : 1 ≤ s.attempts := by
  cases s <;> exact Nat.le_max_right _ _

end RetryStrategy
end MetricsProxy
