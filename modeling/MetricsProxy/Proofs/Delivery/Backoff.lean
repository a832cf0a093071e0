import Mathlib.Algebra.Order.Ring.Nat
import MetricsProxy.Delivery.Retry

/-!
# Pauses that double

Powers and products of words stay at the largest word where they would exceed it. A pause
is capped by a word after that, so it makes no difference whether its parts were clamped
before (`capped_product`). It is therefore the product in numbers without an end, capped,
and all that is known of powers of two holds of pauses until they reach the cap.
-/
namespace MetricsProxy.RetryStrategy

theorem doublings_eq (k : Nat) : doublings k = min (2 ^ k) maxWord := by
  unfold doublings
  split
  · rename_i hk
    have hpow : 2 ^ k ≤ 2 ^ 63 := Nat.pow_le_pow_right (by decide) (by omega)
    have hword : 2 ^ 63 ≤ maxWord := by decide
    exact (Nat.min_eq_left (Nat.le_trans hpow hword)).symm
  · rename_i hk
    have hpow : 2 ^ 64 ≤ 2 ^ k := Nat.pow_le_pow_right (by decide) (by omega)
    have hword : maxWord ≤ 2 ^ 64 := by decide
    exact (Nat.min_eq_right (Nat.le_trans hword hpow)).symm

/-- A factor that was clamped is not seen behind the clamp of the product. -/
theorem min_mul_min (base factor limit : Nat) :
    min (base * min factor limit) limit = min (base * factor) limit := by
  rcases Nat.eq_zero_or_pos base with rfl | positive
  · rw [Nat.zero_mul, Nat.zero_mul]
  rcases Nat.le_total factor limit with within | beyond
  · rw [Nat.min_eq_left within]
  · have hclamped : limit ≤ base * limit := Nat.le_mul_of_pos_left limit positive
    have hexact : limit ≤ base * factor := Nat.le_trans beyond (Nat.le_mul_of_pos_left _ positive)
    rw [Nat.min_eq_right beyond, Nat.min_eq_right hclamped, Nat.min_eq_right hexact]

/-- Nor is the clamp of the product behind a cap that is a word itself. -/
theorem capped_product {most : Nat} (word : most ≤ maxWord) (base k : Nat) :
    min (min (base * doublings k) maxWord) most = min (base * 2 ^ k) most := by
  rw [doublings_eq, min_mul_min, Nat.min_assoc, Nat.min_eq_right word]

variable {most : Nat}

theorem delay_exponential (word : most ≤ maxWord) (n base attempt : Nat) :
    (exponential n base most).delay attempt = min (base * 2 ^ (attempt - 1)) most :=
  capped_product word base (attempt - 1)

theorem delay_exponential_mono (word : most ≤ maxWord) (n base : Nat) {attempt later : Nat}
    (h : attempt ≤ later) :
    (exponential n base most).delay attempt ≤ (exponential n base most).delay later := by
  have hpow : 2 ^ (attempt - 1) ≤ 2 ^ (later - 1) := Nat.pow_le_pow_right (by decide) (by omega)
  have hproduct := Nat.mul_le_mul_left base hpow
  rw [delay_exponential word, delay_exponential word]
  omega

theorem delay_exponential_succ (word : most ≤ maxWord) (n base attempt : Nat) :
    (exponential n base most).delay (attempt + 2) =
      min (2 * (exponential n base most).delay (attempt + 1)) most := by
  have hpow : base * 2 ^ (attempt + 1) = 2 * (base * 2 ^ attempt) := by
    rw [Nat.pow_succ, Nat.mul_comm _ 2, Nat.mul_left_comm]
  rw [delay_exponential word, delay_exponential word]
  change min (base * 2 ^ (attempt + 1)) most = min (2 * min (base * 2 ^ attempt) most) most
  omega

/-- The pauses of a strategy that doubles them are those of numbers without an end, where
the attempt before the first counts as the first: never above the cap, never shorter than
before, and each twice the one before it until the cap is reached. -/
theorem exponential_delays_exact (word : most ≤ maxWord) (n base attempt : Nat) :
    let pause := (exponential n base most).delay
    pause attempt = min (base * 2 ^ (max attempt 1 - 1)) most ∧
      pause attempt ≤ most ∧
      (∀ later, attempt ≤ later → pause attempt ≤ pause later) ∧
      pause (max attempt 1 + 1) = min (2 * pause attempt) most := by
  intro pause
  have hexact : pause attempt = min (base * 2 ^ (attempt - 1)) most :=
    delay_exponential word n base attempt
  refine ⟨?_, ?_, fun later h => delay_exponential_mono word n base h, ?_⟩
  · rw [hexact, show max attempt 1 - 1 = attempt - 1 by omega]
  · rw [hexact]
    exact Nat.min_le_right _ _
  · cases attempt with
    | zero => exact delay_exponential_succ word n base 0
    | succ k =>
        rw [Nat.max_eq_left (Nat.le_add_left 1 k)]
        exact delay_exponential_succ word n base k

/-- The power is no power any more and the product no product, and still the pause is right. -/
theorem exponential_delays_exact_clamped :
    maxWord ≤ maxWord ∧
      let pause := (exponential 3 3 maxWord).delay
      pause 66 = min (3 * 2 ^ (max 66 1 - 1)) maxWord ∧ pause 66 ≤ maxWord ∧
        (∀ later, 66 ≤ later → pause 66 ≤ pause later) ∧
        pause (max 66 1 + 1) = min (2 * pause 66) maxWord :=
  ⟨Nat.le_refl maxWord, exponential_delays_exact (Nat.le_refl maxWord) 3 3 66⟩

end MetricsProxy.RetryStrategy
