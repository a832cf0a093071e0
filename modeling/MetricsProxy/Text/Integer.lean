/-!
# Whole numbers in decimal

Numerals are ASCII digits after an optional sign, nothing else: no blanks, no
separators, no other digits. The reader of signed numerals takes `+` and `-`,
the reader of unsigned ones only `+`, and both refuse what is out of range.
-/
namespace MetricsProxy.Text

/-- The value of a non-empty run of digits. -/
def digits? (cs : List Char) : Option Nat :=
  if cs ≠ [] ∧ cs.all Char.isDigit then some (Nat.ofDigitChars 10 cs 0) else none

def natDigits (n : Nat) : List Char := Nat.toDigits 10 n

def intDigits (i : Int) : List Char :=
  if i < 0 then '-' :: natDigits i.natAbs else natDigits i.natAbs

theorem digits?_natDigits (n : Nat) : digits? (natDigits n) = some n := by
  have hall : (natDigits n).all Char.isDigit = true := by
    rw [List.all_eq_true]
    exact fun c hc => Nat.isDigit_of_mem_toDigits (by decide) (by decide) hc
  have hne : natDigits n ≠ [] := Nat.toDigits_ne_nil
  rw [digits?, if_pos ⟨hne, hall⟩, natDigits, Nat.ofDigitChars_toDigits (by decide) (by decide)]

/-- A numeral with either sign or none. -/
def integer? : List Char → Option Int
  | '+' :: ds => (digits? ds).map Int.ofNat
  | '-' :: ds => (digits? ds).map fun n => -Int.ofNat n
  | ds => (digits? ds).map Int.ofNat

def natural? : List Char → Option Nat
  | '+' :: ds => digits? ds
  | ds => digits? ds

def int64? (cs : List Char) : Option Int :=
  (integer? cs).filter fun i => decide (-0x8000000000000000 ≤ i ∧ i < 0x8000000000000000)

def below? (limit : Nat) (cs : List Char) : Option Nat :=
  (natural? cs).filter fun n => decide (n < limit)

theorem natDigits_ne_sign (n : Nat) {c : Char} {cs : List Char} (h : natDigits n = c :: cs) :
    c ≠ '+' ∧ c ≠ '-' := by
  have hmem : c ∈ Nat.toDigits 10 n := by rw [← natDigits, h]; exact List.mem_cons_self
  have hc : c.isDigit = true := Nat.isDigit_of_mem_toDigits (by decide) (by decide) hmem
  constructor <;> rintro rfl <;> exact absurd hc (by decide)

theorem natural?_natDigits (n : Nat) : natural? (natDigits n) = some n := by
  cases h : natDigits n with
  | nil => exact absurd h Nat.toDigits_ne_nil
  | cons c cs =>
      have hc := (natDigits_ne_sign n h).1
      have hn := digits?_natDigits n
      rw [h] at hn
      unfold natural?
      split
      · rename_i heq; exact absurd (List.cons.inj heq).1 hc
      · exact hn

theorem integer?_intDigits (i : Int) : integer? (intDigits i) = some i := by
  unfold intDigits
  split
  · rename_i hneg
    simp only [integer?, digits?_natDigits, Option.map_some, Option.some.injEq,
      Int.ofNat_eq_natCast]
    omega
  · rename_i hpos
    have hn := digits?_natDigits i.natAbs
    cases h : natDigits i.natAbs with
    | nil => exact absurd h Nat.toDigits_ne_nil
    | cons c cs =>
        have hc := natDigits_ne_sign _ h
        rw [h] at hn
        unfold integer?
        split
        · rename_i heq; exact absurd (List.cons.inj heq).1 hc.1
        · rename_i heq; exact absurd (List.cons.inj heq).1 hc.2
        · simp only [hn, Option.map_some, Option.some.injEq, Int.ofNat_eq_natCast]
          omega

end MetricsProxy.Text
