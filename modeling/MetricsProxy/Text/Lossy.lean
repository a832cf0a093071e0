/-!
# Bytes read as text

Bytes that should be UTF-8 but need not be are read with the replacement
character in place of every maximal piece that is not: a byte that begins
nothing, or a beginning that breaks off.
-/
namespace MetricsProxy.Text

/-- What a first byte of a longer sequence promises: how many bytes follow and
the bounds of the first of them. -/
def following? (b : Nat) : Option (Nat × Nat × Nat) :=
  if 0xc2 ≤ b ∧ b ≤ 0xdf then some (1, 0x80, 0xbf)
  else if b = 0xe0 then some (2, 0xa0, 0xbf)
  else if b = 0xed then some (2, 0x80, 0x9f)
  else if 0xe1 ≤ b ∧ b ≤ 0xef then some (2, 0x80, 0xbf)
  else if b = 0xf0 then some (3, 0x90, 0xbf)
  else if 0xf1 ≤ b ∧ b ≤ 0xf3 then some (3, 0x80, 0xbf)
  else if b = 0xf4 then some (3, 0x80, 0x8f)
  else none

/-- At most `n` bytes that go on with a sequence; the first one has bounds of its own. -/
def continuation : Nat → Nat → Nat → List UInt8 → List UInt8
  | n + 1, low, high, b :: bs =>
      if low ≤ b.toNat ∧ b.toNat ≤ high then b :: continuation n 0x80 0xbf bs else []
  | _, _, _, _ => []

/-- The first character of `b :: bs` and how many bytes of `bs` belong to it. -/
def firstChar (b : UInt8) (bs : List UInt8) : Char × Nat :=
  if b.toNat < 0x80 then (Char.ofNat b.toNat, 0)
  else
    match following? b.toNat with
    | none => ('\ufffd', 0)
    | some (n, low, high) =>
        let tail := continuation n low high bs
        if tail.length = n then
          let start := b.toNat % Nat.pow 2 (6 - n)
          (Char.ofNat (tail.foldl (fun v t => v * 64 + t.toNat % 64) start), n)
        else ('\ufffd', tail.length)

def lossyChars : List UInt8 → List Char
  | [] => []
  | b :: bs =>
      let first := firstChar b bs
      first.1 :: lossyChars (bs.drop first.2)
termination_by bs => bs.length
decreasing_by simp only [List.length_drop, List.length_cons]; omega

def lossy (bytes : List UInt8) : String := String.ofList (lossyChars bytes)

end MetricsProxy.Text
