/-!
# Framing a byte stream into lines

A line ends with a newline byte; what is left at the end of the stream is a
line too. A line of more than `limit` bytes, its newline not counted, is too
long: it is skipped up to and including its newline, and at most `limit + 1` of
its bytes are ever held. Framing does not depend on how the stream is cut into
chunks.
-/
namespace MetricsProxy

def newline : UInt8 := 10

inductive Frame where
  /-- A line with its newline, if the stream did not end before it. -/
  | line (bytes : List UInt8)
  | tooLong
  deriving DecidableEq, Repr

structure LineReader where
  limit : Nat
  /-- What has been read of the current line, unless it is skipped. -/
  held : List UInt8
  /-- Whether the current line is already known to be too long. -/
  skipping : Bool
  deriving DecidableEq, Repr

namespace LineReader

def fresh (limit : Nat) : LineReader := ⟨limit, [], false⟩

/-- What reading a chunk leads to: the line goes on beyond it, or it ends
within it and the rest of the chunk belongs to later lines. -/
inductive Progress where
  | pending (r : LineReader)
  | complete (frame : Frame) (rest : List UInt8)
  deriving DecidableEq, Repr

/-- Drops everything up to and including the first newline, if there is one. -/
def afterNewline? : List UInt8 → Option (List UInt8)
  | [] => none
  | b :: bs => if b = newline then some bs else afterNewline? bs

/-- Skips to the end of a line that is too long. -/
def skip (r : LineReader) (chunk : List UInt8) : Progress :=
  match afterNewline? chunk with
  | some rest => .complete .tooLong rest
  | none => .pending { r with held := [], skipping := true }

/-- Cuts a chunk behind its first newline, or after `room` bytes if there is none
among them. -/
def cut : Nat → List UInt8 → List UInt8 × List UInt8
  | 0, bs => ([], bs)
  | _ + 1, [] => ([], [])
  | room + 1, b :: bs =>
      if b = newline then ([b], bs)
      else
        let (line, rest) := cut room bs
        (b :: line, rest)

theorem cut_append (room : Nat) (bs : List UInt8) : (cut room bs).1 ++ (cut room bs).2 = bs := by
  induction room generalizing bs with
  | zero => rfl
  | succ room ih =>
      cases bs with
      | nil => rfl
      | cons b bs =>
          simp only [cut]
          split
          · rfl
          · simp [ih]

theorem length_cut_le (room : Nat) (bs : List UInt8) : (cut room bs).1.length ≤ room := by
  induction room generalizing bs with
  | zero => exact Nat.le_refl 0
  | succ room ih =>
      cases bs with
      | nil => exact Nat.zero_le _
      | cons b bs =>
          simp only [cut]
          split
          · simp
          · simpa using ih bs

/-- Reads on in the current line. Of a line that is not skipped, at most
`limit + 1` bytes are taken; without a newline among them it is too long. -/
def feed (r : LineReader) (chunk : List UInt8) : Progress :=
  if r.skipping then r.skip chunk
  else
    let room := r.limit + 1 - r.held.length
    let (line, rest) := cut room chunk
    if line.getLast? = some newline then .complete (.line (r.held ++ line)) rest
    else if line.length < room then .pending { r with held := r.held ++ line }
    else r.skip rest

/-- The frame that the end of the stream completes, if any. -/
def finish (r : LineReader) : Option Frame :=
  if r.skipping then some .tooLong
  else if r.held = [] then none
  else some (.line r.held)

/-- Reads one frame from a stream that arrives in chunks. Gives the frame and
the chunks left, or nothing at the end of the stream. -/
def read (r : LineReader) : List (List UInt8) → Option (Frame × List (List UInt8))
  | [] => r.finish.map fun f => (f, [])
  | chunk :: chunks =>
      match r.feed chunk with
      | .pending r => r.read chunks
      | .complete f rest => some (f, rest :: chunks)

end LineReader
end MetricsProxy
