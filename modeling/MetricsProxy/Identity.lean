import MetricsProxy.Files
import MetricsProxy.Text.Blank

/-!
# The agent's id

The id of an agent is kept in a file, so that the agent is the same after a
restart. Where the file is missing or blank a fresh id is written to it; where
it cannot be read for any other reason nothing is changed.
-/
namespace MetricsProxy.Identity
open Text

structure Outcome where
  files : Files
  result : Except FileError String
  /-- Whether the fresh id was drawn. -/
  drawn : Bool

def readText (f : Files) (path : FilePath) : Except FileError String :=
  match f.read path with
  | .error e => .error e
  | .ok bytes =>
      match String.fromUTF8? (ByteArray.mk bytes.toArray) with
      | some s => .ok s
      | none => .error .invalidData

/-- Writes the fresh id, in a directory that is created if it is missing. -/
def create (f : Files) (path : FilePath) (fresh : String) : Outcome :=
  match f.createDirectories [] path.parentParts with
  | (g, .error e) => ⟨g, .error e, true⟩
  | (g, .ok ()) =>
      match g.write path fresh.toUTF8.data.toList with
      | .error e => ⟨g, .error e, true⟩
      | .ok h => ⟨h, .ok fresh, true⟩

def createOrGet (f : Files) (path : FilePath) (fresh : String) : Outcome :=
  match readText f path with
  | .ok text =>
      if trim text.toList = [] then create f path fresh else ⟨f, .ok (trimText text), false⟩
  | .error .notFound => create f path fresh
  | .error e => ⟨f, .error e, false⟩

/-- Sixteen random bytes as the text of an id: in groups, with the marks of a random
id in the seventh and ninth byte. -/
def ofRandom (bytes : List UInt8) : String :=
  let marked := (bytes.map UInt8.toNat).mapIdx fun i b =>
    if i = 6 then 0x40 + b % 16 else if i = 8 then 0x80 + b % 64 else b
  let hex := fun b : Nat => [Nat.digitChar (b / 16), Nat.digitChar (b % 16)]
  let group := fun from_ n => ((marked.drop from_).take n).flatMap hex
  String.ofList (group 0 4 ++ '-' :: group 4 2 ++ '-' :: group 6 2 ++ '-' :: group 8 2 ++
    '-' :: group 10 6)

end MetricsProxy.Identity
