import MetricsProxy.Text.Split

/-!
# Files

A file system is a set of named places under one root, each a directory or a
file. A path is followed part by part from the root, and every part but the
last must be a directory that can be looked into. Names and whole paths have a
greatest length, and a name that is too long is noticed where it is looked up.
What may be written may also be read, so what was written is what is read next.
-/
namespace MetricsProxy
open Text

inductive FileError where
  | notFound
  | permissionDenied
  | isADirectory
  | notADirectory
  | alreadyExists
  | invalidData
  | invalidInput
  | nameTooLong
  /-- What else the system says, with its number for it. -/
  | other (code : Nat) (text : String)
  deriving DecidableEq, Repr

namespace FileError

def name : FileError → String
  | notFound => "NotFound"
  | permissionDenied => "PermissionDenied"
  | isADirectory => "IsADirectory"
  | notADirectory => "NotADirectory"
  | alreadyExists => "AlreadyExists"
  | invalidData => "InvalidData"
  | invalidInput => "InvalidInput"
  | nameTooLong => "InvalidFilename"
  | other _ _ => "Uncategorized"

def message : FileError → String
  | notFound => "No such file or directory (os error 2)"
  | permissionDenied => "Permission denied (os error 13)"
  | isADirectory => "Is a directory (os error 21)"
  | notADirectory => "Not a directory (os error 20)"
  | alreadyExists => "File exists (os error 17)"
  | invalidData => "stream did not contain valid UTF-8"
  | invalidInput => "file name contained an unexpected NUL byte"
  | nameTooLong => "File name too long (os error 36)"
  | other code text => s!"{text} (os error {code})"

end FileError

structure FilePath where
  parts : List String
  /-- Whether a slash stands at its end. -/
  slashed : Bool
  /-- Its length in bytes. -/
  size : Nat
  deriving DecidableEq, Repr

namespace FilePath

def ofString (s : String) : FilePath where
  parts := ((pieces (· == '/') s.toList).filter fun p => !p.isEmpty).map String.ofList
  slashed := s.toList.getLast? == some '/'
  size := s.utf8ByteSize

def parentParts (p : FilePath) : List String := (p.parts.filter (· != ".")).dropLast

def hasNul (p : FilePath) : Bool := p.parts.any fun s => s.toList.contains '\x00'

def longestName : Nat := 255

def longestPath : Nat := 4095

end FilePath

abbrev Place := List String

/-- What may be done with a file or a directory. -/
inductive Access where
  | full
  | readOnly
  /-- It is there, but looking into it ends with an error. -/
  | closed (error : FileError) (there : error ≠ .notFound)
  deriving DecidableEq, Repr

namespace Access

def error? : Access → Option FileError
  | full => none
  | readOnly => none
  | closed e _ => some e

def isWritable : Access → Bool
  | full => true
  | readOnly => false
  | closed _ _ => false

end Access

inductive FileNode where
  | file (bytes : List UInt8) (access : Access)
  | directory (access : Access)
  deriving DecidableEq, Repr

namespace FileNode

def access : FileNode → Access
  | file _ access => access
  | directory access => access

end FileNode

structure Files where
  entries : List (Place × FileNode)
  /-- What may be done with the root. -/
  root : Access
  deriving DecidableEq, Repr

namespace Files

def empty : Files := ⟨[], .full⟩

/-- What is at a place; the root is always a directory. -/
def node? (f : Files) (p : Place) : Option FileNode :=
  if p = [] then some (.directory f.root) else f.entries.lookup p

def put (f : Files) (p : Place) (n : FileNode) : Files := { f with entries := (p, n) :: f.entries }

theorem node?_put (f : Files) {p : Place} (n : FileNode) (q : Place) (h : p ≠ []) :
    (f.put p n).node? q = if q = p then some n else f.node? q := by
  unfold node? put
  by_cases hq : q = []
  · simp [hq, h.symm]
  · by_cases hqp : q = p
    · simp [hqp, h]
    · have : (q == p) = false := by simpa using hqp
      simp [hq, hqp, List.lookup_cons, this]

/-- One part further. -/
def descend (at_ : Place) (part : String) : Place :=
  if part = "." then at_ else if part = ".." then at_.dropLast else at_ ++ [part]

/-- What keeps a look-up from going on in a place. -/
def obstacle? (f : Files) (p : Place) : Option FileError :=
  match f.node? p with
  | none => some .notFound
  | some (.file _ _) => some .notADirectory
  | some (.directory access) => access.error?

def isWritable (f : Files) (p : Place) : Bool := (f.node? p).any fun n => n.access.isWritable

/-- The place that parts lead to. Nothing need be there yet, but the last name must be
one that could be there. -/
def locate (f : Files) : Place → List String → Except FileError Place
  | p, [] => .ok p
  | p, part :: rest =>
      match f.obstacle? p with
      | some e => .error e
      | none =>
          if FilePath.longestName < part.utf8ByteSize then .error .nameTooLong
          else f.locate (descend p part) rest

def read (f : Files) (path : FilePath) : Except FileError (List UInt8) :=
  if path.hasNul then .error .invalidInput
  else if FilePath.longestPath < path.size then .error .nameTooLong
  else if path.parts = [] ∧ path.slashed = false then .error .notFound
  else
    match f.locate [] (path.parts ++ if path.slashed then ["."] else []) with
    | .error e => .error e
    | .ok p =>
        match f.node? p with
        | none => .error .notFound
        | some (.directory _) => .error .isADirectory
        | some (.file bytes access) =>
            match access.error? with
            | some e => .error e
            | none => .ok bytes

/-- Creates the directories that are missing on the way. Those created before an error
stay. -/
def createDirectories (f : Files) : Place → List String → Files × Except FileError Unit
  | _, [] => (f, .ok ())
  | p, part :: rest =>
      match f.obstacle? p with
      | some e => (f, .error e)
      | none =>
          let next := descend p part
          match f.node? next with
          | some (.directory _) => f.createDirectories next rest
          | some (.file _ _) => (f, .error .alreadyExists)
          | none =>
              if FilePath.longestName < part.utf8ByteSize then (f, .error .nameTooLong)
              else if f.isWritable p then
                (f.put next (.directory .full)).createDirectories next rest
              else (f, .error .permissionDenied)

/-- Makes `bytes` the content of a file, which is created if it is missing. With a slash
at its end a path can only name a directory. -/
def write (f : Files) (path : FilePath) (bytes : List UInt8) : Except FileError Files :=
  if path.slashed then
    match f.locate [] (path.parts.dropLast ++ ["."]) with
    | .error e => .error e
    | .ok _ => .error .isADirectory
  else if path.parts = [] then .error .notFound
  else
    match f.locate [] path.parts with
    | .error e => .error e
    | .ok p =>
        match f.node? p with
        | some (.directory _) => .error .isADirectory
        | some (.file _ access) =>
            if access.isWritable then .ok (f.put p (.file bytes access))
            else .error .permissionDenied
        | none =>
            if f.isWritable p.dropLast then .ok (f.put p (.file bytes .full))
            else .error .permissionDenied

end Files
end MetricsProxy
