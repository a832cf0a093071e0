import MetricsProxy.Yaml.Node
import MetricsProxy.Yaml.Scalar.Meaning

/-!
# What documents mean

The value of a document is a table; a document without anything is an empty
one. Aliases are replaced by what they stand for. Nodes are nested only up to a
limit, which an alias to a node around it passes in any case, and aliases are
followed only so often.
-/
namespace MetricsProxy.Yaml

/-- Reading values counts the aliases that are followed. -/
abbrev Following := StateT Nat Option

namespace Document

/-- How often aliases are followed for each step of a document. -/
def followsPerStep : Nat := 100

/-- How deep sequences and mappings are nested. -/
def greatestDepth : Nat := 128

/-- The last node of a number. -/
def target? (d : Document) (number : Nat) : Option Node :=
  let found := d.marked.filter (·.number == number)
  (found.foldl (fun best m => match best with
    | some b => if b.place < m.place then some m else best
    | none => some m) (none : Option Marked)).map (·.node)

def follow (d : Document) : Node → Following Node
  | .alias number => do
      modify (· + 1)
      if d.steps * followsPerStep < (← get) then failure
      match d.target? number with
      | some n => return n
      | none => failure
  | n => return n

/-- A value under a tag of the document's own is a table with the tag's name. -/
def tagged (tag : Option Tag) (v : Json) : Json :=
  match Meaning.ownTag? tag with
  | some name => .object [(name, v)]
  | none => v

def keyText (d : Document) (key : Node) : Following String := do
  match ← d.follow key with
  | .scalar _ _ text => return String.ofList text
  | _ => failure

/-- A table: its members in key order, the last one of a repeated key. -/
def table (members : List (String × Json)) : Json := .object (Dict.ofList members).toList

/-- The value of a node that is no alias. -/
def value (d : Document) : Nat → Node → Following Json
  | _, .scalar tag isPlain text =>
      match Meaning.ownTag? tag with
      | some name =>
          match Meaning.ofScalar? none isPlain text with
          | some v => return .object [(name, v)]
          | none => failure
      | none =>
          match Meaning.ofScalar? tag isPlain text with
          | some v => return v
          | none => failure
  | depth + 1, .sequence tag items => do
      let vs ← items.mapM fun item => do d.value depth (← d.follow item)
      return tagged tag (.array vs)
  | depth + 1, .mapping tag members => do
      let ms ← members.mapM fun m => do
        let key ← d.keyText m.1
        let v ← d.value depth (← d.follow m.2)
        return (key, v)
      return tagged tag (table ms)
  | _, _ => failure

/-- The members of the table that a document is. -/
def members? (d : Document) : Option (List (String × Json)) :=
  match d.root with
  | none => some []
  | some (.scalar _ true []) => some []
  | some (.mapping _ members) =>
      match (d.value greatestDepth (.mapping none members)).run 0 with
      | some (.object ms, _) => some ms
      | _ => none
  | some _ => none

end Document

/-- The members of the table in a text. -/
def members? (text : String) : Option (List (String × Json)) :=
  (Document.ofText? text).bind Document.members?

end MetricsProxy.Yaml
