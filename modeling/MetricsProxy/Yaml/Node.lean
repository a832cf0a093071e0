import MetricsProxy.Yaml.Token

/-!
# Nodes

A document is a tree of nodes: scalars, sequences, mappings and aliases, which
stand for a node with an anchor. Anchors are numbered in the order in which they
come up, each by how many different names have come up before. A name that is
used again therefore takes its new number from the next new name, and an alias
means the last node of its number in the document.
-/
namespace MetricsProxy.Yaml

inductive Node where
  | alias (number : Nat)
  | scalar (tag : Option Tag) (isPlain : Bool) (text : List Char)
  | sequence (tag : Option Tag) (items : List Node)
  | mapping (tag : Option Tag) (members : List (Node × Node))
  deriving Inhabited

/-- A node with an anchor. -/
structure Marked where
  number : Nat
  /-- How many steps of the document come before the node. -/
  place : Nat
  node : Node

/-- How far the tokens have been read. -/
structure Reading where
  tokens : List Token
  directives : List Directive
  /-- The names of anchors with their numbers, each name once. -/
  names : List (List Char × Nat)
  /-- The steps so far: a scalar and an alias are one step, the beginning and the end of
  a sequence or mapping one each. -/
  steps : Nat
  marked : List Marked

abbrev Reader := StateT Reading Option

namespace Reader

def tokens : Reader (List Token) := return (← get).tokens

def advance : Reader Unit := modify fun s => { s with tokens := s.tokens.drop 1 }

def step : Reader Unit := modify fun s => { s with steps := s.steps + 1 }

def empty : Reader Node := do
  step
  return .scalar none true []

/-- An empty scalar before one of the given tokens, else what `r` reads. -/
def unlessAt (stops : List Token) (r : Reader Node) : Reader Node := do
  match (← tokens).head? with
  | some t => if stops.contains t then empty else r
  | none => r

def aliased (name : List Char) : Reader Node := do
  advance
  match (← get).names.lookup name with
  | some number =>
      step
      return .alias number
  | none => failure

/-- The anchor and the tag of a node, in any order. -/
def properties : Reader (Option (List Char) × Option Tag) := do
  let (anchor, tag) ← match ← tokens with
    | .anchor a :: .tag t :: _ => do advance; advance; pure (some a, some t)
    | .tag t :: .anchor a :: _ => do advance; advance; pure (some a, some t)
    | .anchor a :: _ => do advance; pure (some a, none)
    | .tag t :: _ => do advance; pure (none, some t)
    | _ => pure (none, none)
  match tag with
  | none => return (anchor, none)
  | some t =>
      match t.resolve? (← get).directives with
      | some tag => return (anchor, some tag)
      | none => failure

/-- Numbers an anchor. -/
def number (anchor : Option (List Char)) : Reader (Option (Nat × Nat)) := do
  let s ← get
  match anchor with
  | none => return none
  | some name =>
      let n := s.names.length
      let names :=
        if (s.names.lookup name).isSome then
          s.names.map fun e => if e.1 = name then (name, n) else e
        else s.names ++ [(name, n)]
      set { s with names := names }
      return some (n, s.steps)

/-- Notes the node of a numbered anchor. -/
def note (m : Option (Nat × Nat)) (n : Node) : Reader Unit :=
  match m with
  | none => return ()
  | some (number, place) => modify fun s => { s with marked := ⟨number, place, n⟩ :: s.marked }

/-- Passes over the token that begins a sequence or mapping and reads what is in it. -/
def inside {α : Type} (r : Reader α) : Reader α := do
  advance
  step
  let a ← r
  step
  return a

/-- A tag that is a single exclamation mark says nothing of a scalar. -/
def scalarTag (tag : Option Tag) : Option Tag :=
  if tag = some (TagName.asciiBytes ['!']) then none else tag

mutual

def node : Nat → Bool → Bool → Reader Node
  | 0, _, _ => failure
  | fuel + 1, inBlock, mayBeFlush => do
      match ← tokens with
      | .alias name :: _ => aliased name
      | _ => do
          let (anchor, tag) ← properties
          let m ← number anchor
          let n ← match ← tokens with
            | .scalar isPlain text :: _ => do
                advance
                step
                pure (.scalar (scalarTag tag) isPlain text)
            | .flowSequenceStart :: _ => do
                pure (.sequence tag (← inside (flowItems fuel true)))
            | .flowMappingStart :: _ => do
                pure (.mapping tag (← inside (flowMembers fuel true)))
            | .blockSequenceStart :: _ =>
                if inBlock then do pure (.sequence tag (← inside (blockItems fuel)))
                else failure
            | .blockMappingStart :: _ =>
                if inBlock then do pure (.mapping tag (← inside (blockMembers fuel)))
                else failure
            | ts => do
                if mayBeFlush ∧ ts.head? = some .blockEntry then
                  step
                  let items ← flushItems fuel
                  step
                  pure (.sequence tag items)
                else if anchor.isSome ∨ tag.isSome then
                  step
                  pure (.scalar tag true [])
                else failure
          note m n
          return n

/-- The items of an indented sequence up to its end. -/
def blockItems : Nat → Reader (List Node)
  | 0 => failure
  | fuel + 1 => do
      match ← tokens with
      | .blockEntry :: _ => do
          advance
          let item ← unlessAt [.blockEntry, .blockEnd] (node fuel true false)
          return item :: (← blockItems fuel)
      | .blockEnd :: _ => do
          advance
          return []
      | _ => failure

/-- The items of a sequence whose dashes are not indented. -/
def flushItems : Nat → Reader (List Node)
  | 0 => failure
  | fuel + 1 => do
      match ← tokens with
      | .blockEntry :: _ => do
          advance
          let item ← unlessAt [.blockEntry, .key, .value, .blockEnd] (node fuel true false)
          return item :: (← flushItems fuel)
      | _ => return []

def blockMembers : Nat → Reader (List (Node × Node))
  | 0 => failure
  | fuel + 1 => do
      match ← tokens with
      | .key :: _ => do
          advance
          let stops : List Token := [.key, .value, .blockEnd]
          let k ← unlessAt stops (node fuel true true)
          let v ← match ← tokens with
            | .value :: _ => do
                advance
                unlessAt stops (node fuel true true)
            | _ => empty
          return (k, v) :: (← blockMembers fuel)
      | .blockEnd :: _ => do
          advance
          return []
      | _ => failure

/-- The items of a sequence in brackets. An item with a key is a mapping of one member,
whose key may be missing; in its place a token is passed over. -/
def flowItems : Nat → Bool → Reader (List Node)
  | 0, _ => failure
  | fuel + 1, isFirst => do
      let stops : List Token := [.flowEntry, .flowSequenceEnd]
      match ← tokens with
      | .flowSequenceEnd :: _ => do
          advance
          return []
      | ts => do
          if isFirst = false then
            if ts.head? = some .flowEntry then advance else failure
          match ← tokens with
          | .flowSequenceEnd :: _ => do
              advance
              return []
          | .key :: _ => do
              advance
              step
              let k ← match (← tokens).head? with
                | some t =>
                    if (Token.value :: stops).contains t then do
                      advance
                      empty
                    else node fuel false false
                | none => failure
              let v ← match ← tokens with
                | .value :: _ => do
                    advance
                    unlessAt stops (node fuel false false)
                | _ => empty
              step
              return .mapping none [(k, v)] :: (← flowItems fuel false)
          | _ => do
              let item ← node fuel false false
              return item :: (← flowItems fuel false)

def flowMembers : Nat → Bool → Reader (List (Node × Node))
  | 0, _ => failure
  | fuel + 1, isFirst => do
      let stops : List Token := [.flowEntry, .flowMappingEnd]
      match ← tokens with
      | .flowMappingEnd :: _ => do
          advance
          return []
      | ts => do
          if isFirst = false then
            if ts.head? = some .flowEntry then advance else failure
          match ← tokens with
          | .flowMappingEnd :: _ => do
              advance
              return []
          | .key :: _ => do
              advance
              let k ← unlessAt (.value :: stops) (node fuel false false)
              let v ← match ← tokens with
                | .value :: _ => do
                    advance
                    unlessAt stops (node fuel false false)
                | _ => empty
              return (k, v) :: (← flowMembers fuel false)
          | _ => do
              let k ← node fuel false false
              let v ← empty
              return (k, v) :: (← flowMembers fuel false)

end

def directive? : Token → Option Directive
  | .directive d => some d
  | _ => none

/-- The node of the one document that there is, if there is one. -/
def document : Reader (Option Node) := do
  let ts ← tokens
  let fuel := 3 * ts.length + 3
  let node ← match ts with
    | [] => pure none
    | t :: _ => do
        if t = .documentStart ∨ (directive? t).isSome then
          let ds := (ts.takeWhile fun t => (directive? t).isSome).filterMap directive?
          match Directive.areValid ds, ts.drop ds.length with
          | true, .documentStart :: rest => do
              modify fun s => { s with tokens := rest, directives := ds }
              match rest with
              | [] => some <$> empty
              | t :: _ =>
                  if t = .documentStart ∨ t = .documentEnd ∨ (directive? t).isSome then
                    some <$> empty
                  else some <$> node fuel true false
          | _, _ => failure
        else some <$> node fuel true false
  if (← tokens).all (· == .documentEnd) then return node else failure

end Reader

/-- A document with what its aliases stand for. -/
structure Document where
  root : Option Node
  steps : Nat
  marked : List Marked

/-- The document in a text. -/
def Document.ofText? (text : String) : Option Document :=
  (Token.ofText? text).bind fun ts =>
    (Reader.document.run ⟨ts, [], [], 0, []⟩).map fun r => ⟨r.1, r.2.steps, r.2.marked⟩

end MetricsProxy.Yaml
