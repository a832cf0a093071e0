import MetricsProxy.Telemetry.Registry

/-!
# Metrics behind handles

A component may fetch a metric once and keep the handle. Handles of one metric point to
one cell, so each component sees what the others did. The cell of a name is the one that
its first fetch made. Who asks for another kind under the name gets a warning and a cell
of its own, which no name leads to.

Operations come one after another: nobody registers a name between the lookup of a fetch
and its registration.
-/
namespace MetricsProxy

/-- A variable with a metric that was fetched. There are as many slots as components need,
and in a slot a later fetch of the same name and kind replaces an earlier one. -/
structure Handle where
  slot : Nat
  name : String
  kind : MetricKind
  deriving DecidableEq

/-- The handle that a use needs. -/
def MetricUse.through (u : MetricUse) (slot : Nat) (name : String) : Handle :=
  ⟨slot, name, u.kind⟩

@[simp] theorem MetricUse.name_through (u : MetricUse) (slot : Nat) (name : String) :
    (u.through slot name).name = name := rfl

/-- What is asked of the registry, and what is done through the handles it gave. -/
inductive RegistryOp where
  | fetch (h : Handle)
  | use (slot : Nat) (name : String) (u : MetricUse)
  | get (name : String)
  | snapshot
  deriving DecidableEq

/-- A fetch may warn; a use shows the metric as its user sees it then, if it has a handle. -/
inductive RegistryOp.Answer where
  | fetched (warning : Option String)
  | used (seen : Option Metric)
  | found (metric : Option Metric)
  | listed (entries : List (String × Binary64))
  deriving DecidableEq

/-- Every metric that was made, the cells that names lead to, in no order that matters,
and the cells that handles point to, the latest first. -/
structure MetricStore where
  cells : List Metric
  names : List (String × Nat)
  handles : List (Handle × Nat)

namespace MetricStore

def empty : MetricStore := ⟨[], [], []⟩

def cell? (s : MetricStore) (name : String) : Option Nat := s.names.lookup name

def target? (s : MetricStore) (h : Handle) : Option Nat := s.handles.lookup h

/-- What the table of names has under a name. -/
def registered? (s : MetricStore) (name : String) : Option (Nat × Metric) :=
  (s.cell? name).bind fun cell => s.cells[cell]?.map (cell, ·)

def get (s : MetricStore) (name : String) : Option Metric := (s.registered? name).map (·.2)

/-- A new cell, which nothing points to. -/
def make (s : MetricStore) (kind : MetricKind) : MetricStore :=
  { s with cells := s.cells ++ [.fresh kind] }

def register (s : MetricStore) (name : String) (cell : Nat) : MetricStore :=
  { s with names := (name, cell) :: s.names }

def give (s : MetricStore) (h : Handle) (cell : Nat) : MetricStore :=
  { s with handles := (h, cell) :: s.handles }

/-- A use of the metric in a cell. -/
def alter (s : MetricStore) (cell : Nat) (u : MetricUse) : MetricStore :=
  { s with cells := s.cells.modify cell u.apply }

def mismatch (name : String) (registered wanted : MetricKind) : String :=
  s!"Metric {name} is already registered as a {registered.name}, not a {wanted.name}"

/-- What a fetch gives: the cell for the handle, and a warning at times. -/
structure Fetched where
  store : MetricStore
  cell : Nat
  warning : Option String

/-- The cell of the name if it has the kind, a cell that no name leads to if it has another
one, and else a new cell for the name. -/
def fetch (s : MetricStore) (name : String) (kind : MetricKind) : Fetched :=
  match s.registered? name with
  | some (cell, m) =>
      if m.kind = kind then ⟨s, cell, none⟩
      else ⟨s.make kind, s.cells.length, some (mismatch name m.kind kind)⟩
  | none => ⟨(s.make kind).register name s.cells.length, s.cells.length, none⟩

def use (s : MetricStore) (h : Handle) (u : MetricUse) : MetricStore × Option Metric :=
  match s.target? h with
  | some cell => (s.alter cell u, (s.alter cell u).cells[cell]?)
  | none => (s, none)

/-- The names in this order, each with the snapshot of its metric. -/
def reading (s : MetricStore) (order : List (String × Nat)) : List (String × Binary64) :=
  order.filterMap fun e => s.cells[e.2]?.map fun m => (e.1, m.snapshot)

/-- What is read in some order, sorted by name. -/
def listing (s : MetricStore) (order : List (String × Nat)) : List (String × Binary64) :=
  (s.reading order).mergeSort fun a b => a.1 ≤ b.1

def snapshot (s : MetricStore) : List (String × Binary64) := s.listing s.names

def step (s : MetricStore) : RegistryOp → MetricStore × RegistryOp.Answer
  | .fetch h =>
      let got := s.fetch h.name h.kind
      (got.store.give h got.cell, .fetched got.warning)
  | .use slot name u =>
      let (s, seen) := s.use (u.through slot name) u
      (s, .used seen)
  | .get name => (s, .found (s.get name))
  | .snapshot => (s, .listed s.snapshot)

def run (s : MetricStore) (ops : List RegistryOp) : MetricStore :=
  ops.foldl (fun s op => (s.step op).1) s

def log (s : MetricStore) : List RegistryOp → List (RegistryOp × RegistryOp.Answer)
  | [] => []
  | op :: ops => (op, (s.step op).2) :: (s.step op).1.log ops

end MetricStore
end MetricsProxy
