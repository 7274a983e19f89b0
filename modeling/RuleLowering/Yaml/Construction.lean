import RuleLowering.Data.Buckets
import RuleLowering.Data.Items
import RuleLowering.Yaml.Document
import RuleLowering.Yaml.Value

/-!
# Making values of nodes

Each node gets one value, however often it is referred to. A scalar gets its value when it is first
met. A container is made empty then and waits; those that wait are filled in the order in which they
were met, so nodes at one depth come before those inside them, and of two faults the one that is not
as deep counts. Filling a mapping first takes over the entries of those that it merges, and so changes
the node itself for all who refer to it.
-/
namespace RuleLowering.Yaml

/-- What the value of a node is made of. The parts of containers are given by the numbers of their
nodes. -/
inductive Content where
  | scalar (d : Data)
  | list (items : List Nat)
  /-- A list of pairs, each with a place of its own. -/
  | pairs (items : List (Nat × Nat × Nat))
  | set (members : List Data)
  | map (entries : List (Data × Nat))
  deriving Repr, Inhabited

structure Making where
  graph : Graph
  /-- The document that the nodes belong to. -/
  document : Nat
  /-- Bounds the depth of merges within merges. -/
  depth : Nat
  /-- What is known of the nodes, by number. -/
  contents : Array (Option Content)
  /-- Containers that are not filled yet, the latest first. -/
  waiting : List Nat := []
  /-- The number of the next place that belongs to no node. -/
  nextPlace : Nat

abbrev Construction := StateT Making (Except Fault)

namespace Construction

def content? (n : Nat) : Construction (Option Content) := do
  return (← get).contents[n]?.join

def put (n : Nat) (c : Content) : Construction Unit :=
  modify fun m => { m with contents := m.contents.setIfInBounds n (some c) }

def shape (n : Nat) : Construction Shape := do return (← get).graph.shape n

def entries (n : Nat) : Construction (List (Nat × Nat)) := do return (← get).graph.entries n

def changeGraph (f : Graph → Graph) : Construction Unit :=
  modify fun m => { m with graph := f m.graph }

/-- Makes an empty container. -/
def await (n : Nat) (c : Content) : Construction Unit := do
  put n c
  modify fun m => { m with waiting := n :: m.waiting }

/-- Serial numbers of different scalars of different documents are different. -/
def serial (document n : Nat) : Nat := 2 + document * Binary64.pow2 32 + n

/-- The value of a node with the tag of a scalar. -/
def scalarOf (n : Nat) (tag : Tag) : Construction Data := do
  let m ← get
  let text ← m.graph.textOf? (m.graph.size + 1) n
  match tag, m.graph.shape n with
  | .timestamp, .map _ => throw (.notText "list")
  | _, _ => scalarValue (.node m.document n) (serial m.document n) tag text

/-- Meets a node: it gets its value, or becomes an empty container. -/
def visit (n : Nat) : Construction Unit := do
  if (← content? n).isSome then return
  let tag := (← get).graph.tag n
  match tag with
  | .seq => await n (.list [])
  | .omap | .pairs => await n (.pairs [])
  | .set => await n (.set [])
  | .map => await n (.map [])
  | .merge | .value | .unknown _ => throw .yaml
  | _ => put n (.scalar (← scalarOf n tag))

/-- The entries that a merged node brings in, whose own merges `flatten` takes out. Of a sequence the
first mapping wins, so it comes last. -/
def broughtBy (flatten : Nat → Construction Unit) (n : Nat) : Construction (List (Nat × Nat)) := do
  let entriesOf (n : Nat) : Construction (List (Nat × Nat)) := do
    flatten n
    entries n
  match ← shape n with
  | .map _ => entriesOf n
  | .seq items => do
    let parts ← items.mapM fun item => do
      match ← shape item with
      | .map _ => entriesOf item
      | _ => throw .yaml
    return parts.reverse.flatten
  | .scalar _ => throw .yaml

/-- Looks at the entry of a mapping at an index. A merge is taken out, and what it brings in is put
behind the rest of that. A key that stands for the value of a mapping reads as a text from now on. -/
def flattenEntry (flatten : Nat → Construction Unit) (n : Nat)
    (state : Nat × List (Nat × Nat)) : Construction (Nat × List (Nat × Nat)) := do
  let (index, brought) := state
  let own ← entries n
  match own[index]? with
  | none => return state
  | some (key, value) =>
    match (← get).graph.tag key with
    | .merge => do
      changeGraph (·.setEntries n (own.eraseIdx index))
      return (index, brought ++ (← broughtBy flatten value))
    | .value => do
      changeGraph (·.retag key .str)
      return (index + 1, brought)
    | _ => return (index + 1, brought)

/-- Takes the merges out of a mapping. The entries that they bring in come in front of its own. -/
def flatten : (fuel : Nat) → Nat → Construction Unit
  | 0, _ => return
  | fuel + 1, n => do
    let count := (← entries n).length
    let (_, brought) ← (List.range count).foldlM
      (fun state _ => flattenEntry (flatten fuel) n state) (0, [])
    if !brought.isEmpty then
      let own ← entries n
      changeGraph (·.setEntries n (brought ++ own))

/-- Meets a node that has to be one that can be looked up, and gives its value. -/
def key (n : Nat) : Construction Data := do
  visit n
  match ← content? n with
  | some (.scalar d) => return d
  | _ => throw .yaml

/-- The keys of a mapping with the nodes of their values; of equal keys the last one gives the
value. -/
def fields (n : Nat) : Construction (List (Data × Nat)) := do
  match ← shape n with
  | .map _ => do
    flatten (← get).depth n
    (← entries n).foldlM (fun fields (k, v) => do
      let name ← key k
      visit v
      return Data.put fields name v) []
  | _ => throw .yaml

def items (n : Nat) : Construction (List Nat) := do
  match ← shape n with
  | .seq items => return items
  | _ => throw .yaml

/-- The pair of a mapping that has one entry. -/
def pair (n : Nat) : Construction (Nat × Nat × Nat) := do
  match ← shape n with
  | .map [(k, v)] => do
    visit k
    visit v
    modifyGet fun m => ((m.nextPlace, k, v), { m with nextPlace := m.nextPlace + 1 })
  | _ => throw .yaml

def fill (n : Nat) : Construction Unit := do
  match ← content? n with
  | some (.list _) => do
    let items ← items n
    items.forM visit
    put n (.list items)
  | some (.pairs _) => do put n (.pairs (← (← items n).mapM pair))
  | some (.set _) => do put n (.set (Data.inBucketOrder ((← fields n).map (·.1))))
  | some (.map _) => do put n (.map (← fields n))
  | _ => return

/-- Fills the containers that wait, and those that come to wait meanwhile. -/
def settle : (fuel : Nat) → Construction Unit
  | 0 => return
  | fuel + 1 => do
    let batch := (← get).waiting.reverse
    modify fun m => { m with waiting := [] }
    batch.forM fill
    if !batch.isEmpty then settle fuel

end Construction

namespace Content

def parts : Content → List Nat
  | scalar _ | set _ => []
  | list items => items
  | pairs items => items.flatMap fun (_, k, v) => [k, v]
  | map entries => entries.map (·.2)

/-- The value of a content, given those of the parts. -/
def value (document n : Nat) (part : Nat → Data) : Content → Data
  | scalar d => d
  | list items => .list (.node document n) (items.map part)
  | pairs items => .list (.node document n) (items.map fun (place, k, v) =>
      .group .pair (.node document place) [part k, part v])
  | set members => .group .set (.node document n) members
  | map entries => .map (.node document n) (entries.map fun (k, v) => (k, part v))

/-- The value of a content without its parts. -/
def hollow (document n : Nat) : Content → Data
  | scalar d => d
  | list _ | pairs _ => .list (.node document n) []
  | set _ => .group .set (.node document n) []
  | map _ => .map (.node document n) []

end Content

namespace Making

/-- The contents of the nodes, with their numbers, each behind its parts where that can be. -/
def inOrder (m : Making) : List (Nat × Content) :=
  m.graph.finished.reverse.filterMap fun n => (m.contents[n]?.join).map (n, ·)

/-- Puts together the values of all nodes in order, from those of their parts as they are so far. -/
def assemble (m : Making) (values : Array Data) : Array Data :=
  m.inOrder.foldl (fun values (n, c) =>
    values.setIfInBounds n (c.value m.document n fun k => values[k]?.getD .null)) values

/-- The numbers of the nodes that are needed before they are put together, each once. -/
def early (m : Making) : List Nat :=
  (m.inOrder.foldl (fun (seen, early) (n, c) =>
    (seen.setIfInBounds n true,
      c.parts.foldl (fun early k =>
        if seen[k]? == some true || early.contains k then early else k :: early) early))
    (Array.replicate m.graph.size false, [])).2

/-- How often containers that stand inside themselves are spread out: enough for a reader that goes
through each of them as a part of forms and expressions, and then as a value, and that stops where
it comes to one again. -/
def turns (m : Making) : Nat :=
  if m.early.isEmpty then 1 else 2 * m.early.length + 6

def values (m : Making) : Array Data :=
  let hollow := (Array.range m.graph.size).map fun n =>
    ((m.contents[n]?.join).map (Content.hollow m.document n)).getD .null
  (List.range m.turns).foldl (fun values _ => m.assemble values) hollow

end Making

def Graph.value (g : Graph) (document root : Nat) : Except Fault Data := do
  let start : Making :=
    { graph := g, document, depth := g.entryCount + 1, contents := Array.replicate g.size none,
      nextPlace := g.size }
  let make : Construction Unit := do
    Construction.visit root
    Construction.settle (g.size + 1)
  let ((), m) ← make.run start
  return m.values[root]?.getD .null

end RuleLowering.Yaml
