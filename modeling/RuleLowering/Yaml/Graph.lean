import RuleLowering.Fault
import RuleLowering.Yaml.Resolve

/-!
# The nodes of a YAML document

A document is a graph of nodes: an alias stands for the very node that bears its anchor, which may
be a node around it. Nodes are known by numbers, and a node refers to its parts by theirs.
-/
namespace RuleLowering.Yaml

inductive Shape where
  | scalar (text : Text)
  | seq (items : List Nat)
  | map (entries : List (Nat × Nat))
  deriving Repr, Inhabited

namespace Shape

/-- The entries of a mapping; other shapes have none. -/
def entries : Shape → List (Nat × Nat)
  | map entries => entries
  | _ => []

end Shape

structure Vertex where
  tag : Tag
  shape : Shape
  deriving Repr, Inhabited

structure Graph where
  vertices : Array Vertex := #[]
  /-- The numbers of the nodes in the order in which their ends are read, the latest first. So a node
  comes in front of its parts unless it stands inside them. -/
  finished : List Nat := []

namespace Graph

def size (g : Graph) : Nat := g.vertices.size

def vertex (g : Graph) (n : Nat) : Vertex := g.vertices[n]?.getD default

def tag (g : Graph) (n : Nat) : Tag := (g.vertex n).tag

def shape (g : Graph) (n : Nat) : Shape := (g.vertex n).shape

def entries (g : Graph) (n : Nat) : List (Nat × Nat) := (g.shape n).entries

def set (g : Graph) (n : Nat) (v : Vertex) : Graph :=
  { g with vertices := g.vertices.setIfInBounds n v }

def add (g : Graph) (v : Vertex) : Graph := { g with vertices := g.vertices.push v }

def retag (g : Graph) (n : Nat) (tag : Tag) : Graph := g.set n ⟨tag, g.shape n⟩

def setEntries (g : Graph) (n : Nat) (entries : List (Nat × Nat)) : Graph :=
  g.set n ⟨g.tag n, .map entries⟩

def entryCount (g : Graph) : Nat :=
  g.vertices.foldl (fun n v => n + v.shape.entries.length) 0

/-- The text that a node has where a scalar is needed. A mapping stands for the value that it gives
by the key for that purpose, which may be the mapping itself. -/
def textOf? (g : Graph) : (fuel : Nat) → Nat → Except Fault Text
  | 0, _ => .error .endless
  | fuel + 1, n =>
    match g.shape n with
    | .scalar text => .ok text
    | .seq _ => .error .yaml
    | .map entries => match entries.find? fun e => g.tag e.1 == .value with
      | some (_, value) => textOf? g fuel value
      | none => .error .yaml

end Graph

end RuleLowering.Yaml
