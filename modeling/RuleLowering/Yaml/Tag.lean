/-!
# YAML tags

What the nodes of a YAML text stand for.
-/
namespace RuleLowering.Yaml

inductive Tag where
  | null
  | bool
  | int
  | float
  | str
  | timestamp
  | binary
  | seq
  | map
  | set
  /-- A sequence of mappings of one entry each, keys once. -/
  | omap
  /-- The same with repeated keys. -/
  | pairs
  /-- The key of mappings whose entries are taken over. -/
  | merge
  /-- The key of the value that a mapping stands for in place of a scalar. -/
  | value
  | unknown (name : String)
  deriving DecidableEq, Repr, Inhabited

namespace Tag

def standardStem : String := "tag:yaml.org,2002:"

/-- The tags that can be written out, with their names behind the stem. -/
def named : List (String × Tag) :=
  [("null", .null), ("bool", .bool), ("int", .int), ("float", .float), ("str", .str),
    ("timestamp", .timestamp), ("binary", .binary), ("seq", .seq), ("map", .map), ("set", .set),
    ("omap", .omap), ("pairs", .pairs), ("merge", .merge), ("value", .value)]

def ofName (name : String) : Tag :=
  match named.find? (fun e => standardStem ++ e.1 == name) with
  | some (_, tag) => tag
  | none => .unknown name

def short (tag : Tag) : String :=
  match tag, named.find? (·.2 == tag) with
  | .unknown name, _ => name
  | _, some (name, _) => "!!" ++ name
  | _, none => ""

end Tag

end RuleLowering.Yaml
