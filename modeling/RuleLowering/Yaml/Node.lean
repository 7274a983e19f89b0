import RuleLowering.Data.Basic
import RuleLowering.Yaml.Tag

/-!
# YAML nodes

What is written as a YAML text: a tree of scalars, sequences and mappings, each with a tag. A node
carries the place of the value it is made of; two nodes of one place are one node met twice, so
there need not be anything in the second one.
-/
namespace RuleLowering.Yaml

inductive Node where
  | scalar (place : Place) (tag : Tag) (text : Text)
  | seq (place : Place) (tag : Tag) (items : List Node)
  | map (place : Place) (tag : Tag) (entries : List (Node × Node))
  deriving Repr, Inhabited

namespace Node

def tag : Node → Tag
  | scalar _ tag _ | seq _ tag _ | map _ tag _ => tag

def place : Node → Place
  | scalar place _ _ | seq place _ _ | map place _ _ => place

end Node

end RuleLowering.Yaml
