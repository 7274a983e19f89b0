import RuleLowering.Binary64.Basic
import RuleLowering.Calendar
import RuleLowering.Text.Basic

/-!
# Plain data

The values that documents hold and that stand wherever a form or an expression carries data:
names, positions, literals, attribute values. A container remembers the place where it was
read, so that a later writer can tell one container met twice from two equal ones. A container
that holds itself is spread out: inside it stands a container of its own place, and so on a few
times.
-/
namespace RuleLowering

/-- The place of a container: built by the program, or a node of one of the documents read. -/
inductive Place where
  | fresh
  | node (document index : Nat)
  deriving DecidableEq, Repr, Inhabited

/-- A container of this place stands inside one of the same place, given the places around it. -/
def Place.isAmong (place : Place) (around : List Place) : Bool :=
  place != .fresh && around.contains place

/-- Scalars that only a document with typed scalars can hold. -/
inductive Special where
  | day (d : Day)
  | moment (m : Moment)
  | bytes (content : List UInt8)
  deriving DecidableEq, Repr

/-- Groups of values other than lists and mappings. -/
inductive Grouping where
  /-- A key and its value, as an ordered mapping lists them. -/
  | pair
  /-- Values without order or repetition. -/
  | set
  deriving DecidableEq, Repr

/-- Plain data. A mapping keeps its entries in the order of their first keys. -/
inductive Data where
  | null
  | bool (b : Bool)
  | int (n : Int)
  | float (x : Binary64)
  | str (t : Text)
  | special (place : Place) (x : Special)
  | list (place : Place) (items : List Data)
  | group (how : Grouping) (place : Place) (items : List Data)
  | map (place : Place) (entries : List (Data × Data))
  deriving Repr, Inhabited

namespace Data

instance : Coe Text Data := ⟨.str⟩
instance : Coe String Data := ⟨fun s => .str s⟩
instance (n : Nat) : OfNat Data n := ⟨.int n⟩

/-- A list built by the program. -/
def ofList (items : List Data) : Data := .list .fresh items

/-- A mapping built by the program, with names as keys. -/
def ofFields (fields : List (String × Data)) : Data :=
  .map .fresh (fields.map fun f => (.str f.1, f.2))

def isNull : Data → Bool
  | .null => true
  | _ => false

def kindName : Data → String
  | .null => "NoneType"
  | .bool _ => "bool"
  | .int _ => "int"
  | .float _ => "float"
  | .str _ => "str"
  | .special _ (.day _) => "date"
  | .special _ (.moment _) => "datetime"
  | .special _ (.bytes _) => "bytes"
  | .list _ _ => "list"
  | .group .pair _ _ => "tuple"
  | .group .set _ _ => "set"
  | .map _ _ => "dict"

/-- The same name together with that of the group it belongs to, if it belongs to one. -/
def kindPath : Data → String
  | .special _ (.day _) => "datetime.date"
  | .special _ (.moment _) => "datetime.datetime"
  | d => d.kindName

/-- Null, false, zero and everything empty hold nothing. -/
def isBlank : Data → Bool
  | .null => true
  | .bool b => !b
  | .int n => n == 0
  | .float x => x.isZero
  | .str t => t.isEmpty
  | .special _ (.bytes content) => content.isEmpty
  | .special _ _ => false
  | .list _ items => items.isEmpty
  | .group _ _ items => items.isEmpty
  | .map _ entries => entries.isEmpty

def text? : Data → Option Text
  | .str t => some t
  | _ => none

theorem text?_eq_some {d : Data} {t : Text} : d.text? = some t ↔ d = .str t := by
  cases d <;> simp [text?]

/-- The value of the first entry with the given name. -/
def field? (entries : List (Data × Data)) (name : String) : Option Data :=
  match entries with
  | [] => none
  | (key, value) :: rest => if key.text? = some (.plain name) then some value else field? rest name

mutual
/-- A container in a value stands inside itself, given the places around the value. -/
def isCyclicIn (around : List Place) : Data → Bool
  | .list place items | .group _ place items =>
    place.isAmong around || anyCyclic (place :: around) items
  | .map place entries => place.isAmong around || entriesCyclic (place :: around) entries
  | _ => false

def anyCyclic (around : List Place) : List Data → Bool
  | [] => false
  | x :: xs => isCyclicIn around x || anyCyclic around xs

def entriesCyclic (around : List Place) : List (Data × Data) → Bool
  | [] => false
  | (k, v) :: es => isCyclicIn around k || isCyclicIn around v || entriesCyclic around es
end

def isCyclic (d : Data) : Bool := isCyclicIn [] d

end Data

end RuleLowering
