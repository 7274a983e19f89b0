import RuleLowering.Data.Order
import RuleLowering.Sorting

/-!
# JSON text of plain data

Items are separated by a comma and a space, a name from its value by a colon and a space, and
everything is printable ASCII. Names that are not texts take the spelling of their value. A
container inside itself has no JSON text, nor has a whole number of too many digits.
-/
namespace RuleLowering.Json

open Binary64 (Layout)

inductive EntryOrder where
  | asRead
  | byName
  deriving DecidableEq, Repr

/-- Numbers as in displayed data, with names of their own for what is not a finite number. -/
def numberLayout : Layout :=
  { Data.numberLayout with nan := "NaN", infinity := "Infinity" }

def writeInt (n : Int) : Except Fault String :=
  if (Data.int n).isWritable then .ok (toString n) else .error .numberTooLong

def writeName (key : Data) : Except Fault String :=
  match key with
  | .str t => .ok (Text.escaped t)
  | .null => .ok "\"null\""
  | .bool b => .ok (if b then "\"true\"" else "\"false\"")
  | .int n => do return "\"" ++ (← writeInt n) ++ "\""
  | .float x => .ok ("\"" ++ numberLayout.write x ++ "\"")
  | _ => .error (.keyNotWritable key.kindName)

def arrange {α : Type} (order : EntryOrder) (entries : List (Data × α)) :
    Except Fault (List (Data × α)) :=
  match order with
  | .asRead => .ok entries
  | .byName => sorted (fun a b => Data.less? a.1 b.1) entries

def writeEntry (entry : Data × Except Fault String) : Except Fault String := do
  let name ← writeName entry.1
  let value ← entry.2
  return name ++ ": " ++ value

mutual
/-- The JSON text of a value inside containers of the places around it. -/
def writeIn (order : EntryOrder) (around : List Place) : Data → Except Fault String
  | .list place items =>
    if items.isEmpty then .ok "[]"
    else if place.isAmong around then .error .circular
    else do return "[" ++ Data.joinWith ", " (← writeItems order (place :: around) items) ++ "]"
  | .group .pair place items =>
    if place.isAmong around then .error .circular
    else do return "[" ++ Data.joinWith ", " (← writeItems order (place :: around) items) ++ "]"
  | .group .set _ _ => .error (.valueNotWritable "set")
  | .map place entries =>
    if entries.isEmpty then .ok "\x7b\x7d"
    else if place.isAmong around then .error .circular
    else do
      let arranged ← arrange order (writeEntries order (place :: around) entries)
      return "\x7b" ++ Data.joinWith ", " (← arranged.mapM writeEntry) ++ "\x7d"
  | .special place x => .error (.valueNotWritable (Data.special place x).kindName)
  | .null => .ok "null"
  | .bool b => .ok (if b then "true" else "false")
  | .int n => writeInt n
  | .float x => .ok (numberLayout.write x)
  | .str t => .ok (Text.escaped t)

def writeItems (order : EntryOrder) (around : List Place) :
    List Data → Except Fault (List String)
  | [] => .ok []
  | x :: xs => do return (← writeIn order around x) :: (← writeItems order around xs)

def writeEntries (order : EntryOrder) (around : List Place) :
    List (Data × Data) → List (Data × Except Fault String)
  | [] => []
  | (k, v) :: es => (k, writeIn order around v) :: writeEntries order around es
end

def write (order : EntryOrder) (d : Data) : Except Fault String := writeIn order [] d

end RuleLowering.Json
