import RuleLowering.Data.Same
import RuleLowering.Fault

/-!
# Items of a value

Where a list is only walked, other values are walked too: a text by its characters, a mapping
by its keys.
-/
namespace RuleLowering.Data

def items? : Data → Except Fault (List Data)
  | .list _ items => .ok items
  | .group _ _ items => .ok items
  | .str t => .ok (t.glyphs.map fun g => .str (.ofGlyphs [g]))
  | .map _ entries => .ok (entries.map (·.1))
  | .special _ (.bytes content) => .ok (content.map fun b => .int b.toNat)
  | d => .error (.notIterable d.kindPath)

def couple? (d : Data) : Except Fault (Data × Data) :=
  match d.items? with
  | .error _ => .error (.notUnpackable d.kindPath)
  | .ok [a, b] => .ok (a, b)
  | .ok items => .error (if items.length < 2 then .tooFewItems items.length else .tooManyItems)

mutual
/-- The kind of the part that keeps a value from being looked up: a list, a mapping or a set. -/
def unhashable? : Data → Option String
  | .list _ _ => some "list"
  | .map _ _ => some "dict"
  | .group .set _ _ => some "set"
  | .group .pair _ items => unhashableItem? items
  | _ => none

def unhashableItem? : List Data → Option String
  | [] => none
  | x :: xs => match unhashable? x with
    | some kind => some kind
    | none => unhashableItem? xs
end

def hashable (d : Data) : Except Fault Unit :=
  match d.unhashable? with
  | some kind => .error (.unhashable kind)
  | none => .ok ()

@[simp] theorem hashable_str (t : Text) : hashable (.str t) = .ok () := rfl

/-- The texts with a separator between each two; every item has to be a text. -/
def joinTexts (separator : String) (items : List Data) : Except Fault Text :=
  match items.findIdx? (·.text?.isNone) with
  | some i => .error (.itemNotText i ((items.map kindPath).getD i ""))
  | none => .ok (.join separator (items.filterMap text?))

/-- The text of a value, all whole numbers in which can be written. -/
def shownText (d : Data) : Except Fault Text :=
  if d.isWritable then .ok d.display else .error .numberTooLong

end RuleLowering.Data
