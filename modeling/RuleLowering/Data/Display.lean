import RuleLowering.Binary64.Layout
import RuleLowering.Data.Basic
import RuleLowering.Text.Shown

/-!
# Displayed data

The text of a value in messages and in printed literals. A text displays as itself, inside a
container between quotes; a list stands in brackets, a pair in parentheses, a mapping in braces.
Where a container stands inside itself, three points take the place of what is in it.
-/
namespace RuleLowering.Data

open Binary64 (Layout)

/-- Displayed numbers are positional from `0.0001` up to below `10 ^ 16`. -/
def numberLayout : Layout where
  least := -4
  greatest := 15
  exponentDigits := 2
  nan := "nan"
  infinity := "inf"

def joinWith (separator : String) : List String → String
  | [] => ""
  | [s] => s
  | s :: rest => s ++ separator ++ joinWith separator rest

theorem toList_joinWith_cons (text next : String) (texts : List String) :
    (joinWith ", " (text :: next :: texts)).toList =
      text.toList ++ ',' :: ' ' :: (joinWith ", " (next :: texts)).toList := by
  have hjoin : joinWith ", " (text :: next :: texts) =
      text ++ ", " ++ joinWith ", " (next :: texts) := rfl
  rw [hjoin, String.toList_append, String.toList_append, List.append_assoc]
  rfl

def byteText (quote : Char) (b : UInt8) : List Char :=
  let c := Char.ofNat b.toNat
  if c = quote ∨ c = '\x5c' then ['\x5c', c]
  else if c = '\n' then ['\x5c', 'n']
  else if c = '\r' then ['\x5c', 'r']
  else if c = '\t' then ['\x5c', 't']
  else if ' ' ≤ c ∧ c ≤ '~' then [c]
  else '\x5c' :: 'x' :: Text.hex 2 b.toNat

def bytesText (content : List UInt8) : String :=
  let quote := Text.quoteFor (content.map fun b => Char.ofNat b.toNat)
  String.ofList ('b' :: quote :: content.flatMap (byteText quote) ++ [quote])

def distanceText (seconds : Int) : String :=
  let days := seconds.fdiv 86400
  let rest := seconds.fmod 86400
  let parts := (if days = 0 then [] else ["days=" ++ toString days])
    ++ (if rest = 0 then [] else ["seconds=" ++ toString rest])
  "datetime.timedelta(" ++ (if parts.isEmpty then "0" else joinWith ", " parts) ++ ")"

def specialInner : Special → String
  | .day d =>
    "datetime.date(" ++ joinWith ", " ([d.year, d.month, d.day].map toString) ++ ")"
  | .moment m =>
    let tail := if m.micro ≠ 0 then [m.second, m.micro] else if m.second ≠ 0 then [m.second] else []
    let fields := ([m.date.year, m.date.month, m.date.day, m.hour, m.minute] ++ tail).map toString
    let zone := match m.offset with
      | none => []
      | some 0 => ["tzinfo=datetime.timezone.utc"]
      | some s => ["tzinfo=datetime.timezone(" ++ distanceText s ++ ")"]
    "datetime.datetime(" ++ joinWith ", " (fields ++ zone) ++ ")"
  | .bytes content => bytesText content

mutual
/-- A value as it stands inside containers of the places around it. -/
def innerIn (around : List Place) : Data → String
  | .null => "None"
  | .bool b => if b then "True" else "False"
  | .int n => toString n
  | .float x => numberLayout.write x
  | .str t => Text.shown t
  | .special _ x => specialInner x
  | .list place items =>
    if place.isAmong around then "[...]"
    else "[" ++ joinWith ", " (innerItems (place :: around) items) ++ "]"
  | .group .pair place items =>
    if place.isAmong around then "(...)"
    else "(" ++ joinWith ", " (innerItems (place :: around) items) ++ ")"
  | .group .set place items =>
    if items.isEmpty then "set()"
    else "\x7b" ++ joinWith ", " (innerItems (place :: around) items) ++ "\x7d"
  | .map place entries =>
    if place.isAmong around then "\x7b...\x7d"
    else "\x7b" ++ joinWith ", " (innerEntries (place :: around) entries) ++ "\x7d"

def innerItems (around : List Place) : List Data → List String
  | [] => []
  | x :: xs => innerIn around x :: innerItems around xs

def innerEntries (around : List Place) : List (Data × Data) → List String
  | [] => []
  | (k, v) :: es => (innerIn around k ++ ": " ++ innerIn around v) :: innerEntries around es
end

def inner (d : Data) : String := innerIn [] d

def display : Data → Text
  | .str t => t
  | .special _ (.day d) => d.text
  | .special _ (.moment m) => m.text
  | d => d.inner

@[simp] theorem display_str (t : Text) : display (.str t) = t := rfl

/-- The greatest number of digits of a whole number that is read or written. -/
def digitLimit : Nat := 4300

def numberLimit : Nat := Binary64.pow10 digitLimit

mutual
/-- No whole number in a value inside containers of the places around it has too many digits to be
written. -/
def isWritableIn (around : List Place) : Data → Bool
  | .int n => n.natAbs < numberLimit
  | .list place items | .group _ place items =>
    place.isAmong around || allWritable (place :: around) items
  | .map place entries => place.isAmong around || entriesWritable (place :: around) entries
  | _ => true

def allWritable (around : List Place) : List Data → Bool
  | [] => true
  | x :: xs => isWritableIn around x && allWritable around xs

def entriesWritable (around : List Place) : List (Data × Data) → Bool
  | [] => true
  | (k, v) :: es =>
    isWritableIn around k && isWritableIn around v && entriesWritable around es
end

/-- No whole number in a value has too many digits to be written. -/
def isWritable (d : Data) : Bool := isWritableIn [] d

end RuleLowering.Data
