import RuleLowering.Yaml.Number

/-!
# The values of scalars

A scalar is read by its tag: numbers, truth values under six names, timestamps, bytes, or the text
itself.
-/
namespace RuleLowering.Yaml

def boolValue (text : Text) : Except Fault Bool :=
  match text.lower with
  | .plain "yes" | .plain "true" | .plain "on" => .ok true
  | .plain "no" | .plain "false" | .plain "off" => .ok false
  | name => .error (.badTruth name)

def dayValue (year month day : Nat) : Except Fault Day :=
  if year < 1 ∨ 9999 < year then .error (.badCalendar (.year year))
  else if month < 1 ∨ 12 < month then .error (.badCalendar .month)
  else if day < 1 ∨ Day.daysIn year month < day then .error (.badCalendar .day)
  else .ok ⟨year, month, day⟩

def zoneValue : Zone → Except Fault Int
  | .universal => .ok 0
  | .shifted west hours minutes =>
    let n : Int := (hours * 60 + minutes) * 60
    let seconds := if west then -n else n
    if 86400 ≤ n then .error (.badCalendar (.offset seconds)) else .ok seconds

def momentValue (t : Timestamp) (c : Clock) : Except Fault Moment := do
  let offset ← c.zone.mapM zoneValue
  let date ← dayValue t.year t.month t.day
  if 24 ≤ c.hour then throw (.badCalendar .hour)
  if 60 ≤ c.minute then throw (.badCalendar .minute)
  if 60 ≤ c.second then throw (.badCalendar .second)
  let micro := Timestamp.number ((c.fraction ++ List.replicate 6 '0').take 6)
  return { date, hour := c.hour, minute := c.minute, second := c.second, micro, offset }

def timestampValue (text : Text) : Except Fault Special :=
  match text.string?.bind fun s => Timestamp.parse? s.toList with
  | none => .error .noTimestamp
  | some t => match t.clock with
    | none => do return .day (← dayValue t.year t.month t.day)
    | some c => do return .moment (← momentValue t c)

/-- The value of a letter that stands for six bits. -/
def sixBits? (c : Char) : Option Nat :=
  if 'A' ≤ c ∧ c ≤ 'Z' then some (c.toNat - 65)
  else if 'a' ≤ c ∧ c ≤ 'z' then some (c.toNat - 71)
  else if c.isDigit then some (c.toNat + 4)
  else if c = '+' then some 62
  else if c = '/' then some 63
  else none

/-- The bits of letters that are not part of a whole byte yet. -/
structure Bits where
  /-- The number of letters since the last group of four. -/
  letters : Nat := 0
  /-- What the bits left over from them stand for. -/
  value : Nat := 0
  /-- The number of equality signs behind the last letter, as far as they count. -/
  pads : Nat := 0

/-- Takes in a letter; the second to fourth of a group complete a byte. -/
def Bits.take (b : Bits) (six : Nat) : Option UInt8 × Bits :=
  match b.letters with
  | 0 => (none, { letters := 1, value := six })
  | 1 => (some (b.value * 4 + six / 16).toUInt8, { letters := 2, value := six % 16 })
  | 2 => (some (b.value * 16 + six / 4).toUInt8, { letters := 3, value := six % 4 })
  | _ => (some (b.value * 64 + six).toUInt8, {})

/-- The bytes of some letters. What is neither a letter nor an equality sign is passed over.
Equality signs count behind the second letter of a group; those that fill it up end the text. -/
def bytesOf (b : Bits) : List Char → Option (List UInt8)
  | [] => if b.letters = 0 then some [] else none
  | c :: rest =>
    if c = '=' then
      if b.letters < 2 then bytesOf b rest
      else if 4 ≤ b.letters + b.pads + 1 then some []
      else bytesOf { b with pads := b.pads + 1 } rest
    else match sixBits? c with
      | none => bytesOf b rest
      | some six =>
        let (byte, b) := b.take six
        (bytesOf b rest).map (byte.toList ++ ·)

/-- Bytes as a document spells them, in letters of ASCII. -/
def bytesValue (text : Text) : Except Fault (List UInt8) :=
  let s := text.glyphs
  if s.any (0x80 ≤ ·.code) then .error .yaml else
  match bytesOf {} (s.filterMap Glyph.char?) with
  | some bytes => .ok bytes
  | none => .error .yaml

/-- The value of a scalar at a place. The serial number tells it from others if it is no number. -/
def scalarValue (place : Place) (serial : Nat) (tag : Tag) (text : Text) : Except Fault Data :=
  match tag with
  | .null => .ok .null
  | .bool => do return .bool (← boolValue text)
  | .int => do return .int (← intValue text)
  | .float => do return .float (← floatValue serial text)
  | .str => .ok (.str text)
  | .timestamp => do return .special place (← timestampValue text)
  | .binary => do return .special place (.bytes (← bytesValue text))
  | _ => .error .yaml

end RuleLowering.Yaml
