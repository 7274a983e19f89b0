import RuleLowering.Binary64.Arithmetic
import RuleLowering.Json.Reader
import RuleLowering.Text.Digit
import RuleLowering.Text.Lower
import RuleLowering.Yaml.Resolve

/-!
# Numbers in a YAML text

Whole numbers in several bases and floating numbers, both also in powers of sixty, with underscores
anywhere. Digits may be those of any script, and blanks may stand around a number.
-/
namespace RuleLowering.Yaml

/-- A blank of ASCII that may stand around a number. -/
def isNumberGap (c : Char) : Bool :=
  c == ' ' || c == '\t' || c == '\n' || c == '\r' || c == '\x0b' || c == '\x0c'

def isWideGap (c : Char) : Bool :=
  (0x2000 ≤ c.toNat && c.toNat ≤ 0x200A)
    || [0x85, 0xA0, 0x1680, 0x2028, 0x2029, 0x202F, 0x205F, 0x3000].contains c.toNat

def trimGaps (s : List Char) : List Char :=
  ((s.dropWhile isNumberGap).reverse.dropWhile isNumberGap).reverse

/-- A piece of a text outside ASCII as it is read in a number: a digit of ASCII for that of another
script, a space for another blank, and a question mark for what numbers do not have. -/
def numberChar : Glyph → Char
  | .half _ => '?'
  | .char c =>
    if c.toNat < 0x7F then c
    else match Text.decimalDigit? c with
      | some d => Char.ofNat (48 + d)
      | none => if isWideGap c then ' ' else '?'

def numberChars (s : List Glyph) : List Char :=
  trimGaps (if s.all (·.code < 0x80) then s.filterMap Glyph.char? else s.map numberChar)

def digitIn? (base : Nat) (c : Char) : Option Nat :=
  match Json.hexValue? c with
  | some d => if d < base then some d else none
  | none => none

/-- The letter that may stand behind a zero in front of digits of a base. -/
def baseLetter (base : Nat) : Char :=
  if base = 2 then 'b' else if base = 8 then 'o' else 'x'

/-- The digits behind a zero and the letter of their base, if the text begins with these. -/
def withoutBase (base : Nat) (s : List Char) : List Char :=
  match s with
  | '0' :: c :: rest => if base ≠ 10 ∧ c.toLower = baseLetter base then rest else s
  | _ => s

/-- A whole number in a base, with a sign and gaps around it. -/
def wholeNumber (base : Nat) (s : List Glyph) : Except Fault Int :=
  let body := numberChars s
  let digits := withoutBase base (unsigned body)
  let count := (digits.takeWhile Char.isDigit).length
  let refused := .error (.badInteger (.ofGlyphs s) base)
  if digits.isEmpty then refused
  else if base = 10 ∧ Data.digitLimit < count then .error (.longInteger count)
  else match digits.foldlM (fun n c => (digitIn? base c).map (n * base + ·)) 0 with
    | some n => .ok (if body.head? = some '-' then -(n : Int) else n)
    | none => refused

/-- The sum of some parts, each multiplied by a power of sixty, the last one by one. -/
def inSixties (parts : List Int) : Int := parts.foldl (fun n d => n * 60 + d) 0

def withoutMarks (text : Text) : List Glyph := text.glyphs.filter (· ≠ .char '_')

def signOf : List Glyph → Bool × List Glyph
  | .char '-' :: rest => (true, rest)
  | .char '+' :: rest => (false, rest)
  | s => (false, s)

/-- A whole number without its first sign, as a document spells it. -/
def unsignedInt : List Glyph → Except Fault Int
  | [] => .error .emptyNumber
  | [.char '0'] => .ok 0
  | .char '0' :: .char 'b' :: ds => wholeNumber 2 ds
  | .char '0' :: .char 'x' :: ds => wholeNumber 16 ds
  | .char '0' :: ds => wholeNumber 8 (.char '0' :: ds)
  | s =>
    if s.contains (.char ':') then do
      return inSixties (← (splitAt (.char ':') s).mapM (wholeNumber 10))
    else wholeNumber 10 s

def intValue (text : Text) : Except Fault Int := do
  let (negative, body) := signOf (withoutMarks text)
  let n ← unsignedInt body
  return if negative then -n else n

def decimal? (negative : Bool) (s : List Char) : Option Binary64 :=
  let whole := s.takeWhile Char.isDigit
  let rest := s.drop whole.length
  let fraction := match rest with
    | '.' :: more => more.takeWhile Char.isDigit
    | _ => []
  let rest := match rest with
    | '.' :: more => more.drop fraction.length
    | _ => rest
  if whole.isEmpty && fraction.isEmpty then none else
  let number (power : Int) :=
    Binary64.ofDecimal negative (Json.digitsValue (whole ++ fraction)) (power - fraction.length)
  match rest, Json.exponentPart? (rest.map .char) with
  | [], _ => some (number 0)
  | _, some (negativePower, ds, taken) =>
    if taken = rest.length then some (number (Json.exponentValue negativePower ds)) else none
  | _, none => none

/-- A floating number with a sign and gaps around it. -/
def floatNumber (s : List Glyph) : Except Fault Binary64 :=
  let body := numberChars s
  let negative := body.head? == some '-'
  let word := String.ofList (unsigned body)
  if word = "inf" || word = "infinity" then .ok (.infinity negative)
  else if word = "nan" then .ok .nan
  else match decimal? negative (unsigned body) with
    | some x => .ok x
    | none => .error (.badFloat (.ofGlyphs s))

/-- The sum of some parts, from the last one on, each multiplied by a power of sixty; the power is a
floating number as well. -/
def floatInSixties (parts : List Binary64) : Except Fault Binary64 := do
  let (sum, _) ← parts.reverse.foldlM (fun (sum, power) part =>
    match Binary64.ofInt? power with
    | some x => .ok (sum.add (part.mul x), power * 60)
    | none => .error .hugePower) (Binary64.zero false, (1 : Int))
  return sum

/-- What the names that documents have for it stand for. Every other number that is none is the same
as itself only. -/
def namedNaN : Binary64 := .nanOf 1

/-- A floating number without its first sign, as a document spells it in lower case. -/
def unsignedFloat (serial : Nat) (s : List Glyph) : Except Fault Binary64 :=
  if s = Text.glyphs ".inf" then .ok (.infinity false)
  else if s = Text.glyphs ".nan" then .ok namedNaN
  else do
    let x ← if s.contains (.char ':') then
        floatInSixties (← (splitAt (.char ':') s).mapM floatNumber)
      else floatNumber s
    return if x.isNaN then .nanOf serial else x

/-- A floating number as a document spells it. If it is none, the serial number tells it from
others. -/
def floatValue (serial : Nat) (text : Text) : Except Fault Binary64 := do
  let s := (Text.ofGlyphs (withoutMarks text)).lower.glyphs
  if s.isEmpty then .error .emptyNumber
  let (negative, body) := signOf s
  let x ← unsignedFloat serial body
  return if negative then x.negate else x

end RuleLowering.Yaml
