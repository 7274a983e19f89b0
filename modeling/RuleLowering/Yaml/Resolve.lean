import RuleLowering.Text.Basic
import RuleLowering.Yaml.Tag
import RuleLowering.Yaml.Timestamp

/-!
# What plain text stands for

A scalar without quotes and tag stands for a number, a truth value, a timestamp or null if it
is spelled like one, and for a text otherwise.
-/
namespace RuleLowering.Yaml

def isDigitOrGap (c : Char) : Bool := c.isDigit || c == '_'

def unsigned : List Char → List Char
  | '+' :: rest => rest
  | '-' :: rest => rest
  | s => s

def splitAt {α : Type} [DecidableEq α] (separator : α) : List α → List (List α)
  | [] => [[]]
  | c :: rest =>
    if c = separator then [] :: splitAt separator rest
    else match splitAt separator rest with
      | part :: parts => (c :: part) :: parts
      | [] => [[c]]

/-- A number below sixty, in one digit or two. -/
def isSixtieth : List Char → Bool
  | [c] => c.isDigit
  | [c, d] => '0' ≤ c && c ≤ '5' && d.isDigit
  | _ => false

/-- A digit, then digits and underscores. -/
def isDigits : List Char → Bool
  | [] => false
  | c :: rest => c.isDigit && rest.all isDigitOrGap

/-- A part for each power of sixty, two at least, separated by colons. -/
def isSixties (first : List Char → Bool) (s : List Char) : Bool :=
  match splitAt ':' s with
  | part :: parts => first part && !parts.isEmpty && parts.all isSixtieth
  | [] => false

/-- A letter `e`, a sign and digits, or nothing. -/
def isExponent : List Char → Bool
  | [] => true
  | e :: sign :: c :: rest =>
    (e == 'e' || e == 'E') && (sign == '+' || sign == '-') && c.isDigit && rest.all Char.isDigit
  | _ => false

def isBoolText (s : String) : Bool :=
  ["yes", "Yes", "YES", "no", "No", "NO", "true", "True", "TRUE", "false", "False", "FALSE",
    "on", "On", "ON", "off", "Off", "OFF"].contains s

def isNullText (s : String) : Bool :=
  ["", "~", "null", "Null", "NULL"].contains s

def isHexOrGap (c : Char) : Bool :=
  c.isDigit || 'a' ≤ c && c ≤ 'f' || 'A' ≤ c && c ≤ 'F' || c == '_'

/-- The digits of a number that does not begin with zero. -/
def isPositive : List Char → Bool
  | c :: rest => '1' ≤ c && c ≤ '9' && rest.all isDigitOrGap
  | [] => false

/-- A whole number: binary, octal, decimal, hexadecimal, or in powers of sixty. -/
def isIntText (s : List Char) : Bool :=
  let body := unsigned s
  isPositive body || isSixties isPositive body
    || match body with
      | ['0'] => true
      | '0' :: 'b' :: c :: rest => (c :: rest).all fun d => d == '0' || d == '1' || d == '_'
      | '0' :: 'x' :: c :: rest => (c :: rest).all isHexOrGap
      | '0' :: c :: rest => (c :: rest).all fun d => '0' ≤ d && d ≤ '7' || d == '_'
      | _ => false

/-- What stands before and behind the first point. -/
def atPoint? (s : List Char) : Option (List Char × List Char) :=
  match s.dropWhile (· ≠ '.') with
  | _ :: behind => some (s.takeWhile (· ≠ '.'), behind)
  | [] => none

/-- A number with a point. Only a number with digits before the point has a sign. -/
def isFloatText (s : List Char) : Bool :=
  match atPoint? (unsigned s) with
  | none => false
  | some (before, behind) =>
    let signed := (unsigned s).length ≠ s.length
    let word := String.ofList behind
    let plain := behind.dropWhile isDigitOrGap
    if before.isEmpty then
      ["inf", "Inf", "INF"].contains word
        || !signed && (["nan", "NaN", "NAN"].contains word
          || (behind.head?.any Char.isDigit && isExponent plain))
    else isDigits before && isExponent plain || isSixties isDigits before && plain.isEmpty

/-- A timestamp; a day by itself needs two digits for month and day. -/
def isTimestampText (s : List Char) : Bool :=
  match Timestamp.parse? s with
  | some t => t.clock.isSome || t.padded
  | none => false

/-- The tag of a string of characters that is no line feed by itself. -/
def resolveWord (s : List Char) : Tag :=
  let text := String.ofList s
  if isBoolText text then .bool
  else if isNullText text then .null
  else if isIntText s then .int
  else if isFloatText s then .float
  else if isTimestampText s then .timestamp
  else if text == "<<" then .merge
  else if text == "=" then .value
  else if ["!", "&", "*"].contains text then .ofName (Tag.standardStem ++ "yaml")
  else .str

/-- The tag of a scalar without quotes and tag. One line feed at its end is not looked at. -/
def resolvePlain (text : Text) : Tag :=
  match text with
  | .plain s => if s == "\n" then .str else resolveWord (Timestamp.chopLine s.toList)
  | .broken .. => .str

end RuleLowering.Yaml
