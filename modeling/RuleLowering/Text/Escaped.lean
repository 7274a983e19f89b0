import RuleLowering.Text.Basic

/-!
# Escaped text

A text between double quotes in printable ASCII alone. A double quote and a backslash
follow a backslash, the five common control characters have a letter of their own, and
every other character outside the printable ASCII range is written as its UTF-16 units
in four hexadecimal digits each.
-/
namespace RuleLowering.Text

def hexDigit (d : Nat) : Char :=
  if d < 10 then Char.ofNat (48 + d) else Char.ofNat (87 + d)

/-- The last `width` hexadecimal digits of a number. -/
def hex : (width : Nat) → Nat → List Char
  | 0, _ => []
  | width + 1, n => hex width (n / 16) ++ [hexDigit (n % 16)]

@[simp] theorem length_hex (width n : Nat) : (hex width n).length = width := by
  induction width generalizing n with
  | zero => rfl
  | succ width ih => simp [hex, ih]

/-- The UTF-16 units of a character: one up to U+FFFF, a surrogate pair above. -/
def units (c : Char) : List Nat :=
  if c.toNat < 0x10000 then [c.toNat]
  else [0xD800 + (c.toNat - 0x10000) / 0x400, 0xDC00 + (c.toNat - 0x10000) % 0x400]

/-- The letter that names a control character after a backslash. -/
def controlLetter? (c : Char) : Option Char :=
  if c = '\n' then some 'n'
  else if c = '\r' then some 'r'
  else if c = '\t' then some 't'
  else if c = '\x08' then some 'b'
  else if c = '\x0c' then some 'f'
  else none

def escapeUnit (u : Nat) : List Char := '\x5c' :: 'u' :: hex 4 u

def escapeChar (c : Char) : List Char :=
  if c = '\x22' ∨ c = '\x5c' then ['\x5c', c]
  else if ' ' ≤ c ∧ c ≤ '~' then [c]
  else match controlLetter? c with
    | some letter => ['\x5c', letter]
    | none => (units c).flatMap escapeUnit

def escape (s : List Char) : List Char :=
  s.flatMap escapeChar

@[simp] theorem escape_nil : escape [] = [] := rfl

@[simp] theorem escape_cons (c : Char) (s : List Char) :
    escape (c :: s) = escapeChar c ++ escape s := rfl

/-- A text in double quotes, in printable ASCII alone. -/
def escaped (t : Text) : String :=
  String.ofList ('\x22' :: t.write escapeChar (fun h => escapeUnit h.unit) ++ ['\x22'])

@[simp] theorem escaped_plain (s : String) :
    escaped (plain s) = String.ofList ('\x22' :: escape s.toList ++ ['\x22']) := rfl

end RuleLowering.Text
