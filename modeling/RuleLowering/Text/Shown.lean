import RuleLowering.Text.Escaped
import RuleLowering.Text.Printable

/-!
# Shown text

A text inside a displayed value stands between quotes: single ones, unless the text holds a
single quote and no double one. A backslash and the chosen quote follow a backslash, line
ends and tabs have a letter, and unprintable characters are given by their code.
-/
namespace RuleLowering.Text

def quoteFor (s : List Char) : Char :=
  if s.contains '\x27' && !s.contains '\x22' then '\x22' else '\x27'

/-- A character by its code: two, four or eight hexadecimal digits, as few as hold it. -/
def codeOf (n : Nat) : List Char :=
  if n < 0x100 then '\x5c' :: 'x' :: hex 2 n
  else if n < 0x10000 then '\x5c' :: 'u' :: hex 4 n
  else '\x5c' :: 'U' :: hex 8 n

def showChar (quote c : Char) : List Char :=
  if c = quote ∨ c = '\x5c' then ['\x5c', c]
  else if c = '\n' then ['\x5c', 'n']
  else if c = '\r' then ['\x5c', 'r']
  else if c = '\t' then ['\x5c', 't']
  else if isPrintable c then [c]
  else codeOf c.toNat

/-- A text as it stands inside a displayed value. -/
def shown (t : Text) : String :=
  let quote := quoteFor (t.glyphs.filterMap Glyph.char?)
  String.ofList (quote :: t.write (showChar quote) (fun h => codeOf h.unit) ++ [quote])

end RuleLowering.Text
