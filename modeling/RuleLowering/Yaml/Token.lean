import RuleLowering.Yaml.Style

/-!
# YAML tokens

What a YAML text is made of: indicators, the starts and ends of block collections that follow
from indentation, properties of nodes, and scalars.
-/
namespace RuleLowering.Yaml

/-- A line in front of a document that tells how to read it. -/
inductive Directive where
  | version (major : Nat)
  /-- Tags that begin with the handle begin with the stem instead. -/
  | tag (handle stem : String)
  | other
  deriving DecidableEq, Repr

inductive Token where
  | directive (d : Directive)
  | documentStart
  | documentEnd
  | blockSequenceStart
  | blockMappingStart
  | blockEnd
  | flowSequenceStart
  | flowSequenceEnd
  | flowMappingStart
  | flowMappingEnd
  | blockEntry
  | flowEntry
  | key
  | value
  | alias (name : String)
  | anchor (name : String)
  /-- A tag: a handle and what follows it, or a full name. -/
  | tag (handle : Option String) (suffix : String)
  | scalar (text : Text) (quoted : Bool)
  | streamEnd
  deriving DecidableEq, Repr

/-- A place in a text. The character that ends the text is not part of it. -/
structure Cursor where
  rest : List Char
  index : Nat := 0
  line : Nat := 0
  column : Nat := 0

namespace Cursor

/-- The next character, U+0000 at the end. -/
def peek (c : Cursor) : Char := c.rest.head?.getD '\x00'

def peekAt (c : Cursor) (n : Nat) : Char := (c.rest[n]?).getD '\x00'

def next (c : Cursor) : Cursor :=
  match c.rest with
  | [] => c
  | x :: rest =>
    if isBreak x || (x == '\r' && rest.head? ≠ some '\n') then ⟨rest, c.index + 1, c.line + 1, 0⟩
    else ⟨rest, c.index + 1, c.line, if x = '\ufeff' then c.column else c.column + 1⟩

def advance (c : Cursor) : Nat → Cursor
  | 0 => c
  | n + 1 => c.next.advance n

def span (c : Cursor) (test : Char → Bool) : List Char := c.rest.takeWhile test

def skip (c : Cursor) (test : Char → Bool) : Cursor := c.advance (c.span test).length

end Cursor

/-- A character at which a line ends, or the end of the text. -/
def endsLine (c : Char) : Bool := c == '\x00' || c == '\r' || isBreak c

def endsWord (c : Char) : Bool := c == ' ' || endsLine c

def isLineChar (c : Char) : Bool := !endsLine c

def isGapChar (c : Char) : Bool := c == ' ' || c == '\t'

/-- A character of the name of an anchor or a handle. -/
def isNameChar (c : Char) : Bool :=
  c.isDigit || 'a' ≤ c && c ≤ 'z' || 'A' ≤ c && c ≤ 'Z' || c == '-' || c == '_'

/-- A character of a tag other than the percent sign. -/
def isTagChar (c : Char) : Bool :=
  isNameChar c || ";/?:@&=+$,.!~*()[]".toList.contains c || c == '\x27'

def isAllowed (c : Char) : Bool :=
  c == '\t' || c == '\n' || c == '\r' || c == '\x85' || (' ' ≤ c && c ≤ '~')
    || (0xA0 ≤ c.toNat && c.toNat ≤ 0xFFFD) || 0x10000 ≤ c.toNat

namespace Cursor

/-- Reads a line end, if there is one: a line feed for the usual ones. -/
def lineBreak (c : Cursor) : List Char × Cursor :=
  match c.rest with
  | '\r' :: '\n' :: _ => (['\n'], c.advance 2)
  | '\r' :: _ | '\n' :: _ | '\u0085' :: _ => (['\n'], c.next)
  | '\u2028' :: _ => (['\u2028'], c.next)
  | '\u2029' :: _ => (['\u2029'], c.next)
  | _ => ([], c)

/-- The given mark of three characters stands here by itself. -/
def atMark (c : Cursor) (mark : String) : Bool :=
  mark.toList.isPrefixOf c.rest && isBlankOrBreak (c.peekAt 3)

def atSeparator (c : Cursor) : Bool := c.atMark "---" || c.atMark "..."

/-- Skips spaces, a comment and the line end; anything else is a fault. -/
def restOfLine? (c : Cursor) : Option Cursor :=
  let c := c.skip isSpace
  let c := if c.peek = '#' then c.skip isLineChar else c
  if endsLine c.peek then some c.lineBreak.2 else none

end Cursor

end RuleLowering.Yaml
