import RuleLowering.Yaml.Resolve

/-!
# Scalar styles

How a scalar can be written: without quotes, in single quotes, in double quotes, or as a block.
Text outside printable ASCII is escaped in double quotes. Line breaks keep a scalar from being
written without quotes, and so does everything that a reader would take for structure.
-/
namespace RuleLowering.Yaml

def isBreak (c : Char) : Bool :=
  c == '\n' || c == '\x85' || c == '\u2028' || c == '\u2029'

/-- A blank or a line break of any kind, or the character that stands for the end of the text. -/
def isBlankOrBreak (c : Char) : Bool :=
  c == '\x00' || c == ' ' || c == '\t' || c == '\r' || isBreak c

/-- Characters that have a meaning at the front of a scalar. -/
def isLeadingIndicator (c : Char) : Bool :=
  ",[]#&*!|>%@".toList.contains c || c == '\x7b' || c == '\x7d' || c == '\x27' || c == '\x22'
    || c == '\x60'

/-- The text has structure in it for a reader of block documents: `front` holds at its front,
`before` is the character before. -/
def hasIndicator (front : Bool) (before : Char) : List Char → Bool
  | [] => false
  | c :: rest =>
    let followed := rest.head?.all isBlankOrBreak
    (if front then isLeadingIndicator c || ((c == '?' || c == ':' || c == '-') && followed)
      else (c == ':' && followed) || (c == '#' && isBlankOrBreak before))
      || hasIndicator false c rest

def hasNeighbours (p q : Char → Bool) : List Char → Bool
  | [] => false
  | [_] => false
  | a :: b :: rest => (p a && q b) || hasNeighbours p q (b :: rest)

def isSpace (c : Char) : Bool := c == ' '

/-- What can be told from the characters of a scalar. -/
structure Style.Facts where
  empty : Bool
  multiline : Bool
  /-- It can be written without quotes. -/
  plain : Bool
  /-- It can be written in single quotes. -/
  single : Bool
  /-- It can be written as a block. -/
  block : Bool
  deriving DecidableEq, Repr

def Style.facts (s : List Char) : Style.Facts :=
  if s.isEmpty then ⟨true, false, true, true, false⟩ else
  let special := s.any fun c => !(c == '\n' || (' ' ≤ c && c ≤ '~'))
  let spaceBeforeBreak := hasNeighbours isSpace isBreak s
  let spaceAfterBreak := hasNeighbours isBreak isSpace s
  let atEnds := (s.head?.toList ++ s.getLast?.toList).any fun c => isSpace c || isBreak c
  let marker := "---".toList.isPrefixOf s || "...".toList.isPrefixOf s
  let multiline := s.any isBreak
  let escaped := spaceBeforeBreak || special
  { empty := false
    multiline
    plain := !(atEnds || spaceAfterBreak || escaped || multiline || marker
      || hasIndicator true ' ' s)
    single := !(spaceAfterBreak || escaped)
    block := !(s.getLast?.any isSpace || escaped) }

inductive Style where
  | plain
  | single
  | double
  | block
  deriving DecidableEq, Repr

/-- The style for a scalar. As a key on one line it may not be empty without quotes, nor hold line
breaks in single quotes. -/
def Style.choose (tag : Tag) (text : Text) (inKey : Bool) : Style :=
  let f := Style.facts text.chars
  if tag = .binary then if !inKey && f.block then .block else .double
  else if resolvePlain text = tag && !(inKey && (f.empty || f.multiline)) && f.plain then .plain
  else if f.single && !(inKey && f.multiline) then .single
  else .double

end RuleLowering.Yaml
