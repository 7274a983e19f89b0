import RuleLowering.Text.Escaped
import RuleLowering.Yaml.Style

/-!
# A page of YAML text

The text written so far, with what the next writer has to know about its end. Lines are broken
at spaces once they are longer than eighty characters.
-/
namespace RuleLowering.Yaml

structure Page where
  text : String := ""
  /-- The number of characters in the last line. -/
  column : Nat := 0
  /-- A word can follow without a space. -/
  spaced : Bool := true
  /-- The last line holds nothing but indentation and the indicators of nested collections. -/
  lineOpen : Bool := true

namespace Page

/-- The column after which a line is broken. -/
def width : Nat := 80

def append (p : Page) (s : String) : Page :=
  { p with text := p.text ++ s, column := p.column + s.length }

def appendChars (p : Page) (s : List Char) : Page :=
  { p with text := p.text ++ String.ofList s, column := p.column + s.length }

def newline (p : Page) : Page :=
  { text := p.text.push '\n', column := 0, spaced := true, lineOpen := true }

/-- Moves to the indentation, on a new line unless the line is still open and short of it. -/
def indentTo (p : Page) (indent : Nat) : Page :=
  let p := if !p.lineOpen || indent < p.column || (p.column == indent && !p.spaced) then p.newline else p
  if p.column < indent then
    { p.appendChars (List.replicate (indent - p.column) ' ') with spaced := true }
  else p

/-- Writes an indicator, after a space if it needs one. Indicators of nested collections leave the
line open. -/
def indicator (p : Page) (s : String) (needsSpace : Bool) (spaced nested : Bool := false) : Page :=
  { p.append (if p.spaced || !needsSpace then s else " " ++ s) with
    spaced := spaced, lineOpen := p.lineOpen && nested }

/-- Starts a scalar that stands on an indented line of its own. -/
def closed (p : Page) : Page := { p with spaced := false, lineOpen := false }

end Page

/-- Runs of characters of one kind: spaces, line feeds, or others. -/
inductive Run where
  | spaces (count : Nat)
  | breaks (count : Nat)
  | word (s : List Char)
  deriving Repr

namespace Run

def cons (c : Char) (runs : List Run) : List Run :=
  if c = ' ' then match runs with
    | .spaces n :: rest => .spaces (n + 1) :: rest
    | _ => .spaces 1 :: runs
  else if c = '\n' then match runs with
    | .breaks n :: rest => .breaks (n + 1) :: rest
    | _ => .breaks 1 :: runs
  else match runs with
    | .word s :: rest => .word (c :: s) :: rest
    | _ => .word [c] :: runs

def ofChars (s : List Char) : List Run := s.foldr cons []

end Run

namespace Page

def plainRuns (p : Page) (indent : Nat) (fold : Bool) : List Run → Page
  | [] => p
  | .spaces 1 :: rest =>
    if fold && width < p.column then ((p.indentTo indent).closed).plainRuns indent fold rest
    else (p.append " ").plainRuns indent fold rest
  | .spaces n :: rest => (p.appendChars (List.replicate n ' ')).plainRuns indent fold rest
  | .breaks _ :: rest => p.plainRuns indent fold rest
  | .word s :: rest => (p.appendChars s).plainRuns indent fold rest

def plain (p : Page) (indent : Nat) (fold : Bool) (s : List Char) : Page :=
  if s.isEmpty then p else
  let p := if p.spaced then p else p.append " "
  p.closed.plainRuns indent fold (Run.ofChars s)

/-- Writes some line ends and the indentation of the next line; the first line end counts twice. -/
def breakLines (p : Page) (indent count : Nat) : Page :=
  ((List.range (count + 1)).foldl (fun p _ => p.newline) p).indentTo indent

/-- Writes the runs of a scalar in single quotes. A single space between two runs may become a line
break. -/
def singleRuns (p : Page) (indent : Nat) (fold first : Bool) : List Run → Page
  | [] => p
  | .spaces n :: rest =>
    if n = 1 && fold && width < p.column && !first && !rest.isEmpty then
      (p.indentTo indent).singleRuns indent fold false rest
    else (p.appendChars (List.replicate n ' ')).singleRuns indent fold false rest
  | .breaks n :: rest => (p.breakLines indent n).singleRuns indent fold false rest
  | .word s :: rest =>
    let quoted := s.flatMap fun c => if c = '\x27' then ['\x27', '\x27'] else [c]
    (p.appendChars quoted).singleRuns indent fold false rest

def single (p : Page) (indent : Nat) (fold : Bool) (s : List Char) : Page :=
  ((p.indicator "'" true).singleRuns indent fold true (Run.ofChars s)).indicator "'" false

def escapeLetter? (c : Char) : Option Char :=
  match c with
  | '\x00' => some '0'
  | '\x07' => some 'a'
  | '\x08' => some 'b'
  | '\x09' => some 't'
  | '\x0a' => some 'n'
  | '\x0b' => some 'v'
  | '\x0c' => some 'f'
  | '\x0d' => some 'r'
  | '\x1b' => some 'e'
  | '\x22' => some '\x22'
  | '\x5c' => some '\x5c'
  | '\u0085' => some 'N'
  | '\u00a0' => some '_'
  | '\u2028' => some 'L'
  | '\u2029' => some 'P'
  | _ => none

def escapeCode (n : Nat) : List Char :=
  let upper (width : Nat) := (Text.hex width n).map Char.toUpper
  '\x5c' :: (if n < 0x100 then 'x' :: upper 2
    else if n < 0x10000 then 'u' :: upper 4 else 'U' :: upper 8)

/-- A piece of text in double quotes: a character by itself, or an escape. -/
def escape (g : Glyph) : Char ⊕ List Char :=
  match g with
  | .half h => .inr (escapeCode h.unit)
  | .char c =>
    if ' ' ≤ c && c ≤ '~' && c != '\x22' && c != '\x5c' then .inl c
    else match escapeLetter? c with
      | some letter => .inr ['\x5c', letter]
      | none => .inr (escapeCode c.toNat)

/-- Breaks a line in double quotes: a backslash stands before the break, and one behind it if a
space follows. -/
def foldDouble (p : Page) (indent : Nat) (next : Option Glyph) : Page :=
  let p := ((p.append "\\").indentTo indent).closed
  if next = some (.char ' ') then p.append "\\" else p

/-- Writes pieces of text in double quotes. `pending` holds those that are still to be written, in
reverse; a line is broken in front of a space or behind an escape, but not next to the quotes. -/
def doubleChars (p : Page) (indent : Nat) (fold first : Bool) (pending : List Char) :
    List Glyph → Page
  | [] => p.appendChars pending.reverse
  | g :: rest =>
    let inside := fold && !first && !rest.isEmpty
    match escape g with
    | .inr escape =>
      let p := (p.appendChars pending.reverse).appendChars escape
      if inside && width + 1 < p.column then
        (p.foldDouble indent rest.head?).doubleChars indent fold false [] rest
      else p.doubleChars indent fold false [] rest
    | .inl c =>
      if inside && (c == ' ' || pending.isEmpty) && width < p.column + pending.length then
        ((p.appendChars pending.reverse).foldDouble indent (some g)).doubleChars indent fold false
          [c] rest
      else p.doubleChars indent fold false (c :: pending) rest

def double (p : Page) (indent : Nat) (fold : Bool) (s : List Glyph) : Page :=
  ((p.indicator "\"" true).doubleChars indent fold true [] s).indicator "\"" false

/-- Writes a text of whole lines as a block. -/
def block (p : Page) (indent : Nat) (s : List Char) : Page :=
  (splitAt '\n' s).dropLast.foldl (fun p line => ((p.indentTo indent).appendChars line).newline)
    (p.indicator "|" true).newline

end Page

end RuleLowering.Yaml
