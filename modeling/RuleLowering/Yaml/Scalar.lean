import RuleLowering.Fault
import RuleLowering.Json.Reader
import RuleLowering.Yaml.Token

/-!
# Scalars in a YAML text

Reading the text of a scalar, in each of the ways in which it can be written. Line breaks inside
quotes and in text without quotes are folded: one becomes a space, of several the first is
dropped. A fold in double quotes can be escaped. Two escapes for the halves of a surrogate pair stay
two halves.
-/
namespace RuleLowering.Yaml

/-- The result of folding line ends: the first, and those that follow. -/
def folded (first others : List Char) : List Char :=
  if first ≠ ['\n'] then first ++ others
  else if others.isEmpty then [' '] else others

/-- The length of the piece of text without quotes that stands here. Inside flow collections their
indicators end it. -/
def plainLength (inFlow : Bool) : List Char → Nat
  | [] => 0
  | c :: rest =>
    let isFlow (d : Char) := d == ',' || d == '[' || d == ']' || d == '\x7b' || d == '\x7d'
    let colonEnds := match rest with
      | [] => true
      | d :: _ => isBlankOrBreak d || (inFlow && isFlow d)
    if isBlankOrBreak c || (c == ':' && colonEnds) || (inFlow && (isFlow c || c == '?')) then 0
    else plainLength inFlow rest + 1

/-- Reads empty lines up to a separator of documents, which is a stop. -/
def emptyLines : (fuel : Nat) → Cursor → Option (List Char) × Cursor
  | 0, c => (some [], c)
  | fuel + 1, c =>
    if c.peek = ' ' then emptyLines fuel c.next
    else match c.lineBreak with
      | ([], c) => (some [], c)
      | (first, c) =>
        if c.atSeparator then (none, c)
        else match emptyLines fuel c with
          | (some others, c) => (some (first ++ others), c)
          | (none, c) => (none, c)

/-- Reads what separates two pieces of text without quotes, and tells whether it has a line break.
Nothing separates where the text ends. -/
def plainGap (c : Cursor) : List Char × Cursor × Bool :=
  let spaces := c.span isSpace
  let c := c.advance spaces.length
  match c.lineBreak with
  | ([], c) => (spaces, c, false)
  | (first, c) =>
    if c.atSeparator then ([], c, true)
    else match emptyLines (c.rest.length + 1) c with
      | (none, c) => ([], c, true)
      | (some others, c) => (folded first others, c, true)

/-- A text without quotes under way: its characters in reverse, and whether a key may stand where it
ends. -/
structure PlainText where
  text : List Char := []
  keyFollows : Bool := false

/-- Reads text without quotes on lines that are indented as much as `indent`. -/
def plainText (inFlow : Bool) (indent : Int) : (fuel : Nat) → (gap : List Char) → PlainText →
    Cursor → PlainText × Cursor
  | 0, _, t, c => (t, c)
  | fuel + 1, gap, t, c =>
    let length := plainLength inFlow c.rest
    if c.peek = '#' || length = 0 then (t, c)
    else
      let piece := c.rest.take length
      let (nextGap, after, broken) := plainGap (c.advance length)
      let t := { text := piece.reverse ++ gap.reverse ++ t.text, keyFollows := broken }
      if nextGap.isEmpty || after.peek = '#' || (!inFlow && (after.column : Int) < indent) then
        (t, after)
      else plainText inFlow indent fuel nextGap t after

/-- Reads the line breaks inside quotes. A separator of documents is a fault. -/
def quotedBreaks : (fuel : Nat) → Cursor → Except Fault (List Char × Cursor)
  | 0, c => .ok ([], c)
  | fuel + 1, c =>
    if c.atSeparator then .error .yaml else
    match (c.skip isGapChar).lineBreak with
    | ([], c) => .ok ([], c)
    | (first, c) => do
      let (others, c) ← quotedBreaks fuel c
      return (first ++ others, c)

def quotedGap (c : Cursor) : Except Fault (List Char × Cursor) :=
  let blanks := c.span isGapChar
  let c := c.advance blanks.length
  if c.rest.isEmpty then .error .yaml else
  match c.lineBreak with
  | ([], c) => .ok (blanks, c)
  | (first, c) => do
    let (others, c) ← quotedBreaks (c.rest.length + 1) c
    return (folded first others, c)

def unescape? (c : Char) : Option Char :=
  match c with
  | '0' => some '\x00'
  | 'a' => some '\x07'
  | 'b' => some '\x08'
  | 't' | '\t' => some '\t'
  | 'n' => some '\n'
  | 'v' => some '\x0b'
  | 'f' => some '\x0c'
  | 'r' => some '\r'
  | 'e' => some '\x1b'
  | ' ' | '\x22' | '\x5c' | '/' => some c
  | 'N' => some '\u0085'
  | '_' => some '\u00a0'
  | 'L' => some '\u2028'
  | 'P' => some '\u2029'
  | _ => none

def codeLength? (c : Char) : Option Nat :=
  match c with
  | 'x' => some 2
  | 'u' => some 4
  | 'U' => some 8
  | _ => none

def hexNumber? (ds : List Char) : Option Nat :=
  ds.foldlM (fun n c => (Json.hexValue? c).map (n * 16 + ·)) 0

/-- What the code of an escape stands for: a character, or half of a surrogate pair. -/
def codeGlyph (n : Nat) : Except Fault Glyph :=
  if n < 0x110000 then .ok (.ofCode n)
  else if n < 0x80000000 then .error .badCharacterCode
  else .error .hugeCharacterCode

def escaped (c : Cursor) : Except Fault (List Glyph × Cursor) :=
  match unescape? c.peek, codeLength? c.peek with
  | some x, _ => .ok ([.char x], c.next)
  | none, some length =>
    let digits := c.next.rest.take length
    match if digits.length = length then hexNumber? digits else none with
    | none => .error .yaml
    | some n => do return ([← codeGlyph n], c.next.advance length)
  | none, none => match c.lineBreak with
    | ([], _) => .error .yaml
    | (_, c) => do
      let (breaks, c) ← quotedBreaks (c.rest.length + 1) c
      return (breaks.map .char, c)

def quotedText (quote : Char) : (fuel : Nat) → (acc : List Glyph) → Cursor →
    Except Fault (Text × Cursor)
  | 0, _, _ => .error .yaml
  | fuel + 1, acc, c =>
    let double := quote == '\x22'
    match c.rest with
    | [] => .error .yaml
    | x :: rest =>
      if x = quote then
        if !double && rest.head? = some quote then quotedText quote fuel (quote :: acc) (c.advance 2)
        else .ok (.ofGlyphs acc.reverse, c.next)
      else if double && x = '\x5c' then do
        let (piece, c) ← escaped c.next
        quotedText quote fuel (piece.reverse ++ acc) c
      else if isGapChar x || x = '\r' || isBreak x then do
        let (gap, c) ← quotedGap c
        quotedText quote fuel (gap.reverse.map .char ++ acc) c
      else quotedText quote fuel (x :: acc) c.next

/-- What becomes of the line ends behind a block: kept, dropped, or all but the last dropped. -/
inductive Chomping where
  | keep
  | strip
  | clip
  deriving DecidableEq, Repr

def chomping? (c : Char) : Option Chomping :=
  if c = '+' then some .keep else if c = '-' then some .strip else none

/-- Reads the header of a block: chomping and indentation, in either order. -/
def blockHeader (c : Cursor) : Except Fault (Chomping × Option Nat × Cursor) := do
  let digit (c : Cursor) : Except Fault (Option Nat × Cursor) :=
    if c.peek = '0' then .error .yaml
    else if c.peek.isDigit then .ok (some (c.peek.toNat - 48), c.next)
    else .ok (none, c)
  let (chomping, increment, c) ← match chomping? c.peek with
    | some chomping => do
      let (increment, c) ← digit c.next
      pure (chomping, increment, c)
    | none => do
      let (increment, c) ← digit c
      match increment, chomping? c.peek with
      | some n, some chomping => pure (chomping, some n, c.next)
      | _, _ => pure (.clip, increment, c)
  if endsWord c.peek then
    match c.restOfLine? with
    | some c => return (chomping, increment, c)
    | none => .error .yaml
  else .error .yaml

/-- Reads the empty lines in front of a block whose indentation is not given, and finds the widest
indentation among them. -/
def blockLead : (fuel : Nat) → (widest : Nat) → Cursor → List Char × Nat × Cursor
  | 0, widest, c => ([], widest, c)
  | fuel + 1, widest, c =>
    if c.peek = ' ' then blockLead fuel (max widest c.next.column) c.next
    else match c.lineBreak with
      | ([], c) => ([], widest, c)
      | (first, c) =>
        let (others, widest, c) := blockLead fuel widest c
        (first ++ others, widest, c)

def toColumn (indent : Nat) : (fuel : Nat) → Cursor → Cursor
  | 0, c => c
  | fuel + 1, c => if c.column < indent && c.peek = ' ' then toColumn indent fuel c.next else c

def blockBreaks (indent : Nat) : (fuel : Nat) → Cursor → List Char × Cursor
  | 0, c => ([], c)
  | fuel + 1, c =>
    match (toColumn indent indent c).lineBreak with
    | ([], c) => ([], c)
    | (first, c) =>
      let (others, c) := blockBreaks indent fuel c
      (first ++ others, c)

/-- Reads the lines of a block. `breaks` are the empty lines in front; the result is the text in
reverse, the last line end and the empty lines behind. -/
def blockLines (fold : Bool) (indent : Nat) : (fuel : Nat) → (acc breaks : List Char) → Cursor →
    List Char × List Char × List Char × Cursor
  | 0, acc, breaks, c => (acc, [], breaks, c)
  | fuel + 1, acc, breaks, c =>
    let indented := isGapChar c.peek
    let line := c.span isLineChar
    let (ending, c) := (c.advance line.length).lineBreak
    let (others, c) := blockBreaks indent (c.rest.length + 1) c
    let acc := line.reverse ++ breaks.reverse ++ acc
    if c.column = indent && !c.rest.isEmpty then
      let joint :=
        if fold && ending == ['\n'] && !indented && !isGapChar c.peek then
          if others.isEmpty then [' '] else []
        else ending
      blockLines fold indent fuel (joint.reverse ++ acc) others c
    else (acc, ending, others, c)

def blockText (fold : Bool) (parent : Int) (c : Cursor) : Except Fault (List Char × Cursor) := do
  let (chomping, increment, c) ← blockHeader c
  let least := (max (parent + 1) 1).toNat
  let (breaks, indent, c) := match increment with
    | none =>
      let (breaks, widest, c) := blockLead (c.rest.length + 1) 0 c
      (breaks, max least widest, c)
    | some n =>
      let indent := least + n - 1
      let (breaks, c) := blockBreaks indent (c.rest.length + 1) c
      (breaks, indent, c)
  let (acc, ending, breaks, c) :=
    if c.column = indent && !c.rest.isEmpty then
      blockLines fold indent (c.rest.length + 1) [] breaks c
    else ([], [], breaks, c)
  let tail := match chomping with
    | .keep => ending ++ breaks
    | .clip => ending
    | .strip => []
  return (acc.reverse ++ tail, c)

end RuleLowering.Yaml
