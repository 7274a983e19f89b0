import RuleLowering.Yaml.Scalar

/-!
# Splitting a YAML text into tokens

Indentation opens and closes block collections. A key needs no indicator in front if it stands on
one line with its colon: whatever may turn out to be such a key is remembered, and the tokens
that announce a key are put in front of it when the colon comes. So where reading stops at a fault,
tokens from such a key on are not to be relied on.
-/
namespace RuleLowering.Yaml

/-- Something that is a key if a colon follows. -/
structure Candidate where
  /-- The number of tokens in front of it. -/
  tokens : Nat
  /-- Nothing but a key can stand here. -/
  required : Bool
  cursor : Cursor

structure Lexer where
  cursor : Cursor
  /-- The tokens read, the latest first. -/
  tokens : List Token := []
  count : Nat := 0
  /-- The column of the innermost block collection. -/
  indent : Int := -1
  /-- Those of the collections around it. -/
  outer : List Int := []
  keyAllowed : Bool := true
  /-- The number of flow collections around. -/
  level : Nat := 0
  /-- Candidates by level. -/
  candidates : List (Nat × Candidate) := []

namespace Lexer

/-- The greatest number of characters between the start of a key and its colon. -/
def keyLimit : Nat := 1024

def emit (l : Lexer) (t : Token) : Lexer :=
  { l with tokens := t :: l.tokens, count := l.count + 1 }

/-- Puts a token in front of all but the first `n`. -/
def insert (l : Lexer) (n : Nat) (t : Token) : Lexer :=
  { l with
    tokens := l.tokens.take (l.count - n) ++ t :: l.tokens.drop (l.count - n)
    count := l.count + 1 }

/-- Skips blanks, comments and line ends up to the next token. -/
def toToken : (fuel : Nat) → Lexer → Lexer
  | 0, l => l
  | fuel + 1, l =>
    let c := l.cursor.skip isSpace
    let c := if c.peek = '#' then c.skip isLineChar else c
    match c.lineBreak with
    | ([], c) => { l with cursor := c }
    | (_, c) => toToken fuel { l with cursor := c, keyAllowed := l.keyAllowed || l.level == 0 }

/-- A colon that comes now is too far from a candidate. -/
def isStale (l : Lexer) (k : Candidate) : Bool :=
  k.cursor.line ≠ l.cursor.line || keyLimit < l.cursor.index - k.cursor.index

def dropStale (l : Lexer) : Except Fault Lexer :=
  if l.candidates.any fun e => l.isStale e.2 && e.2.required then .error .yaml
  else .ok { l with candidates := l.candidates.filter fun e => !l.isStale e.2 }

/-- Drops the candidate of this level. -/
def dropCandidate (l : Lexer) : Except Fault Lexer :=
  if l.candidates.any fun e => e.1 == l.level && e.2.required then .error .yaml
  else .ok { l with candidates := l.candidates.filter (·.1 ≠ l.level) }

/-- Remembers what comes next as a candidate, where a key is allowed. -/
def saveCandidate (l : Lexer) : Except Fault Lexer :=
  if l.keyAllowed then do
    let required := l.level == 0 && l.indent == l.cursor.column
    let l ← l.dropCandidate
    return { l with candidates := (l.level, ⟨l.count, required, l.cursor⟩) :: l.candidates }
  else .ok l

/-- Closes the block collections that are indented further than the column. -/
def unwind (column : Int) : List Int → Lexer → Lexer
  | [], l => l
  | i :: outer, l =>
    if l.level = 0 ∧ column < l.indent then
      unwind column outer { (l.emit .blockEnd) with indent := i, outer }
    else l

def unwindTo (l : Lexer) (column : Int) : Lexer := unwind column l.outer l

/-- Opens a block collection at a column that is further in; says whether it did. -/
def openBlock (l : Lexer) (column : Nat) : Bool × Lexer :=
  if l.indent < column then (true, { l with indent := column, outer := l.indent :: l.outer })
  else (false, l)

def take (l : Lexer) (t : Token) (characters : Nat) : Lexer :=
  { (l.emit t) with cursor := l.cursor.advance characters }

/-- Ends all block collections in front of a directive, a mark or the end. -/
def atMargin (l : Lexer) : Except Fault Lexer := do
  let l ← (l.unwindTo (-1)).dropCandidate
  return { l with keyAllowed := false }

def name? (c : Cursor) : Except Fault (String × Cursor) :=
  let name := c.span isNameChar
  let c := c.advance name.length
  let ends := isBlankOrBreak c.peek || "?:,]%@".toList.contains c.peek || c.peek == '\x7d'
    || c.peek == '\x60'
  if name.isEmpty || !ends then .error .yaml else .ok (String.ofList name, c)

def number? (c : Cursor) : Except Fault (Nat × Cursor) :=
  let digits := c.span Char.isDigit
  if digits.isEmpty then .error .yaml
  else if Data.digitLimit < digits.length then .error (.longInteger digits.length)
  else .ok (Timestamp.number digits, c.advance digits.length)

/-- Reads a handle: an exclamation mark, alone or in front of a name and another one. -/
def handle? (c : Cursor) : Except Fault (String × Cursor) :=
  if c.peek ≠ '!' then .error .yaml
  else if c.peekAt 1 = ' ' then .ok ("!", c.next)
  else
    let name := c.next.span isNameChar
    let after := c.next.advance name.length
    if after.peek = '!' then .ok ("!" ++ String.ofList name ++ "!", after.next) else .error .yaml

/-- The bytes of a run of escapes by percent signs. -/
def escapedBytes : List Char → Option (List UInt8)
  | '%' :: a :: b :: rest => do
    let byte := (← Json.hexValue? a) * 16 + (← Json.hexValue? b)
    return byte.toUInt8 :: (← escapedBytes rest)
  | '%' :: _ => none
  | _ => some []

def tagText? : (fuel : Nat) → Cursor → Except Fault (List Char × Cursor)
  | 0, c => .ok ([], c)
  | fuel + 1, c =>
    if c.peek = '%' then
      match escapedBytes c.rest with
      | none => .error .yaml
      | some bytes => match String.fromUTF8? ⟨bytes.toArray⟩ with
        | none => .error .yaml
        | some s => do
          let (rest, c) ← tagText? fuel (c.advance (3 * bytes.length))
          return (s.toList ++ rest, c)
    else if c.rest.head?.any isTagChar then do
      let (rest, after) ← tagText? fuel c.next
      return (c.peek :: rest, after)
    else .ok ([], c)

/-- Reads the text of a tag, which may not be empty. -/
def uri? (c : Cursor) : Except Fault (String × Cursor) := do
  let (text, c) ← tagText? (c.rest.length + 1) c
  if text.isEmpty then .error .yaml else return (String.ofList text, c)

def tag? (c : Cursor) : Except Fault (Token × Cursor) := do
  let (token, c) ←
    if c.peekAt 1 = '<' then do
      let (suffix, c) ← uri? (c.advance 2)
      if c.peek = '>' then pure (Token.tag none suffix, c.next) else .error .yaml
    else if isBlankOrBreak (c.peekAt 1) then pure (.tag none "!", c.next)
    else do
      let word := c.next.span fun x => !endsWord x
      let (handle, c) ← if word.contains '!' then handle? c else pure ("!", c.next)
      let (suffix, c) ← uri? c
      pure (.tag (some handle) suffix, c)
  if endsWord c.peek then return (token, c) else .error .yaml

def directive? (c : Cursor) : Except Fault (Directive × Cursor) := do
  let name := c.span isNameChar
  let c := c.advance name.length
  if name.isEmpty || !endsWord c.peek then .error .yaml
  let (directive, c) ←
    if name = "YAML".toList then do
      let (major, c) ← number? (c.skip isSpace)
      if c.peek ≠ '.' then .error .yaml
      let (_, c) ← number? c.next
      if endsWord c.peek then pure (Directive.version major, c) else .error .yaml
    else if name = "TAG".toList then do
      let (handle, c) ← handle? (c.skip isSpace)
      if c.peek ≠ ' ' then .error .yaml
      let (stem, c) ← uri? (c.skip isSpace)
      if endsWord c.peek then pure (.tag handle stem, c) else .error .yaml
    else pure (.other, c.skip isLineChar)
  match c.restOfLine? with
  | some c => return (directive, c)
  | none => .error .yaml

/-- An entry of a block sequence, or a hyphen in a flow collection. -/
def blockEntry (l : Lexer) : Except Fault Lexer := do
  if l.level = 0 && !l.keyAllowed then .error .yaml
  let l := if l.level ≠ 0 then l else match l.openBlock l.cursor.column with
    | (true, l) => l.emit .blockSequenceStart
    | (false, l) => l
  let l ← { l with keyAllowed := true }.dropCandidate
  return l.take .blockEntry 1

def keyIndicator (l : Lexer) : Except Fault Lexer := do
  if l.level = 0 && !l.keyAllowed then .error .yaml
  let l := if l.level ≠ 0 then l else match l.openBlock l.cursor.column with
    | (true, l) => l.emit .blockMappingStart
    | (false, l) => l
  let l ← { l with keyAllowed := l.level == 0 }.dropCandidate
  return l.take .key 1

/-- A colon: what the candidate of this level starts is a key. -/
def valueIndicator (l : Lexer) : Except Fault Lexer := do
  match l.candidates.find? (·.1 == l.level) with
  | some (_, k) =>
    let l := { l with candidates := l.candidates.filter (·.1 ≠ l.level) }
    let l := l.insert k.tokens .key
    let l := if l.level ≠ 0 then l else match l.openBlock k.cursor.column with
      | (true, l) => l.insert k.tokens .blockMappingStart
      | (false, l) => l
    return { l with keyAllowed := false }.take .value 1
  | none =>
    if l.level = 0 && !l.keyAllowed then .error .yaml
    let l := if l.level ≠ 0 then l else match l.openBlock l.cursor.column with
      | (true, l) => l.emit .blockMappingStart
      | (false, l) => l
    let l ← { l with keyAllowed := l.level == 0 }.dropCandidate
    return l.take .value 1

def flowStart (l : Lexer) (t : Token) : Except Fault Lexer := do
  let l ← l.saveCandidate
  return { l with level := l.level + 1, keyAllowed := true }.take t 1

def flowEnd (l : Lexer) (t : Token) : Except Fault Lexer := do
  if l.level = 0 then .error .yaml
  let l ← l.dropCandidate
  return { l with level := l.level - 1, keyAllowed := false }.take t 1

/-- A token that may start a key and is read up to a cursor. -/
def property (l : Lexer) (read : Cursor → Except Fault (Token × Cursor)) : Except Fault Lexer := do
  let l ← l.saveCandidate
  let (token, c) ← read l.cursor
  return { (l.emit token) with cursor := c, keyAllowed := false }

def blockScalar (l : Lexer) (fold : Bool) : Except Fault Lexer := do
  let l ← { l with keyAllowed := true }.dropCandidate
  let (text, c) ← blockText fold l.indent l.cursor.next
  return { (l.emit (.scalar (String.ofList text) true)) with cursor := c }

def quotedScalar (quote : Char) (c : Cursor) : Except Fault (Token × Cursor) := do
  let (text, c) ← quotedText quote (c.rest.length + 1) [] c.next
  return (.scalar text true, c)

def plainScalar (l : Lexer) : Except Fault Lexer := do
  let l ← l.saveCandidate
  let c := l.cursor
  let (t, c) := plainText (l.level ≠ 0) (l.indent + 1) (c.rest.length + 1) [] {} c
  return { (l.emit (.scalar (String.ofList t.text.reverse) false)) with
    cursor := c, keyAllowed := t.keyFollows }

def startsPlain (l : Lexer) : Bool :=
  let c := l.cursor.peek
  let special := "-?:,[]#&*!|>%@".toList.contains c || c == '\x7b' || c == '\x7d' || c == '\x27'
    || c == '\x22' || c == '\x60'
  !(isBlankOrBreak c || special)
    || (!isBlankOrBreak (l.cursor.peekAt 1)
      && (c == '-' || (l.level == 0 && (c == '?' || c == ':'))))

/-- Reads the next token, which is not the end. -/
def nextToken (l : Lexer) : Except Fault Lexer :=
  let c := l.cursor
  let apart := isBlankOrBreak (c.peekAt 1)
  let x := c.peek
  if x = '%' ∧ c.column = 0 then do
    let l ← l.atMargin
    let (d, c) ← directive? l.cursor.next
    return { (l.emit (.directive d)) with cursor := c }
  else if c.column = 0 ∧ c.atMark "---" then do return (← l.atMargin).take .documentStart 3
  else if c.column = 0 ∧ c.atMark "..." then do return (← l.atMargin).take .documentEnd 3
  else if x = '[' then l.flowStart .flowSequenceStart
  else if x = '\x7b' then l.flowStart .flowMappingStart
  else if x = ']' then l.flowEnd .flowSequenceEnd
  else if x = '\x7d' then l.flowEnd .flowMappingEnd
  else if x = ',' then do
    let l ← { l with keyAllowed := true }.dropCandidate
    return l.take .flowEntry 1
  else if x = '-' ∧ apart then l.blockEntry
  else if x = '?' ∧ (l.level ≠ 0 ∨ apart) then l.keyIndicator
  else if x = ':' ∧ (l.level ≠ 0 ∨ apart) then l.valueIndicator
  else if x = '*' then l.property fun c => do
    let (name, c) ← name? c.next
    return (.alias name, c)
  else if x = '&' then l.property fun c => do
    let (name, c) ← name? c.next
    return (.anchor name, c)
  else if x = '!' then l.property tag?
  else if x = '|' ∧ l.level = 0 then l.blockScalar false
  else if x = '>' ∧ l.level = 0 then l.blockScalar true
  else if x = '\x27' ∨ x = '\x22' then l.property (quotedScalar x)
  else if l.startsPlain then l.plainScalar
  else .error .yaml

def step (l : Lexer) : Except Fault Lexer := do
  let l ← (toToken (l.cursor.rest.length + 1) l).dropStale
  let l := l.unwindTo l.cursor.column
  if l.cursor.rest.isEmpty then return (← l.atMargin).emit .streamEnd else l.nextToken

end Lexer

structure TokenRow where
  /-- The tokens that can be relied on. -/
  ready : List Token
  /-- The fault that stands in the place of those that follow. -/
  fault : Fault := .yaml

namespace Lexer

/-- The tokens read so far, where a fault ends reading: those in front of what may still turn out to
be a key. -/
def stopped (l : Lexer) (fault : Fault) : TokenRow :=
  let live := l.candidates.filter fun e => !l.isStale e.2
  let count := live.foldl (fun n e => min n e.2.tokens) l.count
  { ready := l.tokens.reverse.take count, fault }

def run : (fuel : Nat) → Lexer → TokenRow
  | 0, l => l.stopped .yaml
  | fuel + 1, l =>
    match l.step with
    | .error fault => l.stopped fault
    | .ok next =>
      if next.tokens.head? = some .streamEnd then { ready := next.tokens.reverse }
      else run fuel next

end Lexer

/-- The tokens of some characters. A mark for the order of bytes at their front is passed over. -/
def tokens (s : List Char) : TokenRow :=
  let start : Cursor := { rest := s }
  Lexer.run (s.length + 2) { cursor := if s.head? = some '\ufeff' then start.next else start }

end RuleLowering.Yaml
