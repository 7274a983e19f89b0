import RuleLowering.Data.Same
import RuleLowering.Fault

/-!
# Reading JSON text

The grammar of JSON with three more numbers: `NaN`, `Infinity` and `-Infinity`. A name that
occurs again takes the later value in its first place. A fault names the place where reading
stopped. Two escapes for the halves of a surrogate pair are one character; half of a pair by itself
stays half of one.
-/
namespace RuleLowering.Json

/-- The pieces of text that are still to be read, and the number of those that have been. -/
structure Input where
  rest : List Glyph
  read : Nat

namespace Input

def isBlank (g : Glyph) : Bool :=
  g == ' ' || g == '\t' || g == '\n' || g == '\r'

def skip (i : Input) (n : Nat) : Input := ⟨i.rest.drop n, i.read + n⟩

def skipBlank (i : Input) : Input := i.skip (i.rest.takeWhile isBlank).length

end Input

inductive Stop where
  | malformed (cause : Cause) (read : Nat)
  /-- A whole number has more digits than are read. -/
  | longInteger (digits : Nat)

def hexValue? (c : Char) : Option Nat :=
  if '0' ≤ c ∧ c ≤ '9' then some (c.toNat - 48)
  else if 'a' ≤ c ∧ c ≤ 'f' then some (c.toNat - 87)
  else if 'A' ≤ c ∧ c ≤ 'F' then some (c.toNat - 55)
  else none

def hexUnit? (a b c d : Glyph) : Option Nat := do
  let value (g : Glyph) : Option Nat := g.char?.bind hexValue?
  return ((← value a) * 16 + (← value b)) * 256 + (← value c) * 16 + (← value d)

def isHighHalf (u : Nat) : Bool := 0xD800 ≤ u && u < 0xDC00

def isLowHalf (u : Nat) : Bool := 0xDC00 ≤ u && u < 0xE000

def pairChar (high low : Nat) : Char :=
  Char.ofNat (0x10000 + (high - 0xD800) * 0x400 + (low - 0xDC00))

def escapeLetter? (g : Glyph) : Option Char :=
  match g with
  | .char '\x22' => some '\x22'
  | .char '\x5c' => some '\x5c'
  | .char '/' => some '/'
  | .char 'b' => some '\x08'
  | .char 'f' => some '\x0c'
  | .char 'n' => some '\n'
  | .char 'r' => some '\r'
  | .char 't' => some '\t'
  | _ => none

/-- What an escape stands for, and the number of its characters after the backslash. `read` counts
the characters before the backslash. An escape by code needs a character behind it. -/
def readEscape (start read : Nat) : List Glyph → Except Stop (Glyph × Nat)
  | [] => .error (.malformed .unterminated start)
  | .char 'u' :: a :: b :: c :: d :: next :: rest =>
    match hexUnit? a b c d, next, rest with
    | none, _, _ => .error (.malformed .badUnicodeEscape (read + 1))
    | some u, .char '\x5c', .char 'u' :: e :: f :: g :: h :: _ :: _ =>
      if isHighHalf u then
        match hexUnit? e f g h with
        | none => .error (.malformed .badUnicodeEscape (read + 7))
        | some v => .ok (if isLowHalf v then (pairChar u v, 11) else (.ofCode u, 5))
      else .ok (.ofCode u, 5)
    | some u, _, _ => .ok (.ofCode u, 5)
  | .char 'u' :: _ => .error (.malformed .badUnicodeEscape (read + 1))
  | c :: _ => match escapeLetter? c with
    | some x => .ok (x, 1)
    | none => .error (.malformed .badEscape read)

/-- Reads up to the closing quote. `start` is the place of the opening one, `pending` the number of
characters that belong to an escape already read. -/
def readText (start : Nat) (acc : List Glyph) (read pending : Nat) :
    List Glyph → Except Stop (Text × Input)
  | [] => .error (.malformed .unterminated start)
  | g :: rest =>
    match pending with
    | n + 1 => readText start acc (read + 1) n rest
    | 0 =>
      if g = .char '\x22' then .ok (.ofGlyphs acc.reverse, ⟨rest, read + 1⟩)
      else if g = .char '\x5c' then
        match readEscape start read rest with
        | .ok (x, length) => readText start (x :: acc) (read + 1) length rest
        | .error stop => .error stop
      else if g.code < 0x20 then .error (.malformed .controlCharacter read)
      else readText start (g :: acc) (read + 1) 0 rest

def leadingDigits : List Glyph → List Char
  | .char c :: rest => if c.isDigit then c :: leadingDigits rest else []
  | _ => []

def digitsValue (ds : List Char) : Nat :=
  ds.foldl (fun n c => n * 10 + (c.toNat - 48)) 0

/-- The fraction digits after a point, if at least one follows. -/
def fractionDigits (s : List Glyph) : List Char :=
  match s with
  | .char '.' :: rest => leadingDigits rest
  | _ => []

/-- The sign and digits of an exponent with the number of characters it takes. -/
def exponentPart? (s : List Glyph) : Option (Bool × List Char × Nat) :=
  let digitsOf (negative : Bool) (rest : List Glyph) (taken : Nat) :=
    let ds := leadingDigits rest
    if ds.isEmpty then none else some (negative, ds, taken + ds.length)
  match s with
  | e :: rest =>
    if e = .char 'e' ∨ e = .char 'E' then
      match rest with
      | .char '-' :: more => digitsOf true more 2
      | .char '+' :: more => digitsOf false more 2
      | more => digitsOf false more 1
    else none
  | [] => none

/-- A power of ten for an exponent, cut off where every number is zero or infinite. -/
def exponentValue (negative : Bool) (ds : List Char) : Int :=
  let significant := ds.dropWhile (· == '0')
  let n : Int := if 19 < significant.length then Binary64.pow10 19 else digitsValue significant
  if negative then -n else n

/-- Reads a number: a whole one without point and exponent, otherwise a floating one. -/
def readNumber (i : Input) : Except Stop (Data × Input) :=
  let negative := i.rest.head? == some (.char '-')
  let s := if negative then i.rest.drop 1 else i.rest
  let whole := match s with
    | .char '0' :: _ => ['0']
    | _ => leadingDigits s
  if whole.isEmpty then .error (.malformed .noValue i.read) else
  let afterWhole := s.drop whole.length
  let fraction := fractionDigits afterWhole
  let afterFraction := if fraction.isEmpty then afterWhole else afterWhole.drop (fraction.length + 1)
  let signLength := if negative then 1 else 0
  let fractionLength := if fraction.isEmpty then 0 else fraction.length + 1
  let exponent := exponentPart? afterFraction
  let taken := signLength + whole.length + fractionLength + (exponent.map (·.2.2)).getD 0
  if fraction.isEmpty && exponent.isNone then
    if Data.digitLimit < whole.length then .error (.longInteger whole.length)
    else
      let n : Int := digitsValue whole
      .ok (.int (if negative then -n else n), i.skip taken)
  else
    let power := (exponent.map fun e => exponentValue e.1 e.2.1).getD 0
    let x := Binary64.ofDecimal negative (digitsValue (whole ++ fraction)) (power - fraction.length)
    .ok (.float x, i.skip taken)

def words : List (List Glyph × Data) :=
  [("null", .null), ("true", .bool true), ("false", .bool false), ("NaN", .float .nan),
    ("Infinity", .float (.infinity false)), ("-Infinity", .float (.infinity true))].map
    fun (word, value) => (Text.glyphs (.plain word), value)

def readWord (i : Input) : Except Stop (Data × Input) :=
  match words.find? (·.1.isPrefixOf i.rest) with
  | some (word, value) => .ok (value, i.skip word.length)
  | none => readNumber i

mutual
/-- Reads a value. The fuel bounds the number of nested readings. -/
def readValue (document : Nat) : (fuel : Nat) → Input → Except Stop (Data × Input)
  | 0, i => .error (.malformed .noValue i.read)
  | fuel + 1, i =>
    match i.rest with
    | .char '\x22' :: rest => do
      let (s, i) ← readText i.read [] (i.read + 1) 0 rest
      return (.str s, i)
    | .char '[' :: _ => do
      let inside := (i.skip 1).skipBlank
      if inside.rest.head? = some (.char ']') then
        return (.list (.node document i.read) [], inside.skip 1)
      let (items, after) ← readItems document fuel inside
      return (.list (.node document i.read) items, after)
    | .char '\x7b' :: _ => do
      let inside := (i.skip 1).skipBlank
      if inside.rest.head? = some (.char '\x7d') then
        return (.map (.node document i.read) [], inside.skip 1)
      let (entries, after) ← readEntries document fuel inside []
      return (.map (.node document i.read) entries, after)
    | _ => readWord i

def readItems (document : Nat) : (fuel : Nat) → Input → Except Stop (List Data × Input)
  | 0, i => .error (.malformed .noValue i.read)
  | fuel + 1, i => do
    let (x, after) ← readValue document fuel i
    let after := after.skipBlank
    match after.rest with
    | .char ']' :: _ => return ([x], after.skip 1)
    | .char ',' :: _ => do
      let (xs, last) ← readItems document fuel (after.skip 1).skipBlank
      return (x :: xs, last)
    | _ => .error (.malformed .noComma after.read)

/-- Reads entries up to the closing brace, behind those that are there. -/
def readEntries (document : Nat) : (fuel : Nat) → Input → List (Data × Data) →
    Except Stop (List (Data × Data) × Input)
  | 0, i, _ => .error (.malformed .noValue i.read)
  | fuel + 1, i, entries =>
    match i.rest with
    | .char '\x22' :: rest => do
      let (name, after) ← readText i.read [] (i.read + 1) 0 rest
      let after := after.skipBlank
      match after.rest with
      | .char ':' :: _ => do
        let (value, after) ← readValue document fuel (after.skip 1).skipBlank
        let after := after.skipBlank
        let entries := Data.put entries (.str name) value
        match after.rest with
        | .char '\x7d' :: _ => return (entries, after.skip 1)
        | .char ',' :: _ => readEntries document fuel (after.skip 1).skipBlank entries
        | _ => .error (.malformed .noComma after.read)
      | _ => .error (.malformed .noColon after.read)
    | _ => .error (.malformed .noName i.read)
end

def Stop.fault (text : List Glyph) : Stop → Fault
  | .malformed cause read => .json cause (.after (text.take read))
  | .longInteger digits => .longInteger digits

/-- Reads a text that holds one value. Its containers get places in the numbered document. -/
def read (document : Nat) (text : Text) : Except Fault Data :=
  let s := text.glyphs
  let result : Except Stop Data := do
    if s.head? = some (.char '\ufeff') then .error (.malformed .byteOrderMark 0)
    let (x, after) ← readValue document (2 * s.length + 2) (Input.mk s 0).skipBlank
    let after := after.skipBlank
    if after.rest.isEmpty then return x else .error (.malformed .extraData after.read)
  result.mapError (Stop.fault s)

end RuleLowering.Json
