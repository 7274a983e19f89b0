/-!
# Texts

A text is a row of characters. The escapes of a document can also name half of a surrogate pair by
itself, which is no character; a text keeps such halves where they stand. Two texts with the same
glyphs are equal, since a text has one form only: strings with the halves between them.
-/
namespace RuleLowering

/-- Half of a surrogate pair, by its distance from the first one. -/
structure Half where
  offset : Fin 2048
  deriving DecidableEq, Repr

namespace Half

def unit (h : Half) : Nat := 0xD800 + h.offset.val

def ofUnit? (u : Nat) : Option Half :=
  if h : 0xD800 ≤ u ∧ u < 0xE000 then some ⟨⟨u - 0xD800, by omega⟩⟩ else none

end Half

/-- A piece of a text. -/
inductive Glyph where
  | char (c : Char)
  | half (h : Half)
  deriving DecidableEq, Repr

namespace Glyph

instance : Coe Char Glyph := ⟨char⟩

def code : Glyph → Nat
  | char c => c.toNat
  | half h => h.unit

def char? : Glyph → Option Char
  | char c => some c
  | half _ => none

def ofCode (n : Nat) : Glyph :=
  match Half.ofUnit? n with
  | some h => half h
  | none => char (Char.ofNat n)

end Glyph

/-- A text: a string, or strings with halves between them. -/
inductive Text where
  | plain (s : String)
  | broken (front : String) (half : Half) (rest : Text)
  deriving DecidableEq, Repr

namespace Text

instance : Inhabited Text := ⟨plain ""⟩

instance : Coe String Text := ⟨plain⟩

def after (s : String) : Text → Text
  | plain t => plain (s ++ t)
  | broken front half rest => broken (s ++ front) half rest

def append : Text → Text → Text
  | plain s, t => t.after s
  | broken front half rest, t => broken front half (rest.append t)

instance : Append Text := ⟨append⟩

@[simp] theorem plain_append_plain (s t : String) : plain s ++ plain t = plain (s ++ t) := rfl

def string? : Text → Option String
  | plain s => some s
  | broken .. => none

@[simp] theorem string?_plain (s : String) : (plain s).string? = some s := rfl

def isEmpty : Text → Bool
  | plain s => s.isEmpty
  | broken .. => false

def glyphs : Text → List Glyph
  | plain s => s.toList.map .char
  | broken front half rest => front.toList.map .char ++ .half half :: rest.glyphs

/-- The characters of a text, with U+FFFD in the place of halves. -/
def chars (t : Text) : List Char := t.glyphs.map fun g => g.char?.getD '\ufffd'

/-- The text of some glyphs behind some characters, which are given in reverse. -/
def ofGlyphsAfter (front : List Char) : List Glyph → Text
  | [] => plain (String.ofList front.reverse)
  | .char c :: rest => ofGlyphsAfter (c :: front) rest
  | .half h :: rest => broken (String.ofList front.reverse) h (ofGlyphsAfter [] rest)

def ofGlyphs (gs : List Glyph) : Text := ofGlyphsAfter [] gs

theorem glyphs_ofGlyphsAfter (front : List Char) (gs : List Glyph) :
    (ofGlyphsAfter front gs).glyphs = front.reverse.map .char ++ gs := by
  induction gs generalizing front with
  | nil => simp [ofGlyphsAfter, glyphs]
  | cons g gs ih =>
    cases g with
    | char c => simp [ofGlyphsAfter, ih]
    | half h => simp [ofGlyphsAfter, glyphs, ih]

@[simp] theorem glyphs_ofGlyphs (gs : List Glyph) : (ofGlyphs gs).glyphs = gs := by
  simp [ofGlyphs, glyphs_ofGlyphsAfter]

def length (t : Text) : Nat := t.glyphs.length

def write (char : Char → List Char) (half : Half → List Char) : Text → List Char
  | plain s => s.toList.flatMap char
  | broken front h rest => front.toList.flatMap char ++ half h ++ write char half rest

/-- A text with each character replaced by some; the halves stay. -/
def replace (char : Char → List Char) : Text → Text
  | plain s => plain (String.ofList (s.toList.flatMap char))
  | broken front h rest =>
    broken (String.ofList (front.toList.flatMap char)) h (replace char rest)

def join (separator : String) : List Text → Text
  | [] => ""
  | [t] => t
  | t :: rest => t ++ separator ++ join separator rest

end Text

end RuleLowering
