import RuleLowering.Text.Basic

/-!
# Lines

Line ends of a stored text, and the place of a character in a text.
-/
namespace RuleLowering.Text

/-- Every line end, be it a carriage return, a line feed or both in this order, as a line feed. -/
def unifyLineEnds : List Char → List Char
  | [] => []
  | '\r' :: '\n' :: rest => '\n' :: unifyLineEnds rest
  | '\r' :: rest => '\n' :: unifyLineEnds rest
  | c :: rest => c :: unifyLineEnds rest

/-- The place of a character: its line and column, from 1, and its index, from 0. -/
structure Spot where
  line : Nat
  column : Nat
  index : Nat
  deriving DecidableEq, Repr

def Spot.after (read : List Glyph) : Spot where
  line := read.count (.char '\n') + 1
  column := (read.reverse.takeWhile (· ≠ .char '\n')).length + 1
  index := read.length

/-- The pieces of a text line by line; at least one line. -/
def glyphLines : List Glyph → List (List Glyph)
  | [] => [[]]
  | g :: rest =>
    if g = .char '\n' then [] :: glyphLines rest
    else match glyphLines rest with
      | line :: others => (g :: line) :: others
      | [] => [[g]]

/-- The lines of a text, each without its line feed. A line feed at the end opens no further line. -/
def lines (t : Text) : List Text :=
  let parts := glyphLines t.glyphs
  (if parts.getLast? = some [] then parts.dropLast else parts).map ofGlyphs

end RuleLowering.Text
