import RuleLowering.Json.Reader
import RuleLowering.Text.Escaped

/-!
# Escaped text read back

Each character of an escaped text is read back as it was: quotes and backslashes behind a backslash,
control characters by their letters, all others outside of printable ASCII by the units of UTF-16,
two of which may be one character. So the reader of a text in quotes stops behind the closing quote
with the text that was written.
-/
namespace RuleLowering

theorem Text.ofGlyphs_map_char (s : String) : Text.ofGlyphs (s.toList.map .char) = .plain s := by
  have hfront : ∀ front cs : List Char,
      Text.ofGlyphsAfter front (cs.map .char) = .plain (String.ofList (front.reverse ++ cs)) := by
    intro front cs
    induction cs generalizing front with
    | nil => simp [Text.ofGlyphsAfter]
    | cons c cs ih => simp [Text.ofGlyphsAfter, ih]
  rw [Text.ofGlyphs, hfront]
  simp

/-- The control characters with a letter of their own. -/
theorem Text.controlLetter?_cases {c letter : Char} (h : controlLetter? c = some letter) :
    c = '\n' ∧ letter = 'n' ∨ c = '\r' ∧ letter = 'r' ∨ c = '\t' ∧ letter = 't'
      ∨ c = '\x08' ∧ letter = 'b' ∨ c = '\x0c' ∧ letter = 'f' := by
  have hpair : (c, letter) ∈
      [('\n', 'n'), ('\r', 'r'), ('\t', 't'), ('\x08', 'b'), ('\x0c', 'f')] := by
    grind [controlLetter?]
  simpa using hpair

namespace Json

open Text (hex hexDigit units escapeChar escapeUnit)

theorem hexValue?_hexDigit : ∀ d < 16, hexValue? (hexDigit d) = some d := by
  decide

/-- Four digits are read back as the number that they were written for. -/
theorem hexUnit?_hex {u : Nat} (hu : u < 0x10000) :
    ∃ a b c d, hex 4 u = [a, b, c, d] ∧ hexUnit? a b c d = some u := by
  refine ⟨_, _, _, _, rfl, ?_⟩
  have hread : ∀ n, hexValue? (hexDigit (n % 16)) = some (n % 16) := fun n =>
    hexValue?_hexDigit _ (Nat.mod_lt n (by omega))
  simp only [hexUnit?, Glyph.char?, Option.bind_some, hread, Option.bind_eq_bind, Option.pure_def]
  congr 1
  omega

/-- No character stands for half of a surrogate pair. -/
theorem not_surrogate (c : Char) : c.toNat < 0xD800 ∨ 0xE000 ≤ c.toNat := by
  rcases c.valid with h | ⟨h, -⟩
  · exact .inl h
  · exact .inr (by simp only [Char.toNat]; omega)

theorem glyph_ofCode_toNat (c : Char) : Glyph.ofCode c.toNat = .char c := by
  have hunit : Half.ofUnit? c.toNat = none := by
    have hc := not_surrogate c
    rw [Half.ofUnit?, dif_neg (by omega)]
  rw [Glyph.ofCode, hunit, Char.ofNat_toNat]

theorem isHighHalf_toNat (c : Char) : isHighHalf c.toNat = false := by
  have hc := not_surrogate c
  rw [isHighHalf, Bool.and_eq_false_iff, decide_eq_false_iff_not, decide_eq_false_iff_not]
  omega

/-- The characters that belong to an escape already read are passed over. -/
theorem readText_pending (start : Nat) (acc : List Glyph) (read : Nat) (skipped rest : List Glyph) :
    readText start acc read skipped.length (skipped ++ rest) =
      readText start acc (read + skipped.length) 0 rest := by
  induction skipped generalizing read with
  | nil => rfl
  | cons g skipped ih =>
    rw [List.length_cons, List.cons_append, readText, ih]
    congr 1
    omega

/-- An escape is read, whatever comes behind it, as what it stands for. -/
theorem readText_escape {start read : Nat} {acc rest : List Glyph} {escape : List Char} {x : Glyph}
    {n : Nat} (hn : escape.length = n)
    (h : readEscape start read (escape.map .char ++ rest) = .ok (x, n)) :
    readText start acc read 0 (('\x5c' :: escape).map .char ++ rest) =
      readText start (x :: acc) (read + ('\x5c' :: escape).length) 0 rest := by
  rw [List.map_cons, List.cons_append, readText, if_neg (by decide), if_pos rfl, h]
  subst hn
  have hpending := readText_pending start (x :: acc) (read + 1) (escape.map .char) rest
  rw [List.length_map] at hpending
  dsimp only
  rw [hpending, List.length_cons]
  congr 1
  omega

/-- A unit that is no half of a surrogate pair is read as its character. -/
theorem readEscape_unit (start read : Nat) {c : Char} (hc : c.toNat < 0x10000) {rest : List Glyph}
    (hrest : rest ≠ []) :
    readEscape start read (('u' :: hex 4 c.toNat).map .char ++ rest) = .ok (.char c, 5) := by
  obtain ⟨next, rest, rfl⟩ := List.exists_cons_of_ne_nil hrest
  obtain ⟨d₁, d₂, d₃, d₄, hdigits, hunit⟩ := hexUnit?_hex hc
  rw [hdigits]
  simp only [List.map_cons, List.map_nil, List.cons_append, List.nil_append, readEscape, hunit]
  split
  · cases ‹some c.toNat = none›
  · rename_i u _ _ _ _ _ _ heq
    obtain rfl := Option.some.inj heq
    simp [isHighHalf_toNat, glyph_ofCode_toNat]
  · rename_i u heq _
    obtain rfl := Option.some.inj heq
    simp [glyph_ofCode_toNat]

theorem pairChar_units {c : Char} (hc : 0x10000 ≤ c.toNat) :
    pairChar (0xD800 + (c.toNat - 0x10000) / 0x400) (0xDC00 + (c.toNat - 0x10000) % 0x400) = c := by
  have hcode : 0x10000 + (0xD800 + (c.toNat - 0x10000) / 0x400 - 0xD800) * 0x400
      + (0xDC00 + (c.toNat - 0x10000) % 0x400 - 0xDC00) = c.toNat := by
    omega
  rw [pairChar, hcode, Char.ofNat_toNat]

/-- Two halves of a surrogate pair are read as one character. -/
theorem readEscape_pair (start read : Nat) {c : Char} (hc : 0x10000 ≤ c.toNat) {rest : List Glyph}
    (hrest : rest ≠ []) :
    readEscape start read
      (('u' :: hex 4 (0xD800 + (c.toNat - 0x10000) / 0x400)
        ++ escapeUnit (0xDC00 + (c.toNat - 0x10000) % 0x400)).map .char ++ rest) =
      .ok (.char c, 11) := by
  have hbound : c.toNat < 0x110000 := by
    rcases c.valid with h | ⟨-, h⟩
    · simp only [Char.toNat]; omega
    · exact h
  obtain ⟨next, rest, rfl⟩ := List.exists_cons_of_ne_nil hrest
  obtain ⟨d₁, d₂, d₃, d₄, hdigits, hunit⟩ :=
    hexUnit?_hex (u := 0xD800 + (c.toNat - 0x10000) / 0x400) (by omega)
  obtain ⟨e₁, e₂, e₃, e₄, hdigits', hunit'⟩ :=
    hexUnit?_hex (u := 0xDC00 + (c.toNat - 0x10000) % 0x400) (by omega)
  have hhigh : isHighHalf (0xD800 + (c.toNat - 0x10000) / 0x400) = true := by
    rw [isHighHalf, Bool.and_eq_true, decide_eq_true_eq, decide_eq_true_eq]
    omega
  have hlow : isLowHalf (0xDC00 + (c.toNat - 0x10000) % 0x400) = true := by
    rw [isLowHalf, Bool.and_eq_true, decide_eq_true_eq, decide_eq_true_eq]
    omega
  rw [escapeUnit, hdigits, hdigits']
  simp [readEscape, hunit, hunit', hhigh, hlow, pairChar_units hc]

theorem readEscape_controlLetter (start read : Nat) {c letter : Char} {rest : List Glyph}
    (h : Text.controlLetter? c = some letter) :
    readEscape start read ([letter].map .char ++ rest) = .ok (.char c, 1) := by
  rcases Text.controlLetter?_cases h with
    ⟨rfl, rfl⟩ | ⟨rfl, rfl⟩ | ⟨rfl, rfl⟩ | ⟨rfl, rfl⟩ | ⟨rfl, rfl⟩ <;> rfl

/-- A character is read back from its units. -/
theorem readText_units (start read : Nat) (acc : List Glyph) (c : Char) {rest : List Glyph}
    (hrest : rest ≠ []) :
    readText start acc read 0 (((units c).flatMap escapeUnit).map .char ++ rest) =
      readText start (.char c :: acc) (read + ((units c).flatMap escapeUnit).length) 0 rest := by
  by_cases hc : c.toNat < 0x10000
  · have hescape := readEscape_unit start read hc hrest
    rw [units, if_pos hc]
    exact readText_escape (by simp) hescape
  · have hescape := readEscape_pair start read (Nat.le_of_not_lt hc) hrest
    rw [units, if_neg hc]
    exact readText_escape (by simp [escapeUnit]) hescape

/-- A character is read back from its escaped form. -/
theorem readText_escapeChar (start read : Nat) (acc : List Glyph) (c : Char) {rest : List Glyph}
    (hrest : rest ≠ []) :
    readText start acc read 0 ((escapeChar c).map .char ++ rest) =
      readText start (.char c :: acc) (read + (escapeChar c).length) 0 rest := by
  unfold escapeChar
  split
  · rename_i hquoted
    have hescape : readEscape start read ([c].map .char ++ rest) = .ok (.char c, 1) := by
      rcases hquoted with rfl | rfl <;> rfl
    exact readText_escape rfl hescape
  · rename_i hquoted
    rw [not_or] at hquoted
    split
    · rename_i hprintable
      have hcode : ¬ (Glyph.char c).code < 0x20 := by
        have hblank : ' '.toNat ≤ c.toNat := hprintable.1
        simp only [Glyph.code]
        have : ' '.toNat = 0x20 := rfl
        omega
      simp [readText, hquoted.1, hquoted.2, hcode]
    · split
      · rename_i letter hletter
        exact readText_escape rfl (readEscape_controlLetter start read hletter)
      · exact readText_units start read acc c hrest

/-- A text is read back from its escaped form, up to the closing quote. -/
theorem readText_escape_quote (start read : Nat) (acc : List Glyph) (cs : List Char)
    (rest : List Glyph) :
    ∃ after, readText start acc read 0 ((Text.escape cs).map .char ++ .char '\x22' :: rest) =
      .ok (.ofGlyphs (acc.reverse ++ cs.map .char), ⟨rest, after⟩) := by
  induction cs generalizing acc read with
  | nil => exact ⟨read + 1, by simp [readText]⟩
  | cons c cs ih =>
    obtain ⟨after, hafter⟩ := ih (read + (escapeChar c).length) (.char c :: acc)
    refine ⟨after, ?_⟩
    rw [Text.escape_cons, List.map_append, List.append_assoc,
      readText_escapeChar start read acc c (by simp), hafter]
    simp

end Json

end RuleLowering
