import RuleLowering.Proofs.JsonText
import RuleLowering.Proofs.Printed
import RuleLowering.Proofs.Wording

/-!
# Atoms read back

A reader takes an atom off the front of a text: behind a single quote all up to the next one that no
backslash escapes, elsewhere the longest run of letters, digits, underscores and at signs. It finds
the name of each printed atom, whatever characters the name holds, but for one kind of name: a name
in lower case with a line feed at its end is printed without quotes, as if the line feed were not
there, and so the reader leaves it behind.
-/
namespace RuleLowering

/-- A name that needs no quotes: a letter in lower case, then letters, digits, underscores and at
signs. -/
def Text.IsIdentifier (t : Text) : Prop :=
  ∃ s : String, t = .plain s ∧ IsName Source.isLower s.toList

/-- Such a name with a line feed behind it. -/
def Text.IsIdentifierLine (t : Text) : Prop :=
  ∃ s : String, t = .plain (s ++ "\n") ∧ IsName Source.isLower s.toList

theorem Text.ofGlyphs_glyphs (t : Text) : ofGlyphs t.glyphs = t :=
  glyphs_injective (glyphs_ofGlyphs t.glyphs)

namespace Source

def quote : Glyph := .char '\x27'

def backslash : Glyph := .char '\x5c'

/-- A piece that a bare atom can go on with. -/
def isAtomGlyph : Glyph → Bool
  | .char c => isAtomChar c
  | .half _ => false

/-- Reads up to the first quote that is not escaped. A backslash is dropped in front of a backslash
or a quote; `escaped` tells whether one has just been passed. -/
def readQuoted (escaped : Bool) : List Glyph → Option (List Glyph × List Glyph)
  | [] => none
  | g :: rest =>
    if escaped then
      let kept := if g = backslash ∨ g = quote then [g] else [backslash, g]
      (readQuoted false rest).map fun r => (kept ++ r.1, r.2)
    else if g = quote then some ([], rest)
    else if g = backslash then readQuoted true rest
    else (readQuoted false rest).map fun r => (g :: r.1, r.2)

/-- Reads one atom from the front of a text: its name, and the text behind it. -/
def readAtom (t : Text) : Option (Text × Text) :=
  match t.glyphs with
  | .char '\x27' :: rest => (readQuoted false rest).map fun r => (.ofGlyphs r.1, .ofGlyphs r.2)
  | gs => some (.ofGlyphs (gs.takeWhile isAtomGlyph), .ofGlyphs (gs.dropWhile isAtomGlyph))

def delimiters : List Char := ['(', ')', ',', '/', ':', ' ']

def Follows (rest : Text) : Prop := ∃ c ∈ delimiters, rest.glyphs.head? = some (.char c)

section Quoted

def quoteGlyph : Glyph → List Glyph
  | .char c => (quoteChar c).map .char
  | .half h => [.half h]

theorem map_char_flatMap_quoteChar (s : List Char) :
    (s.flatMap quoteChar).map Glyph.char = (s.map .char).flatMap quoteGlyph := by
  rw [List.map_flatMap, List.flatMap_map]
  rfl

theorem glyphs_replace_quoteChar (t : Text) :
    (t.replace quoteChar).glyphs = t.glyphs.flatMap quoteGlyph := by
  induction t with
  | plain s => simp [Text.replace, map_char_flatMap_quoteChar]
  | broken front half rest ih =>
    simp [Text.replace, Text.glyphs, ih, map_char_flatMap_quoteChar, quoteGlyph]

/-- A piece is read as it was before it was quoted. -/
theorem readQuoted_quoteGlyph (g : Glyph) (rest : List Glyph) :
    readQuoted false (quoteGlyph g ++ rest) =
      (readQuoted false rest).map fun r => (g :: r.1, r.2) := by
  cases g with
  | half h => rfl
  | char c =>
    by_cases hc : c = '\x5c' ∨ c = '\x27'
    · rw [quoteGlyph, quoteChar, if_pos hc]
      rcases hc with rfl | rfl <;> rfl
    · rw [quoteGlyph, quoteChar, if_neg hc]
      obtain ⟨hbackslash, hquote⟩ := not_or.mp hc
      simp [readQuoted, quote, backslash, hbackslash, hquote]

/-- A quoted name is read back, up to the closing quote. -/
theorem readQuoted_flatMap (gs rest : List Glyph) :
    readQuoted false (gs.flatMap quoteGlyph ++ quote :: rest) = some (gs, rest) := by
  induction gs with
  | nil => rfl
  | cons g gs ih =>
    rw [List.flatMap_cons, List.append_assoc, readQuoted_quoteGlyph, ih]
    rfl

end Quoted

section Bare

theorem isBare_iff {s : List Char} : isBare s = true ↔ IsName isLower (chopLine s) := by
  rw [isBare]
  constructor
  · intro h
    cases hs : chopLine s with
    | nil => simp [hs] at h
    | cons c rest =>
      rw [hs] at h
      simp only [Bool.and_eq_true, List.all_eq_true] at h
      refine ⟨⟨c, rest, rfl, h.1⟩, List.forall_mem_cons.mpr ⟨?_, h.2⟩⟩
      simp only [isLower] at h
      simp [isAtomChar, h.1]
  · rintro ⟨⟨c, rest, hs, hc⟩, hall⟩
    rw [hs] at hall ⊢
    simp only [hc, Bool.true_and, List.all_eq_true]
    exact fun d hd => hall d (.tail c hd)

/-- No more than a line feed is left out. -/
theorem chopLine_cases (s : List Char) : s = chopLine s ∨ s = chopLine s ++ ['\n'] := by
  by_cases hlast : s.getLast? = some '\n'
  · right
    rw [chopLine, if_pos hlast, List.dropLast_append_getLast? _ hlast]
  · left
    rw [chopLine, if_neg hlast]

/-- Without quotes stand the names in lower case, and those with a line feed at their end. -/
theorem isBare_toList_iff {s : String} :
    isBare s.toList = true ↔ (Text.plain s).IsIdentifier ∨ (Text.plain s).IsIdentifierLine := by
  rw [isBare_iff]
  constructor
  · intro h
    rcases chopLine_cases s.toList with hs | hs
    · rw [← hs] at h
      exact .inl ⟨s, rfl, h⟩
    · refine .inr ⟨String.ofList (chopLine s.toList), ?_, by simpa using h⟩
      congr 1
      apply String.toList_inj.mp
      simpa using hs
  · rintro (⟨s', hs, h⟩ | ⟨s', hs, h⟩)
    · obtain rfl := Text.plain.inj hs
      rwa [h.chopLine_eq]
    · obtain rfl := Text.plain.inj hs
      simpa [chopLine] using h

end Bare

def quotedGlyphs (name : Text) : List Glyph := quote :: (name.glyphs.flatMap quoteGlyph ++ [quote])

/-- A name is printed as it is or in quotes. -/
theorem atomText_cases (name : Text) :
    (name.IsIdentifier ∨ name.IsIdentifierLine) ∧ atomText name = name
      ∨ ¬ (name.IsIdentifier ∨ name.IsIdentifierLine)
        ∧ (atomText name).glyphs = quotedGlyphs name := by
  cases name with
  | plain s =>
    cases hbare : isBare s.toList with
    | true =>
      refine .inl ⟨isBare_toList_iff.mp hbare, ?_⟩
      simp [atomText, atomChars, hbare]
    | false =>
      refine .inr ⟨fun h => ?_, ?_⟩
      · rw [isBare_toList_iff.mpr h] at hbare
        cases hbare
      · simp [atomText, atomChars, hbare, quotedGlyphs, quote, map_char_flatMap_quoteChar]
  | broken front half rest =>
    refine .inr ⟨?_, ?_⟩
    · rintro (⟨s, hs, -⟩ | ⟨s, hs, -⟩) <;> cases hs
    · simp [atomText, glyphs_replace_quoteChar, quotedGlyphs, quote]

theorem readAtom_of_quotedGlyphs {t name rest : Text} (h : t.glyphs = quotedGlyphs name) :
    readAtom (t ++ rest) = some (name, rest) := by
  have hglyphs : (t ++ rest).glyphs =
      quote :: (name.glyphs.flatMap quoteGlyph ++ quote :: rest.glyphs) := by
    simp [h, quotedGlyphs]
  have hread := readQuoted_flatMap name.glyphs rest.glyphs
  rw [readAtom, hglyphs]
  simp only [quote] at hread ⊢
  rw [hread]
  simp [Text.ofGlyphs_glyphs]

theorem head?_ne_quote {s : String} (hs : IsName isLower s.toList) (rest : List Glyph) :
    (s.toList.map Glyph.char ++ rest).head? ≠ some quote := by
  obtain ⟨c, later, hcons, hc⟩ := hs.first
  rw [hcons]
  intro hhead
  obtain rfl : c = '\x27' := Glyph.char.inj (Option.some.inj hhead)
  cases hc

/-- A name in lower case is read up to the first piece that cannot go on with it. -/
theorem readAtom_of_isName {s : String} (hs : IsName isLower s.toList) {rest : Text} {c : Char}
    (hrest : rest.glyphs.head? = some (.char c)) (hc : isAtomChar c = false) :
    readAtom (.plain s ++ rest) = some (.plain s, rest) := by
  have hall : ∀ g ∈ s.toList.map Glyph.char, isAtomGlyph g = true := by
    intro g hg
    obtain ⟨d, hd, rfl⟩ := List.mem_map.mp hg
    exact hs.all d hd
  obtain ⟨tail, htail⟩ := List.head?_eq_some_iff.mp hrest
  have hstop : isAtomGlyph (.char c) = false := hc
  have hglyphs : (Text.plain s ++ rest).glyphs = s.toList.map .char ++ rest.glyphs :=
    Text.glyphs_append _ _
  rw [readAtom, hglyphs]
  split
  · rename_i heq
    exact absurd (congrArg List.head? heq) (head?_ne_quote hs rest.glyphs)
  · rw [List.takeWhile_append_of_pos hall, List.dropWhile_append_of_pos hall, htail,
      List.takeWhile_cons_of_neg (by simp [hstop]), List.dropWhile_cons_of_neg (by simp [hstop]),
      List.append_nil, ← htail, Text.ofGlyphs_map_char, Text.ofGlyphs_glyphs]

theorem Follows.exists_head {rest : Text} (h : Follows rest) :
    ∃ c, rest.glyphs.head? = some (.char c) ∧ isAtomChar c = false := by
  obtain ⟨c, hc, hhead⟩ := h
  have hmarks : delimiters.any isAtomChar = false := rfl
  exact ⟨c, hhead, by simpa using List.any_eq_false.mp hmarks c hc⟩

/-- An atom is read back from what it is printed as, with any text behind it that can follow one,
exactly if its name is not one in lower case with a line feed at its end. Of such a name the line
feed is left. Without quotes stand the names in lower case and those with a line feed at their end,
and no others. -/
theorem readAtom_printed_iff (name rest : Text) (hrest : Follows rest) :
    atom (.str name) = .ok (atomText name)
      ∧ (readAtom (atomText name ++ rest) = some (name, rest) ↔ ¬ name.IsIdentifierLine)
      ∧ (∀ s : String, name = .plain (s ++ "\n") → IsName isLower s.toList →
        readAtom (atomText name ++ rest) = some (.plain s, .plain "\n" ++ rest))
      ∧ ((atomText name).glyphs.head? ≠ some quote ↔
        name.IsIdentifier ∨ name.IsIdentifierLine) := by
  have hline : ∀ s : String, name = .plain (s ++ "\n") → IsName isLower s.toList →
      readAtom (atomText name ++ rest) = some (.plain s, .plain "\n" ++ rest) := by
    rintro s rfl hs
    rcases atomText_cases (.plain (s ++ "\n")) with ⟨-, htext⟩ | ⟨hnot, -⟩
    · have hassoc : Text.plain (s ++ "\n") ++ rest = .plain s ++ (.plain "\n" ++ rest) := by
        apply Text.glyphs_injective
        simp
      rw [htext, hassoc]
      exact readAtom_of_isName hs (c := '\n') (by simp) (by decide)
    · exact absurd (.inr ⟨s, rfl, hs⟩) hnot
  refine ⟨rfl, ⟨?_, ?_⟩, hline, ?_⟩
  · rintro hread ⟨s, rfl, hs⟩
    have hleft := (Prod.mk.inj (Option.some.inj ((hline s rfl hs).symm.trans hread))).2
    have hlength := congrArg (fun t : Text => t.glyphs.length) hleft
    simp at hlength
  · intro hnot
    rcases atomText_cases name with ⟨hbare, htext⟩ | ⟨-, hquoted⟩
    · obtain ⟨s, rfl, hs⟩ := hbare.resolve_right hnot
      obtain ⟨c, hhead, hc⟩ := hrest.exists_head
      rw [htext]
      exact readAtom_of_isName hs hhead hc
    · exact readAtom_of_quotedGlyphs hquoted
  · rcases atomText_cases name with ⟨hbare, htext⟩ | ⟨hnot, hquoted⟩
    · refine iff_of_true ?_ hbare
      rw [htext]
      rcases hbare with ⟨s, rfl, hs⟩ | ⟨s, rfl, hs⟩
      · simpa using head?_ne_quote hs []
      · simpa using head?_ne_quote hs [.char '\n']
    · refine iff_of_false ?_ hnot
      rw [hquoted]
      simp [quotedGlyphs]

/-- A name that holds a quote and ends in a backslash is read back in front of a comma. -/
theorem quoteAndBackslash_read_back :
    let name : Text := .plain "don't\\"
    let rest : Text := .plain ", x"
    Follows rest ∧ ¬ name.IsIdentifierLine ∧ atomText name = .plain "'don\\'t\\\\'"
      ∧ readAtom (atomText name ++ rest) = some (name, rest) := by
  intro name rest
  have hrest : Follows rest := ⟨',', by decide, rfl⟩
  have hname : ¬ name.IsIdentifierLine := fun h =>
    absurd (isBare_toList_iff.mpr (.inr h)) (by decide)
  exact ⟨hrest, hname, by decide, (readAtom_printed_iff name rest hrest).2.1.mpr hname⟩

/-- A name with a line feed at its end loses it. -/
theorem lineFeed_lost :
    let name : Text := .plain "ok\n"
    let rest : Text := .plain "("
    Follows rest ∧ atom (.str name) = .ok name
      ∧ readAtom (name ++ rest) = some (.plain "ok", .plain "\n(")
      ∧ readAtom (name ++ rest) ≠ some (name, rest) := by
  refine ⟨⟨'(', by decide, rfl⟩, rfl, by decide, by decide⟩

end Source

end RuleLowering
