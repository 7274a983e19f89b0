import RuleLowering.Data.Order

/-!
# Texts by their code points

A text is its code points, halves of surrogate pairs included, and texts are ordered as their
code points are. Different texts are therefore never tied.
-/
namespace RuleLowering

theorem Glyph.code_injective {g h : Glyph} (heq : g.code = h.code) : g = h := by
  have hapart : ∀ (c : Char) (k : Half), c.toNat ≠ k.unit := by
    intro c k hck
    have hvalid : c.toNat < 0xD800 ∨ 0xDFFF < c.toNat ∧ c.toNat < 0x110000 := c.valid
    have hoffset := k.offset.isLt
    simp only [Half.unit] at hck
    omega
  cases g with
  | char c =>
    cases h with
    | char d => exact congrArg Glyph.char (Char.toNat_inj.mp heq)
    | half k => exact absurd heq (hapart c k)
  | half j =>
    cases h with
    | char d => exact absurd heq.symm (hapart d j)
    | half k =>
      have hoffset : j.offset.val = k.offset.val := by
        simp only [Glyph.code, Half.unit] at heq
        omega
      cases j
      cases k
      exact congrArg (fun offset => Glyph.half ⟨offset⟩) (Fin.ext hoffset)

namespace Text

/-- The first half divides a row of glyphs in one way only. -/
theorem chars_half_inj {cs ds : List Char} {j k : Half} {gs hs : List Glyph}
    (h : cs.map Glyph.char ++ .half j :: gs = ds.map Glyph.char ++ .half k :: hs) :
    cs = ds ∧ j = k ∧ gs = hs := by
  induction cs generalizing ds with
  | nil =>
    cases ds with
    | nil => simpa using h
    | cons d ds => simp at h
  | cons c cs ih =>
    cases ds with
    | nil => simp at h
    | cons d ds =>
      obtain ⟨hc, hrest⟩ := List.cons.inj h
      obtain ⟨rfl, hjk, hgs⟩ := ih hrest
      exact ⟨congrArg (· :: cs) (Glyph.char.inj hc), hjk, hgs⟩

theorem map_char_injective {cs ds : List Char} (h : cs.map Glyph.char = ds.map Glyph.char) :
    cs = ds :=
  (List.map_inj_right fun _ _ => Glyph.char.inj).mp h

theorem glyphs_injective {s t : Text} (h : s.glyphs = t.glyphs) : s = t := by
  induction s generalizing t with
  | plain s =>
    cases t with
    | plain t => exact congrArg Text.plain (String.toList_injective (map_char_injective h))
    | broken front k rest =>
      have hmem : Glyph.half k ∈ s.toList.map Glyph.char := by
        rw [show s.toList.map Glyph.char = _ from h]
        simp [glyphs]
      simp at hmem
  | broken front j rest ih =>
    cases t with
    | plain t =>
      have hmem : Glyph.half j ∈ t.toList.map Glyph.char := by
        rw [show t.toList.map Glyph.char = _ from h.symm]
        simp [glyphs]
      simp at hmem
    | broken front' k rest' =>
      obtain ⟨hfront, rfl, hrest⟩ := chars_half_inj h
      rw [String.toList_injective hfront, ih hrest]

def codes (t : Text) : List Nat := t.glyphs.map Glyph.code

theorem codes_injective {s t : Text} (h : s.codes = t.codes) : s = t :=
  glyphs_injective ((List.map_inj_right fun _ _ => Glyph.code_injective).mp h)

/-- Of two texts one stands before the other, or they are equal. -/
theorem codes_trichotomy (s t : Text) : s.codes < t.codes ∨ s = t ∨ t.codes < s.codes := by
  rcases List.le_total s.codes t.codes with hle | hle
  · rcases List.le_iff_lt_or_eq.mp hle with hlt | heq
    · exact .inl hlt
    · exact .inr (.inl (codes_injective heq))
  · rcases List.le_iff_lt_or_eq.mp hle with hlt | heq
    · exact .inr (.inr hlt)
    · exact .inr (.inl (codes_injective heq.symm))

end Text

namespace Data

theorem lessList_iff {as bs : List Nat} : lessList as bs = true ↔ as < bs := by
  induction as generalizing bs with
  | nil => cases bs <;> simp [lessList]
  | cons a as ih =>
    cases bs with
    | nil => simp [lessList]
    | cons b bs =>
      rw [lessList, List.cons_lt_cons_iff]
      split
      · rename_i heq
        simp [heq, ih]
      · rename_i hne
        simp [hne]

theorem chars_lt_iff {cs ds : List Char} :
    cs < ds ↔ cs.map Char.toNat < ds.map Char.toNat := by
  induction cs generalizing ds with
  | nil => cases ds <;> simp
  | cons c cs ih =>
    cases ds with
    | nil => simp
    | cons d ds =>
      have hlt : c < d ↔ c.toNat < d.toNat := UInt32.lt_iff_toNat_lt
      rw [List.map_cons, List.map_cons, List.cons_lt_cons_iff, List.cons_lt_cons_iff, ih, hlt,
        Char.toNat_inj]

/-- Texts are ordered as their code points. -/
theorem lessText_iff {s t : Text} : lessText s t = true ↔ s.codes < t.codes := by
  have hcodes : ∀ s : String, (Text.plain s).codes = s.toList.map Char.toNat := by
    intro s
    simp only [Text.codes, Text.glyphs, List.map_map]
    rfl
  cases s with
  | plain s =>
    cases t with
    | plain t =>
      rw [hcodes, hcodes, ← chars_lt_iff]
      exact decide_eq_true_iff
    | broken front k rest => exact lessList_iff
  | broken front j rest => cases t <;> exact lessList_iff

end Data

end RuleLowering
