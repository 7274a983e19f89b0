import RuleLowering.Proofs.Described

/-!
# Warnings told apart

A report holds warnings about single forms and about the module as a whole, and keeps no record of
which is which. Their texts tell them apart by their first and last pieces, whatever names stand
between them, and the text about a rule without a single arity ends in the list of its arities.
-/
namespace RuleLowering

namespace Text

@[simp] theorem glyphs_plain (s : String) : (plain s).glyphs = s.toList.map .char := rfl

theorem glyphs_after (s : String) (t : Text) :
    (t.after s).glyphs = s.toList.map .char ++ t.glyphs := by
  cases t <;> simp [after, glyphs]

/-- The pieces of two texts put together are those of both. -/
@[simp] theorem glyphs_append (s t : Text) : (s ++ t).glyphs = s.glyphs ++ t.glyphs := by
  change (s.append t).glyphs = _
  induction s with
  | plain s => exact glyphs_after s t
  | broken front half rest ih => simp [append, glyphs, ih]

theorem append_left_cancel {s t u : Text} (h : s ++ t = s ++ u) : t = u := by
  have hglyphs := congrArg glyphs h
  rw [glyphs_append, glyphs_append] at hglyphs
  exact glyphs_injective (List.append_cancel_left hglyphs)

end Text

/-- The row behind the last of its kind is known. -/
theorem behind_last_inj {α : Type} {x : α} {as bs cs ds : List α}
    (h : as ++ x :: bs = cs ++ x :: ds) (hbs : x ∉ bs) (hds : x ∉ ds) : bs = ds := by
  rcases List.append_eq_append_iff.mp h with ⟨es, -, hes⟩ | ⟨es, -, hes⟩
  · cases es with
    | nil => exact (List.cons.inj hes).2
    | cons e es =>
      obtain ⟨-, rfl⟩ := List.cons.inj hes
      simp at hbs
  · cases es with
    | nil => exact (List.cons.inj hes).2.symm
    | cons e es =>
      obtain ⟨-, rfl⟩ := List.cons.inj hes
      simp at hds

section Numbers

open Data (joinWith toList_joinWith_cons)

theorem isDigit_of_mem_toString {n : Nat} {c : Char} (hc : c ∈ (toString n).toList) :
    c.isDigit = true := by
  rw [Nat.toString_eq_repr, Nat.toList_repr] at hc
  exact Nat.isDigit_of_mem_toDigits (by omega) (by omega) hc

/-- Numbers are written with digits, commas and blanks. -/
theorem mem_joinWith {ns : List Nat} {c : Char}
    (hc : c ∈ (joinWith ", " (ns.map toString)).toList) : c.isDigit = true ∨ c = ',' ∨ c = ' ' := by
  induction ns with
  | nil => simp [joinWith] at hc
  | cons n ns ih =>
    cases ns with
    | nil => exact .inl (isDigit_of_mem_toString hc)
    | cons m rest =>
      rw [List.map_cons, List.map_cons, toList_joinWith_cons, List.mem_append, List.mem_cons,
        List.mem_cons, ← List.map_cons] at hc
      rcases hc with hc | rfl | rfl | hc
      · exact .inl (isDigit_of_mem_toString hc)
      · exact .inr (.inl rfl)
      · exact .inr (.inr rfl)
      · exact ih hc

/-- A single number is told from none and from several. -/
theorem length_eq_one_of_joinWith {ns ms : List Nat} (hns : ns.length = 1)
    (h : joinWith ", " (ns.map toString) = joinWith ", " (ms.map toString)) : ms.length = 1 := by
  obtain ⟨n, rfl⟩ := List.length_eq_one_iff.mp hns
  have htext : (toString n).toList = (joinWith ", " (ms.map toString)).toList :=
    congrArg String.toList h
  rcases ms with _ | ⟨m, _ | ⟨m', rest⟩⟩
  · have hnil : (toString n).toList = [] := htext
    rw [Nat.toString_eq_repr, Nat.toList_repr] at hnil
    exact absurd hnil Nat.toDigits_ne_nil
  · rfl
  · have hcomma : ',' ∈ (toString n).toList := by
      rw [htext, List.map_cons, List.map_cons, toList_joinWith_cons]
      simp
    cases isDigit_of_mem_toString hcomma

end Numbers

/-- A rule is malformed exactly if its clauses do not have one arity. -/
theorem Rule.malformed_iff_length {r : Rule} : r.Malformed ↔ (aritiesOf r.clauses).length ≠ 1 := by
  have hsingle : (aritiesOf r.clauses).length = 1 ↔ ∃ s, r.signature? = .ok s := by
    rw [List.length_eq_one_iff]
    constructor
    · rintro ⟨n, hn⟩
      obtain ⟨hne, hall⟩ := aritiesOf_eq_singleton.mp hn
      exact ⟨_, signature?_eq_ok.mpr ⟨hne, n, hall, rfl⟩⟩
    · rintro ⟨s, hs⟩
      obtain ⟨hne, n, hall, -⟩ := signature?_eq_ok.mp hs
      exact ⟨n, aritiesOf_eq_singleton.mpr ⟨hne, hall⟩⟩
  rw [malformed_iff, ← hsingle]

namespace Notice

theorem glyphs_arities (r : Rule) :
    ∃ front, (arities r).text.glyphs = front ++ .char '[' ::
      ((Data.joinWith ", " ((aritiesOf r.clauses).map toString)).toList ++ [']']).map .char := by
  have hnumbers : ∀ ns, (Fault.numbersText ns).toList =
      '[' :: ((Data.joinWith ", " (ns.map toString)).toList ++ [']']) := by
    intro ns
    simp [Fault.numbersText]
  refine ⟨Text.glyphs ("Rule " ++ r.name.display ++ " at " ++ r.pos.display
    ++ " has no single arity: "), ?_⟩
  rw [text, Text.glyphs_append, Text.glyphs_plain, hnumbers, List.map_cons]

theorem head?_arities (r : Rule) : (arities r).text.glyphs.head? = some (.char 'R') := by
  simp [text]

theorem getLast?_arities (r : Rule) : (arities r).text.glyphs.getLast? = some (.char ']') := by
  obtain ⟨front, h⟩ := glyphs_arities r
  rw [h, List.map_append, ← List.cons_append, ← List.append_assoc]
  exact List.getLast?_concat

theorem head?_parameters (m : ModuleDecl) :
    (parameters m).text.glyphs.head? = some (.char 'P') := by
  simp [text]

/-- A rule is malformed if the text about it is that about a malformed rule. -/
theorem malformed_of_text_eq {q r : Rule} (h : (arities q).text = (arities r).text)
    (hr : r.Malformed) : q.Malformed := by
  have hbracket : ∀ ns : List Nat, Glyph.char '[' ∉
      ((Data.joinWith ", " (ns.map toString)).toList ++ [']']).map Glyph.char := by
    intro ns hmem
    simp only [List.map_append, List.mem_append, List.mem_map] at hmem
    rcases hmem with ⟨c, hc, heq⟩ | hmem
    · obtain rfl := Glyph.char.inj heq
      rcases mem_joinWith hc with hc | hc | hc <;> cases hc
    · simp at hmem
  obtain ⟨front, hq⟩ := glyphs_arities q
  obtain ⟨front', hr'⟩ := glyphs_arities r
  have hrow := behind_last_inj (hq.symm.trans ((congrArg Text.glyphs h).trans hr')) (hbracket _)
    (hbracket _)
  have hnumbers := String.toList_injective
    (List.append_cancel_right (Text.map_char_injective hrow))
  rw [Rule.malformed_iff_length] at hr ⊢
  exact fun hone => hr (length_eq_one_of_joinWith hone hnumbers)

end Notice

namespace Report

/-- What is remarked on a module as a whole begins or ends otherwise than what is said of a form. -/
theorem Remark.told {o : Options} {report : Report} {w : Text} (h : Remark o report w) :
    w.glyphs.getLast? = some (.char 'd')
      ∨ w.glyphs.head? ≠ some (.char 'R') ∧ w.glyphs.head? ≠ some (.char 'P') := by
  cases h with
  | undeclared hnull => exact .inr (by simp)
  | duplicates htwice hnames => exact .inr (by simp)
  | binaryGenerators hbinary => exact .inr (by simp)
  | lowered hlowered => exact .inl (by simp)

/-- The report warns about the arities of a rule if it does so about a rule of the forms. -/
theorem Describes.arities_mem_iff {o : Options} {forms : List Form} {report : Report}
    (h : Describes o forms report) (q : Rule) :
    (Notice.arities q).text ∈ report.warnings ↔
      ∃ r, Notice.arities r ∈ notices .null forms
        ∧ (Notice.arities q).text = (Notice.arities r).text := by
  rw [h.warnings]
  constructor
  · rintro (⟨n, hn, heq⟩ | hremark)
    · cases n with
      | arities r => exact ⟨r, hn, heq⟩
      | parameters m =>
        have hhead := Notice.head?_arities q
        rw [heq, Notice.head?_parameters] at hhead
        cases hhead
    · rcases hremark.told with hlast | ⟨hhead, -⟩
      · rw [Notice.getLast?_arities] at hlast
        cases hlast
      · exact absurd (Notice.head?_arities q) hhead
  · rintro ⟨r, hr, heq⟩
    exact .inl ⟨_, hr, heq⟩

end Report

end RuleLowering
