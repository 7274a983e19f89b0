import RuleLowering.Proofs.Parameters

/-!
# The forms up to the declaration

A scan passes the file marks and markers at the front of a module. The first form of another kind
settles everything: if it is the declaration it belongs to the leading forms, names the module, and
is marked if it has parameters; if not, or if there is no such form, the scan stops in front of it
and a fresh name is asked for, once.
-/
namespace RuleLowering

open ModuleScan (scan)

def Form.fileMark? : Form → Option FileMark
  | .file f => some f
  | _ => none

/-- The index of the first form that may not lead, or the number of forms if all of them may. -/
def leadingEnd (forms : List Form) : Nat := forms.findIdx (!·.mayLead)

/-- The last file mark among some forms, or the given one. -/
def lastMark (mark : FileMark) (forms : List Form) : FileMark :=
  (forms.filterMap Form.fileMark?).getLast?.getD mark

section Ends

variable {f : Form} {forms : List Form}

theorem leadingEnd_cons_of_mayLead (h : f.mayLead = true) :
    leadingEnd (f :: forms) = leadingEnd forms + 1 := by
  simp [leadingEnd, List.findIdx_cons, h]

theorem leadingEnd_cons_of_not_mayLead (h : f.mayLead = false) : leadingEnd (f :: forms) = 0 := by
  simp [leadingEnd, List.findIdx_cons, h]

theorem lastMark_cons_file (mark m : FileMark) :
    lastMark mark (.file m :: forms) = lastMark m forms := by
  simp [lastMark, Form.fileMark?, List.getLast?_cons]

/-- Forms that do not begin with a mark or a marker end the leading ones at once. -/
theorem leadingEnd_eq_zero (h : ∀ f ∈ forms.head?, f.mayLead = false) : leadingEnd forms = 0 := by
  cases forms with
  | nil => rfl
  | cons f rest => exact leadingEnd_cons_of_not_mayLead (h f rfl)

end Ends

namespace ModuleScan

variable {mark : FileMark} {forms : List Form}

/-- A scan finds the form at the end of the leading ones, if that is a declaration. -/
theorem declaration_eq_some_iff {d : ModuleDecl} :
    (ofForms mark forms).declaration = some d ↔ forms[leadingEnd forms]? = some (.module d) := by
  rw [declaration_iff_find?, List.find?_eq_getElem?_findIdx, leadingEnd]

/-- The leading forms end behind the declaration, or where one would stand. -/
theorem leading_eq_take :
    (ofForms mark forms).leading =
      forms.take (leadingEnd forms + (ofForms mark forms).declaration.toList.length) := by
  fun_induction ofForms mark forms with
  | case1 mark f rest ih =>
    rw [leadingEnd_cons_of_mayLead rfl, Nat.add_right_comm, List.take_succ_cons, after_leading, ih]
    rfl
  | case2 mark m rest ih =>
    rw [leadingEnd_cons_of_mayLead rfl, Nat.add_right_comm, List.take_succ_cons, after_leading, ih]
    rfl
  | case3 mark m rest =>
    rw [leadingEnd_cons_of_not_mayLead rfl]
    rfl
  | case4 mark rest hfile hmarker _ =>
    rw [leadingEnd_eq_zero (Form.mayLead_eq_false hfile hmarker)]
    rfl

/-- The mark that a scan ends with is the last one among the leading forms. -/
theorem mark_eq_lastMark :
    (ofForms mark forms).mark = lastMark mark (ofForms mark forms).leading := by
  fun_induction ofForms mark forms with
  | case1 mark f rest ih => exact ih.trans (lastMark_cons_file mark f).symm
  | case2 mark m rest ih => exact ih
  | case3 mark m rest => rfl
  | case4 mark rest _ _ _ => rfl

end ModuleScan

/-- A scan divides a module behind its leading forms. If the first form that is neither a file mark
nor a marker is a declaration, the leading forms end with it, it names the module without a fresh
name being asked for, and it is marked exactly if it has parameters. If it is another form, or there
is none, the leading forms end in front of it, a fresh name is asked for once, and nothing is
marked. The mark in effect is the last one among the leading forms, and these are file marks,
markers and the declaration. -/
theorem leading_forms_found {m : Type → Type} [Monad m] (fresh : m Text) (origin : Text)
    (forms : List Form) :
    let s := scan forms
    let i := leadingEnd forms
    s.leading ++ s.rest = forms
      ∧ (∀ d : ModuleDecl, forms[i]? = some (.module d) →
        s.leading = forms.take (i + 1) ∧ s.nameFrom fresh = pure d.name
          ∧ s.markers origin = if d.parameters.isSome
            then [⟨.str origin, .violation .parameterizedModule, d.pos⟩] else [])
      ∧ ((∀ d : ModuleDecl, forms[i]? ≠ some (.module d)) →
        s.leading = forms.take i ∧ s.nameFrom fresh = (do return .str (← fresh))
          ∧ s.markers origin = [])
      ∧ s.mark = lastMark .standard s.leading
      ∧ ∀ f ∈ s.leading,
        (∃ mark, f = .file mark) ∨ (∃ marker, f = .marker marker) ∨ ∃ d, f = .module d := by
  intro s i
  refine ⟨ModuleScan.leading_append_rest .standard forms, ?declared, ?undeclared,
    ModuleScan.mark_eq_lastMark, fun f => ModuleScan.cases_of_mem_leading⟩
  case declared =>
    intro d hd
    have hdeclared : s.declaration = some d := ModuleScan.declaration_eq_some_iff.mpr hd
    have hleading : s.leading = forms.take (i + s.declaration.toList.length) :=
      ModuleScan.leading_eq_take
    rw [hdeclared] at hleading
    refine ⟨hleading, ?_, ?_⟩
    · rw [ModuleScan.nameFrom, hdeclared]
    · rw [ModuleScan.markers, hdeclared]
  case undeclared =>
    intro hnone
    have hdeclared : s.declaration = none :=
      Option.eq_none_iff_forall_ne_some.mpr fun d hd =>
        hnone d (ModuleScan.declaration_eq_some_iff.mp hd)
    have hleading : s.leading = forms.take (i + s.declaration.toList.length) :=
      ModuleScan.leading_eq_take
    rw [hdeclared] at hleading
    refine ⟨hleading, ?_, ?_⟩
    · rw [ModuleScan.nameFrom, hdeclared]
    · rw [ModuleScan.markers, hdeclared]

/-- A declaration with empty parameters behind two marks and a marker. -/
def crowdedFront : List Form :=
  [ .file ⟨"a.erl", 1, 1⟩, .marker ⟨"erl_parse", .foreign "syntax error", 2⟩,
    .file ⟨"a.hrl", 7, 3⟩, .module ⟨"m", some [], 4⟩, .eof 5 ]

/-- All forms but the last one lead there, and no placeholder is drawn. Behind an attribute the
declaration does not count, so one is. -/
theorem crowdedFront_found :
    let s := scan crowdedFront
    let t := scan late
    crowdedFront[leadingEnd crowdedFront]? = some (.module ⟨"m", some [], 4⟩)
      ∧ s.leading = crowdedFront.take 4 ∧ s.name ⟨"anon", 0⟩ = (.str "m", ⟨"anon", 0⟩)
      ∧ s.markers "own" = [⟨"own", .violation .parameterizedModule, 4⟩]
      ∧ s.mark = ⟨"a.hrl", 7, 3⟩
      ∧ (∀ d : ModuleDecl, late[leadingEnd late]? ≠ some (.module d))
      ∧ t.leading = [] ∧ t.name ⟨"anon", 0⟩ = (.str "anon_1", ⟨"anon", 1⟩)
      ∧ t.markers "own" = [] ∧ t.mark = .standard := by
  intro s t
  obtain ⟨-, hdeclared, -, hmark, -⟩ :=
    leading_forms_found (m := StateM Placeholder) Placeholder.draw "own" crowdedFront
  obtain ⟨-, -, hundeclared, hstandard, -⟩ :=
    leading_forms_found (m := StateM Placeholder) Placeholder.draw "own" late
  have hlate : ∀ d : ModuleDecl, late[leadingEnd late]? ≠ some (.module d) := fun d => nofun
  obtain ⟨hleading, hname, hmarkers⟩ := hdeclared _ rfl
  obtain ⟨hleading', hname', hmarkers'⟩ := hundeclared hlate
  exact ⟨rfl, hleading, congrFun hname _, hmarkers, hmark, hlate, hleading',
    (congrFun hname' _).trans rfl, hmarkers', hstandard⟩

end RuleLowering
