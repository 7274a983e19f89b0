import RuleLowering.Proofs.Insertions
import RuleLowering.Proofs.JsonNumber
import RuleLowering.Proofs.Wording

/-!
# Declarations with parameters

Lowering looks for a declaration behind file marks and markers only, a report takes the first one
wherever it stands. Both object to its parameters, so what a report warns about is marked exactly
if nothing else precedes the declaration.
-/
namespace RuleLowering

open ModuleScan (scan)

/-- A form that may stand in front of the declaration. -/
def Form.mayLead : Form → Bool
  | .file _ | .marker _ => true
  | _ => false

/-- Where a scan stops, the first form may not lead. -/
theorem Form.mayLead_eq_false {forms : List Form} (hfile : ∀ m rest, forms = .file m :: rest → False)
    (hmarker : ∀ m rest, forms = .marker m :: rest → False) :
    ∀ f ∈ forms.head?, f.mayLead = false := by
  intro f hf
  obtain ⟨rest, rfl⟩ := List.head?_eq_some_iff.mp hf
  cases f with
  | file m => exact (hfile m rest rfl).elim
  | marker m => exact (hmarker m rest rfl).elim
  | _ => rfl

/-- A scan finds the first form that may not lead, if that is a declaration. -/
theorem ModuleScan.declaration_iff_find? {mark : FileMark} {forms : List Form} {m : ModuleDecl} :
    (ofForms mark forms).declaration = some m ↔
      forms.find? (!·.mayLead) = some (.module m) := by
  fun_induction ofForms mark forms with
  | case1 mark f rest ih => rwa [List.find?_cons_of_neg (by simp [Form.mayLead])]
  | case2 mark m' rest ih => rwa [List.find?_cons_of_neg (by simp [Form.mayLead])]
  | case3 mark m' rest => rw [List.find?_cons_of_pos rfl, Option.some.injEq, Option.some.injEq,
      Form.module.injEq]
  | case4 mark forms hfile hmarker hmodule =>
    refine iff_of_false (Option.some_ne_none m).symm fun h => ?_
    cases forms with
    | nil => cases h
    | cons f rest =>
      have hf : f.mayLead = false := Form.mayLead_eq_false hfile hmarker f rfl
      rw [List.find?_cons_of_pos (by simp [hf])] at h
      exact hmodule m rest (congrArg (· :: rest) (Option.some.inj h))

/-- A scan finds a declaration that has only such forms in front. -/
theorem ModuleScan.declaration_eq_some {mark : FileMark} {forms : List Form} {m : ModuleDecl} :
    (ofForms mark forms).declaration = some m ↔
      ∃ front rest : List Form,
        forms = front ++ .module m :: rest ∧ ∀ f ∈ front, f.mayLead = true := by
  rw [declaration_iff_find?, List.find?_eq_some_iff_append]
  simp [Form.mayLead]

/-- The declaration that a scan finds is the first one. -/
theorem head?_declarations {front rest : List Form} {m : ModuleDecl}
    (hfront : ∀ f ∈ front, f.mayLead = true) :
    (declarations (front ++ .module m :: rest)).head? = some m := by
  induction front with
  | nil => rfl
  | cons f front ih =>
    obtain ⟨hf, hlater⟩ := List.forall_mem_cons.mp hfront
    cases f with
    | file f => exact ih hlater
    | marker k => exact ih hlater
    | _ => cases hf

section Warnings

/-- Behind a name no declaration is warned about. -/
theorem notices_of_named {t : Text} (ds : List ModuleDecl) :
    notices (.str t) (ds.map .module) = [] := by
  induction ds with
  | nil => rfl
  | cons m ds ih => exact ih

/-- Of declarations with names the first one is warned about, if it has parameters. -/
theorem mem_notices_declarations {ds : List ModuleDecl} (hds : ∀ m ∈ ds, ∃ t, m.name = .str t)
    (m : ModuleDecl) :
    Notice.parameters m ∈ notices .null (ds.map .module) ↔
      ds.head? = some m ∧ m.parameters.isSome = true := by
  cases ds with
  | nil => simp [notices]
  | cons d ds =>
    obtain ⟨t, ht⟩ := hds d List.mem_cons_self
    have hname : (Form.module d).nameAfter .null = .str t := ht
    have hhere : (Form.module d).notices .null =
        if d.parameters.isSome = true then [.parameters d] else [] := rfl
    rw [List.map_cons, notices, hname, notices_of_named, List.append_nil, hhere, List.head?_cons,
      Option.some.injEq]
    by_cases hd : d.parameters.isSome = true
    · rw [if_pos hd, List.mem_singleton, Notice.parameters.injEq]
      exact ⟨fun h => ⟨h.symm, h ▸ hd⟩, fun h => h.1.symm⟩
    · rw [if_neg hd]
      refine iff_of_false List.not_mem_nil ?_
      rintro ⟨rfl, h⟩
      exact hd h

/-- A text with a number behind it ends in a digit. -/
theorem getLast?_append_toString_ne (s : String) (n : Int) :
    (Text.plain (s ++ toString n)).glyphs.getLast? ≠ some (.char 'd') := by
  intro h
  rw [Text.glyphs_plain, String.toList_append, Json.toList_toString, List.getLast?_map,
    ← List.append_assoc, List.getLast?_append_of_ne_nil _ Nat.toDigits_ne_nil] at h
  obtain ⟨c, hc, heq⟩ := Option.map_eq_some_iff.mp h
  obtain rfl := Glyph.char.inj heq
  cases Nat.isDigit_of_mem_toDigits (by omega) (by omega) (List.mem_of_getLast? hc)

/-- A report warns about parameters at a position if a declaration there is warned about. -/
theorem Report.Describes.parameters_mem_iff {o : Options} {forms : List Form} {report : Report}
    (h : Describes o forms report) (p : Int) :
    Text.plain ("Parameterized module declaration at " ++ toString p) ∈ report.warnings ↔
      ∃ m, Notice.parameters m ∈ notices .null forms ∧ m.pos.display = .plain (toString p) := by
  have htext : ∀ m : ModuleDecl,
      Text.plain ("Parameterized module declaration at " ++ toString p) = (Notice.parameters m).text
        ↔ m.pos.display = .plain (toString p) := by
    intro m
    rw [← Text.plain_append_plain, Notice.text]
    exact ⟨fun h => (Text.append_left_cancel h).symm, fun h => congrArg (_ ++ ·) h.symm⟩
  rw [h.warnings]
  constructor
  · rintro (⟨n, hn, heq⟩ | hremark)
    · cases n with
      | arities r =>
        have hhead := Notice.head?_arities r
        rw [← heq] at hhead
        simp at hhead
      | parameters m => exact ⟨m, hn, (htext m).mp heq⟩
    · rcases hremark.told with hlast | ⟨-, hhead⟩
      · exact absurd hlast (getLast?_append_toString_ne _ p)
      · exact absurd (by simp) hhead
  · rintro ⟨m, hm, hpos⟩
    exact .inl ⟨_, hm, (htext m).mpr hpos⟩

end Warnings

/-- Each declaration has a text as its name and a whole number as its position. -/
def DeclarationsTyped (forms : List Form) : Prop :=
  ∀ m ∈ declarations forms, (∃ t, m.name = .str t) ∧ ∃ n, m.pos = .int n

def Marker.refusesParameters (p : Int) (m : Marker) : Bool :=
  m.reports .parameterizedModule &&
    match m.pos with
    | .int n => n == p
    | _ => false

section Agreement

variable {o : Options} {forms out : List Form}

/-- In a report that can be given, a declaration is warned about if it is the first one and has
parameters. -/
theorem mem_warnings_iff {report : Report} (hwell : RulesWellFormed forms)
    (htyped : DeclarationsTyped forms) (h : Report.Describes o forms report) (p : Int) :
    Text.plain ("Parameterized module declaration at " ++ toString p) ∈ report.warnings ↔
      ∃ m, (declarations forms).head? = some m ∧ m.parameters.isSome = true ∧ m.pos = .int p := by
  rw [h.parameters_mem_iff, notices_eq_declarations hwell]
  have hpos : ∀ m ∈ declarations forms, m.pos.display = .plain (toString p) ↔ m.pos = .int p := by
    intro m hm
    obtain ⟨-, n, hn⟩ := htyped m hm
    have hdisplay : (Data.int n).display = .plain (toString n) := rfl
    rw [hn, hdisplay, Text.plain.injEq, Data.int.injEq]
    constructor
    · intro h
      have hnumber : (toString n).toList ++ [] = (toString p).toList ++ [] := by rw [h]
      exact (Json.toString_cancel (by simp) (by simp) hnumber).1
    · exact fun h => congrArg toString h
  simp only [mem_notices_declarations fun m hm => (htyped m hm).1]
  constructor
  · rintro ⟨m, ⟨hhead, hparameters⟩, hdisplay⟩
    exact ⟨m, hhead, hparameters, (hpos m (List.mem_of_head? hhead)).mp hdisplay⟩
  · rintro ⟨m, hhead, hparameters, hm⟩
    exact ⟨m, ⟨hhead, hparameters⟩, (hpos m (List.mem_of_head? hhead)).mpr hm⟩

/-- Lowering adds a marker for a declaration with parameters that the scan finds. -/
theorem countP_refusesParameters_lt_iff (h : lower o forms = .ok out) (p : Int) :
    (markersOf forms).countP (Marker.refusesParameters p) <
        (markersOf out).countP (Marker.refusesParameters p) ↔
      ∃ m, (scan forms).declaration = some m ∧ m.parameters.isSome = true ∧ m.pos = .int p := by
  have hrules : ((forms.filterMap Form.rule?).flatMap (Rule.reported o)).countP
      (Marker.refusesParameters p) = 0 := by
    rw [List.countP_eq_zero]
    intro m hm
    obtain ⟨r, -, hr⟩ := List.mem_flatMap.mp hm
    obtain ⟨pos, rfl⟩ := Rule.mem_reported hr
    exact Bool.false_ne_true
  have hrefuses : ∀ m : ModuleDecl,
      Marker.refusesParameters p ⟨.str o.origin, .violation .parameterizedModule, m.pos⟩ = true ↔
        m.pos = .int p := by
    intro m
    cases m.pos <;> simp [Marker.refusesParameters, Marker.reports]
  rw [countP_markersOf_lowered _ h, hrules, Nat.add_zero, Nat.lt_add_right_iff_pos,
    List.countP_pos_iff, ModuleScan.markers_eq]
  constructor
  · rintro ⟨k, hk, hp⟩
    obtain ⟨m, hm, rfl⟩ := List.mem_map.mp hk
    obtain ⟨hdeclared, hparameters⟩ := List.mem_filter.mp hm
    exact ⟨m, Option.mem_toList.mp hdeclared, hparameters, (hrefuses m).mp hp⟩
  · rintro ⟨m, hdeclared, hparameters, hp⟩
    have hm : m ∈ (scan forms).declaration.toList.filter (·.parameters.isSome) :=
      List.mem_filter.mpr ⟨Option.mem_toList.mpr hdeclared, hparameters⟩
    exact ⟨_, List.mem_map_of_mem hm, (hrefuses m).mpr hp⟩

/-- If module names are texts, positions of declarations whole numbers, and a report can be given,
then lowering adds a marker for parameters at a position exactly if the report warns of them there
and only file marks and markers stand in front of the first declaration. In particular a declaration
with parameters that has no other forms in front is marked. -/
theorem parameters_marked_iff_warned (hnamed : RulesNamed forms) (htyped : DeclarationsTyped forms)
    (h : lower o forms = .ok out) (hlegible : Legible forms) :
    ∃ report, Report.ofForms o forms = .ok report
      ∧ (∀ p : Int,
        (markersOf forms).countP (Marker.refusesParameters p) <
            (markersOf out).countP (Marker.refusesParameters p) ↔
          Text.plain ("Parameterized module declaration at " ++ toString p) ∈ report.warnings
            ∧ ∃ (front : List Form) (m : ModuleDecl) (rest : List Form),
              forms = front ++ .module m :: rest ∧ ∀ f ∈ front, f.mayLead = true)
      ∧ ∀ (front : List Form) (m : ModuleDecl) (rest : List Form),
        forms = front ++ .module m :: rest → (∀ f ∈ front, f.mayLead = true) →
        m.parameters.isSome = true →
          .marker ⟨.str o.origin, .violation .parameterizedModule, m.pos⟩ ∈ out := by
  have hsettles := Report.ofForms_settles (o := o) hnamed (lower_eq_ok.mp h).1
  obtain ⟨report, hreport⟩ := hsettles.exists_ok_iff.mpr hlegible
  have hwarned :=
    mem_warnings_iff (rulesWellFormed_of_lower hnamed h) htyped (hsettles.fit hreport)
  refine ⟨report, hreport, fun p => ?_, fun front m rest hforms hfront hparameters => ?_⟩
  · rw [countP_refusesParameters_lt_iff h, hwarned]
    constructor
    · rintro ⟨m, hm, hparameters, hp⟩
      obtain ⟨front, rest, rfl, hfront⟩ := ModuleScan.declaration_eq_some.mp hm
      exact ⟨⟨m, head?_declarations hfront, hparameters, hp⟩, front, m, rest, rfl, hfront⟩
    · rintro ⟨⟨m, hhead, hparameters, hp⟩, front, m', rest, rfl, hfront⟩
      obtain rfl : m' = m := Option.some.inj ((head?_declarations hfront).symm.trans hhead)
      exact ⟨m', ModuleScan.declaration_eq_some.mpr ⟨front, rest, rfl, hfront⟩, hparameters, hp⟩
  · have hscan : (scan forms).declaration = some m :=
      ModuleScan.declaration_eq_some.mpr ⟨front, rest, hforms, hfront⟩
    have hmarkers : (scan forms).markers o.origin =
        [⟨.str o.origin, .violation .parameterizedModule, m.pos⟩] := by
      rw [ModuleScan.markers_eq, hscan]
      simp [hparameters]
    obtain ⟨-, rules, -, rfl⟩ := lower_eq_ok.mp h
    simp [ModuleScan.exportBlock, hmarkers]

end Agreement

/-- The declaration of the example module stands behind a file mark, and is warned about and marked
at the same position. -/
theorem family_parameters_marked :
    let family := Example.family true
    RulesNamed family ∧ DeclarationsTyped family ∧ Legible family
      ∧ ∃ out report, lower {} family = .ok out ∧ Report.ofForms {} family = .ok report
        ∧ (markersOf family).countP (Marker.refusesParameters 1) = 0
        ∧ (markersOf out).countP (Marker.refusesParameters 1) = 1
        ∧ Text.plain "Parameterized module declaration at 1" ∈ report.warnings := by
  intro family
  have hnamed : RulesNamed family := by decide
  have htyped : DeclarationsTyped family := by
    intro m hm
    obtain rfl := List.mem_singleton.mp hm
    exact ⟨⟨_, rfl⟩, 1, rfl⟩
  have hlegible : Legible family := legible_of_all (by decide +kernel) (by decide +kernel)
  have h : lower {} family = .ok _ := rfl
  obtain ⟨report, hreport, hmarked, -⟩ := parameters_marked_iff_warned hnamed htyped h hlegible
  have hwarned := (hmarked 1).mp (Nat.lt_succ_self 0)
  exact ⟨hnamed, htyped, hlegible, _, report, h, hreport, rfl, rfl, hwarned.1⟩

/-- A declaration with parameters behind an attribute. -/
def late : List Form :=
  [ .attr { name := "behaviour", value := "gen_server", pos := 1, generic := rfl },
    .module ⟨"m", some ["A"], 2⟩ ]

/-- It is the first one, and a report warns about it, but it is not marked. -/
theorem late_parameters_unmarked :
    RulesNamed late ∧ DeclarationsTyped late ∧ RulesComplete late
      ∧ (declarations late).head? = some ⟨"m", some ["A"], 2⟩
      ∧ ∃ out report, lower {} late = .ok out ∧ Report.ofForms {} late = .ok report
        ∧ Text.plain "Parameterized module declaration at 2" ∈ report.warnings
        ∧ markersOf out = [] := by
  have hnamed : RulesNamed late := by decide
  have hcomplete : RulesComplete late := by decide
  have htyped : DeclarationsTyped late := by
    intro m hm
    obtain rfl := List.mem_singleton.mp hm
    exact ⟨⟨_, rfl⟩, 2, rfl⟩
  have h : lower {} late = .ok _ := rfl
  have hsettles := Report.ofForms_settles (o := {}) hnamed hcomplete
  have hlegible : Legible late := legible_of_all (by decide +kernel) (by decide +kernel)
  obtain ⟨report, hreport⟩ := hsettles.exists_ok_iff.mpr hlegible
  have hwarned := mem_warnings_iff (rulesWellFormed_of_lower hnamed h) htyped (hsettles.fit hreport)
  exact ⟨hnamed, htyped, hcomplete, rfl, _, report, h, hreport,
    (hwarned 2).mpr ⟨_, rfl, rfl, rfl⟩, rfl⟩

end RuleLowering
