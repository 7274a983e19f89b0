import RuleLowering.Proofs.Exports
import RuleLowering.Proofs.Malformed

/-!
# Appended declarations

Once a module has a form that belongs to neither its leading forms nor its header, both scans have
come to an end in it. More declarations behind it then only make the body longer. They are lowered
for themselves, and change the list of all rules, which two generated forms hold.
-/
namespace RuleLowering

open ModuleScan (scan)

/-- A scan that leaves forms behind does not look further. -/
theorem ModuleScan.ofForms_append {mark : FileMark} {xs : List Form} (ys : List Form)
    (hrest : (ofForms mark xs).rest ≠ []) :
    ofForms mark (xs ++ ys) =
      { ofForms mark xs with rest := (ofForms mark xs).rest ++ ys } := by
  fun_induction ofForms mark xs with
  | case1 mark f rest ih => exact congrArg (after (.file f)) (ih hrest)
  | case2 mark m rest ih => exact congrArg (after (.marker m)) (ih hrest)
  | case3 mark m rest => rfl
  | case4 mark xs hfile hmarker hmodule =>
    obtain ⟨f, rest, rfl⟩ := List.exists_cons_of_ne_nil hrest
    cases f with
    | file f => exact absurd rfl (hfile f rest)
    | marker m => exact absurd rfl (hmarker m rest)
    | module m => exact absurd rfl (hmodule m rest)
    | _ => rfl

/-- The run of attributes at the front ends in front of the first other form. -/
theorem splitHeader_append_of_ne_nil {xs : List Form} (ys : List Form)
    (hbody : (splitHeader xs).2 ≠ []) :
    splitHeader (xs ++ ys) = ((splitHeader xs).1, (splitHeader xs).2 ++ ys) := by
  simp only [splitHeader] at hbody ⊢
  induction xs with
  | nil => exact absurd rfl hbody
  | cons f xs ih =>
    rw [List.cons_append]
    cases hf : f.isAttribute with
    | true =>
      simp only [List.takeWhile_cons, List.dropWhile_cons, hf, if_true] at hbody ⊢
      obtain ⟨htake, hdrop⟩ := Prod.mk.inj (ih hbody)
      rw [htake, hdrop]
    | false => simp [hf]

/-- Behind a module with a body, more forms make the body longer and nothing else. -/
theorem ModuleScan.scan_append {xs : List Form} (ys : List Form) (hbody : (scan xs).body ≠ []) :
    (scan (xs ++ ys)).mark = (scan xs).mark
      ∧ (scan (xs ++ ys)).declaration = (scan xs).declaration
      ∧ (scan (xs ++ ys)).leading = (scan xs).leading
      ∧ (scan (xs ++ ys)).header = (scan xs).header
      ∧ (scan (xs ++ ys)).body = (scan xs).body ++ ys := by
  have hrest : (scan xs).rest ≠ [] := by
    intro hnil
    apply hbody
    rw [body, hnil]
    rfl
  have hscan : scan (xs ++ ys) = { scan xs with rest := (scan xs).rest ++ ys } :=
    ofForms_append ys hrest
  have hsplit : splitHeader (scan (xs ++ ys)).rest = ((scan xs).header, (scan xs).body ++ ys) := by
    rw [hscan]
    exact splitHeader_append_of_ne_nil ys hbody
  refine ⟨by rw [hscan], by rw [hscan], by rw [hscan], ?_, ?_⟩
  · rw [header, hsplit]
  · rw [body, hsplit]

theorem set_append_cons_of_length {α : Type} {before after : List α} {a b : α} {n : Nat}
    (hn : before.length = n) : (before ++ a :: after).set n b = before ++ b :: after := by
  rw [← hn, List.set_append_right _ _ (Nat.le_refl _), Nat.sub_self]
  rfl

namespace ModuleScan

/-- The generated forms of one list of rules, replaced by those of another. -/
theorem set_generated (s : ModuleScan) (o : Options) (rules rules' : List Signature)
    (later : List Form) :
    ((s.leading ++ s.exportBlock o rules ++ s.header ++ s.introspectionBlock o rules ++ later).set
        (s.exportPlace o) (.exports (o.exportList rules'))).set
        (s.introspectionPlace o) (.function (o.introspectionFunction rules')) =
      s.leading ++ s.exportBlock o rules' ++ s.header ++ s.introspectionBlock o rules' ++ later := by
  have hassoc : ∀ items, s.leading ++ s.exportBlock o items ++ s.header
      ++ s.introspectionBlock o rules ++ later =
      s.leading ++ s.exportBlock o items ++ (s.header ++ (s.introspectionBlock o rules ++ later)) :=
    fun items => by simp only [List.append_assoc]
  have hexports : (s.leading ++ s.exportBlock o rules ++ s.header ++ s.introspectionBlock o rules
      ++ later).set (s.exportPlace o) (.exports (o.exportList rules')) =
      s.leading ++ s.exportBlock o rules' ++ s.header ++ s.introspectionBlock o rules ++ later := by
    rw [hassoc, hassoc, leading_append_exportBlock, leading_append_exportBlock,
      set_append_cons_of_length (s.length_beforeExports o)]
  have hsplit : s.leading ++ s.exportBlock o rules' ++ s.header ++ s.introspectionBlock o rules
      ++ later =
      s.beforeIntrospection o rules'
        ++ .function (o.introspectionFunction rules) :: .file s.mark :: later := by
    simp [introspectionBlock, beforeIntrospection]
  rw [hexports, hsplit, set_append_cons_of_length (s.length_beforeIntrospection o rules'),
    header_append_introspectionBlock]

end ModuleScan

/-- If well-formed rules and other forms are appended to a module that has a body already, the
lowered module gets the lowered forms at its end. In front of them two forms change: the generated
export list and the generated function now hold the identities of all rules. -/
theorem lower_append {o : Options} {xs ys : List Form} (hnamed : RulesNamed (xs ++ ys))
    (hcomplete : RulesComplete (xs ++ ys)) (hwell : RulesWellFormed (xs ++ ys))
    (hbody : (scan xs).body ≠ []) :
    let p := (scan xs).exportPlace o
    let q := (scan xs).introspectionPlace o
    ∃ out first all tail markers,
      lower o xs = .ok out
        ∧ signatures? xs = .ok first
        ∧ out[p]? = some (.exports (o.exportList first))
        ∧ out[q]? = some (.function (o.introspectionFunction first))
        ∧ signatures? (xs ++ ys) = .ok all
        ∧ lowerRules o ys = .ok (tail, markers)
        ∧ lower o (xs ++ ys) = .ok
          ((out.set p (.exports (o.exportList all))).set q (.function (o.introspectionFunction all))
            ++ tail) := by
  intro p q
  obtain ⟨hnamedFirst, -⟩ := rulesNamed_append.mp hnamed
  obtain ⟨hcompleteFirst, hcompleteLater⟩ := rulesComplete_append.mp hcomplete
  obtain ⟨hwellFirst, -⟩ := rulesWellFormed_append.mp hwell
  obtain ⟨first, hfirst⟩ := exists_signatures? hnamedFirst hwellFirst
  obtain ⟨all, hall⟩ := exists_signatures? hnamed hwell
  have hout := lower_eq_ok (o := o).mpr ⟨hcompleteFirst, first, hfirst, rfl⟩
  have hlower := lower_eq_ok (o := o).mpr ⟨hcomplete, all, hall, rfl⟩
  refine ⟨_, first, all, rewritten o ys, _, hout, hfirst, getElem?_exportPlace hout hfirst,
    getElem?_introspectionPlace hout hfirst, hall,
    lowerRules_eq_ok.mpr ⟨hcompleteLater, rfl⟩, ?_⟩
  obtain ⟨hmark, hdeclaration, hleading, hheader, happended⟩ := ModuleScan.scan_append ys hbody
  have hexports : (scan (xs ++ ys)).exportBlock o all = (scan xs).exportBlock o all := by
    simp only [ModuleScan.exportBlock, ModuleScan.markers, hmark, hdeclaration]
  have hintrospection :
      (scan (xs ++ ys)).introspectionBlock o all = (scan xs).introspectionBlock o all := by
    simp only [ModuleScan.introspectionBlock, hmark]
  rw [hlower, hleading, hexports, hheader, hintrospection, happended, rewritten_append,
    ModuleScan.set_generated, List.append_assoc _ (rewritten o (scan xs).body)]

/-- A second declaration, a file mark, a marker and a rule behind the example module. -/
def appendix : List Form :=
  [ .module ⟨"other", some [], 30⟩, .file ⟨"b.hrl", 1, 31⟩,
    .marker ⟨"erl_parse", .foreign "syntax error", 32⟩, Example.parent ]

/-- They are lowered at its end, and the two generated forms stand in the fifth and ninth place. -/
theorem family_lower_append :
    RulesNamed (Example.family true ++ appendix) ∧ RulesComplete (Example.family true ++ appendix)
      ∧ RulesWellFormed (Example.family true ++ appendix)
      ∧ (scan (Example.family true)).body ≠ []
      ∧ ∃ out all tail markers, lower {} (Example.family true) = .ok out
        ∧ signatures? (Example.family true ++ appendix) = .ok all
        ∧ lowerRules {} appendix = .ok (tail, markers)
        ∧ lower {} (Example.family true ++ appendix) = .ok
          ((out.set 4 (.exports (Options.exportList {} all))).set 8
            (.function (Options.introspectionFunction {} all)) ++ tail) := by
  have hnamed : RulesNamed (Example.family true ++ appendix) := by decide
  have hcomplete : RulesComplete (Example.family true ++ appendix) := by decide
  have hwell : RulesWellFormed (Example.family true ++ appendix) := by decide
  have hbody : (scan (Example.family true)).body ≠ [] := nofun
  obtain ⟨out, first, all, tail, markers, hout, -, -, -, hall, htail, hlower⟩ :=
    lower_append (o := {}) hnamed hcomplete hwell hbody
  exact ⟨hnamed, hcomplete, hwell, hbody, out, all, tail, markers, hout, hall, htail, hlower⟩

end RuleLowering
