import RuleLowering.Proofs.Emitted
import RuleLowering.Proofs.Exports
import RuleLowering.Proofs.Location
import RuleLowering.Proofs.SelfSame

/-!
# Lowering a lowered module

A lowered module holds no rules, so lowering it again rewrites nothing: it only warns, and splices
in two more blocks for an empty list of rules. The blocks of the first pass move the places where
those of the second one go in, but not the declaration that the scan finds.
-/
namespace RuleLowering

open ModuleScan (scan)

namespace ModuleScan

/-- The forms that a scan divides, by the lengths of the parts. -/
theorem parts_eq (forms : List Form) :
    forms.take (scan forms).leading.length = (scan forms).leading
      ∧ (forms.drop (scan forms).leading.length).take (scan forms).header.length =
        (scan forms).header
      ∧ forms.drop ((scan forms).leading.length + (scan forms).header.length) =
        (scan forms).body := by
  have hparts := parts_append forms
  generalize scan forms = s at hparts ⊢
  subst hparts
  refine ⟨List.take_left, ?_, ?_⟩
  · rw [List.drop_left, List.take_left]
  · rw [← List.drop_drop, List.drop_left, List.drop_left]

/-- What a lowered module has behind the leading forms does not change the declaration found: more
markers are leading, and a module without declaration is still ended by the export list. -/
theorem declaration_ofForms_append (mark mark' : FileMark) (forms : List Form) (ms : List Marker)
    (e : Export) (rest : List Form) :
    (ofForms mark ((ofForms mark forms).leading
        ++ (ms.map .marker ++ .file mark' :: .exports e :: rest))).declaration =
      (ofForms mark forms).declaration := by
  fun_induction ofForms mark forms with
  | case1 mark f rest ih => exact ih
  | case2 mark m rest ih => exact ih
  | case3 mark m rest => rfl
  | case4 mark _ _ _ _ =>
    induction ms with
    | nil => rfl
    | cons m ms ih => exact ih

theorem declaration_lowered {o : Options} {forms out : List Form} (h : lower o forms = .ok out) :
    (scan out).declaration = (scan forms).declaration := by
  obtain ⟨-, rules, -, rfl⟩ := lower_eq_ok.mp h
  simp only [exportBlock, List.append_assoc, List.cons_append]
  exact declaration_ofForms_append _ _ _ _ _ _

end ModuleScan

/-- Where there are no rules there is nothing to list. -/
theorem signatures?_of_not_isRule {forms : List Form} (h : ∀ f ∈ forms, f.isRule = false) :
    signatures? forms = .ok [] := by
  have hnone : forms.filterMap Form.rule? = [] :=
    List.filterMap_eq_nil_iff.mpr fun f hf => Form.rule?_eq_none (h f hf)
  rw [signatures?, hnone]
  rfl

/-- A lowered module defines the generated function. -/
theorem isLowered_lowered {o : Options} {forms out : List Form} (h : lower o forms = .ok out) :
    isLowered o out = true := by
  obtain ⟨-, rules, hrules, -⟩ := lower_eq_ok.mp h
  have hmem : .function (o.introspectionFunction rules) ∈ out :=
    List.mem_of_getElem? (getElem?_introspectionPlace h hrules)
  have hdefines :
      Form.definesIntrospection o (.function (o.introspectionFunction rules)) = true := by
    simp [Form.definesIntrospection, Options.introspectionFunction, Function.arity, Clause.arity]
  exact List.any_eq_true.mpr ⟨_, hmem, hdefines⟩

/-- Lowering a lowered module succeeds with a warning. It puts the marker of a declaration with
parameters and an export list of the generated function alone behind the leading forms, and a
generated function that returns the empty list behind the header; all else is the lowered module. -/
theorem lower_lowered {o : Options} {forms out : List Form} (h : lower o forms = .ok out) :
    let s := scan out
    let n := s.leading.length
    let m := s.header.length
    ∃ again, lower o out = .ok again
      ∧ loweringWarnings o out = ["Forms already define " ++ o.introspection
          ++ "/0; they appear to have been transformed before"]
      ∧ again = out.take n
          ++ (((scan forms).markers o.origin).map .marker
            ++ [.file (.start o.origin), .exports ⟨[⟨.str o.introspection, 0⟩], generatedPos⟩,
              .file s.mark])
          ++ (out.drop n).take m
          ++ [.file (.start o.origin),
              .function {
                name := .str o.introspection
                clauses := [{
                  patterns := []
                  guard := .absent
                  body := [.list [] generatedPos]
                  pos := generatedPos }]
                pos := generatedPos },
              .file s.mark]
          ++ out.drop (n + m)
      ∧ s.withoutBlocks o again = out := by
  intro s n m
  have hrule : ∀ f ∈ out, f.isRule = false := fun f hf => not_isRule_of_mem_lowered h hf
  have hcomplete : RulesComplete out := by
    intro r hr
    cases hrule _ hr
  have hlower : lower o out = .ok (s.leading ++ s.exportBlock o [] ++ s.header
      ++ s.introspectionBlock o [] ++ rewritten o s.body) :=
    lower_eq_ok.mpr ⟨hcomplete, [], signatures?_of_not_isRule hrule, rfl⟩
  obtain ⟨hleading, hheader, hbody⟩ := ModuleScan.parts_eq out
  have hrewritten : rewritten o s.body = out.drop (n + m) := by
    rw [hbody]
    refine rewritten_eq_self fun f hf => hrule f ?_
    rw [← ModuleScan.parts_append out]
    exact List.mem_append_right _ (List.mem_append_right _ hf)
  have hmarkers : s.markers o.origin = (scan forms).markers o.origin := by
    simp only [ModuleScan.markers, s, ModuleScan.declaration_lowered h]
  have hkept := withoutBlocks_lowered hlower
  refine ⟨_, hlower, ?_, ?_, ?_⟩
  · rw [loweringWarnings, isLowered_lowered h]
    rfl
  · rw [hleading, hheader, ← hrewritten, ← hmarkers]
    rfl
  · rw [hkept, rewritten_eq_self hrule]

/-- Lowered twice, the example module is longer by seven forms, one of them the marker of its
declaration, and keeps those it had. -/
theorem family_lowered_twice :
    ∃ out again, lower {} (Example.family true) = .ok out ∧ lower {} out = .ok again
      ∧ (loweringWarnings {} out).length = 1
      ∧ again.length = out.length + 7
      ∧ (scan out).withoutBlocks {} again = out := by
  have h : lower {} (Example.family true) = .ok _ := rfl
  obtain ⟨again, hagain, hwarnings, hforms, hkept⟩ := lower_lowered h
  exact ⟨_, again, h, hagain, congrArg List.length hwarnings, congrArg List.length hforms, hkept⟩

end RuleLowering
