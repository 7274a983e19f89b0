import RuleLowering.Example
import RuleLowering.Lowering.Assembly
import RuleLowering.Proofs.Rewrite

/-!
# Lowering as a splice

A module falls into the forms up to its declaration, the attributes behind them and the body.
The scan stops in front of any rule and so does the run of attributes, so the first two parts
are their own rewrite, and lowering is the flat rewrite of all forms with one generated block
behind each of them.
-/
namespace RuleLowering

namespace ModuleScan

/-- The attributes behind the leading forms. -/
def header (s : ModuleScan) : List Form := (splitHeader s.rest).1

/-- The forms from the first one on that is neither leading nor of the header. -/
def body (s : ModuleScan) : List Form := (splitHeader s.rest).2

def exportBlock (s : ModuleScan) (o : Options) (rules : List Signature) : List Form :=
  (s.markers o.origin).map .marker
    ++ [.file (.start o.origin), .exports (o.exportList rules), .file s.mark]

def introspectionBlock (s : ModuleScan) (o : Options) (rules : List Signature) : List Form :=
  [.file (.start o.origin), .function (o.introspectionFunction rules), .file s.mark]

theorem length_exportBlock (s : ModuleScan) (o : Options) (rules : List Signature) :
    (s.exportBlock o rules).length = (s.markers o.origin).length + 3 := by
  simp [exportBlock]

theorem leading_append_rest (mark : FileMark) (forms : List Form) :
    (ofForms mark forms).leading ++ (ofForms mark forms).rest = forms := by
  fun_induction ofForms mark forms with
  | case1 mark f rest ih => simpa using ih
  | case2 mark m rest ih => simpa using ih
  | case3 mark m rest => rfl
  | case4 mark rest _ _ _ => rfl

/-- The three parts of a module in order are the module. -/
theorem parts_append (forms : List Form) :
    (scan forms).leading ++ ((scan forms).header ++ (scan forms).body) = forms := by
  rw [header, body, splitHeader_append]
  exact leading_append_rest .standard forms

/-- Only file marks, markers and the declaration are leading. -/
theorem cases_of_mem_leading {mark : FileMark} {forms : List Form} {f : Form}
    (h : f ∈ (ofForms mark forms).leading) :
    (∃ m, f = .file m) ∨ (∃ m, f = .marker m) ∨ ∃ m, f = .module m := by
  fun_induction ofForms mark forms with
  | case1 mark m rest ih =>
    rcases List.mem_cons.mp h with rfl | h
    · exact .inl ⟨m, rfl⟩
    · exact ih h
  | case2 mark m rest ih =>
    rcases List.mem_cons.mp h with rfl | h
    · exact .inr (.inl ⟨m, rfl⟩)
    · exact ih h
  | case3 mark m rest => exact .inr (.inr ⟨m, List.mem_singleton.mp h⟩)
  | case4 mark rest _ _ _ => cases h

theorem not_isRule_of_mem_leading {mark : FileMark} {forms : List Form} {f : Form}
    (h : f ∈ (ofForms mark forms).leading) : f.isRule = false := by
  rcases cases_of_mem_leading h with ⟨m, rfl⟩ | ⟨m, rfl⟩ | ⟨m, rfl⟩ <;> rfl

theorem isAttribute_of_mem_header {s : ModuleScan} {f : Form} (h : f ∈ s.header) :
    f.isAttribute = true :=
  List.all_eq_true.mp List.all_takeWhile f h

theorem not_isRule_of_mem_header {s : ModuleScan} {f : Form} (h : f ∈ s.header) :
    f.isRule = false := by
  have hattr := isAttribute_of_mem_header h
  cases f <;> first | rfl | cases hattr

@[simp] theorem rewritten_leading (o : Options) (forms : List Form) :
    rewritten o (scan forms).leading = (scan forms).leading :=
  rewritten_eq_self fun _ => not_isRule_of_mem_leading

@[simp] theorem rewritten_header (o : Options) (s : ModuleScan) : rewritten o s.header = s.header :=
  rewritten_eq_self fun _ => not_isRule_of_mem_header

/-- The flat rewrite of a module changes its body only. -/
theorem rewritten_parts (o : Options) (forms : List Form) :
    rewritten o forms =
      (scan forms).leading ++ ((scan forms).header ++ rewritten o (scan forms).body) := by
  conv => lhs; rw [← parts_append forms]
  simp

/-- All rules of a module stand in its body. -/
theorem rulesComplete_body (forms : List Form) :
    RulesComplete (scan forms).body ↔ RulesComplete forms := by
  constructor
  · intro h r hr
    rw [← parts_append forms, List.mem_append, List.mem_append] at hr
    rcases hr with hr | hr | hr
    · cases not_isRule_of_mem_leading hr
    · cases not_isRule_of_mem_header hr
    · exact h r hr
  · intro h r hr
    apply h r
    rw [← parts_append forms]
    exact List.mem_append_right _ (List.mem_append_right _ hr)

end ModuleScan

open ModuleScan (scan)

/-- Lowering succeeds exactly when the rules can be listed and their bodies are complete. -/
theorem lower_eq_ok {o : Options} {forms out : List Form} :
    lower o forms = .ok out ↔ RulesComplete forms ∧ ∃ rules, signatures? forms = .ok rules ∧
      out = (scan forms).leading ++ (scan forms).exportBlock o rules ++ (scan forms).header
        ++ (scan forms).introspectionBlock o rules ++ rewritten o (scan forms).body := by
  have hbody := ModuleScan.rulesComplete_body forms
  have hassemble : ∀ rules, assemble o (scan forms) (scan forms).header rules
      (rewritten o (scan forms).body) =
      (scan forms).leading ++ (scan forms).exportBlock o rules ++ (scan forms).header
        ++ (scan forms).introspectionBlock o rules ++ rewritten o (scan forms).body := by
    intro rules
    simp [assemble, ModuleScan.exportBlock, ModuleScan.introspectionBlock]
  simp only [lower, bind_eq_ok_iff, lowerRules_eq_ok, return_eq_ok_iff]
  constructor
  · rintro ⟨rules, hrules, _, ⟨hcomplete, rfl⟩, rfl⟩
    exact ⟨hbody.mp hcomplete, rules, hrules, hassemble rules⟩
  · rintro ⟨hcomplete, rules, hrules, rfl⟩
    exact ⟨rules, hrules, _, ⟨hbody.mpr hcomplete, rfl⟩, (hassemble rules).symm⟩

/-- A lowered module is the flat rewrite of its forms, in which each rule has given way to its
function and its own markers, with a block of generated forms behind the leading forms and one
behind the header. Nothing else is added, moved or lost, and no rule is left. -/
theorem lower_splices_rewrite {o : Options} {forms out : List Form} (h : lower o forms = .ok out) :
    let s := scan forms
    let flat := rewritten o forms
    let n := s.leading.length
    let m := s.header.length
    s.leading ++ s.header ++ s.body = forms
      ∧ (∀ r, .rule r ∈ forms → r.lower o = .ok (r.rewritten o, r.reported o))
      ∧ flat.take n = s.leading ∧ (flat.drop n).take m = s.header
      ∧ (∃ rules markers, signatures? forms = .ok rules ∧ lowerRules o forms = .ok (flat, markers)
        ∧ out = flat.take n ++ s.exportBlock o rules ++ (flat.drop n).take m
          ++ s.introspectionBlock o rules ++ flat.drop (n + m))
      ∧ ∀ f ∈ out, f.isRule = false := by
  intro s flat n m
  obtain ⟨hcomplete, rules, hrules, hout⟩ := lower_eq_ok.mp h
  have hflat : flat = s.leading ++ (s.header ++ rewritten o s.body) :=
    ModuleScan.rewritten_parts o forms
  have hleading : flat.take n = s.leading := by rw [hflat, List.take_left]
  have hheader : (flat.drop n).take m = s.header := by
    rw [hflat, List.drop_left, List.take_left]
  have hbody : flat.drop (n + m) = rewritten o s.body := by
    rw [← List.drop_drop, hflat, List.drop_left, List.drop_left]
  refine ⟨?_, ?_, hleading, hheader,
    ⟨rules, _, hrules, lowerRules_eq_ok.mpr ⟨hcomplete, rfl⟩, ?_⟩, ?_⟩
  · rw [List.append_assoc]
    exact ModuleScan.parts_append forms
  · intro r hr
    exact Rule.lower_eq_ok.mpr ⟨hcomplete r hr, rfl⟩
  · rw [hleading, hheader, hbody]
    exact hout
  · intro f hf
    simp only [hout, ModuleScan.exportBlock, ModuleScan.introspectionBlock, List.mem_append,
      List.mem_cons, List.mem_map, List.not_mem_nil, or_false] at hf
    rcases hf with (((hf | ⟨_, -, rfl⟩ | rfl | rfl | rfl) | hf) | rfl | rfl | rfl) | hf
    · exact ModuleScan.not_isRule_of_mem_leading hf
    · rfl
    · rfl
    · rfl
    · rfl
    · exact ModuleScan.not_isRule_of_mem_header hf
    · rfl
    · rfl
    · rfl
    · exact not_isRule_of_mem_rewritten hf

/-- In the example module the blocks stand behind the declaration and behind the author. -/
theorem family_splices_rewrite :
    let forms := Example.family true
    let flat := rewritten {} forms
    ∃ out rules, lower {} forms = .ok out ∧ signatures? forms = .ok rules
      ∧ out = flat.take 2 ++ (scan forms).exportBlock {} rules ++ (flat.drop 2).take 1
        ++ (scan forms).introspectionBlock {} rules ++ flat.drop 3
      ∧ ∀ f ∈ out, f.isRule = false := by
  intro forms flat
  have h : lower {} forms = .ok _ := rfl
  obtain ⟨-, -, -, -, ⟨rules, markers, hrules, -, hout⟩, hrule⟩ := lower_splices_rewrite h
  exact ⟨_, rules, h, hrules, hout, hrule⟩

end RuleLowering
