import RuleLowering.Proofs.Exports

/-!
# A rule with the identity of the generated function

The warning that a module has been lowered before looks at its functions alone. A rule becomes a
function as well, so one with the name of the generated function and no parameters passes without
a warning: the function is then defined twice, and exported twice. No other form has this effect.
-/
namespace RuleLowering

open ModuleScan (scan)

theorem Options.named_introspectionSignature (o : Options) : o.introspectionSignature.Named :=
  ⟨o.introspection, 0, rfl⟩

/-- The warning counts the functions that define the generated one. -/
theorem Form.definesIntrospection_eq (o : Options) (f : Form) :
    f.definesIntrospection o = f.defines o.introspectionSignature := by
  cases f with
  | function f =>
    have harity : Data.same (.int f.arity) (.int 0) = (f.arity == 0) := by
      have hequal : Data.same (.int f.arity) (.int 0) = decide ((f.arity : Int) = 0) :=
        Binary64.Reach.equal_ofInt f.arity 0
      rw [hequal, Bool.eq_iff_iff]
      simp
    exact congrArg (f.name.same (.str o.introspection) && ·) harity.symm
  | _ => rfl

/-- Without a warning no function of the module defines the generated one. -/
theorem countP_defines_of_quiet {o : Options} {forms : List Form}
    (h : loweringWarnings o forms = []) :
    forms.countP (Form.defines o.introspectionSignature) = 0 := by
  cases hlowered : isLowered o forms with
  | true =>
    rw [loweringWarnings, if_pos hlowered] at h
    cases h
  | false =>
    rw [List.countP_eq_zero]
    intro f hf
    rw [← Form.definesIntrospection_eq]
    exact List.any_eq_false.mp hlowered f hf

/-- An identity is not declared exactly if no rule has it. -/
theorem countP_declares_eq_zero {forms : List Form} {s : Signature} (hnamed : RulesNamed forms)
    (hs : s.Named) :
    forms.countP (Form.declares s) = 0 ↔ ¬ ∃ r, .rule r ∈ forms ∧ r.signature? = .ok s := by
  have hself : s.same s = true := (Signature.same_iff hs hs).mpr rfl
  rw [List.countP_eq_zero]
  constructor
  · rintro hnone ⟨r, hr, hidentity⟩
    apply hnone _ hr
    rw [Form.declares, hidentity]
    exact hself
  · rintro hnone f hf hdeclares
    cases f with
    | rule r =>
      cases hidentity : r.signature? with
      | ok identity =>
        have hfit := Rule.named_of_signature? (hnamed r hf) hidentity
        simp only [Form.declares, hidentity] at hdeclares
        obtain rfl := (Signature.same_iff hfit hs).mp hdeclares
        exact hnone ⟨r, hf, hidentity⟩
      | error fault => simp [Form.declares, hidentity] at hdeclares
    | _ => cases hdeclares

/-- Of named signatures in strict order no two say the same, and none says the same as another one
exactly if that is not among them. -/
theorem Signature.pairwise_not_same_cons_iff {s : Signature} {rules : List Signature}
    (hs : s.Named) (hrules : ∀ a ∈ rules, a.Named) (horder : rules.Pairwise Precedes) :
    (s :: rules).Pairwise (fun a b => a.same b = false) ↔ s ∉ rules := by
  have hdistinct : rules.Pairwise fun a b => a.same b = false := by
    refine horder.imp_of_mem fun {a b} ha hb hab => ?_
    rw [Bool.eq_false_iff, Ne, same_iff (hrules a ha) (hrules b hb)]
    rintro rfl
    exact precedes_asymm hab hab
  rw [List.pairwise_cons]
  constructor
  · rintro ⟨hfirst, -⟩ hmem
    have hself : s.same s = true := (same_iff hs hs).mpr rfl
    rw [hfirst s hmem] at hself
    cases hself
  · intro hmem
    refine ⟨fun a ha => ?_, hdistinct⟩
    rw [Bool.eq_false_iff, Ne, same_iff hs (hrules a ha)]
    rintro rfl
    exact hmem ha

/-- Lowered without a warning, a module defines the generated function once, and once more for each
rule of its identity. It is defined once, and what is exported is exported once, exactly if there
is no such rule. -/
theorem introspection_unique_iff {o : Options} {forms out : List Form} (hnamed : RulesNamed forms)
    (h : lower o forms = .ok out) (hquiet : loweringWarnings o forms = []) :
    let s : Signature := ⟨.str o.introspection, 0⟩
    out.countP (Form.defines s) = 1 + forms.countP (Form.declares s)
      ∧ (out.countP (Form.defines s) = 1 ↔ ¬ ∃ r, .rule r ∈ forms ∧ r.signature? = .ok s)
      ∧ ∃ e : Export, out[(scan forms).exportPlace o]? = some (.exports e)
        ∧ (e.functions.Pairwise (fun a b => a.same b = false) ↔
          ¬ ∃ r, .rule r ∈ forms ∧ r.signature? = .ok s) := by
  intro s
  have hs : s.Named := o.named_introspectionSignature
  obtain ⟨-, rules, hrules, -⟩ := lower_eq_ok.mp h
  obtain ⟨hidentity, hmem, hpairwise⟩ := signatures?_spec hnamed hrules
  have hfit : ∀ a ∈ rules, a.Named := by
    intro a ha
    obtain ⟨r, hr, hra⟩ := (hmem a).mp ha
    exact Rule.named_of_signature? (hnamed r hr) hra
  have hself : o.introspectionSignature.same s = true := (Signature.same_iff hs hs).mpr rfl
  have hcount : out.countP (Form.defines s) = 1 + forms.countP (Form.declares s) := by
    have hnone : forms.countP (Form.defines s) = 0 := countP_defines_of_quiet hquiet
    rw [countP_defines_lowered s h hidentity, hnone, if_pos hself]
    omega
  refine ⟨hcount, ?_, o.exportList rules, getElem?_exportPlace h hrules, ?_⟩
  · rw [hcount, ← countP_declares_eq_zero hnamed hs]
    omega
  · rw [← hmem s]
    exact Signature.pairwise_not_same_cons_iff hs hfit hpairwise

/-- A rule of that name with a parameter does not have the identity. -/
theorem sameName_introspection_unique :
    let rule : Rule := ⟨"henshin_rules", [⟨[.var "X" 2], .absent, [.atom "ok" 2], 2⟩], 2⟩
    let forms : List Form := [.module ⟨"m", none, 1⟩, .rule rule]
    RulesNamed forms ∧ loweringWarnings {} forms = [] ∧ ∃ out, lower {} forms = .ok out
      ∧ out.countP (Form.defines ⟨"henshin_rules", 0⟩) = 1 := by
  intro rule forms
  have hrule : ∀ r, .rule r ∈ forms → r = rule := by
    intro r hr
    simpa [forms] using hr
  have hnamed : RulesNamed forms := fun r hr => ⟨_, congrArg Rule.name (hrule r hr)⟩
  have h : lower {} forms = .ok _ := rfl
  refine ⟨hnamed, rfl, _, h, (introspection_unique_iff hnamed h rfl).2.1.mpr ?_⟩
  rintro ⟨r, hr, hidentity⟩
  obtain rfl := hrule r hr
  have harity : (1 : Int) = 0 :=
    Data.int.inj (congrArg Signature.arity (Except.ok.inj hidentity))
  omega

/-- A module with a rule that has the name of the generated function and no parameters. -/
def shadowing : List Form :=
  [ .module ⟨"m", none, 1⟩,
    .rule ⟨"henshin_rules", [⟨[], .absent, [.atom "ok" 2], 2⟩], 2⟩ ]

/-- It is lowered without a warning, defines the function twice and exports it twice. -/
theorem shadowing_defined_twice :
    RulesNamed shadowing ∧ RulesComplete shadowing ∧ loweringWarnings {} shadowing = []
      ∧ ∃ out, lower {} shadowing = .ok out
        ∧ out.countP (Form.defines ⟨"henshin_rules", 0⟩) = 2
        ∧ out[2]? = some (.exports ⟨[⟨"henshin_rules", 0⟩, ⟨"henshin_rules", 0⟩], 1⟩) := by
  have hrule : ∀ r, .rule r ∈ shadowing →
      r = ⟨"henshin_rules", [⟨[], .absent, [.atom "ok" 2], 2⟩], 2⟩ := by
    intro r hr
    simpa [shadowing] using hr
  have hcomplete : RulesComplete shadowing := by
    intro r hr
    rw [hrule r hr]
    simp [Rule.Complete, Clause.Complete]
  exact ⟨fun r hr => ⟨_, congrArg Rule.name (hrule r hr)⟩, hcomplete, rfl, _, rfl, rfl, rfl⟩

end RuleLowering
