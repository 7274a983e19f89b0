import Mathlib.Data.List.Sort
import RuleLowering.Proofs.Clash
import RuleLowering.Proofs.Malformed
import RuleLowering.Proofs.SelfSame

/-!
# Modules that declare the same rules

Of a module only the set of its identities goes into the generated forms. The list of them is the
one list in strict order with these members, so the order of the rules, their number and what stands
between them leave no trace; and since the list can be read off from either form, modules with
different sets get different forms.
-/
namespace RuleLowering

open ModuleScan (scan)

instance : Std.Asymm Signature.Precedes := ⟨fun _ _ => Signature.precedes_asymm⟩

def SameIdentities (forms forms' : List Form) : Prop :=
  ∀ s, s ∈ identities forms ↔ s ∈ identities forms'

variable {forms forms' : List Form} {rules rules' : List Signature} {o : Options}

/-- The listed identities are those of the module. -/
theorem mem_signatures? (hnamed : RulesNamed forms) (h : signatures? forms = .ok rules)
    (s : Signature) : s ∈ rules ↔ s ∈ identities forms :=
  ((signatures?_spec hnamed h).2.1 s).trans mem_identities.symm

/-- Modules have one list of identities exactly if they declare the same set. -/
theorem signatures?_eq_iff (hnamed : RulesNamed forms) (hnamed' : RulesNamed forms')
    (h : signatures? forms = .ok rules) (h' : signatures? forms' = .ok rules') :
    rules = rules' ↔ SameIdentities forms forms' := by
  obtain ⟨-, -, hpairwise⟩ := signatures?_spec hnamed h
  obtain ⟨-, -, hpairwise'⟩ := signatures?_spec hnamed' h'
  constructor
  · rintro rfl s
    rw [← mem_signatures? hnamed h, mem_signatures? hnamed' h']
  · intro hsame
    apply hpairwise.eq_of_mem_iff hpairwise'
    intro s
    rw [mem_signatures? hnamed h, hsame, mem_signatures? hnamed' h']

namespace Options

/-- Named identities that say the same one by one are equal. -/
theorem rules_eq_of_same (h : ∀ s ∈ rules, s.Named) (h' : ∀ s ∈ rules', s.Named)
    (hsame : sameEach Signature.same rules rules' = true) : rules = rules' :=
  eq_of_sameEach (fun s hs s' hs' => (Signature.same_iff (h s hs) (h' s' hs')).mp) hsame

/-- The export list tells the identities. -/
theorem exportList_same_iff (h : ∀ s ∈ rules, s.Named) (h' : ∀ s ∈ rules', s.Named) :
    (o.exportList rules).same (o.exportList rules') = true ↔ rules = rules' := by
  constructor
  · intro hsame
    simp only [Export.same, exportList, sameEach, Bool.and_eq_true] at hsame
    exact rules_eq_of_same h h' hsame.1.2
  · rintro rfl
    exact Form.same_self (.exports (o.exportList rules))

theorem same_of_entryFor {s s' : Signature} (h : (entryFor s).same (entryFor s') = true) :
    s.same s' = true := by
  simp only [entryFor, Expr.same, Expr.sameAll, Bool.and_eq_true] at h
  rw [Signature.same, h.1.1.1, h.1.2.1.1]
  rfl

/-- The generated function tells the identities. -/
theorem introspectionFunction_same_iff (h : ∀ s ∈ rules, s.Named) (h' : ∀ s ∈ rules', s.Named) :
    (o.introspectionFunction rules).same (o.introspectionFunction rules') = true
      ↔ rules = rules' := by
  constructor
  · intro hsame
    simp only [Function.same, introspectionFunction, sameEach, Clause.same, Expr.sameAll, Expr.same,
      Bool.and_eq_true] at hsame
    have hentries := hsame.1.2.1.1.2.1.1
    rw [Expr.sameAll_eq_sameEach] at hentries
    exact rules_eq_of_same h h' (sameEach_of_map (fun _ _ _ _ => same_of_entryFor) hentries)
  · rintro rfl
    exact Form.same_self (.function (o.introspectionFunction rules))

end Options

/-- Lowered with the same options, two modules get the same export list and the same generated
function exactly if they declare the same set of identities; either form alone tells as much, and
forms that say the same are equal. So it does not matter in which order the rules stand, how often
each is given, what stands around them, and of how many clauses they are made. -/
theorem generated_same_iff_sameIdentities {out out' : List Form} (hnamed : RulesNamed forms)
    (hnamed' : RulesNamed forms') (h : lower o forms = .ok out) (h' : lower o forms' = .ok out') :
    ∃ e e' f f', out[(scan forms).exportPlace o]? = some (.exports e)
      ∧ out'[(scan forms').exportPlace o]? = some (.exports e')
      ∧ out[(scan forms).introspectionPlace o]? = some (.function f)
      ∧ out'[(scan forms').introspectionPlace o]? = some (.function f')
      ∧ (e.same e' = true ∧ f.same f' = true ↔ SameIdentities forms forms')
      ∧ (e.same e' = true ↔ SameIdentities forms forms')
      ∧ (f.same f' = true ↔ SameIdentities forms forms')
      ∧ (SameIdentities forms forms' → e = e' ∧ f = f') := by
  obtain ⟨-, rules, hrules, -⟩ := lower_eq_ok.mp h
  obtain ⟨-, rules', hrules', -⟩ := lower_eq_ok.mp h'
  have hfit : ∀ s ∈ rules, s.Named := fun s hs =>
    named_of_mem_identities hnamed s ((mem_signatures? hnamed hrules s).mp hs)
  have hfit' : ∀ s ∈ rules', s.Named := fun s hs =>
    named_of_mem_identities hnamed' s ((mem_signatures? hnamed' hrules' s).mp hs)
  have hrulesEq := signatures?_eq_iff hnamed hnamed' hrules hrules'
  have hexports := (Options.exportList_same_iff (o := o) hfit hfit').trans hrulesEq
  have hfunction := (Options.introspectionFunction_same_iff (o := o) hfit hfit').trans hrulesEq
  refine ⟨_, _, _, _, getElem?_exportPlace h hrules, getElem?_exportPlace h' hrules',
    getElem?_introspectionPlace h hrules, getElem?_introspectionPlace h' hrules', ?_, hexports,
    hfunction, ?_⟩
  · rw [hexports, hfunction, and_self]
  · intro hsame
    rw [hrulesEq.mpr hsame]
    exact ⟨rfl, rfl⟩

/-- The rules of `clashing` in another order and without its functions: each is given once, the one
in front of the declaration of the module, and the other in one clause. -/
def rearranged : List Form :=
  let clause (patterns : List Expr) (pos : Data) : Clause :=
    ⟨patterns, .absent, [.atom "ok" pos], pos⟩
  [ .file ⟨"m.erl", 1, 1⟩, .rule ⟨"child", [clause [] 2, clause [] 3], 2⟩, .module ⟨"m", none, 4⟩,
    .rule ⟨"parent", [clause [.atom "a" 5] 5], 5⟩, .eof 6 ]

/-- Both modules get one export list and one generated function. -/
theorem rearranged_clashing_generated :
    RulesNamed clashing ∧ RulesNamed rearranged ∧ SameIdentities clashing rearranged
      ∧ ∃ out out' e f, lower {} clashing = .ok out ∧ lower {} rearranged = .ok out'
        ∧ out[2]? = some (.exports e) ∧ out'[2]? = some (.exports e)
        ∧ out[5]? = some (.function f) ∧ out'[5]? = some (.function f) := by
  have hnamed : RulesNamed clashing := by decide
  have hnamed' : RulesNamed rearranged := by decide
  have h : lower {} clashing = .ok _ := rfl
  have h' : lower {} rearranged = .ok _ := rfl
  have hsame : SameIdentities clashing rearranged := by
    have hgiven : identities clashing = [⟨"parent", 1⟩, ⟨"child", 0⟩, ⟨"parent", 1⟩] := rfl
    have hgiven' : identities rearranged = [⟨"child", 0⟩, ⟨"parent", 1⟩] := rfl
    intro s
    rw [hgiven, hgiven']
    grind
  obtain ⟨e, e', f, f', he, he', hf, hf', -, -, -, hequal⟩ :=
    generated_same_iff_sameIdentities hnamed hnamed' h h'
  obtain ⟨rfl, rfl⟩ := hequal hsame
  exact ⟨hnamed, hnamed', hsame, _, _, e, f, h, h', he, he', hf, hf'⟩

end RuleLowering
