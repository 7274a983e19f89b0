import RuleLowering.Proofs.Identities
import RuleLowering.Proofs.Splice

/-!
# Exports and definitions

The export list is made from the rules of the whole module, and functions come from the rewrite
of its body. Both take the identity of a rule from its clauses: the list from the one arity that
all of them share, a function from its first clause alone. On rules that are listed at all these
are the same, so what is exported is defined.
-/
namespace RuleLowering

def Function.signature (f : Function) : Signature := ⟨f.name, .int f.arity⟩

namespace Form

def defines (s : Signature) : Form → Bool
  | .function f => f.signature.same s
  | _ => false

def declares (s : Signature) : Form → Bool
  | .rule r =>
    match r.signature? with
    | .ok identity => identity.same s
    | .error _ => false
  | _ => false

end Form

/-- The function that takes the place of a rule has the identity of the rule. -/
theorem Rule.signature_rewritten {r : Rule} {s : Signature} (o : Options)
    (h : r.signature? = .ok s) : (r.rewritten o).signature = s := by
  obtain ⟨hne, n, hall, rfl⟩ := Rule.signature?_eq_ok.mp h
  obtain ⟨c, rest, hclauses⟩ := List.exists_cons_of_ne_nil hne
  have harity : (r.rewritten o).arity = c.arity := by
    rw [Function.arity, Rule.rewritten, hclauses]
    exact Clause.arity_rewritten o c
  have hc : c.arity = n := hall c (hclauses ▸ List.mem_cons_self)
  rw [Function.signature, harity, hc]
  rfl

/-- Markers define nothing. -/
theorem countP_defines_markers (s : Signature) (ms : List Marker) :
    (ms.map .marker).countP (Form.defines s) = 0 := by
  rw [List.countP_eq_zero]
  intro f hf
  obtain ⟨m, -, rfl⟩ := List.mem_map.mp hf
  exact Bool.false_ne_true

/-- What takes the place of a form defines what the form defines or, as a rule, declares. -/
theorem countP_defines_image {o : Options} {f : Form} (s : Signature)
    (hrule : ∀ r, f = .rule r → ∃ identity, r.signature? = .ok identity) :
    (f.image o).countP (Form.defines s) =
      [f].countP (Form.defines s) + [f].countP (Form.declares s) := by
  cases hf : f.isRule with
  | true =>
    obtain ⟨r, rfl⟩ := Form.isRule_iff.mp hf
    obtain ⟨identity, hr⟩ := hrule r rfl
    have hfunction : Form.defines s (.function (r.rewritten o)) = identity.same s := by
      rw [Form.defines, Rule.signature_rewritten o hr]
    have hdeclares : Form.declares s (.rule r) = identity.same s := by
      rw [Form.declares, hr]
    have hdefines : Form.defines s (.rule r) = false := rfl
    rw [Form.image, List.countP_cons, countP_defines_markers, hfunction, List.countP_singleton,
      List.countP_singleton, hdeclares, hdefines]
    rfl
  | false =>
    have hdeclares : Form.declares s f = false := by
      cases f <;> first | rfl | cases hf
    rw [Form.image_of_not_isRule hf, List.countP_singleton (p := Form.declares s), hdeclares]
    rfl

/-- The flat rewrite defines what the functions of the input define and its rules declare. -/
theorem countP_defines_rewritten {o : Options} {forms : List Form} (s : Signature)
    (hrules : ∀ r, .rule r ∈ forms → ∃ identity, r.signature? = .ok identity) :
    (rewritten o forms).countP (Form.defines s) =
      forms.countP (Form.defines s) + forms.countP (Form.declares s) :=
  AddsUp.rewritten (.countP _) .zero (.add (.countP _) (.countP _)) fun _ hf =>
    countP_defines_image s fun r hr => hrules r (hr ▸ hf)

namespace ModuleScan

def exportPlace (s : ModuleScan) (o : Options) : Nat :=
  s.leading.length + (s.markers o.origin).length + 1

def introspectionPlace (s : ModuleScan) (o : Options) : Nat :=
  s.exportPlace o + s.header.length + 3

theorem countP_defines_exportBlock (s : ModuleScan) (o : Options) (rules : List Signature)
    (sig : Signature) : (s.exportBlock o rules).countP (Form.defines sig) = 0 := by
  rw [exportBlock, List.countP_append, countP_defines_markers]
  rfl

/-- Of the generated forms one function defines something, and that without parameters. -/
theorem countP_defines_introspectionBlock (s : ModuleScan) (o : Options) (rules : List Signature)
    (sig : Signature) :
    (s.introspectionBlock o rules).countP (Form.defines sig) =
      if o.introspectionSignature.same sig then 1 else 0 := by
  have hfunction : Form.defines sig (.function (o.introspectionFunction rules)) =
      o.introspectionSignature.same sig := rfl
  have hfile : ∀ mark, Form.defines sig (.file mark) = false := fun _ => rfl
  simp [introspectionBlock, List.countP_cons, hfunction, hfile]

end ModuleScan

open ModuleScan (scan)

/-- Each identity is defined as often as by functions and rules together, and that of the
generated function once more. -/
theorem countP_defines_lowered {o : Options} {forms out : List Form} (s : Signature)
    (h : lower o forms = .ok out)
    (hrules : ∀ r, .rule r ∈ forms → ∃ identity, r.signature? = .ok identity) :
    out.countP (Form.defines s) =
      forms.countP (Form.defines s) + forms.countP (Form.declares s)
        + if o.introspectionSignature.same s then 1 else 0 := by
  obtain ⟨-, rules, -, rfl⟩ := lower_eq_ok.mp h
  have hflat := countP_defines_rewritten (o := o) s hrules
  rw [ModuleScan.rewritten_parts, List.countP_append, List.countP_append] at hflat
  rw [List.countP_append, List.countP_append, List.countP_append, List.countP_append,
    ModuleScan.countP_defines_exportBlock, ModuleScan.countP_defines_introspectionBlock]
  omega

/-- The flat rewrite is part of a lowered module. -/
theorem mem_lowered_of_mem_rewritten {o : Options} {forms out : List Form} {f : Form}
    (h : lower o forms = .ok out) (hf : f ∈ rewritten o forms) : f ∈ out := by
  obtain ⟨-, rules, -, rfl⟩ := lower_eq_ok.mp h
  rw [ModuleScan.rewritten_parts, List.mem_append, List.mem_append] at hf
  simp only [List.mem_append]
  rcases hf with hf | hf | hf
  · exact .inl (.inl (.inl (.inl hf)))
  · exact .inl (.inl (.inr hf))
  · exact .inr hf

namespace ModuleScan

def beforeExports (s : ModuleScan) (o : Options) : List Form :=
  s.leading ++ (s.markers o.origin).map .marker ++ [.file (.start o.origin)]

def beforeIntrospection (s : ModuleScan) (o : Options) (rules : List Signature) : List Form :=
  s.leading ++ s.exportBlock o rules ++ s.header ++ [.file (.start o.origin)]

theorem length_beforeExports (s : ModuleScan) (o : Options) :
    (s.beforeExports o).length = s.exportPlace o := by
  simp only [beforeExports, List.length_append, List.length_map, List.length_singleton, exportPlace]

theorem length_beforeIntrospection (s : ModuleScan) (o : Options) (rules : List Signature) :
    (s.beforeIntrospection o rules).length = s.introspectionPlace o := by
  simp only [beforeIntrospection, List.length_append, length_exportBlock, List.length_singleton,
    introspectionPlace, exportPlace]
  omega

theorem leading_append_exportBlock (s : ModuleScan) (o : Options) (rules : List Signature)
    (later : List Form) :
    s.leading ++ s.exportBlock o rules ++ later =
      s.beforeExports o ++ .exports (o.exportList rules) :: .file s.mark :: later := by
  simp [exportBlock, beforeExports]

theorem header_append_introspectionBlock (s : ModuleScan) (o : Options) (rules : List Signature)
    (later : List Form) :
    s.leading ++ s.exportBlock o rules ++ s.header ++ s.introspectionBlock o rules ++ later =
      s.beforeIntrospection o rules
        ++ .function (o.introspectionFunction rules) :: .file s.mark :: later := by
  simp [introspectionBlock, beforeIntrospection]

end ModuleScan

theorem getElem?_append_cons_of_length {α : Type} {before after : List α} {a : α} {n : Nat}
    (hn : before.length = n) : (before ++ a :: after)[n]? = some a := by
  rw [← hn, List.getElem?_append_right (Nat.le_refl _), Nat.sub_self]
  rfl

/-- The generated export list stands in its place. -/
theorem getElem?_exportPlace {o : Options} {forms out : List Form} {rules : List Signature}
    (h : lower o forms = .ok out) (hrules : signatures? forms = .ok rules) :
    out[(scan forms).exportPlace o]? = some (.exports (o.exportList rules)) := by
  obtain ⟨-, rules', hrules', rfl⟩ := lower_eq_ok.mp h
  obtain rfl : rules' = rules := Except.ok.inj (hrules'.symm.trans hrules)
  rw [List.append_assoc _ _ (rewritten o _), List.append_assoc _ (scan forms).header,
    ModuleScan.leading_append_exportBlock]
  exact getElem?_append_cons_of_length (ModuleScan.length_beforeExports _ o)

/-- The generated function stands in its place. -/
theorem getElem?_introspectionPlace {o : Options} {forms out : List Form} {rules : List Signature}
    (h : lower o forms = .ok out) (hrules : signatures? forms = .ok rules) :
    out[(scan forms).introspectionPlace o]? = some (.function (o.introspectionFunction rules)) := by
  obtain ⟨-, rules', hrules', rfl⟩ := lower_eq_ok.mp h
  obtain rfl : rules' = rules := Except.ok.inj (hrules'.symm.trans hrules)
  rw [ModuleScan.header_append_introspectionBlock]
  exact getElem?_append_cons_of_length (ModuleScan.length_beforeIntrospection _ o rules')

/-- Each listed identity, and that of the generated function, is the identity of some function of
the lowered module. -/
theorem exists_function_of_exported {o : Options} {forms out : List Form}
    {rules : List Signature} (h : lower o forms = .ok out) (hrules : signatures? forms = .ok rules)
    (hgiven : ∀ s ∈ rules, ∃ r, .rule r ∈ forms ∧ r.signature? = .ok s) :
    ∀ s ∈ o.introspectionSignature :: rules, ∃ f, .function f ∈ out ∧ f.signature = s := by
  intro s hs
  rcases List.mem_cons.mp hs with rfl | hs
  · exact ⟨o.introspectionFunction rules,
      List.mem_of_getElem? (getElem?_introspectionPlace h hrules), rfl⟩
  · obtain ⟨r, hr, hrs⟩ := hgiven s hs
    have himage : .function (r.rewritten o) ∈ (Form.rule r).image o := List.mem_cons_self
    have hflat : .function (r.rewritten o) ∈ rewritten o forms :=
      List.mem_flatMap.mpr ⟨.rule r, hr, himage⟩
    exact ⟨r.rewritten o, mem_lowered_of_mem_rewritten h hflat, Rule.signature_rewritten o hrs⟩

/-- Lowering adds one definition for each rule and one for the generated function. The export list
names that function and then every identity of a rule, in strictly ascending order, and all of
them are defined. The function has one clause, which returns the same identities in order. -/
theorem exports_agree_with_definitions {o : Options} {forms out : List Form}
    (hnamed : RulesNamed forms) (h : lower o forms = .ok out) :
    (∀ s, out.countP (Form.defines s) =
      forms.countP (Form.defines s) + forms.countP (Form.declares s)
        + if Signature.same ⟨.str o.introspection, 0⟩ s then 1 else 0)
      ∧ ∃ rules : List Signature,
        out[(scan forms).exportPlace o]? =
            some (.exports ⟨⟨.str o.introspection, 0⟩ :: rules, generatedPos⟩)
          ∧ (∀ r, .rule r ∈ forms → ∃ s ∈ rules, r.signature? = .ok s)
          ∧ (∀ s ∈ rules, ∃ r, .rule r ∈ forms ∧ r.signature? = .ok s)
          ∧ rules.Pairwise Signature.Precedes
          ∧ (∀ s ∈ ⟨.str o.introspection, 0⟩ :: rules, ∃ f, .function f ∈ out ∧ f.signature = s)
          ∧ out[(scan forms).introspectionPlace o]? = some (.function {
              name := .str o.introspection
              clauses := [{
                patterns := []
                guard := .absent
                body := [.list (rules.map fun s =>
                  .tuple [.atom s.name generatedPos, .literal s.arity generatedPos] generatedPos)
                  generatedPos]
                pos := generatedPos }]
              pos := generatedPos }) := by
  obtain ⟨-, rules, hrules, -⟩ := lower_eq_ok.mp h
  obtain ⟨hidentity, hmem, hpairwise⟩ := signatures?_spec hnamed hrules
  have hlisted : ∀ r, .rule r ∈ forms → ∃ s ∈ rules, r.signature? = .ok s := by
    intro r hr
    obtain ⟨s, hs⟩ := hidentity r hr
    exact ⟨s, (hmem s).mpr ⟨r, hr, hs⟩, hs⟩
  have hgiven : ∀ s ∈ rules, ∃ r, .rule r ∈ forms ∧ r.signature? = .ok s :=
    fun s hs => (hmem s).mp hs
  exact ⟨fun s => countP_defines_lowered s h hidentity, rules, getElem?_exportPlace h hrules,
    hlisted, hgiven, hpairwise, exists_function_of_exported h hrules hgiven,
    getElem?_introspectionPlace h hrules⟩

/-- A module in which a rule is repeated, a function has the identity of a rule, and another one
has no clauses and the identity of the generated function. -/
def clashing : List Form :=
  let clause (patterns : List Expr) (pos : Data) : Clause :=
    ⟨patterns, .absent, [.atom "ok" pos], pos⟩
  let one (pos : Data) : Clause := clause [.var "X" pos] pos
  [ .module ⟨"m", none, 1⟩,
    .rule ⟨"parent", [one 2, one 3], 2⟩, .function ⟨"parent", [one 4, clause [] 5], 4⟩,
    .rule ⟨"child", [clause [] 6], 6⟩, .function ⟨"henshin_rules", [], 7⟩,
    .rule ⟨"parent", [one 8], 8⟩ ]

/-- What clashes is defined as often as it is given, and exported once. -/
theorem clashing_exports_agree :
    RulesNamed clashing ∧ ∃ out rules, lower {} clashing = .ok out
      ∧ out.countP (Form.defines ⟨"parent", 1⟩) = 3
      ∧ out.countP (Form.defines ⟨"henshin_rules", 0⟩) = 2
      ∧ out[2]? = some (.exports ⟨⟨"henshin_rules", 0⟩ :: rules, 1⟩)
      ∧ rules.Pairwise Signature.Precedes
      ∧ ⟨"parent", 1⟩ ∈ rules := by
  have hnamed : RulesNamed clashing := by
    intro r hr
    simp only [clashing, List.mem_cons, List.not_mem_nil, or_false, reduceCtorEq, false_or,
      Form.rule.injEq] at hr
    rcases hr with rfl | rfl | rfl
    · exact ⟨_, rfl⟩
    · exact ⟨_, rfl⟩
    · exact ⟨_, rfl⟩
  have h : lower {} clashing = .ok _ := rfl
  obtain ⟨hcount, rules, hexports, hlisted, -, hpairwise, -, -⟩ :=
    exports_agree_with_definitions hnamed h
  obtain ⟨s, hs, hparent⟩ := hlisted _ (List.mem_cons_of_mem _ List.mem_cons_self)
  obtain rfl : ⟨"parent", 1⟩ = s := Except.ok.inj hparent
  exact ⟨hnamed, _, rules, h, hcount ⟨"parent", 1⟩, hcount ⟨"henshin_rules", 0⟩, hexports,
    hpairwise, hs⟩

end RuleLowering
