import RuleLowering.Proofs.Described
import RuleLowering.Proofs.SecondPass

/-!
# The report on a lowered module

The report and the rewrite go over the forms separately, so what they take for a rule, a generator
or a marker has to agree. Lowering keeps all declarations of the module in their order, gives up
each rule for a function, adds a marker for each violation and six more forms. The report on the
lowered module therefore follows from the report on the module.
-/
namespace RuleLowering

open ModuleScan (scan)

def Form.declaration? : Form → Option ModuleDecl
  | .module m => some m
  | _ => none

def declarations (forms : List Form) : List ModuleDecl := forms.filterMap Form.declaration?

section Declarations

theorem declarations_append (xs ys : List Form) :
    declarations (xs ++ ys) = declarations xs ++ declarations ys :=
  List.filterMap_append

theorem declarations_map_marker (ms : List Marker) : declarations (ms.map .marker) = [] := by
  rw [declarations, List.filterMap_eq_nil_iff]
  intro f hf
  obtain ⟨m, -, rfl⟩ := List.mem_map.mp hf
  rfl

theorem declarations_image (o : Options) (f : Form) :
    declarations (f.image o) = declarations [f] := by
  cases f with
  | rule r => exact declarations_map_marker (r.reported o)
  | _ => rfl

theorem declarations_rewritten (o : Options) (forms : List Form) :
    declarations (rewritten o forms) = declarations forms := by
  induction forms with
  | nil => rfl
  | cons f rest ih =>
    rw [rewritten_cons, declarations_append, declarations_image, ih, ← declarations_append]
    rfl

/-- Lowering neither adds nor moves nor drops a declaration. -/
theorem declarations_lowered {o : Options} {forms out : List Form} (h : lower o forms = .ok out) :
    declarations out = declarations forms := by
  obtain ⟨-, rules, -, hout⟩ := lower_eq_ok.mp h
  let s := scan forms
  have hexports : declarations (s.exportBlock o rules) = [] := by
    rw [ModuleScan.exportBlock, declarations_append, declarations_map_marker]
    rfl
  have hintrospection : declarations (s.introspectionBlock o rules) = [] := rfl
  calc declarations out
      = declarations s.leading ++ (declarations s.header ++ declarations s.body) := by
        rw [hout]
        simp only [declarations_append, hexports, hintrospection, declarations_rewritten,
          List.nil_append, List.append_assoc, s]
    _ = declarations forms := by
        rw [← declarations_append, ← declarations_append, ModuleScan.parts_append]

/-- The module name is found among the declarations. -/
theorem nameAfter_eq_declarations (name : Data) (forms : List Form) :
    nameAfter name forms = nameAfter name ((declarations forms).map .module) := by
  induction forms generalizing name with
  | nil => rfl
  | cons f rest ih =>
    cases f with
    | module m => exact ih _
    | _ => exact ih name

/-- If no rule is malformed, only declarations are warned about. -/
theorem notices_eq_declarations {name : Data} {forms : List Form} (hwell : RulesWellFormed forms) :
    notices name forms = notices name ((declarations forms).map .module) := by
  induction forms generalizing name with
  | nil => rfl
  | cons f rest ih =>
    have hrest : RulesWellFormed rest := fun r hr => hwell r (.tail f hr)
    cases f with
    | module m => exact congrArg ((Form.module m).notices name ++ ·) (ih hrest)
    | rule r =>
      obtain ⟨s, hs⟩ := Rule.signature?_of_not_malformed (hwell r List.mem_cons_self)
      have hnone : (Form.rule r).notices name = [] := by rw [Form.notices, hs]
      rw [notices, hnone]
      exact ih hrest
    | _ => exact ih hrest

end Declarations

section Counts

/-- Each generator over a binary of a body is reported once. -/
theorem Expr.length_reported (o : Options) (body : List Expr) :
    (body.flatMap (Expr.reported o)).length = body.countP Expr.isBinaryGenerator := by
  induction body with
  | nil => rfl
  | cons e rest ih =>
    have he : (e.reported o).length = if e.isBinaryGenerator then 1 else 0 := by
      cases e <;> rfl
    rw [List.flatMap_cons, List.length_append, ih, he, List.countP_cons, Nat.add_comm]

theorem Rule.reported_eq_flatMap (o : Options) (r : Rule) :
    r.reported o = (r.clauses.flatMap Clause.body).flatMap (Expr.reported o) := by
  rw [List.flatMap_assoc]
  rfl

/-- A rule with an identity is reported once for each generator over a binary that a report counts
in it. -/
theorem Rule.length_reported {r : Rule} (o : Options) (hr : ¬ r.Malformed) :
    (r.reported o).length = (inspected [.rule r]).countP Expr.isBinaryGenerator := by
  obtain ⟨s, hs⟩ := signature?_of_not_malformed hr
  rw [Rule.reported_eq_flatMap, Expr.length_reported, inspected_of_signature? hs]

def weigh (counted : FormKind → Bool) (kind : FormKind) (n : Nat) : Nat :=
  if counted kind then n else 0

theorem weigh_add (counted : FormKind → Bool) (kind : FormKind) (m n : Nat) :
    weigh counted kind (m + n) = weigh counted kind m + weigh counted kind n := by
  by_cases h : counted kind = true <;> simp [weigh, h]

theorem AddsUp.weigh {count : List Form → Nat} (hcount : AddsUp count) (counted : FormKind → Bool)
    (kind : FormKind) : AddsUp fun forms => weigh counted kind (count forms) := by
  intro xs ys
  dsimp only
  rw [hcount, weigh_add]

variable {o : Options} {forms : List Form} (counted : FormKind → Bool)

theorem countP_markers (ms : List Marker) :
    (ms.map Form.marker).countP (fun f => counted f.kind) = weigh counted .marker ms.length := by
  induction ms with
  | nil => simp [weigh]
  | cons m ms ih =>
    rw [List.map_cons, List.countP_cons, ih, List.length_cons, weigh_add]
    rfl

/-- What takes the place of a rule is a function, and a marker for each violation. -/
theorem countP_image (f : Form) (hf : ∀ r, f = .rule r → ¬ r.Malformed) :
    (f.image o).countP (fun g => counted g.kind) + weigh counted .rule ([f].countP Form.isRule) =
      [f].countP (fun g => counted g.kind) + weigh counted .function ([f].countP Form.isRule)
        + weigh counted .marker ((inspected [f]).countP Expr.isBinaryGenerator) := by
  cases hrule : f.isRule with
  | true =>
    obtain ⟨r, rfl⟩ := Form.isRule_iff.mp hrule
    have hone : [Form.rule r].countP Form.isRule = 1 := rfl
    rw [Form.image, List.countP_cons, countP_markers, Rule.length_reported o (hf r rfl), hone,
      List.countP_singleton]
    change _ + weigh counted .function 1 + _ = weigh counted .rule 1 + _ + _
    omega
  | false =>
    have hnone : [f].countP Form.isRule = 0 := by
      rw [List.countP_singleton, hrule]
      rfl
    have hinspected : inspected [f] = [] := by
      cases f <;> first | rfl | cases hrule
    rw [Form.image_of_not_isRule hrule, hnone, hinspected]
    simp [weigh]

/-- The flat rewrite has a function more for each rule and a marker more for each violation. -/
theorem countP_rewritten (hwell : RulesWellFormed forms) :
    (rewritten o forms).countP (fun f => counted f.kind)
        + weigh counted .rule (forms.countP Form.isRule) =
      forms.countP (fun f => counted f.kind)
        + weigh counted .function (forms.countP Form.isRule)
        + weigh counted .marker ((inspected forms).countP Expr.isBinaryGenerator) :=
  AddsUp.rewritten (.countP _) (.weigh (.countP _) counted .rule)
    (.add (.add (.countP _) (.weigh (.countP _) counted .function))
      (.weigh (.inspected _) counted .marker))
    fun f hf => countP_image counted f fun r hr => hwell r (hr ▸ hf)

theorem length_markers (s : ModuleScan) (origin : Text) :
    (s.markers origin).length = if s.declaration.any (·.parameters.isSome) then 1 else 0 := by
  rw [ModuleScan.markers]
  cases s.declaration with
  | none => rfl
  | some m => cases h : m.parameters.isSome <;> simp [h]

theorem countP_exportBlock (s : ModuleScan) (rules : List Signature) :
    (s.exportBlock o rules).countP (fun f => counted f.kind) =
      weigh counted .marker (s.markers o.origin).length + weigh counted .attr 3 := by
  rw [ModuleScan.exportBlock, List.countP_append, countP_markers]
  by_cases h : counted .attr = true <;> simp [weigh, Form.kind, h]

theorem countP_introspectionBlock (s : ModuleScan) (rules : List Signature) :
    (s.introspectionBlock o rules).countP (fun f => counted f.kind) =
      weigh counted .attr 2 + weigh counted .function 1 := by
  by_cases hattr : counted .attr = true <;> by_cases hfunction : counted .function = true <;>
    simp [ModuleScan.introspectionBlock, weigh, Form.kind, hattr, hfunction]

/-- A lowered module has a function for each rule and one more, a marker for each violation, and
five more attributes. -/
theorem countP_lowered {out : List Form} (hnamed : RulesNamed forms) (h : lower o forms = .ok out) :
    out.countP (fun f => counted f.kind) + weigh counted .rule (forms.countP Form.isRule) =
      forms.countP (fun f => counted f.kind) + weigh counted .attr 5
        + weigh counted .function (forms.countP Form.isRule + 1)
        + weigh counted .marker (((scan forms).markers o.origin).length
          + (inspected forms).countP Expr.isBinaryGenerator) := by
  have hflat := countP_rewritten (o := o) counted (rulesWellFormed_of_lower hnamed h)
  obtain ⟨-, rules, -, rfl⟩ := lower_eq_ok.mp h
  rw [ModuleScan.rewritten_parts, List.countP_append, List.countP_append] at hflat
  have hattr : weigh counted .attr 5 = weigh counted .attr 3 + weigh counted .attr 2 :=
    weigh_add counted .attr 3 2
  rw [List.countP_append, List.countP_append, List.countP_append, List.countP_append,
    countP_exportBlock, countP_introspectionBlock, weigh_add, weigh_add, hattr]
  omega

end Counts

section Ruleless

variable {forms : List Form}

theorem identities_of_not_isRule (hforms : ∀ f ∈ forms, f.isRule = false) :
    identities forms = [] := by
  rw [List.eq_nil_iff_forall_not_mem]
  intro s hs
  obtain ⟨r, hr, -⟩ := mem_identities.mp hs
  cases hforms _ hr

theorem inspected_of_not_isRule (hforms : ∀ f ∈ forms, f.isRule = false) :
    inspected forms = [] := by
  rw [inspected, List.flatMap_eq_nil_iff]
  intro f hf
  cases f with
  | rule r => cases hforms _ hf
  | _ => rfl

/-- What is said of rules and generators where there are no rules. -/
theorem Report.Describes.of_not_isRule {o : Options} {report : Report}
    (h : Describes o forms report) (hforms : ∀ f ∈ forms, f.isRule = false) :
    report.count .rule = 0 ∧ report.generators = 0 ∧ report.binaryGenerators = 0
      ∧ report.rules = [] ∧ report.duplicates = [] := by
  have hidentities := identities_of_not_isRule hforms
  have hinspected := inspected_of_not_isRule hforms
  refine ⟨?_, ?_, ?_, ?_, ?_⟩
  · rw [h.kinds, List.countP_eq_zero]
    intro f hf
    exact Bool.eq_false_iff.mp (hforms f hf)
  · rw [h.generators, hinspected, List.countP_nil]
  · rw [h.binaryGenerators, hinspected, List.countP_nil]
  · have hrules := h.rules
    rw [hidentities] at hrules
    exact (Except.ok.inj hrules).symm
  · rw [List.eq_nil_iff_forall_not_mem]
    intro s hs
    have htwice := (h.duplicates s).mp hs
    rw [hidentities] at htwice
    cases htwice

end Ruleless

/-- A report on a lowered module warns of the declarations that a report on the module warns of. -/
theorem notices_lowered {o : Options} {forms out : List Form} (hnamed : RulesNamed forms)
    (h : lower o forms = .ok out) : notices .null out = notices .null forms := by
  have hwell : RulesWellFormed out := by
    intro r hr
    cases not_isRule_of_mem_lowered h hr
  rw [notices_eq_declarations hwell, declarations_lowered h,
    ← notices_eq_declarations (rulesWellFormed_of_lower hnamed h)]

theorem legible_lowered {o : Options} {forms out : List Form} (hnamed : RulesNamed forms)
    (h : lower o forms = .ok out) (hforms : Legible forms) : Legible out := by
  constructor
  · rw [notices_lowered hnamed h]
    exact hforms.1
  · intro s hs
    rw [identities_of_not_isRule fun f hf => not_isRule_of_mem_lowered h hf] at hs
    cases hs

/-- The forms that reports on a module and on the lowered module count, all together and by kind. -/
theorem Report.Describes.counts_lowered {o : Options} {forms out : List Form}
    {before after : Report} (hin : Describes o forms before) (hout : Describes o out after)
    (hnamed : RulesNamed forms) (h : lower o forms = .ok out) :
    let violations := ((scan forms).markers o.origin).length + before.binaryGenerators
    after.totalForms = before.totalForms + 6 + violations
      ∧ ∀ k ≠ .rule, after.count k = before.count k + weigh (· == k) .attr 5
        + weigh (· == k) .function (forms.countP Form.isRule + 1)
        + weigh (· == k) .marker violations := by
  constructor
  · have hcount := countP_lowered (fun _ => true) hnamed h
    simp only [weigh, if_true, List.countP_true] at hcount
    rw [hout.total, hin.total, hin.binaryGenerators]
    omega
  · intro k hk
    have hcount := countP_lowered (· == k) hnamed h
    have hzero : weigh (· == k) .rule (forms.countP Form.isRule) = 0 :=
      if_neg fun heq => hk (eq_of_beq heq).symm
    rw [hout.kinds, hin.kinds, hin.binaryGenerators]
    omega

/-- If there is a report on a module that can be lowered, there is one on the lowered module. The
generated forms are five attributes, a function, and a marker for each violation; each rule has
become a function. No rule and no generator is left, and the module keeps its name. -/
theorem report_of_lowered {o : Options} {forms out : List Form} (hnamed : RulesNamed forms)
    (h : lower o forms = .ok out) :
    let p := if (scan forms).declaration.any (·.parameters.isSome) then 1 else 0
    ((∃ before, Report.ofForms o forms = .ok before) ↔ Legible forms)
      ∧ ∀ before, Report.ofForms o forms = .ok before →
        ∃ after, Report.ofForms o out = .ok after
          ∧ after.totalForms = before.totalForms + 6 + p + before.binaryGenerators
          ∧ after.count .attr = before.count .attr + 5
          ∧ after.count .function = before.count .function + forms.countP Form.isRule + 1
          ∧ after.count .rule = 0
          ∧ after.count .marker = before.count .marker + p + before.binaryGenerators
          ∧ after.count .eof = before.count .eof
          ∧ after.existingMarkers = before.existingMarkers + p + before.binaryGenerators
          ∧ after.generators = 0 ∧ after.binaryGenerators = 0
          ∧ after.rules = [] ∧ after.duplicates = []
          ∧ after.alreadyLowered = true
          ∧ after.moduleName = before.moduleName := by
  intro p
  obtain ⟨hcomplete, -⟩ := lower_eq_ok.mp h
  have hrule : ∀ f ∈ out, f.isRule = false := fun f hf => not_isRule_of_mem_lowered h hf
  have hnamedOut : RulesNamed out := fun r hr => absurd (hrule _ hr) Bool.noConfusion
  have hcompleteOut : RulesComplete out := fun r hr => absurd (hrule _ hr) Bool.noConfusion
  have hsettles := Report.ofForms_settles (o := o) hnamed hcomplete
  have hsettlesOut := Report.ofForms_settles (o := o) hnamedOut hcompleteOut
  refine ⟨hsettles.exists_ok_iff, fun before hbefore => ?_⟩
  have hlegible := hsettles.exists_ok_iff.mp ⟨before, hbefore⟩
  obtain ⟨after, hafter⟩ := hsettlesOut.exists_ok_iff.mpr (legible_lowered hnamed h hlegible)
  have hin := hsettles.fit hbefore
  have hout := hsettlesOut.fit hafter
  obtain ⟨hrules, hgenerators, hbinary, hlisted, hduplicates⟩ := hout.of_not_isRule hrule
  obtain ⟨htotal, hkind⟩ := hin.counts_lowered hout hnamed h
  rw [length_markers, ← Nat.add_assoc] at htotal
  simp only [length_markers] at hkind
  have hmarkers : after.count .marker = before.count .marker + p + before.binaryGenerators :=
    (hkind .marker nofun).trans (Nat.add_assoc _ _ _).symm
  refine ⟨after, hafter, htotal, hkind .attr nofun,
    (hkind .function nofun).trans (Nat.add_assoc _ _ _).symm, hrules, hmarkers, hkind .eof nofun, ?_,
    hgenerators, hbinary, hlisted, hduplicates, ?_, ?_⟩
  · rw [hout.markers, hin.markers, ← hout.kinds, ← hin.kinds]
    exact hmarkers
  · rw [hout.lowered, isLowered_lowered h]
  · rw [hout.name, hin.name, nameAfter_eq_declarations, declarations_lowered h,
      ← nameAfter_eq_declarations]

/-- The example module with errors: eight forms are added, and four rules have become functions. -/
theorem family_report_of_lowered :
    RulesNamed (Example.family true) ∧ ∃ out before after, lower {} (Example.family true) = .ok out
      ∧ Report.ofForms {} (Example.family true) = .ok before ∧ Report.ofForms {} out = .ok after
      ∧ after.totalForms = before.totalForms + 7 + before.binaryGenerators
      ∧ after.count .function = before.count .function + 5
      ∧ after.moduleName = before.moduleName := by
  have hnamed : RulesNamed (Example.family true) := by decide
  have h : lower {} (Example.family true) = .ok _ := rfl
  have hlegible : Legible (Example.family true) :=
    legible_of_all (by decide +kernel) (by decide +kernel)
  obtain ⟨hexists, hreport⟩ := report_of_lowered hnamed h
  obtain ⟨before, hbefore⟩ := hexists.mpr hlegible
  obtain ⟨after, hafter, htotal, -, hfunction, -, -, -, -, -, -, -, -, -, hname⟩ :=
    hreport before hbefore
  exact ⟨hnamed, _, before, after, h, hbefore, hafter, htotal, hfunction, hname⟩

end RuleLowering
