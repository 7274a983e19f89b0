import RuleLowering.Proofs.Insertions
import RuleLowering.Proofs.Wording

/-!
# Report and lowering

A malformed rule makes lowering fail, while a report warns about it and goes on. On all other
modules the two say the same: which rules there are, which of them are declared twice, how many
hook calls and how many markers their bodies give rise to. Both fail on a number with too many
digits that they would have to show, a report only for the sake of its warnings.
-/
namespace RuleLowering

/-- A report warns about the arities of exactly the malformed rules. -/
theorem mem_notices_arities {name : Data} {forms : List Form} (hnamed : RulesNamed forms)
    (r : Rule) : Notice.arities r ∈ notices name forms ↔ .rule r ∈ forms ∧ r.Malformed := by
  induction forms generalizing name with
  | nil => simp [notices]
  | cons f rest ih =>
    have hrest : Notice.arities r ∈ notices (f.nameAfter name) rest ↔
        .rule r ∈ rest ∧ r.Malformed := ih fun q hq => hnamed q (.tail f hq)
    have hhere : Notice.arities r ∈ f.notices name ↔ .rule r = f ∧ r.Malformed := by
      cases f with
      | rule q =>
        by_cases hq : q.Malformed
        · rw [Form.notices, Rule.signature?_of_malformed (hnamed q List.mem_cons_self) hq]
          simp only [List.mem_singleton, Notice.arities.injEq, Form.rule.injEq]
          exact ⟨fun h => ⟨h, h ▸ hq⟩, And.left⟩
        · obtain ⟨s, hs⟩ := Rule.signature?_of_not_malformed hq
          rw [Form.notices, hs]
          simp only [List.not_mem_nil, Form.rule.injEq, false_iff]
          rintro ⟨rfl, hr⟩
          exact hq hr
      | module m =>
        simp only [Form.notices, reduceCtorEq, false_and, iff_false]
        split <;> simp
      | _ => simp [Form.notices]
    rw [notices, List.mem_append, hhere, hrest, List.mem_cons, or_and_right]

/-- A malformed rule whose position cannot be written cannot be warned about. -/
theorem not_legible_of_malformed {forms : List Form} {r : Rule} (hnamed : RulesNamed forms)
    (hr : .rule r ∈ forms) (hmalformed : r.Malformed) (hpos : ¬ r.pos.isWritable = true) :
    ¬ Legible forms :=
  fun hlegible => hpos (hlegible.1 _ ((mem_notices_arities hnamed r).mpr ⟨hr, hmalformed⟩))

def DeclaredTwice (forms : List Form) (s : Signature) : Prop :=
  ∃ (front : List Form) (q : Rule) (later : List Form) (r : Rule),
    forms = front ++ .rule q :: later ∧ .rule r ∈ later
      ∧ q.signature? = .ok s ∧ r.signature? = .ok s

theorem pair_sublist_identities {forms : List Form} {s : Signature} :
    [s, s].Sublist (identities forms) ↔ DeclaredTwice forms s := by
  induction forms with
  | nil =>
    constructor
    · intro h
      cases h
    · rintro ⟨front, q, later, r, hnil, -⟩
      simp at hnil
  | cons f rest ih =>
    have hlater : DeclaredTwice (f :: rest) s ↔ DeclaredTwice rest s
        ∨ f.identity? = some s ∧ s ∈ identities rest := by
      rw [Form.identity?_eq_some, mem_identities]
      constructor
      · rintro ⟨front, q, later, r, heq, hr, hq, hrs⟩
        cases front with
        | nil =>
          obtain ⟨rfl, rfl⟩ := List.cons.inj heq
          exact .inr ⟨⟨q, rfl, hq⟩, r, hr, hrs⟩
        | cons g front =>
          obtain ⟨rfl, rfl⟩ := List.cons.inj heq
          exact .inl ⟨front, q, later, r, rfl, hr, hq, hrs⟩
      · rintro (⟨front, q, later, r, rfl, h⟩ | ⟨⟨q, rfl, hq⟩, r, hr, hrs⟩)
        · exact ⟨f :: front, q, later, r, rfl, h⟩
        · exact ⟨[], q, rest, r, rfl, hr, hq, hrs⟩
    rw [hlater, ← ih]
    cases hf : f.identity? with
    | none => simp [identities, hf]
    | some t =>
      rw [identities, List.filterMap_cons_some hf, pair_sublist_cons, Option.some.injEq,
        eq_comm (a := s)]
      rfl

/-- On forms whose rules have names and complete bodies, lowering fails exactly if there is a
malformed rule, and refuses the first of them. There is a report if its warnings can be written. It
warns about the arities of exactly the malformed rules, and where there are none it agrees with
lowering on the list of rules and on the markers and hook calls that are inserted. -/
theorem report_agrees_with_lowering {o : Options} {forms : List Form} (hnamed : RulesNamed forms)
    (hcomplete : RulesComplete forms) :
    ((∃ fault, lower o forms = .error fault) ↔ ∃ r, .rule r ∈ forms ∧ r.Malformed)
      ∧ (∀ (front : List Form) (r : Rule) (rest : List Form),
        forms = front ++ .rule r :: rest → RulesWellFormed front → r.Malformed →
        lower o forms = .error r.refusal ∧ (r.refusal.kind = .form ↔ r.pos.isWritable = true))
      ∧ (Legible forms ∧ (∃ report, Report.ofForms o forms = .ok report)
        ∨ ¬ Legible forms ∧ Report.ofForms o forms = .error .numberTooLong)
      ∧ ∀ report, Report.ofForms o forms = .ok report →
        (∀ r, .rule r ∈ forms → ((Notice.arities r).text ∈ report.warnings ↔ r.Malformed))
          ∧ (∀ q, (Notice.arities q).text ∈ report.warnings →
            ∃ r, .rule r ∈ forms ∧ r.Malformed ∧ (Notice.arities q).text = (Notice.arities r).text)
          ∧ (RulesWellFormed forms →
            signatures? forms = .ok report.rules
              ∧ (∀ s, s ∈ report.duplicates ↔ DeclaredTwice forms s)
              ∧ ∃ out, lower o forms = .ok out
                ∧ (markersOf out).countP (Marker.reports .binaryGenerator) =
                  (markersOf forms).countP (Marker.reports .binaryGenerator)
                    + report.binaryGenerators
                ∧ hookCalls o out = hookCalls o forms + report.generators) := by
  have hsettles := Report.ofForms_settles (o := o) hnamed hcomplete
  refine ⟨lower_fails_iff hnamed hcomplete, ?_, ?_, ?_⟩
  · rintro front r rest rfl hfront hr
    exact ⟨lower_of_first_malformed hnamed hfront hr, Rule.kind_refusal_iff⟩
  · rcases hsettles with ⟨hlegible, report, hreport, -⟩ | hfault
    · exact .inl ⟨hlegible, report, hreport⟩
    · exact .inr hfault
  · intro report hreport
    have hdescribes := hsettles.fit hreport
    have hwarned : ∀ q, (Notice.arities q).text ∈ report.warnings ↔
        ∃ r, (.rule r ∈ forms ∧ r.Malformed)
          ∧ (Notice.arities q).text = (Notice.arities r).text := by
      intro q
      simp only [hdescribes.arities_mem_iff, mem_notices_arities hnamed]
    refine ⟨fun r hr => ⟨fun hwarning => ?_, fun hmalformed => ?_⟩, fun q hwarning => ?_,
      fun hwell => ?_⟩
    · obtain ⟨q, ⟨-, hq⟩, htext⟩ := (hwarned r).mp hwarning
      exact Notice.malformed_of_text_eq htext hq
    · exact (hwarned r).mpr ⟨r, ⟨hr, hmalformed⟩, rfl⟩
    · obtain ⟨r, ⟨hr, hmalformed⟩, htext⟩ := (hwarned q).mp hwarning
      exact ⟨r, hr, hmalformed, htext⟩
    · obtain ⟨out, hout⟩ := exists_lower (o := o) hnamed hcomplete hwell
      refine ⟨?_, fun s => ?_, out, hout, ?_, ?_⟩
      · rw [signatures?_eq_sorted hnamed hwell]
        exact hdescribes.rules
      · exact (hdescribes.duplicates s).trans pair_sublist_identities
      · rw [hdescribes.binaryGenerators]
        exact countP_binaryGenerator_lowered hnamed hout
      · rw [hdescribes.generators]
        exact hookCalls_lowered hnamed hout

def empty : Rule := ⟨"empty", [], 25⟩

/-- Behind the example module it is refused, and warned about. Without it the report lists the rules
and counts the hook calls that lowering inserts. -/
theorem family_report_agrees :
    let family := Example.family true
    let forms := family ++ [.rule empty]
    RulesNamed forms ∧ RulesComplete forms ∧ RulesWellFormed family
      ∧ lower {} forms = .error (.noClauses "empty" 25)
      ∧ (∃ report, Report.ofForms {} forms = .ok report
        ∧ (Notice.arities empty).text ∈ report.warnings)
      ∧ ∃ report out, Report.ofForms {} family = .ok report ∧ lower {} family = .ok out
        ∧ signatures? family = .ok report.rules
        ∧ hookCalls {} out = hookCalls {} family + report.generators := by
  intro family forms
  have hnamed : RulesNamed forms := by decide
  have hcomplete : RulesComplete forms := by decide
  have hnamedFamily : RulesNamed family := (rulesNamed_append.mp hnamed).1
  have hcompleteFamily : RulesComplete family := (rulesComplete_append.mp hcomplete).1
  have hwell : RulesWellFormed family := by decide
  have hrefusal : empty.refusal = .noClauses "empty" 25 := if_pos (by decide +kernel)
  have hlegible : Legible forms := legible_of_all (by decide +kernel) (by decide +kernel)
  have hlegibleFamily : Legible family := legible_of_all (by decide +kernel) (by decide +kernel)
  obtain ⟨-, hfirst, hreport, hagree⟩ := report_agrees_with_lowering (o := {}) hnamed hcomplete
  obtain ⟨-, -, hreportFamily, hagreeFamily⟩ :=
    report_agrees_with_lowering (o := {}) hnamedFamily hcompleteFamily
  obtain ⟨hlower, -⟩ := hfirst family empty [] rfl hwell (.inl rfl)
  obtain ⟨report, hok⟩ := (hreport.resolve_right fun h => h.1 hlegible).2
  obtain ⟨reportFamily, hokFamily⟩ := (hreportFamily.resolve_right fun h => h.1 hlegibleFamily).2
  obtain ⟨hwarned, -⟩ := hagree report hok
  obtain ⟨-, -, hwellAgree⟩ := hagreeFamily reportFamily hokFamily
  obtain ⟨hrules, -, out, hout, -, hcalls⟩ := hwellAgree hwell
  have hmem : Form.rule empty ∈ forms := List.mem_append_right _ List.mem_cons_self
  exact ⟨hnamed, hcomplete, hwell, hrefusal ▸ hlower,
    ⟨report, hok, (hwarned empty hmem).mpr (.inl rfl)⟩,
    reportFamily, out, hokFamily, hout, hrules, hcalls⟩

/-- A rule without clauses, at a position with more digits than are written. -/
def distant : Rule := ⟨"f", [], .int Data.numberLimit⟩

/-- It is refused for its position, and there is no report on it. -/
theorem distant_unreported :
    RulesNamed [.rule distant] ∧ RulesComplete [.rule distant] ∧ distant.Malformed
      ∧ lower {} [.rule distant] = .error .numberTooLong ∧ Fault.numberTooLong.kind ≠ .form
      ∧ Report.ofForms {} [.rule distant] = .error .numberTooLong := by
  have hnamed : RulesNamed [.rule distant] := by decide
  have hcomplete : RulesComplete [.rule distant] := by decide
  have hmalformed : distant.Malformed := .inl rfl
  have hpos : ¬ distant.pos.isWritable = true := by
    rw [distant, Data.isWritable_int, Int.natAbs_natCast]
    exact Nat.lt_irrefl _
  have hrefusal : distant.refusal = .numberTooLong := if_neg hpos
  have hlower : lower {} ([] ++ [.rule distant]) = .error distant.refusal :=
    lower_of_first_malformed hnamed nofun hmalformed
  have hillegible : ¬ Legible [.rule distant] :=
    not_legible_of_malformed hnamed List.mem_cons_self hmalformed hpos
  refine ⟨hnamed, hcomplete, hmalformed, hrefusal ▸ hlower, nofun, ?_⟩
  rcases Report.ofForms_settles (o := {}) hnamed hcomplete with ⟨hlegible, -⟩ | ⟨-, hfault⟩
  · exact absurd hlegible hillegible
  · exact hfault

end RuleLowering
