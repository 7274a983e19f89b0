import RuleLowering.Proofs.Identities
import RuleLowering.Proofs.Splice

/-!
# Malformed rules

A rule without clauses, or with clauses of different arities, has no identity. Of modules whose
bodies are complete lowering refuses those with such a rule and no others: the identities are
listed in the order of the rules, so it is the first malformed rule that the fault is about, and
where there is none every later step succeeds.
-/
namespace RuleLowering

namespace Data

@[simp] theorem isWritable_str (t : Text) : isWritable (.str t) = true := rfl

/-- A whole number can be written if it has no more digits than the limit. -/
theorem isWritable_int {n : Int} : isWritable (.int n) = true ↔ n.natAbs < numberLimit := by
  rw [isWritable, isWritableIn, decide_eq_true_iff]

end Data

namespace Rule

/-- There are no clauses, or two of them differ in arity. -/
def Malformed (r : Rule) : Prop :=
  r.clauses = [] ∨ ∃ c ∈ r.clauses, ∃ d ∈ r.clauses, c.arity ≠ d.arity

/-- The fault of a malformed rule. It names the rule, unless its position has too many digits. -/
def refusal (r : Rule) : Fault :=
  if r.pos.isWritable then
    if r.clauses.isEmpty then .noClauses r.name r.pos
    else .mixedArity r.name r.pos (aritiesOf r.clauses)
  else .numberTooLong

/-- Exactly the malformed rules have no identity. -/
theorem malformed_iff {r : Rule} : r.Malformed ↔ ¬ ∃ s, r.signature? = .ok s := by
  constructor
  · rintro hr ⟨s, hs⟩
    obtain ⟨hne, n, hall, -⟩ := signature?_eq_ok.mp hs
    rcases hr with hnil | ⟨c, hc, d, hd, hcd⟩
    · exact hne hnil
    · exact hcd ((hall c hc).trans (hall d hd).symm)
  · intro hnone
    by_cases hnil : r.clauses = []
    · exact .inl hnil
    · obtain ⟨c, rest, hclauses⟩ := List.exists_cons_of_ne_nil hnil
      have hc : c ∈ r.clauses := hclauses ▸ List.mem_cons_self
      by_cases hall : ∀ d ∈ r.clauses, d.arity = c.arity
      · exact absurd ⟨_, signature?_eq_ok.mpr ⟨hnil, c.arity, hall, rfl⟩⟩ hnone
      · obtain ⟨d, hrest⟩ := Classical.not_forall.mp hall
        obtain ⟨hd, hdc⟩ := Classical.not_imp.mp hrest
        exact .inr ⟨d, hd, c, hc, hdc⟩

theorem signature?_of_not_malformed {r : Rule} (hr : ¬ r.Malformed) : ∃ s, r.signature? = .ok s :=
  Classical.not_not.mp fun h => hr (malformed_iff.mpr h)

theorem not_malformed_of_signature? {r : Rule} {s : Signature} (h : r.signature? = .ok s) :
    ¬ r.Malformed :=
  fun hr => malformed_iff.mp hr ⟨s, h⟩

/-- A malformed rule with a text as its name is refused. -/
theorem signature?_of_malformed {r : Rule} (hname : ∃ t, r.name = .str t) (hr : r.Malformed) :
    r.signature? = .error r.refusal := by
  obtain ⟨t, ht⟩ := hname
  have hshowing : ∀ fault : Fault, fault.showing [r.name, r.pos] =
      if r.pos.isWritable then fault else .numberTooLong := by
    intro fault
    simp [Fault.showing, ht]
  rw [signature?]
  split
  · rename_i harities
    have hempty : r.clauses.isEmpty = true := by
      rw [List.isEmpty_iff, List.eq_nil_iff_forall_not_mem]
      intro c hc
      have hmem := ((aritiesOf_spec r.clauses).2 c.arity).mpr ⟨c, hc, rfl⟩
      rw [harities] at hmem
      cases hmem
    rw [hshowing, refusal, hempty]
    rfl
  · rename_i n harities
    obtain ⟨hne, hall⟩ := aritiesOf_eq_singleton.mp harities
    exact absurd hr (not_malformed_of_signature? (signature?_eq_ok.mpr ⟨hne, n, hall, rfl⟩))
  · rename_i hnil _
    have hempty : r.clauses.isEmpty = false := by
      rw [Bool.eq_false_iff, Ne, List.isEmpty_iff]
      intro hclauses
      apply hnil
      rw [hclauses]
      rfl
    rw [hshowing, refusal, hempty]
    rfl

/-- The fault is about the form of the rule, unless the position cannot be written. -/
theorem kind_refusal_iff {r : Rule} : r.refusal.kind = .form ↔ r.pos.isWritable = true := by
  by_cases hpos : r.pos.isWritable = true
  · have hkind : r.refusal.kind = .form := by
      rw [refusal, if_pos hpos]
      split <;> rfl
    exact iff_of_true hkind hpos
  · rw [refusal, if_neg hpos]
    exact iff_of_false nofun hpos

end Rule

def Form.identity? : Form → Option Signature
  | .rule r => r.signature?.toOption
  | _ => none

theorem Form.identity?_eq_some {f : Form} {s : Signature} :
    f.identity? = some s ↔ ∃ r, f = .rule r ∧ r.signature? = .ok s := by
  cases f with
  | rule r =>
    rw [Form.identity?]
    cases h : r.signature? with
    | ok t => simp [Except.toOption, h]
    | error fault => simp [Except.toOption, h]
  | _ => simp [Form.identity?]

/-- The identities of the rules that have one, in the order of the rules. -/
def identities (forms : List Form) : List Signature := forms.filterMap Form.identity?

theorem mem_identities {forms : List Form} {s : Signature} :
    s ∈ identities forms ↔ ∃ r, .rule r ∈ forms ∧ r.signature? = .ok s := by
  simp only [identities, List.mem_filterMap, Form.identity?_eq_some]
  constructor
  · rintro ⟨f, hf, r, rfl, hs⟩
    exact ⟨r, hf, hs⟩
  · rintro ⟨r, hr, hs⟩
    exact ⟨.rule r, hr, r, rfl, hs⟩

theorem named_of_mem_identities {forms : List Form} (hnamed : RulesNamed forms) :
    ∀ s ∈ identities forms, s.Named := by
  intro s hs
  obtain ⟨r, hr, hrs⟩ := mem_identities.mp hs
  exact Rule.named_of_signature? (hnamed r hr) hrs

def RulesWellFormed (forms : List Form) : Prop := ∀ r, .rule r ∈ forms → ¬ r.Malformed

theorem rulesNamed_append {xs ys : List Form} :
    RulesNamed (xs ++ ys) ↔ RulesNamed xs ∧ RulesNamed ys := by
  simp only [RulesNamed, List.mem_append, or_imp, forall_and]

theorem rulesComplete_append {xs ys : List Form} :
    RulesComplete (xs ++ ys) ↔ RulesComplete xs ∧ RulesComplete ys := by
  simp only [RulesComplete, List.mem_append, or_imp, forall_and]

theorem rulesWellFormed_append {xs ys : List Form} :
    RulesWellFormed (xs ++ ys) ↔ RulesWellFormed xs ∧ RulesWellFormed ys := by
  simp only [RulesWellFormed, List.mem_append, or_imp, forall_and]

section Decidability

theorem forall_rule_iff {P : Rule → Prop} {forms : List Form} :
    (∀ r ∈ forms.filterMap Form.rule?, P r) ↔ ∀ r, .rule r ∈ forms → P r := by
  simp only [mem_rules]

instance (d : Data) : Decidable (∃ t, d = .str t) :=
  decidable_of_iff (d.text?.isSome = true) (by simp [Option.isSome_iff_exists, Data.text?_eq_some])

instance (c : Clause) : Decidable c.Complete :=
  decidable_of_iff (∀ e ∈ c.body, e.isAbsent = false) (by
    constructor
    · intro h habsent
      cases h _ habsent
    · intro h e he
      cases e <;> first | rfl | exact absurd he h)

instance (r : Rule) : Decidable r.Complete :=
  inferInstanceAs (Decidable (∀ c ∈ r.clauses, c.Complete))

instance (r : Rule) : Decidable r.Malformed :=
  decidable_of_iff (r.signature?.toOption = none) (by
    rw [Rule.malformed_iff]
    cases r.signature? <;> simp [Except.toOption])

instance (forms : List Form) : Decidable (RulesNamed forms) :=
  decidable_of_iff (∀ r ∈ forms.filterMap Form.rule?, ∃ t, r.name = .str t) forall_rule_iff

instance (forms : List Form) : Decidable (RulesComplete forms) :=
  decidable_of_iff (∀ r ∈ forms.filterMap Form.rule?, r.Complete) forall_rule_iff

instance (forms : List Form) : Decidable (RulesWellFormed forms) :=
  decidable_of_iff (∀ r ∈ forms.filterMap Form.rule?, ¬ r.Malformed) forall_rule_iff

end Decidability

/-- A named rule is listed by its identity. -/
theorem Rule.listed?_of_signature? {r : Rule} {s : Signature} (hname : ∃ t, r.name = .str t)
    (hs : r.signature? = .ok s) : r.listed? = .ok s := by
  obtain ⟨t, n, rfl⟩ := Rule.named_of_signature? hname hs
  exact Rule.listed?_eq_ok.mpr ⟨hs, Data.hashable_str t⟩

/-- Where no rule is malformed each one is listed. -/
theorem mapM_listed? {forms : List Form} (hnamed : RulesNamed forms)
    (hwell : RulesWellFormed forms) :
    (forms.filterMap Form.rule?).mapM Rule.listed? = .ok (identities forms) := by
  rw [mapM_eq_ok_iff]
  induction forms with
  | nil => rfl
  | cons f rest ih =>
    have hrest := ih (fun r hr => hnamed r (.tail f hr)) (fun r hr => hwell r (.tail f hr))
    cases f with
    | rule r =>
      obtain ⟨s, hs⟩ := Rule.signature?_of_not_malformed (hwell r List.mem_cons_self)
      have hlisted := Rule.listed?_of_signature? (hnamed r List.mem_cons_self) hs
      have hidentity : Form.identity? (.rule r) = some s :=
        Form.identity?_eq_some.mpr ⟨r, rfl, hs⟩
      have hrules : (Form.rule r :: rest).filterMap Form.rule? = r :: rest.filterMap Form.rule? :=
        List.filterMap_cons_some rfl
      rw [hrules, List.map_cons, hlisted, hrest, identities, identities,
        List.filterMap_cons_some hidentity]
      rfl
    | _ => exact hrest

/-- Where no rule is malformed the identities are listed, each once, by name and then by arity. -/
theorem signatures?_eq_sorted {forms : List Form} (hnamed : RulesNamed forms)
    (hwell : RulesWellFormed forms) :
    signatures? forms = sorted Signature.less? (Signature.distinct (identities forms)) := by
  rw [signatures?, mapM_listed? hnamed hwell]
  rfl

theorem exists_signatures? {forms : List Form} (hnamed : RulesNamed forms)
    (hwell : RulesWellFormed forms) : ∃ rules, signatures? forms = .ok rules := by
  have hfit := named_of_mem_identities hnamed
  obtain ⟨-, hdistinct⟩ := Signature.distinct_spec hfit
  obtain ⟨rules, hrules, -, -⟩ :=
    Signature.compares_less?.sorted_ok fun s hs => hfit s ((hdistinct s).mp hs)
  exact ⟨rules, (signatures?_eq_sorted hnamed hwell).trans hrules⟩

/-- The first malformed rule keeps the identities from being listed. -/
theorem signatures?_of_first_malformed {front rest : List Form} {r : Rule}
    (hnamed : RulesNamed (front ++ .rule r :: rest)) (hfront : RulesWellFormed front)
    (hr : r.Malformed) : signatures? (front ++ .rule r :: rest) = .error r.refusal := by
  obtain ⟨hnamedFront, hnamedRest⟩ := rulesNamed_append.mp hnamed
  have hname := hnamedRest r List.mem_cons_self
  have hlisted : r.listed? = .error r.refusal := by
    rw [Rule.listed?, Rule.signature?_of_malformed hname hr]
    rfl
  have hbefore : ∀ q ∈ front.filterMap Form.rule?, ∃ s, q.listed? = .ok s := by
    intro q hq
    obtain ⟨f, hf, hfq⟩ := List.mem_filterMap.mp hq
    obtain rfl := Form.rule?_eq_some.mp hfq
    obtain ⟨s, hs⟩ := Rule.signature?_of_not_malformed (hfront q hf)
    exact ⟨s, Rule.listed?_of_signature? (hnamedFront q hf) hs⟩
  have hrules : (front ++ Form.rule r :: rest).filterMap Form.rule? =
      front.filterMap Form.rule? ++ r :: rest.filterMap Form.rule? := by
    rw [List.filterMap_append]
    rfl
  rw [signatures?, hrules, mapM_eq_error hbefore hlisted]
  rfl

/-- A module with well-formed and complete rules is lowered. -/
theorem exists_lower {o : Options} {forms : List Form} (hnamed : RulesNamed forms)
    (hcomplete : RulesComplete forms) (hwell : RulesWellFormed forms) :
    ∃ out, lower o forms = .ok out := by
  obtain ⟨rules, hrules⟩ := exists_signatures? hnamed hwell
  exact ⟨_, lower_eq_ok.mpr ⟨hcomplete, rules, hrules, rfl⟩⟩

/-- The rules of a module that is lowered are well-formed. -/
theorem rulesWellFormed_of_lower {o : Options} {forms out : List Form} (hnamed : RulesNamed forms)
    (h : lower o forms = .ok out) : RulesWellFormed forms := by
  intro r hr
  obtain ⟨-, rules, hrules, -⟩ := lower_eq_ok.mp h
  obtain ⟨s, hs⟩ := (signatures?_spec hnamed hrules).1 r hr
  exact Rule.not_malformed_of_signature? hs

/-- Lowering fails exactly if some rule is malformed. -/
theorem lower_fails_iff {o : Options} {forms : List Form} (hnamed : RulesNamed forms)
    (hcomplete : RulesComplete forms) :
    (∃ fault, lower o forms = .error fault) ↔ ∃ r, .rule r ∈ forms ∧ r.Malformed := by
  constructor
  · rintro ⟨fault, hfault⟩
    apply Classical.byContradiction
    intro hnone
    have hwell : RulesWellFormed forms := fun r hr hmalformed => hnone ⟨r, hr, hmalformed⟩
    obtain ⟨out, hout⟩ := exists_lower (o := o) hnamed hcomplete hwell
    rw [hout] at hfault
    cases hfault
  · rintro ⟨r, hr, hmalformed⟩
    cases hlower : lower o forms with
    | error fault => exact ⟨fault, rfl⟩
    | ok out => exact absurd hmalformed (rulesWellFormed_of_lower hnamed hlower r hr)

/-- The fault is about the first malformed rule. -/
theorem lower_of_first_malformed {o : Options} {front rest : List Form} {r : Rule}
    (hnamed : RulesNamed (front ++ .rule r :: rest)) (hfront : RulesWellFormed front)
    (hr : r.Malformed) : lower o (front ++ .rule r :: rest) = .error r.refusal := by
  rw [lower, signatures?_of_first_malformed hnamed hfront hr]
  rfl

end RuleLowering
