import RuleLowering.Proofs.Malformed
import RuleLowering.Report

/-!
# What a report says

A report is gathered form by form. One step adds what its form holds and fails only if it has to
warn about a position that cannot be written; a run over a list adds what all of its forms hold.
What the finished report says is therefore said of the list as a whole: how many forms of each kind
there are, which identities its rules have and which of them come twice, how many generators stand
in the bodies, and what is warned about.
-/
namespace RuleLowering

namespace Expr

def isGenerator : Expr → Bool
  | .generator .. => true
  | _ => false

def isBinaryGenerator : Expr → Bool
  | .binaryGenerator .. => true
  | _ => false

end Expr

/-- What a report warns of at a form. -/
inductive Notice where
  /-- A declaration with parameters. -/
  | parameters (m : ModuleDecl)
  /-- A rule whose clauses have no arity in common. -/
  | arities (r : Rule)

namespace Notice

def pos : Notice → Data
  | parameters m => m.pos
  | arities r => r.pos

def text : Notice → Text
  | parameters m => "Parameterized module declaration at " ++ m.pos.display
  | arities r => "Rule " ++ r.name.display ++ " at " ++ r.pos.display ++ " has no single arity: "
      ++ Fault.numbersText (aritiesOf r.clauses)

end Notice

namespace Form

/-- The module name behind a form, given the one in front of it: a name that is not null stays. -/
def nameAfter (name : Data) : Form → Data
  | .module m => if name.isNull then m.name else name
  | _ => name

def notices (name : Data) : Form → List Notice
  | .module m => if name.isNull && m.parameters.isSome then [.parameters m] else []
  | .rule r =>
    match r.signature? with
    | .ok _ => []
    | .error _ => [.arities r]
  | _ => []

/-- The expressions that a report looks at: those in the bodies of a rule with an identity. -/
def inspected : Form → List Expr
  | .rule r =>
    match r.signature? with
    | .ok _ => r.clauses.flatMap Clause.body
    | .error _ => []
  | _ => []

end Form

def nameAfter (name : Data) (forms : List Form) : Data := forms.foldl Form.nameAfter name

def notices (name : Data) : List Form → List Notice
  | [] => []
  | f :: rest => f.notices name ++ notices (f.nameAfter name) rest

def inspected (forms : List Form) : List Expr := forms.flatMap Form.inspected

theorem AddsUp.inspected (p : Expr → Bool) : AddsUp fun forms => (inspected forms).countP p := by
  intro xs ys
  dsimp only
  rw [RuleLowering.inspected, List.flatMap_append, List.countP_append]
  rfl

theorem inspected_of_signature? {r : Rule} {s : Signature} (hs : r.signature? = .ok s) :
    inspected [.rule r] = r.clauses.flatMap Clause.body := by
  rw [inspected, List.flatMap_singleton, Form.inspected, hs]

theorem notices_append (name : Data) (xs ys : List Form) :
    notices name (xs ++ ys) = notices name xs ++ notices (nameAfter name xs) ys := by
  induction xs generalizing name with
  | nil => rfl
  | cons f xs ih =>
    rw [List.cons_append, notices, notices, ih, List.append_assoc]
    rfl

section Repetition

/-- Adds an identity to the first list, and to the second one if it is in the first already. -/
def noteIdentity (seen : List Signature × List Signature) (s : Signature) :
    List Signature × List Signature :=
  if seen.1.any (·.same s) then (seen.1, addNew Signature.same seen.2 s) else (seen.1 ++ [s], seen.2)

theorem fst_noteIdentity (seen : List Signature × List Signature) (s : Signature) :
    (noteIdentity seen s).1 = addNew Signature.same seen.1 s := by
  by_cases hany : seen.1.any (·.same s) = true
  · rw [noteIdentity, if_pos hany]
    exact (if_pos hany).symm
  · rw [noteIdentity, if_neg hany]
    exact (if_neg hany).symm

/-- The first list gets each identity once. -/
theorem fst_foldl_noteIdentity (items : List Signature) (seen : List Signature × List Signature) :
    (items.foldl noteIdentity seen).1 = items.foldl (addNew Signature.same) seen.1 := by
  induction items generalizing seen with
  | nil => rfl
  | cons s items ih => rw [List.foldl_cons, List.foldl_cons, ih, fst_noteIdentity]

theorem pair_sublist_cons {α : Type} {a b : α} {items : List α} :
    [a, a].Sublist (b :: items) ↔ [a, a].Sublist items ∨ a = b ∧ a ∈ items := by
  rw [List.sublist_cons_iff]
  constructor
  · rintro (h | ⟨rest, heq, hrest⟩)
    · exact .inl h
    · obtain ⟨rfl, rfl⟩ := List.cons.inj heq
      exact .inr ⟨rfl, List.singleton_sublist.mp hrest⟩
  · rintro (h | ⟨rfl, h⟩)
    · exact .inl h
    · exact .inr ⟨[a], rfl, List.singleton_sublist.mpr h⟩

/-- The second list gets, once each, the identities that are there twice. -/
theorem snd_foldl_noteIdentity {items first second : List Signature}
    (hitems : ∀ s ∈ items, s.Named) (hfirst : ∀ s ∈ first, s.Named)
    (hsecond : ∀ s ∈ second, s.Named) (hnodup : second.Nodup) :
    (items.foldl noteIdentity (first, second)).2.Nodup
      ∧ ∀ s, s ∈ (items.foldl noteIdentity (first, second)).2 ↔
        s ∈ second ∨ s ∈ first ∧ s ∈ items ∨ [s, s].Sublist items := by
  induction items generalizing first second with
  | nil => simpa using hnodup
  | cons x items ih =>
    obtain ⟨hx, hrest⟩ := List.forall_mem_cons.mp hitems
    have hany : first.any (·.same x) = true ↔ x ∈ first := by
      rw [List.any_eq_true]
      constructor
      · rintro ⟨a, ha, hax⟩
        exact (Signature.same_iff (hfirst a ha) hx).mp hax ▸ ha
      · intro hmem
        exact ⟨x, hmem, (Signature.same_iff hx hx).mpr rfl⟩
    rw [List.foldl_cons, noteIdentity]
    by_cases hmem : x ∈ first
    · have hsame : ∀ a ∈ second, a.same x = true ↔ a = x :=
        fun a ha => Signature.same_iff (hsecond a ha) hx
      have hnext : ∀ s, s ∈ addNew Signature.same second x ↔ s ∈ second ∨ s = x := mem_addNew hsame
      have hfit : ∀ s ∈ addNew Signature.same second x, s.Named := by
        intro s hs
        rcases (hnext s).mp hs with hs | rfl
        · exact hsecond s hs
        · exact hx
      obtain ⟨hnodup', hmem'⟩ := ih hrest hfirst hfit (nodup_addNew hsame hnodup)
      rw [if_pos (hany.mpr hmem)]
      refine ⟨hnodup', fun s => ?_⟩
      rw [hmem', hnext, pair_sublist_cons, List.mem_cons]
      grind
    · have hfit : ∀ s ∈ first ++ [x], s.Named := by
        intro s hs
        rcases List.mem_append.mp hs with hs | hs
        · exact hfirst s hs
        · exact List.mem_singleton.mp hs ▸ hx
      obtain ⟨hnodup', hmem'⟩ := ih hrest hfit hsecond hnodup
      rw [if_neg (mt hany.mp hmem)]
      refine ⟨hnodup', fun s => ?_⟩
      rw [hmem', pair_sublist_cons, List.mem_append, List.mem_singleton, List.mem_cons]
      grind

end Repetition

theorem Data.shownText_settles (d : Data) :
    Settles d.shownText (d.isWritable = true) .numberTooLong (· = d.display) := by
  by_cases hd : d.isWritable = true
  · exact .of_ok (if_pos hd) hd rfl
  · exact .of_error (if_neg hd) hd

namespace Report

def count (r : Report) (kind : FormKind) : Nat := (r.formsByKind.lookup kind).getD 0

theorem lookup_countKind (kind k : FormKind) (counts : List (FormKind × Nat)) :
    ((countKind kind counts).lookup k).getD 0 =
      (counts.lookup k).getD 0 + if kind = k then 1 else 0 := by
  induction counts with
  | nil =>
    rw [countKind, List.lookup_cons, List.lookup_nil]
    by_cases hk : kind = k
    · simp [hk]
    · simp [hk, beq_eq_false_iff_ne.mpr (Ne.symm hk)]
  | cons entry rest ih =>
    obtain ⟨j, n⟩ := entry
    rw [countKind]
    by_cases hj : j = kind
    · subst hj
      rw [if_pos rfl, List.lookup_cons, List.lookup_cons]
      by_cases hk : j = k
      · simp [hk]
      · simp [hk, beq_eq_false_iff_ne.mpr (Ne.symm hk)]
    · rw [if_neg hj, List.lookup_cons, List.lookup_cons]
      by_cases hk : k = j
      · subst hk
        simp [Ne.symm hj]
      · simp only [beq_eq_false_iff_ne.mpr hk]
        exact ih

/-- A warning is added to those that are there. -/
theorem mem_warn {r : Report} {text w : Text} :
    w ∈ (r.warn text).warnings ↔ w ∈ r.warnings ∨ w = text := by
  by_cases hmem : text ∈ r.warnings
  · rw [warn, if_pos (List.contains_iff_mem.mpr hmem)]
    constructor
    · exact .inl
    · rintro (hw | rfl)
      · exact hw
      · exact hmem
  · rw [warn, if_neg (mt List.contains_iff_mem.mp hmem)]
    simp

/-- What a report holds behind some forms, given the report in front of them. -/
structure Gathers (r : Report) (forms : List Form) (r' : Report) : Prop where
  total : r'.totalForms = r.totalForms
  kinds : ∀ k, r'.count k = r.count k + forms.countP (·.kind == k)
  name : r'.moduleName = nameAfter r.moduleName forms
  markers : r'.existingMarkers = r.existingMarkers + forms.countP (·.kind == .marker)
  generators : r'.generators = r.generators + (inspected forms).countP Expr.isGenerator
  binaryGenerators : r'.binaryGenerators =
    r.binaryGenerators + (inspected forms).countP Expr.isBinaryGenerator
  rules : (r'.rules, r'.duplicates) =
    (identities forms).foldl noteIdentity (r.rules, r.duplicates)
  lowered : r'.alreadyLowered = r.alreadyLowered
  warnings : ∀ w, w ∈ r'.warnings ↔
    w ∈ r.warnings ∨ ∃ n ∈ notices r.moduleName forms, w = n.text

namespace Gathers

theorem refl (r : Report) : Gathers r [] r where
  total := rfl
  kinds _ := rfl
  name := rfl
  markers := rfl
  generators := rfl
  binaryGenerators := rfl
  rules := rfl
  lowered := rfl
  warnings w := by simp [notices]

/-- What is gathered in turn is gathered of the lists together. -/
theorem trans {r r' r'' : Report} {xs ys : List Form} (h : Gathers r xs r')
    (h' : Gathers r' ys r'') : Gathers r (xs ++ ys) r'' where
  total := h'.total.trans h.total
  kinds k := by rw [h'.kinds, h.kinds, List.countP_append, Nat.add_assoc]
  name := by rw [h'.name, h.name, nameAfter, nameAfter, nameAfter, List.foldl_append]
  markers := by rw [h'.markers, h.markers, List.countP_append, Nat.add_assoc]
  generators := by
    rw [h'.generators, h.generators, Nat.add_assoc, ← AddsUp.inspected]
  binaryGenerators := by
    rw [h'.binaryGenerators, h.binaryGenerators, Nat.add_assoc, ← AddsUp.inspected]
  rules := by
    rw [h'.rules, h.rules, identities, identities, identities, List.filterMap_append,
      List.foldl_append]
  lowered := h'.lowered.trans h.lowered
  warnings w := by
    rw [h'.warnings, h.warnings, h.name, notices_append]
    simp only [List.mem_append, or_and_right, exists_or, or_assoc]

end Gathers

/-- A rule with an identity is added under it, and its bodies are looked at. -/
theorem withRule_of_signature? {r : Report} {rule : Rule} {s : Signature}
    (hs : rule.signature? = .ok s) (hname : ∃ t, rule.name = .str t) :
    r.withRule rule = countGenerators (r.addRule s) (rule.clauses.flatMap Clause.body) := by
  obtain ⟨t, ht⟩ := hname
  obtain ⟨hne, n, hall, rfl⟩ := Rule.signature?_eq_ok.mp hs
  rw [withRule, aritiesOf_eq_singleton.mpr ⟨hne, hall⟩]
  simp only [ht, Data.hashable_str, ok_bind]

/-- A rule without one is warned about. -/
theorem withRule_of_malformed {r : Report} {rule : Rule} (hrule : rule.Malformed) :
    r.withRule rule = (do
      return r.warn ("Rule " ++ (← rule.name.shownText) ++ " at " ++ (← rule.pos.shownText)
        ++ " has no single arity: " ++ Fault.numbersText (aritiesOf rule.clauses))) := by
  rw [withRule]
  split
  · rename_i n harities
    obtain ⟨hne, hall⟩ := aritiesOf_eq_singleton.mp harities
    exact absurd hrule
      (Rule.not_malformed_of_signature? (Rule.signature?_eq_ok.mpr ⟨hne, n, hall, rfl⟩))
  · rfl

/-- In a complete body each generator is counted. -/
theorem countGenerators_eq {r : Report} {body : List Expr} (hbody : Expr.absent ∉ body) :
    r.countGenerators body = .ok { r with
      generators := r.generators + body.countP Expr.isGenerator
      binaryGenerators := r.binaryGenerators + body.countP Expr.isBinaryGenerator } := by
  induction body generalizing r with
  | nil => rfl
  | cons e rest ih =>
    have hrest : Expr.absent ∉ rest := fun h => hbody (.tail e h)
    cases e with
    | absent => exact absurd List.mem_cons_self hbody
    | generator pattern body pos =>
      rw [countGenerators, ih hrest]
      simp [List.countP_cons, Expr.isGenerator, Expr.isBinaryGenerator]
      omega
    | binaryGenerator pattern body pos =>
      rw [countGenerators, ih hrest]
      simp [List.countP_cons, Expr.isGenerator, Expr.isBinaryGenerator]
      omega
    | _ => exact ih hrest

theorem addRule_eq (r : Report) (s : Signature) :
    r.addRule s = { r with
      rules := (noteIdentity (r.rules, r.duplicates) s).1
      duplicates := (noteIdentity (r.rules, r.duplicates) s).2 } := by
  rw [addRule, noteIdentity, addNew]
  by_cases hrules : r.rules.any (·.same s) = true
  · by_cases hduplicates : r.duplicates.any (·.same s) = true
    · simp [hrules, hduplicates]
    · simp [hrules, hduplicates]
  · simp [hrules]

theorem warn_eq (r : Report) (text : Text) :
    r.warn text = { r with warnings := (r.warn text).warnings } := by
  rw [warn]
  split <;> rfl

/-- What a single form adds, apart from warnings, field by field. -/
theorem gathers_of_eq {r r' : Report} {f : Form}
    (h : r' = { r with
      formsByKind := countKind f.kind r.formsByKind
      moduleName := f.nameAfter r.moduleName
      existingMarkers := r.existingMarkers + [f].countP (·.kind == .marker)
      generators := r.generators + (inspected [f]).countP Expr.isGenerator
      binaryGenerators := r.binaryGenerators + (inspected [f]).countP Expr.isBinaryGenerator
      rules := ((identities [f]).foldl noteIdentity (r.rules, r.duplicates)).1
      duplicates := ((identities [f]).foldl noteIdentity (r.rules, r.duplicates)).2
      warnings := r'.warnings })
    (hwarnings : ∀ w, w ∈ r'.warnings ↔
      w ∈ r.warnings ∨ ∃ n ∈ f.notices r.moduleName, w = n.text) : Gathers r [f] r' where
  total := by rw [h]
  kinds k := by
    have hcount : r'.formsByKind = countKind f.kind r.formsByKind := congrArg Report.formsByKind h
    rw [count, count, hcount, lookup_countKind, List.countP_singleton]
    simp only [beq_iff_eq]
  name := congrArg Report.moduleName h
  markers := congrArg Report.existingMarkers h
  generators := congrArg Report.generators h
  binaryGenerators := congrArg Report.binaryGenerators h
  rules := Prod.ext (congrArg Report.rules h) (congrArg Report.duplicates h)
  lowered := by rw [h]
  warnings w := by
    rw [hwarnings, notices, notices, List.append_nil]

/-- A declaration is warned about if it is the first with a name, or stands before that one. -/
theorem withForm_module_settles (r : Report) (m : ModuleDecl) :
    Settles (r.withForm (.module m))
      (∀ n ∈ (Form.module m).notices r.moduleName, n.pos.isWritable = true) .numberTooLong
      (Gathers r [.module m]) := by
  have hform : r.withForm (.module m) =
      withModule { r with formsByKind := countKind .attr r.formsByKind } m := rfl
  rw [hform, withModule]
  by_cases hnull : r.moduleName.isNull = true
  · have hname : (Form.module m).nameAfter r.moduleName = m.name := if_pos hnull
    rw [if_pos hnull]
    by_cases hparameters : m.parameters.isSome = true
    · have hnotices : (Form.module m).notices r.moduleName = [.parameters m] := by
        simp [Form.notices, hnull, hparameters]
      rw [if_pos hparameters]
      refine ((Data.shownText_settles m.pos).bind (Q := True) fun t ht =>
        .of_ok rfl trivial (gathers_of_eq ?_ fun w => ?_)).mono ?_ fun _ h => h
      · rw [hname]
        exact warn_eq _ _
      · rw [mem_warn, hnotices, ht]
        simp [Notice.text]
      · simp [hnotices, Notice.pos]
    · have hnotices : (Form.module m).notices r.moduleName = [] := by
        simp [Form.notices, hparameters]
      rw [if_neg hparameters, hnotices]
      refine .of_ok rfl (by simp) (gathers_of_eq ?_ (by simp [hnotices]))
      rw [hname]
      rfl
  · have hname : (Form.module m).nameAfter r.moduleName = r.moduleName := if_neg hnull
    have hnotices : (Form.module m).notices r.moduleName = [] := by
      simp [Form.notices, hnull]
    rw [if_neg hnull, hnotices]
    refine .of_ok rfl (by simp) (gathers_of_eq ?_ (by simp [hnotices]))
    rw [hname]
    rfl

/-- A rule is either added and looked at, or warned about. -/
theorem withForm_rule_settles {r : Report} {rule : Rule} (hname : ∃ t, rule.name = .str t)
    (hcomplete : rule.Complete) :
    Settles (r.withForm (.rule rule))
      (∀ n ∈ (Form.rule rule).notices r.moduleName, n.pos.isWritable = true) .numberTooLong
      (Gathers r [.rule rule]) := by
  let counted : Report := { r with formsByKind := countKind .rule r.formsByKind }
  have hform : r.withForm (.rule rule) = counted.withRule rule := rfl
  rw [hform]
  by_cases hmalformed : rule.Malformed
  · have hsignature := Rule.signature?_of_malformed hname hmalformed
    have hnotices : (Form.rule rule).notices r.moduleName = [.arities rule] := by
      rw [Form.notices, hsignature]
    have hinspected : inspected [.rule rule] = [] := by
      rw [inspected, List.flatMap_singleton, Form.inspected, hsignature]
    have hidentities : identities [.rule rule] = [] := by
      simp [identities, Form.identity?, hsignature, Except.toOption]
    obtain ⟨t, ht⟩ := hname
    have hshown : rule.name.shownText = .ok rule.name.display := by
      rw [ht]
      rfl
    rw [withRule_of_malformed hmalformed, hshown, ok_bind]
    refine ((Data.shownText_settles rule.pos).bind (Q := True) fun t ht =>
      .of_ok rfl trivial (gathers_of_eq ?_ fun w => ?_)).mono ?_ fun _ h => h
    · rw [hinspected, hidentities]
      exact warn_eq _ _
    · rw [mem_warn, hnotices, ht]
      simp [Notice.text, counted]
    · simp [hnotices, Notice.pos]
  · obtain ⟨s, hs⟩ := Rule.signature?_of_not_malformed hmalformed
    have hnotices : (Form.rule rule).notices r.moduleName = [] := by
      rw [Form.notices, hs]
    have hidentities : identities [.rule rule] = [s] := by
      simp [identities, Form.identity?, hs, Except.toOption]
    have hbody : Expr.absent ∉ rule.clauses.flatMap Clause.body := by
      intro habsent
      obtain ⟨c, hc, hmem⟩ := List.mem_flatMap.mp habsent
      exact hcomplete c hc hmem
    rw [withRule_of_signature? hs hname, countGenerators_eq hbody, addRule_eq, hnotices]
    refine .of_ok rfl (by simp) (gathers_of_eq ?_ (by simp [hnotices, counted]))
    rw [inspected_of_signature? hs, hidentities]
    rfl

/-- One step gathers its form. It fails only if it has to show a position that cannot be written. -/
theorem withForm_settles {r : Report} {f : Form} (hnamed : RulesNamed [f])
    (hcomplete : RulesComplete [f]) :
    Settles (r.withForm f) (∀ n ∈ f.notices r.moduleName, n.pos.isWritable = true) .numberTooLong
      (Gathers r [f]) := by
  cases f with
  | module m => exact withForm_module_settles r m
  | rule rule =>
    exact withForm_rule_settles (hnamed rule List.mem_cons_self)
      (hcomplete rule List.mem_cons_self)
  | _ => exact .of_ok rfl (by simp [Form.notices]) (gathers_of_eq rfl (by simp [Form.notices]))

/-- A run gathers all forms. It fails only if a warning has to show a position that cannot be
written. -/
theorem foldlM_withForm_settles {r : Report} {forms : List Form} (hnamed : RulesNamed forms)
    (hcomplete : RulesComplete forms) :
    Settles (forms.foldlM withForm r)
      (∀ n ∈ notices r.moduleName forms, n.pos.isWritable = true) .numberTooLong
      (Gathers r forms) := by
  induction forms generalizing r with
  | nil => exact .of_ok rfl (by simp [notices]) (.refl r)
  | cons f rest ih =>
    have hcons : f :: rest = [f] ++ rest := rfl
    rw [hcons] at hnamed hcomplete
    obtain ⟨hnamedFirst, hnamedRest⟩ := rulesNamed_append.mp hnamed
    obtain ⟨hcompleteFirst, hcompleteRest⟩ := rulesComplete_append.mp hcomplete
    have hrest : ∀ r', Gathers r [f] r' → Settles (rest.foldlM withForm r')
        (∀ n ∈ notices (f.nameAfter r.moduleName) rest, n.pos.isWritable = true) .numberTooLong
        (Gathers r (f :: rest)) := by
      intro r' hr'
      have hname : r'.moduleName = f.nameAfter r.moduleName := hr'.name
      rw [← hname]
      exact (ih hnamedRest hcompleteRest).mono .rfl fun r'' hr'' => hr'.trans hr''
    rw [List.foldlM_cons, notices]
    refine ((withForm_settles hnamedFirst hcompleteFirst).bind hrest).mono ?_ fun _ h => h
    simp only [List.mem_append, or_imp, forall_and]

end Report

end RuleLowering
