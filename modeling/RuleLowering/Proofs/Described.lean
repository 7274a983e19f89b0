import RuleLowering.Proofs.Inventory

/-!
# The finished report

When all forms are taken in, the identities are put in order and the warnings on the module as a
whole are added. These show the identities that are declared twice, so the report also fails where
an arity has too many digits. Otherwise there is a report, and each thing it says holds of the list.
-/
namespace RuleLowering

/-- Each number that a warning on some forms shows can be written. -/
def Legible (forms : List Form) : Prop :=
  (∀ n ∈ notices .null forms, n.pos.isWritable = true)
    ∧ ∀ s, [s, s].Sublist (identities forms) → s.arity.isWritable = true

theorem legible_of_all {forms : List Form}
    (hpos : ∀ n ∈ notices .null forms, n.pos.isWritable = true)
    (harity : ∀ s ∈ identities forms, s.arity.isWritable = true) : Legible forms :=
  ⟨hpos, fun s hs => harity s (hs.subset List.mem_cons_self)⟩

theorem Signature.text_settles {s : Signature} (hs : s.Named) :
    Settles s.text (s.arity.isWritable = true) .numberTooLong fun _ => True := by
  obtain ⟨t, n, rfl⟩ := hs
  have hname : Data.shownText (.str t) = .ok t := rfl
  rw [text, hname, ok_bind]
  exact ((Data.shownText_settles (.int n)).bind fun arity _ => .of_ok rfl trivial trivial).mono
    (and_iff_left trivial) fun _ h => h

namespace Report

inductive Remark (o : Options) (r : Report) : Text → Prop
  | undeclared : r.moduleName.isNull = true → Remark o r "No module declaration"
  | duplicates {names : List Text} :
    r.duplicates ≠ [] → r.duplicates.mapM Signature.text = .ok names →
      Remark o r ("Duplicate rule declarations: " ++ .join ", " names)
  | binaryGenerators : r.binaryGenerators ≠ 0 →
    Remark o r ("Binary generators in rule bodies: " ++ toString r.binaryGenerators)
  | lowered : r.alreadyLowered = true →
    Remark o r (o.introspection ++ "/0 already defined: forms look already transformed")

/-- A warning under a condition changes nothing but the warnings. -/
theorem warnIf_eq (r : Report) (condition : Bool) (text : Text) :
    r.warnIf condition text = { r with warnings := (r.warnIf condition text).warnings } := by
  cases condition with
  | true => exact warn_eq r text
  | false => rfl

theorem warnIf_duplicates (r : Report) (condition : Bool) (text : Text) :
    (r.warnIf condition text).duplicates = r.duplicates := by
  rw [warnIf_eq]

theorem warnIf_binaryGenerators (r : Report) (condition : Bool) (text : Text) :
    (r.warnIf condition text).binaryGenerators = r.binaryGenerators := by
  rw [warnIf_eq]

theorem warnIf_alreadyLowered (r : Report) (condition : Bool) (text : Text) :
    (r.warnIf condition text).alreadyLowered = r.alreadyLowered := by
  rw [warnIf_eq]

theorem mem_warnIf {r : Report} {condition : Bool} {text w : Text} :
    w ∈ (r.warnIf condition text).warnings ↔ w ∈ r.warnings ∨ condition = true ∧ w = text := by
  cases condition with
  | true => exact mem_warn.trans (by simp)
  | false =>
    rw [warnIf, if_neg Bool.false_ne_true]
    simp

/-- A report with all remarks, given the texts of the identities that are declared twice. -/
def remarked (o : Options) (r : Report) (names : List Text) : Report :=
  let declared := r.warnIf r.moduleName.isNull "No module declaration"
  let single := declared.warnIf (!r.duplicates.isEmpty)
    ("Duplicate rule declarations: " ++ .join ", " names)
  let bound := single.warnIf (r.binaryGenerators != 0)
    ("Binary generators in rule bodies: " ++ toString r.binaryGenerators)
  bound.warnIf r.alreadyLowered
    (o.introspection ++ "/0 already defined: forms look already transformed")

/-- Remarks are warnings and nothing else. -/
theorem exists_remarked_eq (o : Options) (r : Report) (names : List Text) :
    ∃ warnings, remarked o r names = { r with warnings } := by
  have hstep : ∀ (r' : Report) (condition : Bool) (text : Text),
      (∃ warnings, r' = { r with warnings }) →
        ∃ warnings, r'.warnIf condition text = { r with warnings } := by
    rintro r' condition text ⟨warnings, rfl⟩
    exact ⟨_, warnIf_eq _ condition text⟩
  exact hstep _ _ _ (hstep _ _ _ (hstep _ _ _ (hstep _ _ _ ⟨r.warnings, rfl⟩)))

theorem mem_remarked {o : Options} {r : Report} {names : List Text}
    (hnames : r.duplicates.mapM Signature.text = .ok names) (w : Text) :
    w ∈ (remarked o r names).warnings ↔ w ∈ r.warnings ∨ Remark o r w := by
  simp only [remarked, mem_warnIf, or_assoc]
  constructor
  · rintro (hw | ⟨hnull, rfl⟩ | ⟨htwice, rfl⟩ | ⟨hbinary, rfl⟩ | ⟨hlowered, rfl⟩)
    · exact .inl hw
    · exact .inr (.undeclared hnull)
    · exact .inr (.duplicates (by simpa using htwice) hnames)
    · exact .inr (.binaryGenerators (by simpa using hbinary))
    · exact .inr (.lowered hlowered)
  · rintro (hw | hremark)
    · exact .inl hw
    · cases hremark with
      | undeclared hnull => exact .inr (.inl ⟨hnull, rfl⟩)
      | duplicates htwice hnames' =>
        obtain rfl := Except.ok.inj (hnames.symm.trans hnames')
        exact .inr (.inr (.inl ⟨by simpa using htwice, rfl⟩))
      | binaryGenerators hbinary => exact .inr (.inr (.inr (.inl ⟨by simpa using hbinary, rfl⟩)))
      | lowered hlowered => exact .inr (.inr (.inr (.inr ⟨hlowered, rfl⟩)))

/-- Closing a report arranges the identities that are declared twice, and adds the remarks. -/
theorem close_eq (o : Options) (r : Report) : r.close o = (do
    let duplicates ← sorted Signature.less? r.duplicates
    let names ← duplicates.mapM Signature.text
    return remarked o { r with duplicates } names) := by
  simp only [close, remarked, warnIf_duplicates, warnIf_binaryGenerators, warnIf_alreadyLowered]

/-- What a report says of some forms. -/
structure Describes (o : Options) (forms : List Form) (report : Report) : Prop where
  total : report.totalForms = forms.length
  kinds : ∀ k, report.count k = forms.countP (·.kind == k)
  name : report.moduleName = nameAfter .null forms
  markers : report.existingMarkers = forms.countP (·.kind == .marker)
  generators : report.generators = (inspected forms).countP Expr.isGenerator
  binaryGenerators : report.binaryGenerators = (inspected forms).countP Expr.isBinaryGenerator
  rules : sorted Signature.less? (Signature.distinct (identities forms)) = .ok report.rules
  duplicates : ∀ s, s ∈ report.duplicates ↔ [s, s].Sublist (identities forms)
  inOrder : report.duplicates.Pairwise Signature.Precedes
  lowered : report.alreadyLowered = isLowered o forms
  warnings : ∀ w, w ∈ report.warnings ↔
    (∃ n ∈ notices .null forms, w = n.text) ∨ Remark o report w

/-- What is remarked on a module does not depend on the other warnings. -/
theorem remark_iff {o : Options} {r : Report} {warnings : List Text} {w : Text} :
    Remark o { r with warnings } w ↔ Remark o r w := by
  constructor
  · rintro (hnull | ⟨htwice, hnames⟩ | hbinary | hlowered)
    · exact .undeclared hnull
    · exact .duplicates htwice hnames
    · exact .binaryGenerators hbinary
    · exact .lowered hlowered
  · rintro (hnull | ⟨htwice, hnames⟩ | hbinary | hlowered)
    · exact .undeclared hnull
    · exact .duplicates htwice hnames
    · exact .binaryGenerators hbinary
    · exact .lowered hlowered

/-- A gathered report, closed, describes the forms. -/
theorem describes_remarked {o : Options} {forms : List Form} {r : Report}
    {rules duplicates : List Signature} {names : List Text}
    (hr : Gathers { totalForms := forms.length } forms r)
    (hrules : sorted Signature.less? (Signature.distinct (identities forms)) = .ok rules)
    (htwice : ∀ s, s ∈ duplicates ↔ [s, s].Sublist (identities forms))
    (horder : duplicates.Pairwise Signature.Precedes)
    (hnames : duplicates.mapM Signature.text = .ok names) :
    Describes o forms
      (remarked o { r with rules, duplicates, alreadyLowered := isLowered o forms } names) := by
  let closed : Report := { r with rules, duplicates, alreadyLowered := isLowered o forms }
  have hmem : ∀ w, w ∈ (remarked o closed names).warnings ↔ w ∈ r.warnings ∨ Remark o closed w :=
    mem_remarked hnames
  obtain ⟨warnings, heq⟩ := exists_remarked_eq o closed names
  rw [heq] at hmem ⊢
  exact {
    total := hr.total
    kinds := fun k => (hr.kinds k).trans (Nat.zero_add _)
    name := hr.name
    markers := hr.markers.trans (Nat.zero_add _)
    generators := hr.generators.trans (Nat.zero_add _)
    binaryGenerators := hr.binaryGenerators.trans (Nat.zero_add _)
    rules := hrules
    duplicates := htwice
    inOrder := horder
    lowered := rfl
    warnings := fun w => by
      rw [remark_iff, hmem, hr.warnings]
      simp }

/-- There is a report on some forms exactly if all numbers that its warnings show can be written,
and then it describes them. -/
theorem ofForms_settles {o : Options} {forms : List Form} (hnamed : RulesNamed forms)
    (hcomplete : RulesComplete forms) :
    Settles (ofForms o forms) (Legible forms) .numberTooLong (Describes o forms) := by
  have hfit := named_of_mem_identities hnamed
  refine ((foldlM_withForm_settles hnamed hcomplete).bind fun r hr => ?_).mono .rfl fun _ h => h
  have hrules : r.rules = Signature.distinct (identities forms) :=
    (congrArg Prod.fst hr.rules).trans (fst_foldl_noteIdentity _ _)
  obtain ⟨hnodup, htwice⟩ : r.duplicates.Nodup
      ∧ ∀ s, s ∈ r.duplicates ↔ [s, s].Sublist (identities forms) := by
    have hduplicates : r.duplicates = ((identities forms).foldl noteIdentity ([], [])).2 :=
      congrArg Prod.snd hr.rules
    have hspec := @snd_foldl_noteIdentity (identities forms) [] [] hfit (by simp) (by simp) .nil
    rw [hduplicates]
    simpa using hspec
  have hnamedTwice : ∀ s ∈ r.duplicates, s.Named :=
    fun s hs => hfit s (((htwice s).mp hs).subset List.mem_cons_self)
  obtain ⟨rules, hsortedRules, -, -⟩ := Signature.compares_less?.sorted_ok
    fun s hs => hfit s (((Signature.distinct_spec hfit).2 s).mp hs)
  obtain ⟨duplicates, hsorted, hperm, horder⟩ := Signature.compares_less?.sorted_ok hnamedTwice
  have hmem : ∀ s, s ∈ duplicates ↔ [s, s].Sublist (identities forms) :=
    fun s => hperm.mem_iff.trans (htwice s)
  have hshown : Settles (duplicates.mapM Signature.text)
      (∀ s, [s, s].Sublist (identities forms) → s.arity.isWritable = true) .numberTooLong
      fun _ => True := by
    refine (Settles.mapM fun s hs =>
      Signature.text_settles (hnamedTwice s (hperm.mem_iff.mp hs))).mono ?_ fun _ h => h
    simp only [hmem]
  rw [hrules, hsortedRules, ok_bind, close_eq, hsorted, ok_bind]
  rcases hshown with ⟨hwritable, names, hnames, -⟩ | ⟨hwritable, hfault⟩
  · have hpairwise : duplicates.Pairwise Signature.Precedes :=
      Signature.pairwise_precedes (fun s hs => hnamedTwice s (hperm.mem_iff.mp hs))
        (hperm.nodup_iff.mpr hnodup) horder
    have hreport : Describes o forms
        (remarked o { r with rules, duplicates, alreadyLowered := isLowered o forms } names) :=
      describes_remarked hr hsortedRules hmem hpairwise hnames
    rw [hnames]
    exact .of_ok rfl hwritable hreport
  · rw [hfault]
    exact .of_error rfl hwritable

end Report

end RuleLowering
