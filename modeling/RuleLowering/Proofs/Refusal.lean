import RuleLowering.CommandLine.Run
import RuleLowering.Proofs.Acceptance
import RuleLowering.Proofs.Endless
import RuleLowering.Proofs.Malformed

/-!
# Unusable input

A run prepares its result before it writes anything. Where that fails the run reports the fault and
ends with status 2, unless the fault is of a kind that no message accounts for. Stage by stage the
faults that can be met are of the kinds that are reported; the exceptions are those of the YAML
reader, that of an expression which is among its own parts, and that of a body of a rule in which an
expression is absent.
-/
namespace RuleLowering

/-- Each fault of a computation is one of some. -/
def Raises {α : Type} (x : Except Fault α) (Bad : Fault → Prop) : Prop :=
  ∀ fault, x = .error fault → Bad fault

namespace Raises

variable {α β : Type} {x : Except Fault α} {Bad : Fault → Prop}

theorem ok (a : α) : Raises (.ok a) Bad := nofun

theorem error {fault : Fault} (h : Bad fault) : Raises (.error fault : Except Fault α) Bad := by
  rintro _ ⟨⟩
  exact h

theorem mono {Bad' : Fault → Prop} (h : Raises x Bad) (himp : ∀ fault, Bad fault → Bad' fault) :
    Raises x Bad' :=
  fun fault hfault => himp fault (h fault hfault)

theorem bind {next : α → Except Fault β} (h : Raises x Bad) (hnext : ∀ a, Raises (next a) Bad) :
    Raises (x >>= next) Bad := by
  cases x with
  | error fault => exact error (h fault rfl)
  | ok a => exact hnext a

theorem ite {c : Prop} [Decidable c] {y : Except Fault α} (hx : Raises x Bad) (hy : Raises y Bad) :
    Raises (if c then x else y) Bad := by
  split
  · exact hx
  · exact hy

theorem mapError {ε : Type} {y : Except ε α} {f : ε → Fault} (h : ∀ e, Bad (f e)) :
    Raises (y.mapError f) Bad := by
  cases y with
  | error e => exact error (h e)
  | ok a => exact ok a

theorem mapM {f : α → Except Fault β} (h : ∀ a, Raises (f a) Bad) (items : List α) :
    Raises (items.mapM f) Bad := by
  induction items with
  | nil => exact ok []
  | cons a items ih =>
    rw [List.mapM_cons]
    exact (h a).bind fun b => ih.bind fun bs => ok (b :: bs)

theorem foldlM {f : β → α → Except Fault β} (h : ∀ b a, Raises (f b a) Bad) (items : List α)
    (b : β) : Raises (items.foldlM f b) Bad := by
  induction items generalizing b with
  | nil => exact ok b
  | cons a items ih => exact (h b a).bind ih

end Raises

section Sorting

variable {α : Type} {less : α → α → Except Fault Bool} {Bad : Fault → Prop}

theorem raises_ascending (h : ∀ a b, Raises (less a b) Bad) (last : α) (items : List α) :
    Raises (ascending less last items) Bad := by
  induction items generalizing last with
  | nil => exact .ok _
  | cons x items ih => exact (h x last).bind fun _ => .ite (.ok _) ((ih x).bind fun _ => .ok _)

theorem raises_descending (h : ∀ a b, Raises (less a b) Bad) (last : α) (items : List α) :
    Raises (descending less last items) Bad := by
  induction items generalizing last with
  | nil => exact .ok _
  | cons x items ih => exact (h x last).bind fun _ => .ite ((ih x).bind fun _ => .ok _) (.ok _)

theorem raises_firstRun (h : ∀ a b, Raises (less a b) Bad) :
    ∀ items : List α, Raises (firstRun less items) Bad
  | [] | [_] => .ok _
  | x :: y :: rest => (h y x).bind fun _ =>
      .ite ((raises_descending h y rest).bind fun _ => .ok _)
        ((raises_ascending h y rest).bind fun _ => .ok _)

theorem raises_placeBetween (h : ∀ a b, Raises (less a b) Bad) (front : List α) (x : α)
    (fuel low high : Nat) : Raises (placeBetween less front x fuel low high) Bad := by
  induction fuel generalizing low high with
  | zero => exact .ok low
  | succ fuel ih =>
    rw [placeBetween]
    split
    · exact .ite ((h x _).bind fun _ => .ite (ih _ _) (ih _ _)) (.ok low)
    · exact .ok low

/-- Sorting fails only where a comparison does. -/
theorem raises_sorted (h : ∀ a b, Raises (less a b) Bad) (items : List α) :
    Raises (sorted less items) Bad :=
  (raises_firstRun h items).bind fun _ =>
    .foldlM (fun front x => (raises_placeBetween h front x _ _ _).bind fun _ => .ok _) _ _

end Sorting

namespace Data

/-- Two values without an order are of kinds that do not go together. -/
theorem raises_lessScalar? (a b : Data) : Raises (lessScalar? a b) (·.kind = .mismatch) := by
  unfold lessScalar?
  split
  · exact .ok _
  · rename_i x y
    unfold lessSpecial?
    split
    · exact .ok _
    · exact .ite (.ok _) (.error rfl)
    · exact .ok _
    · exact .error rfl
    · exact .error rfl
    · exact .error rfl
  · exact .ite (.ok _) (.error rfl)

theorem raises_less? (a b : Data) : Raises (less? a b) (·.kind = .mismatch) := by
  refine less?.induct (fun a b => Raises (less? a b) (·.kind = .mismatch))
    (fun xs ys => Raises (lessItems? xs ys) (·.kind = .mismatch))
    ?lists ?pairs ?sets ?scalars ?nil ?short ?same ?first a b
  case lists => exact fun _ _ _ _ ih => ih
  case pairs => exact fun _ _ _ _ ih => ih
  case sets => exact fun _ _ _ _ => .ok _
  case scalars =>
    intro a b hlist hpair hset
    rw [less?.eq_4 a b hlist hpair hset]
    exact raises_lessScalar? a b
  case nil => exact fun _ => .ok _
  case short => exact fun _ _ => .ok _
  case same =>
    intro x xs y ys hsame ih
    rwa [lessItems?, if_pos hsame]
  case first =>
    intro x xs y ys hsame ih
    rwa [lessItems?, if_neg hsame]

theorem raises_joinTexts (separator : String) (items : List Data) :
    Raises (joinTexts separator items) (·.kind = .mismatch) := by
  unfold joinTexts
  split
  · exact .error rfl
  · exact .ok _

theorem raises_hashable (d : Data) : Raises d.hashable (·.kind = .mismatch) := by
  unfold hashable
  split
  · exact .error rfl
  · exact .ok ()

end Data

namespace CommandLine

def Reported (fault : Fault) : Prop := isReported fault = true

theorem reported_of_kind {fault : Fault} {kind : Fault.Kind} (h : fault.kind = kind)
    (hkind : kind ≠ .absence ∧ kind ≠ .blank ∧ kind ≠ .overflow) : Reported fault := by
  unfold Reported isReported
  rw [h]
  obtain ⟨habsence, hblank, hoverflow⟩ := hkind
  cases kind <;> first | rfl | contradiction

theorem reported_of_mismatch {fault : Fault} (h : fault.kind = .mismatch) : Reported fault :=
  reported_of_kind h (by decide)

theorem reported_of_isShape {fault : Fault} (h : fault.IsShape) : Reported fault := by
  rcases h with h | h | h
  · exact reported_of_kind h (by decide)
  · exact reported_of_mismatch h
  · exact reported_of_kind h (by decide)

section Stages

theorem raises_readFile (disk : Disk) (path : String) : Raises (readFile disk path) Reported := by
  have hentry : ∀ e : Disk.Entry, Reported (e.fault path) := by
    intro e
    cases e <;> rfl
  have hread : Raises (disk.read path) Reported := by
    unfold Disk.read
    split
    · exact .ok _
    · exact .error (hentry _)
  exact hread.bind fun _ => .ok _

/-- Options that are none are refused with a fault that is reported. -/
theorem raises_options (d : Data) : Raises (Options.ofData? d) Reported := by
  unfold Options.ofData?
  refine .ite (.ok _) ?_
  split
  · split
    · split
      · exact .error rfl
      · exact .ok _
    · refine .error ?_
      unfold Options.unknownFault
      split
      · rename_i cause hcause
        exact reported_of_mismatch (raises_sorted Data.raises_less? _ cause hcause)
      · split
        · rename_i cause hcause
          exact reported_of_mismatch (Data.raises_joinTexts _ _ cause hcause)
        · rfl
  · exact .error rfl

theorem raises_json (document : Nat) (text : Text) :
    Raises (Json.read document text) Reported := by
  refine .mapError fun stop => ?_
  cases stop <;> rfl

theorem raises_listOfData? (own : Text) (d : Data) : Raises (Form.listOfData? own d) Reported :=
  fun _ hfault => reported_of_isShape ((Form.reads_listOfData? own d).bad hfault)

theorem raises_signatures? (forms : List Form) : Raises (signatures? forms) Reported := by
  have hsignature : ∀ r : Rule, Raises r.signature? Reported := by
    intro r
    unfold Rule.signature? Fault.showing
    split
    · split <;> exact .error rfl
    · exact .ok _
    · split <;> exact .error rfl
  have hlisted : ∀ r : Rule, Raises r.listed? Reported := fun r =>
    (hsignature r).bind fun s =>
      (s.name.raises_hashable.mono fun _ => reported_of_mismatch).bind fun _ => .ok _
  have hless : ∀ a b : Signature, Raises (a.less? b) Reported := fun a b =>
    .ite ((Data.raises_less? _ _).mono fun _ => reported_of_mismatch)
      ((Data.raises_less? _ _).mono fun _ => reported_of_mismatch)
  exact (Raises.mapM hlisted _).bind fun _ => raises_sorted hless _

end Stages

end CommandLine

section Rules

variable {o : Options}

theorem raises_lowerEach {α β : Type} {step : α → Except Fault (β × List Marker)}
    {Bad : Fault → Prop} (h : ∀ a, Raises (step a) Bad) (items : List α) :
    Raises (lowerEach step items) Bad := by
  induction items with
  | nil => exact .ok _
  | cons a items ih => exact (h a).bind fun _ => ih.bind fun _ => .ok _

/-- Lowering rules fails only on an absent expression. -/
theorem raises_lowerRules (forms : List Form) :
    Raises (lowerRules o forms) (· = .absentExpression) := by
  have hexpr : ∀ e : Expr, Raises (e.lower o) (· = .absentExpression) := by
    intro e
    cases e <;> first | exact .error rfl | exact .ok _
  have hclause : ∀ c : Clause, Raises (c.lower o) (· = .absentExpression) :=
    fun c => (raises_lowerEach hexpr c.body).bind fun _ => .ok _
  have hrule : ∀ r : Rule, Raises (r.lower o) (· = .absentExpression) :=
    fun r => (raises_lowerEach hclause r.clauses).bind fun _ => .ok _
  induction forms with
  | nil => exact .ok _
  | cons f rest ih =>
    cases f with
    | rule r => exact (hrule r).bind fun _ => ih.bind fun _ => .ok _
    | _ => exact ih.bind fun _ => .ok _

/-- Lowering fails as the list of identities does. Where that is found it fails if a body of a rule
is not complete. -/
theorem lower_eq_error {forms : List Form} {fault : Fault} :
    lower o forms = .error fault ↔ signatures? forms = .error fault
      ∨ (∃ rules, signatures? forms = .ok rules) ∧ ¬ RulesComplete forms
        ∧ fault = .absentExpression := by
  cases hrules : signatures? forms with
  | error fault' =>
    have hlower : lower o forms = .error fault' := by
      rw [lower, hrules]
      rfl
    simp [hlower]
  | ok rules =>
    have hnot : (∃ out, lower o forms = .ok out) ↔ RulesComplete forms := by
      simp [lower_eq_ok, hrules]
    cases hlower : lower o forms with
    | ok out =>
      have hcomplete := hnot.mp ⟨out, hlower⟩
      simp [hcomplete]
    | error fault' =>
      have hincomplete : ¬ RulesComplete forms := by
        intro h
        obtain ⟨out, hout⟩ := hnot.mpr h
        cases hlower.symm.trans hout
      have hfault : fault' = .absentExpression := by
        rw [lower, hrules] at hlower
        exact (raises_lowerRules _).bind (fun _ => .ok _) fault' hlower
      simp [hincomplete, hfault, eq_comm]

/-- A list of rules is not complete if an expression is absent from a body. -/
theorem not_rulesComplete_iff {forms : List Form} :
    ¬ RulesComplete forms ↔
      ∃ rule clause, .rule rule ∈ forms ∧ clause ∈ rule.clauses ∧ .absent ∈ clause.body := by
  simp only [RulesComplete, Rule.Complete, Clause.Complete, not_forall, not_not]
  constructor
  · rintro ⟨rule, hrule, clause, hclause, habsent⟩
    exact ⟨rule, clause, hrule, hclause, habsent⟩
  · rintro ⟨rule, clause, hrule, hclause, habsent⟩
    exact ⟨rule, hrule, clause, hclause, habsent⟩

end Rules

namespace CommandLine

/-- The lowered module of a request, before anything is written. -/
def prepare (r : Request) (disk : Disk) (stdin : Text) : Except Fault (List Form) := do
  let (options, forms) ← load r disk stdin
  lower options forms

/-- The faults of a request that no message accounts for. -/
inductive Escapes (r : Request) (disk : Disk) (stdin : Text) : Fault → Prop
  /-- The YAML reader gives such a fault on the options file. -/
  | options {path content : String} {fault : Fault} :
    r.config = some path → path ≠ "" → readFile disk path = .ok content →
    Yaml.readFile 0 content = .error fault → ¬ Reported fault → Escapes r disk stdin fault
  /-- The YAML reader gives such a fault on the input. -/
  | input {options : Options} {text : Text} {fault : Fault} :
    loadOptions r disk = .ok options → loadInput r disk stdin = .ok text →
    r.jsonInput = false → Yaml.read 1 text = .error fault → ¬ Reported fault →
    Escapes r disk stdin fault
  /-- The input contains itself, and the reader of its forms comes to no end. -/
  | endless {options : Options} {text : Text} {d : Data} :
    loadOptions r disk = .ok options → loadInput r disk stdin = .ok text →
    r.jsonInput = false → Yaml.read 1 text = .ok d → d.isCyclic = true →
    Form.listOfCyclic? options.origin d = .error .endless → Escapes r disk stdin .endless
  /-- The rules can be listed, and from a body of one an expression is absent. -/
  | body {options : Options} {forms : List Form} {rules : List Signature} {rule : Rule}
      {clause : Clause} :
    load r disk stdin = .ok (options, forms) → signatures? forms = .ok rules →
    .rule rule ∈ forms → clause ∈ rule.clauses → .absent ∈ clause.body →
    Escapes r disk stdin .absentExpression

variable {r : Request} {disk : Disk} {stdin : Text} {fault : Fault}

theorem Escapes.not_reported (h : Escapes r disk stdin fault) : ¬ Reported fault := by
  cases h with
  | options _ _ _ _ h => exact h
  | input _ _ _ _ h => exact h
  | endless _ _ _ _ _ _ => exact nofun
  | body _ _ _ _ _ => exact nofun

section Unreported

variable (hnot : ¬ Reported fault)
include hnot

theorem ofFile?_eq_error {path content : String} :
    Options.ofFile? path content 0 = .error fault ↔ Yaml.readFile 0 content = .error fault := by
  unfold Options.ofFile?
  split
  · rename_i fault' hyaml
    rw [hyaml]
    split
    · rename_i hkind
      constructor
      · intro h
        obtain rfl := Except.error.inj h
        exact absurd rfl hnot
      · intro h
        obtain rfl := Except.error.inj h
        exact absurd (reported_of_kind hkind (by decide)) hnot
    · simp
  · rename_i d hyaml
    rw [hyaml]
    exact ⟨fun h => absurd (raises_options d _ h) hnot, nofun⟩

/-- Only the YAML reader keeps options from being loaded without a message. -/
theorem loadOptions_eq_error :
    loadOptions r disk = .error fault ↔ ∃ path content, r.config = some path ∧ path ≠ ""
      ∧ readFile disk path = .ok content ∧ Yaml.readFile 0 content = .error fault := by
  unfold loadOptions
  split
  · rename_i hconfig
    simp [hconfig]
  · rename_i hconfig
    simp [hconfig]
  · rename_i path hpath hconfig
    have hread : readFile disk path ≠ .error fault := fun h => hnot (raises_readFile disk path _ h)
    have hne : path ≠ "" := hpath
    simp [bind_eq_error_iff, hread, hconfig, hne, ofFile?_eq_error hnot]

/-- The forms of a document are not read without end unless it contains itself. -/
theorem listOfCyclic?_eq_error {own : Text} {d : Data} :
    Form.listOfCyclic? own d = .error fault ↔
      d.isCyclic = true ∧ fault = .endless ∧ Form.listOfCyclic? own d = .error .endless := by
  have hplain : Form.listOfData? own d ≠ .error fault :=
    fun h => hnot (raises_listOfData? own d _ h)
  constructor
  · intro h
    rcases Form.listOfCyclic?_follows own d with heq | ⟨hcyclic, hendless⟩
    · exact absurd (heq.symm.trans h) hplain
    · exact ⟨hcyclic, Except.error.inj (h.symm.trans hendless), hendless⟩
  · rintro ⟨-, rfl, h⟩
    exact h

theorem readForms_eq_error {json : Bool} {own text : Text} :
    (if json then Format.json else .yaml).readForms 1 own text = .error fault ↔
      json = false ∧ (Yaml.read 1 text = .error fault ∨ ∃ d, Yaml.read 1 text = .ok d
        ∧ d.isCyclic = true ∧ fault = .endless
        ∧ Form.listOfCyclic? own d = .error .endless) := by
  have hforms : ∀ d, Form.listOfData? own d ≠ .error fault :=
    fun d h => hnot (raises_listOfData? own d _ h)
  have hjson : Json.read 1 text ≠ .error fault := fun h => hnot (raises_json 1 text _ h)
  cases json <;>
    simp [Format.readForms, Format.read, bind_eq_error_iff, hforms, hjson,
      listOfCyclic?_eq_error hnot]

theorem load_eq_error :
    load r disk stdin = .error fault ↔ loadOptions r disk = .error fault
      ∨ ∃ options text, loadOptions r disk = .ok options ∧ loadInput r disk stdin = .ok text
        ∧ r.jsonInput = false ∧ (Yaml.read 1 text = .error fault ∨ ∃ d, Yaml.read 1 text = .ok d
          ∧ d.isCyclic = true ∧ fault = .endless
          ∧ Form.listOfCyclic? options.origin d = .error .endless) := by
  have hinput : loadInput r disk stdin ≠ .error fault := by
    have hraises : Raises (loadInput r disk stdin) Reported :=
      .ite (.ok _) ((raises_readFile disk r.input).bind fun _ => .ok _)
    exact fun h => hnot (hraises _ h)
  have hreturn : ∀ x : Options × List Form, (return x : Except Fault _) ≠ .error fault := nofun
  simp only [load, bind_eq_error_iff, hinput, readForms_eq_error hnot, hreturn, and_false,
    exists_false, false_or, or_false, exists_and_left]

/-- A fault that is not reported keeps a result from being prepared exactly if it escapes. -/
theorem prepare_eq_error : prepare r disk stdin = .error fault ↔ Escapes r disk stdin fault := by
  have hsignatures : ∀ forms, signatures? forms ≠ .error fault :=
    fun forms h => hnot (raises_signatures? forms _ h)
  simp only [prepare, bind_eq_error_iff, load_eq_error hnot, loadOptions_eq_error hnot,
    lower_eq_error, hsignatures, not_rulesComplete_iff, false_or]
  constructor
  · rintro ((⟨path, content, hconfig, hpath, hcontent, hyaml⟩ |
      ⟨options, text, hoptions, htext, hjson, hyaml | ⟨d, hyaml, hcyclic, rfl, hforms⟩⟩) |
      ⟨⟨options, forms⟩, hload, ⟨rules, hrules⟩, ⟨rule, clause, hrule, hclause, habsent⟩, rfl⟩)
    · exact .options hconfig hpath hcontent hyaml hnot
    · exact .input hoptions htext hjson hyaml hnot
    · exact .endless hoptions htext hjson hyaml hcyclic hforms
    · exact .body hload hrules hrule hclause habsent
  · rintro (⟨hconfig, hpath, hcontent, hyaml, -⟩ | ⟨hoptions, htext, hjson, hyaml, -⟩ |
      ⟨hoptions, htext, hjson, hyaml, hcyclic, hforms⟩ | ⟨hload, hrules, hrule, hclause, habsent⟩)
    · exact .inl (.inl ⟨_, _, hconfig, hpath, hcontent, hyaml⟩)
    · exact .inl (.inr ⟨_, _, hoptions, htext, hjson, .inl hyaml⟩)
    · exact .inl (.inr ⟨_, _, hoptions, htext, hjson, .inr ⟨_, hyaml, hcyclic, rfl, hforms⟩⟩)
    · exact .inr ⟨_, hload, ⟨_, hrules⟩, ⟨_, _, hrule, hclause, habsent⟩, rfl⟩

end Unreported

/-- A result is prepared, and the run goes on to deliver it. -/
def Delivers (r : Request) (disk : Disk) (stdin : Text) : Prop :=
  ∃ result log warnings, prepare r disk stdin = .ok result
    ∧ perform r disk stdin = deliver r result log disk warnings

/-- No result is prepared. The run says why in one message, which is all that it says unless it
keeps a log, ends with status 2 and leaves the files as they were. -/
def Refuses (r : Request) (disk : Disk) (stdin : Text) : Prop :=
  ∃ fault log warnings, prepare r disk stdin = .error fault ∧ (log = [] ∨ r.verbose = true)
    ∧ perform r disk stdin =
      { exit := .ok 2, stderr := asLines (log ++ [complaint fault]), disk, warnings }

theorem escapes_iff :
    Escapes r disk stdin fault ↔ prepare r disk stdin = .error fault ∧ ¬ Reported fault :=
  ⟨fun h => ⟨(prepare_eq_error h.not_reported).mpr h, h.not_reported⟩,
    fun ⟨h, hnot⟩ => (prepare_eq_error hnot).mp h⟩

theorem delivers_of_ok {result : List Form} (h : prepare r disk stdin = .ok result) :
    Delivers r disk stdin := by
  obtain ⟨⟨options, forms⟩, hload, hlower⟩ := bind_eq_ok_iff.mp h
  replace hlower : lower options forms = .ok result := hlower
  refine ⟨result, if r.verbose then log options forms else [], loweringWarnings options forms, h, ?_⟩
  rw [perform, hload]
  simp only [hlower]

/-- Without a result a run ends in refusing its input. -/
theorem perform_of_error (h : prepare r disk stdin = .error fault) :
    ∃ log warnings, (log = [] ∨ r.verbose = true)
      ∧ perform r disk stdin = refuse fault log disk warnings := by
  have hlog : ∀ lines : List Text,
      (if r.verbose then lines else []) = [] ∨ r.verbose = true := by
    intro lines
    cases r.verbose <;> simp
  rcases bind_eq_error_iff.mp h with hload | ⟨⟨options, forms⟩, hload, hlower⟩
  · exact ⟨_, [], hlog failureLog, by rw [perform, hload]⟩
  · replace hlower : lower options forms = .error fault := hlower
    refine ⟨_, loweringWarnings options forms, hlog (log options forms), ?_⟩
    rw [perform, hload]
    simp only [hlower]

/-- A run without a result refuses its input with a message exactly if the fault is reported. -/
theorem refuses_iff_reported (h : prepare r disk stdin = .error fault) :
    Refuses r disk stdin ↔ Reported fault := by
  obtain ⟨log, warnings, hlog, hperform⟩ := perform_of_error h
  constructor
  · rintro ⟨_, _, _, -, -, hrefuses⟩
    by_contra hnot
    have hends := hperform.trans (if_neg hnot)
    cases congrArg Outcome.exit (hrefuses.symm.trans hends)
  · intro hreported
    exact ⟨fault, log, warnings, h, hlog, hperform.trans (if_pos hreported)⟩

/-- A fault that is not reported is the end of the run. -/
theorem exit_eq_error_iff (h : prepare r disk stdin = .error fault) :
    (perform r disk stdin).exit = .error fault ↔ ¬ Reported fault := by
  constructor
  · intro hexit hreported
    obtain ⟨_, _, _, -, -, hrefuses⟩ := (refuses_iff_reported h).mpr hreported
    rw [hrefuses] at hexit
    cases hexit
  · intro hnot
    obtain ⟨log, warnings, -, hperform⟩ := perform_of_error h
    have hends := congrArg Outcome.exit (hperform.trans (if_neg hnot))
    exact hends

/-- A run delivers its result or refuses its input, unless a fault escapes. That is so exactly if
the YAML reader fails on the options file or on the input with a fault that no message accounts for,
if YAML input contains itself and its expressions have no end, or if an expression is absent from a
body of a rule and all rules can be listed. The fault then is the end of the run. -/
theorem settles_unless_escaped (r : Request) (disk : Disk) (stdin : Text) :
    (Delivers r disk stdin ∨ Refuses r disk stdin ↔ ¬ ∃ fault, Escapes r disk stdin fault)
      ∧ ∀ fault, Escapes r disk stdin fault ↔
        prepare r disk stdin = .error fault ∧ (perform r disk stdin).exit = .error fault := by
  refine ⟨?_, fun fault => ?_⟩
  · cases hprepare : prepare r disk stdin with
    | ok result =>
      refine iff_of_true (.inl (delivers_of_ok hprepare)) ?_
      simp [escapes_iff, hprepare]
    | error fault =>
      have hdelivers : ¬ Delivers r disk stdin := by
        rintro ⟨result, _, _, hresult, -⟩
        cases hprepare.symm.trans hresult
      rw [or_iff_right hdelivers, refuses_iff_reported hprepare]
      simp [escapes_iff, hprepare]
  · rw [escapes_iff]
    exact and_congr_right fun h => (exit_eq_error_iff h).symm

/-- A rule in JSON, with null where an expression of its body should stand. -/
def nullBody : Text :=
  "[\x7b\"type\": \"rule\", \"name\": \"f\", \"clauses\": [\x7b\"body\": [null]\x7d]\x7d]"

/-- Nothing is said about the null in that rule. -/
theorem nullBody_escapes :
    let r : Request := { input := "-", jsonInput := true }
    ¬ Delivers r {} nullBody ∧ ¬ Refuses r {} nullBody
      ∧ ∃ fault, (perform r {} nullBody).exit = .error fault ∧ fault.kind = .absence := by
  intro r
  have hkind : (Except.tryCatch ((prepare r {} nullBody).map fun _ => .yaml)
      fun fault => .ok fault.kind).toOption = some .absence := by decide +kernel
  cases hprepare : prepare r {} nullBody with
  | error fault =>
    have habsence : fault.kind = .absence := by
      rw [hprepare] at hkind
      exact Option.some.inj hkind
    have hnot : ¬ Reported fault := by
      rw [Reported, isReported, habsence]
      exact nofun
    refine ⟨?_, fun h => hnot ((refuses_iff_reported hprepare).mp h),
      fault, (exit_eq_error_iff hprepare).mpr hnot, habsence⟩
    rintro ⟨result, _, _, hresult, -⟩
    cases hprepare.symm.trans hresult
  | ok prepared =>
    rw [hprepare] at hkind
    cases hkind

end CommandLine

end RuleLowering
