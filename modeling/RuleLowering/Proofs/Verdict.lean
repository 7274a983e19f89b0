import RuleLowering.CommandLine.Run
import RuleLowering.Proofs.Insertions
import RuleLowering.Proofs.Location
import RuleLowering.Proofs.Writable

/-!
# The verdict of a run

A run that has put its result into place reports the markers of the result, each against the file in
effect, and ends with status 1 if there are any. The markers are those of the input, one for a
declaration with parameters and one for each generator over a binary, so the verdict is told by the
input. It does not depend on the rendering, but a rendering may let a number pass that has too many
digits to be shown in a diagnostic: JSON and YAML show all of a marker, printed source leaves out
its position. The run then ends without a verdict.
-/
namespace RuleLowering

namespace Marker

def words (m : Marker) : Text :=
  match m.descriptor with
  | .violation v => v.message
  | .foreign d => d.display

def line (m : Marker) (file : Data) : Text :=
  file.display ++ ":" ++ m.pos.display ++ ": " ++ m.origin.display ++ ": " ++ m.words

/-- All that a diagnostic shows of a marker and its file can be written. -/
def Legible (m : Marker) (file : Data) : Prop :=
  file.isWritable = true ∧ m.pos.isWritable = true ∧ m.origin.isWritable = true
    ∧ m.descriptor.toData.isWritable = true

theorem words_settles (m : Marker) :
    Settles (Source.descriptor m.descriptor) (m.descriptor.toData.isWritable = true) .numberTooLong
      (· = m.words) := by
  unfold words
  cases m.descriptor with
  | violation v => exact .of_ok rfl rfl rfl
  | foreign d => exact d.shownText_settles

/-- A marker has a diagnostic exactly if that can be written. -/
theorem diagnostic_settles (m : Marker) (file : Data) :
    Settles (m.diagnostic file) (m.Legible file) .numberTooLong (· = m.line file) := by
  have hparts : ∀ words f p o, words = m.words → f = file.display → p = m.pos.display →
      o = m.origin.display → Settles (.ok (f ++ ":" ++ p ++ ": " ++ o ++ ": " ++ words)) True
        Fault.numberTooLong (· = m.line file) := by
    rintro _ _ _ _ rfl rfl rfl rfl
    exact .of_ok rfl trivial rfl
  have hchain := m.words_settles.bind fun words hwords => file.shownText_settles.bind fun f hf =>
    m.pos.shownText_settles.bind fun p hp => m.origin.shownText_settles.bind fun o ho =>
    hparts words f p o hwords hf hp ho
  refine hchain.mono ?_ fun _ h => h
  unfold Legible
  tauto

end Marker

def LegibleMarkers (problems : List (Data × Marker)) : Prop := ∀ p ∈ problems, p.2.Legible p.1

/-- The markers of a module are reported, line by line, if all of them can be written. -/
theorem diagnostics_settles (file : Data) (forms : List Form) :
    let problems := locatedMarkers (located file forms)
    Settles (diagnostics file forms) (LegibleMarkers problems) .numberTooLong
      (· = problems.map fun p => p.2.line p.1) := by
  intro problems
  rw [diagnostics_eq_located, Settles.iff_decides]
  have hwalk := Decides.mapM fun (p : Data × Marker) (_ : p ∈ problems) =>
    Settles.iff_decides.mp (p.2.diagnostic_settles p.1)
  refine hwalk.mono Iff.rfl fun lines hlines => ?_
  have hforall : List.Forall₂ (fun line p => line = p.2.line p.1) lines problems := hlines.flip
  have hmap : List.Forall₂ (· = ·) lines (problems.map fun p => p.2.line p.1) :=
    List.forall₂_map_right_iff.mpr hforall
  rwa [List.forall₂_eq_eq_eq] at hmap

/-- To locate markers keeps them in order. -/
theorem map_snd_locatedMarkers (file : Data) (forms : List Form) :
    (locatedMarkers (located file forms)).map Prod.snd = markersOf forms := by
  induction forms generalizing file with
  | nil => rfl
  | cons f rest ih =>
    cases f with
    | marker m => exact congrArg (m :: ·) (ih _)
    | _ => exact ih _

section Documents

theorem Marker.legible_of_toData {m : Marker} {file : Data} (hfile : file.isWritable = true)
    (h : m.toData.isWritable = true) : m.Legible file := by
  simp only [Marker.toData, Data.isWritable_ofFields, List.forall_mem_cons] at h
  obtain ⟨-, horigin, hdescriptor, hpos, -⟩ := h
  exact ⟨hfile, hpos, horigin, hdescriptor⟩

/-- The file in effect behind a form with a document that can be written can be written. -/
theorem Form.isWritable_fileAfter {f : Form} {file : Data} (hfile : file.isWritable = true)
    (h : f.toData.isWritable = true) : (f.fileAfter file).isWritable = true := by
  cases f with
  | file f =>
    simp only [Form.toData, FileMark.toData, attributeData, Data.isWritable_ofFields,
      List.forall_mem_cons] at h
    exact h.2.2.2.1
  | _ => exact hfile

/-- If the document of a module can be written, so can all its diagnostics. -/
theorem legibleMarkers_of_listToData {file : Data} {forms : List Form}
    (hfile : file.isWritable = true) (h : (Form.listToData forms).isWritable = true) :
    LegibleMarkers (locatedMarkers (located file forms)) := by
  rw [Form.listToData, Data.isWritable_ofList, List.forall_mem_map] at h
  induction forms generalizing file with
  | nil => exact nofun
  | cons f rest ih =>
    obtain ⟨hf, hrest⟩ := List.forall_mem_cons.mp h
    have hlater := ih (Form.isWritable_fileAfter hfile hf) hrest
    cases f with
    | marker m => exact List.forall_mem_cons.mpr ⟨Marker.legible_of_toData hfile hf, hlater⟩
    | _ => exact hlater

/-- JSON and YAML texts show all of a document. -/
theorem Rendering.isWritable_of_write {rendering : Rendering} {forms : List Form} {text : Text}
    (hsource : ∀ mode, rendering ≠ .source mode) (h : rendering.write forms = .ok text) :
    (Form.listToData forms).isWritable = true := by
  cases rendering with
  | json =>
    obtain ⟨written, hwritten, -⟩ := bind_eq_ok_iff.mp h
    exact Json.isWritableIn_of_write [] _ _ _ hwritten
  | yaml =>
    obtain ⟨written, hwritten, -⟩ := bind_eq_ok_iff.mp h
    rw [Yaml.write] at hwritten
    by_contra hnot
    rw [if_neg hnot] at hwritten
    cases hwritten
  | source mode => exact absurd rfl (hsource mode)

end Documents

section Problems

open ModuleScan (scan)

def bodyExprs (forms : List Form) : List Expr :=
  (forms.filterMap Form.rule?).flatMap fun r => r.clauses.flatMap Clause.body

def isParameterized (forms : List Form) : Bool :=
  (scan forms).declaration.any (·.parameters.isSome)

/-- The markers of some forms, one more for a declaration with parameters, and one for each
generator over a binary at the top of a rule's body. -/
def problemCount (forms : List Form) : Nat :=
  (markersOf forms).length + (if isParameterized forms then 1 else 0)
    + (bodyExprs forms).countP Expr.isBinaryGenerator

/-- There is something to report: a marker, a declaration with parameters or a generator over a
binary in the body of a rule. -/
def HasProblem (forms : List Form) : Prop :=
  (∃ m, .marker m ∈ forms)
    ∨ (∃ m, (scan forms).declaration = some m ∧ m.parameters.isSome = true)
    ∨ ∃ r, .rule r ∈ forms ∧ ∃ c ∈ r.clauses, ∃ e ∈ c.body, e.isBinaryGenerator = true

theorem mem_markersOf {forms : List Form} {m : Marker} : m ∈ markersOf forms ↔ .marker m ∈ forms := by
  induction forms with
  | nil => simp [markersOf]
  | cons f rest ih => cases f <;> simp_all [markersOf]

theorem isParameterized_iff {forms : List Form} : isParameterized forms = true ↔
    ∃ m, (scan forms).declaration = some m ∧ m.parameters.isSome = true := by
  rw [isParameterized, Option.any_eq_true]

theorem mem_bodyExprs {forms : List Form} {e : Expr} :
    e ∈ bodyExprs forms ↔ ∃ r, .rule r ∈ forms ∧ ∃ c ∈ r.clauses, e ∈ c.body := by
  simp only [bodyExprs, List.mem_flatMap, mem_rules]

theorem problemCount_pos_iff {forms : List Form} : 0 < problemCount forms ↔ HasProblem forms := by
  have hmarkers : 0 < (markersOf forms).length ↔ ∃ m, .marker m ∈ forms := by
    simp only [List.length_pos_iff_exists_mem, mem_markersOf]
  have hdeclared : (0 < if isParameterized forms then 1 else 0) ↔
      ∃ m, (scan forms).declaration = some m ∧ m.parameters.isSome = true := by
    rw [← isParameterized_iff]
    cases isParameterized forms <;> simp
  have hbinary : 0 < (bodyExprs forms).countP Expr.isBinaryGenerator ↔
      ∃ r, .rule r ∈ forms ∧ ∃ c ∈ r.clauses, ∃ e ∈ c.body, e.isBinaryGenerator = true := by
    rw [List.countP_pos_iff]
    simp only [mem_bodyExprs]
    grind
  rw [HasProblem, ← hmarkers, ← hdeclared, ← hbinary, problemCount]
  omega

/-- The markers of a lowered module are as many as its problems. -/
theorem length_markersOf_lowered {o : Options} {forms out : List Form}
    (h : lower o forms = .ok out) : (markersOf out).length = problemCount forms := by
  have hcount := countP_markersOf_lowered (fun _ => true) h
  have hrules : ((forms.filterMap Form.rule?).flatMap (Rule.reported o)).length =
      (bodyExprs forms).countP Expr.isBinaryGenerator := by
    have hreported : Rule.reported o = fun r => (r.clauses.flatMap Clause.body).flatMap
        (Expr.reported o) := funext (Rule.reported_eq_flatMap o)
    rw [← Expr.length_reported o, bodyExprs, List.flatMap_assoc, hreported]
  have hscan : ((scan forms).markers o.origin).length =
      if isParameterized forms then 1 else 0 := by
    unfold ModuleScan.markers isParameterized
    cases (scan forms).declaration with
    | none => rfl
    | some m =>
      dsimp only
      rw [Option.any_some]
      cases m.parameters.isSome <;> rfl
  rw [problemCount, ← hrules, ← hscan]
  simpa using hcount

end Problems

namespace CommandLine

open ModuleScan (scan)

variable {r : Request} {disk disk' : Disk} {stdin stdout text : Text} {options : Options}
  {forms result : List Form}

/-- What a run writes to its log before it reports. -/
def logOf (r : Request) (options : Options) (forms : List Form) : List Text :=
  if r.verbose then log options forms else []

/-- A run that has put its result into place goes on to report. -/
theorem perform_of_placed (hload : load r disk stdin = .ok (options, forms))
    (hlower : lower options forms = .ok result)
    (hwrite : r.format.rendering.write result = .ok text)
    (hplace : place r text disk = .ok (stdout, disk')) :
    perform r disk stdin =
      report result (logOf r options forms) stdout disk' (loweringWarnings options forms) := by
  rw [perform, hload]
  simp only [hlower, deliver, hwrite, hplace]
  rfl

/-- Reporting gives a verdict if all diagnostics can be written. -/
theorem report_eq (result : List Form) (log : List Text) (stdout : Text) (disk : Disk)
    (warnings : List Text) :
    let problems := locatedMarkers (located "nofile" result)
    LegibleMarkers problems ∧ report result log stdout disk warnings =
        { exit := .ok (if problems.isEmpty then 0 else 1), stdout
          stderr := asLines (log ++ problems.map fun p => p.2.line p.1), disk, warnings }
      ∨ ¬ LegibleMarkers problems ∧ report result log stdout disk warnings =
        { exit := .error .numberTooLong, stdout
          stderr := asLines (log ++ diagnosticsBefore "nofile" result), disk, warnings } := by
  intro problems
  rcases diagnostics_settles "nofile" result with ⟨hlegible, _, hlines, rfl⟩ | ⟨hlegible, hfault⟩
  · refine .inl ⟨hlegible, ?_⟩
    rw [report, hlines]
    simp only [List.isEmpty_map]
    rfl
  · refine .inr ⟨hlegible, ?_⟩
    rw [report, hfault]

/-- Diagnostics that cannot be written come from printed source only. -/
theorem legibleMarkers_or_source (hwrite : r.format.rendering.write result = .ok text) :
    LegibleMarkers (locatedMarkers (located "nofile" result)) ∨ r.format = .source := by
  by_cases hsource : r.format = .source
  · exact .inr hsource
  · have hrendering : ∀ mode, r.format.rendering ≠ .source mode := by
      intro mode
      cases hformat : r.format with
      | source => exact absurd hformat hsource
      | _ => exact nofun
    exact .inl (legibleMarkers_of_listToData rfl (Rendering.isWritable_of_write hrendering hwrite))

/-- A run that has put its result into place reports one problem for each marker of the input, for a
declaration with parameters and for each generator over a binary at the top of a rule's body: in the
order of the result, and each against the file in effect there. It ends with status 1 if there are
any and with 0 if there are none, whatever the rendering and the place of the output. Only where a
number in a diagnostic has too many digits to be written it ends without a verdict, and that only
after printed source. -/
theorem verdict_of_placed (hload : load r disk stdin = .ok (options, forms))
    (hlower : lower options forms = .ok result)
    (hwrite : r.format.rendering.write result = .ok text)
    (hplace : place r text disk = .ok (stdout, disk')) :
    let s := scan forms
    let problems := locatedMarkers (located "nofile" result)
    let outcome := perform r disk stdin
    problems.map Prod.snd = markersOf s.leading
        ++ ((s.declaration.toList.filter (·.parameters.isSome)).map fun m =>
          ⟨.str options.origin, .violation .parameterizedModule, m.pos⟩)
        ++ s.rest.flatMap (Form.reported options)
      ∧ problems.length = problemCount forms
      ∧ outcome.stdout = stdout ∧ outcome.disk = disk'
      ∧ (LegibleMarkers problems
          ∧ (HasProblem forms ∧ outcome.exit = .ok 1 ∨ ¬ HasProblem forms ∧ outcome.exit = .ok 0)
          ∧ outcome.stderr =
            asLines (logOf r options forms ++ problems.map fun p => p.2.line p.1)
        ∨ ¬ LegibleMarkers problems ∧ r.format = .source ∧ outcome.exit = .error .numberTooLong)
      ∧ ∀ format output text' stdout' disk'',
        let r' : Request := { r with format, output }
        r'.format.rendering.write result = .ok text' →
        place r' text' disk = .ok (stdout', disk'') →
        (perform r' disk stdin).exit = outcome.exit
          ∧ (perform r' disk stdin).stderr = outcome.stderr := by
  intro s problems outcome
  have hlength : problems.length = problemCount forms := by
    rw [← length_markersOf_lowered hlower, ← map_snd_locatedMarkers "nofile", List.length_map]
  have hproblem : problems.isEmpty = false ↔ HasProblem forms := by
    rw [← problemCount_pos_iff, ← hlength, List.length_pos_iff, Bool.eq_false_iff, Ne,
      List.isEmpty_iff]
  have houtcome : outcome = report result (logOf r options forms) stdout disk'
      (loweringWarnings options forms) := perform_of_placed hload hlower hwrite hplace
  have hreport := report_eq result (logOf r options forms) stdout disk'
    (loweringWarnings options forms)
  rw [← houtcome] at hreport
  refine ⟨(map_snd_locatedMarkers _ _).trans (markersOf_lowered hlower), hlength, ?_, ?_, ?_, ?_⟩
  · rcases hreport with ⟨-, h⟩ | ⟨-, h⟩ <;> rw [h]
  · rcases hreport with ⟨-, h⟩ | ⟨-, h⟩ <;> rw [h]
  · rcases hreport with ⟨hlegible, h⟩ | ⟨hlegible, h⟩
    · refine .inl ⟨hlegible, ?_, by rw [h]⟩
      rw [h, ← hproblem]
      cases problems.isEmpty <;> simp
    · refine .inr ⟨hlegible, (legibleMarkers_or_source hwrite).resolve_left hlegible, by rw [h]⟩
  · intro format output text' stdout' disk'' r' hwrite' hplace'
    have houtcome' : perform r' disk stdin = report result (logOf r options forms) stdout' disk''
        (loweringWarnings options forms) :=
      perform_of_placed (r := r') hload hlower hwrite' hplace'
    rw [houtcome, houtcome', report, report]
    cases diagnostics "nofile" result <;> exact ⟨rfl, rfl⟩

/-- A module in JSON with a marker and a generator over a binary. -/
def twoProblems : Text :=
  "[\x7b\"type\": \"error_marker\", \"origin\": \"epp\", \"descriptor\": \"undefined macro\"\x7d,
    \x7b\"type\": \"rule\", \"name\": \"f\", \"clauses\": [\x7b\"body\": [\x7b\"type\": \"b_generate\",
      \"pattern\": null, \"body\": null\x7d]\x7d]\x7d]"

/-- Both are reported, and the run ends with status 1. -/
theorem twoProblems_verdict :
    let r : Request := { input := "-", jsonInput := true, format := .json }
    ∃ options forms result text, load r {} twoProblems = .ok (options, forms)
      ∧ lower options forms = .ok result
      ∧ r.format.rendering.write result = .ok text
      ∧ place r text {} = .ok (text, {})
      ∧ (locatedMarkers (located "nofile" result)).length = 2
      ∧ (perform r {} twoProblems).exit = .ok 1 := by
  intro r
  obtain ⟨text, hrun⟩ := exists_ok_of_toBool (x := do
    let loaded ← load r {} twoProblems
    let result ← lower loaded.1 loaded.2
    let text ← r.format.rendering.write result
    if problemCount loaded.2 = 2 then .ok text else .error .circular) (by decide +kernel)
  obtain ⟨⟨options, forms⟩, hload, hrun⟩ := bind_eq_ok_iff.mp hrun
  obtain ⟨result, hlower, hrun⟩ := bind_eq_ok_iff.mp hrun
  obtain ⟨text', hwrite, hrun⟩ := bind_eq_ok_iff.mp hrun
  dsimp only at hrun
  split at hrun
  · rename_i hcount
    have hplace : place r text' {} = .ok (text', {}) := rfl
    obtain ⟨-, hlength, -, -, hverdict, -⟩ := verdict_of_placed hload hlower hwrite hplace
    have hproblem : HasProblem forms := problemCount_pos_iff.mp (by omega)
    refine ⟨options, forms, result, text', hload, hlower, hwrite, hplace, hlength.trans hcount, ?_⟩
    rcases hverdict with ⟨-, h, -⟩ | ⟨-, hformat, -⟩
    · exact (h.resolve_right fun h => h.1 hproblem).2
    · cases hformat
  · cases hrun

/-- A marker at a position with more digits than are written. -/
def distantMarker : Marker := ⟨"epp", .foreign "undefined macro", .int Data.numberLimit⟩

/-- Its position cannot be shown. -/
theorem not_legible_distantMarker (hlower : lower {} [.marker distantMarker] = .ok result) :
    ¬ LegibleMarkers (locatedMarkers (located "nofile" result)) := by
  have hmem : distantMarker ∈ (locatedMarkers (located "nofile" result)).map Prod.snd := by
    rw [map_snd_locatedMarkers, markersOf_lowered hlower]
    exact List.mem_cons_self
  obtain ⟨p, hp, hmarker⟩ := List.mem_map.mp hmem
  intro hlegible
  have hpos := (hlegible p hp).2.1
  rw [hmarker, distantMarker, Data.isWritable_int, Int.natAbs_natCast] at hpos
  exact Nat.lt_irrefl _ hpos

/-- It is printed, and every run that prints it ends without a verdict. -/
theorem distantMarker_unreported :
    HasProblem [.marker distantMarker]
      ∧ ∃ result text, lower {} [.marker distantMarker] = .ok result
        ∧ OutputFormat.source.rendering.write result = .ok text
        ∧ ∀ (input : String) (jsonInput : Bool) (disk : Disk) (stdin : Text),
          let r : Request := { input, jsonInput, format := .source }
          load r disk stdin = .ok ({}, [.marker distantMarker]) →
          (perform r disk stdin).exit = .error .numberTooLong := by
  obtain ⟨text, hwrite⟩ := exists_ok_of_toBool (x := do
    OutputFormat.source.rendering.write (← lower {} [.marker distantMarker])) (by decide +kernel)
  obtain ⟨result, hlower, hwrite⟩ := bind_eq_ok_iff.mp hwrite
  refine ⟨.inl ⟨_, List.mem_cons_self⟩, result, text, hlower, hwrite, ?_⟩
  intro input jsonInput disk stdin r hload
  have hplace : place r text disk = .ok (text, disk) := rfl
  rw [perform_of_placed hload hlower hwrite hplace]
  rcases report_eq result (logOf r {} [.marker distantMarker]) text disk
    (loweringWarnings {} [.marker distantMarker]) with ⟨h, -⟩ | ⟨-, h⟩
  · exact absurd h (not_legible_distantMarker hlower)
  · rw [h]

end CommandLine

end RuleLowering
