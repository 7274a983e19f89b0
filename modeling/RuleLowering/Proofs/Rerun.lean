import RuleLowering.Proofs.Arranged
import RuleLowering.Proofs.Reload
import RuleLowering.Proofs.SecondReport
import RuleLowering.Proofs.Verdict

/-!
# Running on one's own output

A run that reads the JSON text of a run before finds a lowered module in which nothing is left to be
done but to put in two more blocks. It ends with the same status, and reports the same markers
against the same files and in the same order; only the marker of a declaration with parameters is
there twice. But the text gives the entries of a mapping in the order of their names, so a mapping
that is shown in a line is shown in that order by the second run.
-/
namespace RuleLowering

open Data (ArrangedAs Reordered Reshapes)
open ModuleScan (scan)

section Lines

def Descriptor.arranged : Descriptor → Descriptor
  | .violation v => .violation v
  | .foreign d => .foreign d.arranged

namespace Marker

def arranged (m : Marker) : Marker := ⟨m.origin.arranged, m.descriptor.arranged, m.pos.arranged⟩

def IsArranged (m : Marker) : Prop :=
  m.origin.isArranged = true ∧ m.descriptor.toData.isArranged = true ∧ m.pos.isArranged = true

variable {m m' : Marker} {file file' : Data}

/-- A marker that has come back is reported as the arranged one would be. -/
theorem line_eq_of_reshaped (hfile : ArrangedAs file file') (h : Marker.Reshaped ArrangedAs m m') :
    m'.line file' = m.arranged.line file.arranged := by
  have hwords : m'.words = m.arranged.words := by
    obtain ⟨origin, descriptor, pos⟩ := m
    obtain ⟨origin', descriptor', pos'⟩ := m'
    cases h.descriptor with
    | violation v => rfl
    | foreign hd => exact hd.display_eq
  rw [line, line, hfile.display_eq, h.pos.display_eq, h.origin.display_eq, hwords]
  rfl

/-- Where nothing has to be arranged that is the line of before. -/
theorem arranged_line_eq (hfile : ArrangedAs file file') (h : Marker.Reshaped ArrangedAs m m')
    (hfile' : file.isArranged = true) (hm : m.IsArranged) :
    m.arranged.line file.arranged = m.line file := by
  obtain ⟨horigin, hdescriptor, hpos⟩ := hm
  have hself : ∀ {d d' : Data}, ArrangedAs d d' → d.isArranged = true → d.arranged = d :=
    fun hd => Data.arranged_eq_self hd.1.isJson_left
  have harranged : m.descriptor.arranged = m.descriptor := by
    obtain ⟨origin, descriptor, pos⟩ := m
    obtain ⟨origin', descriptor', pos'⟩ := m'
    cases h.descriptor with
    | violation v => rfl
    | foreign hd => exact congrArg Descriptor.foreign (hself hd hdescriptor)
  rw [arranged, harranged, hself h.origin horigin, hself h.pos hpos, hself hfile hfile']

end Marker

/-- The markers of forms of one shape are reported against related files. -/
theorem reshaped_locatedMarkers {R : Data → Data → Prop} {file file' : Data} (hfile : R file file')
    {forms forms' : List Form} (h : List.Forall₂ (Form.Reshaped R) forms forms') :
    List.Forall₂ (fun p p' => R p.1 p'.1 ∧ Marker.Reshaped R p.2 p'.2)
      (locatedMarkers (located file forms)) (locatedMarkers (located file' forms')) := by
  induction h generalizing file file' with
  | nil => exact .nil
  | cons hf _ ih =>
    cases hf with
    | file hmark => exact ih hmark.file
    | marker hm => exact .cons ⟨hfile, hm⟩ (ih hfile)
    | _ => exact ih hfile

/-- The markers of two modules, with the files in effect, the second time with the data arranged. -/
def ProblemsArranged (problems problems' : List (Data × Marker)) : Prop :=
  List.Forall₂ (fun p p' => ArrangedAs p.1 p'.1 ∧ Marker.Reshaped ArrangedAs p.2 p'.2)
    problems problems'

theorem ProblemsArranged.lines_eq {problems problems' : List (Data × Marker)}
    (h : ProblemsArranged problems problems') :
    problems'.map (fun p => p.2.line p.1) =
      problems.map fun p => p.2.arranged.line p.1.arranged := by
  have heach : List.Forall₂ (· = ·) (problems'.map fun p => p.2.line p.1)
      (problems.map fun p => p.2.arranged.line p.1.arranged) := by
    rw [List.forall₂_map_left_iff, List.forall₂_map_right_iff]
    exact h.flip.imp fun p' p hp => Marker.line_eq_of_reshaped hp.1 hp.2
  exact List.forall₂_eq_eq_eq ▸ heach

theorem ProblemsArranged.isEmpty_eq {problems problems' : List (Data × Marker)}
    (h : ProblemsArranged problems problems') : problems'.isEmpty = problems.isEmpty := by
  cases h <;> rfl

end Lines

section Lowering

variable {o : Options} {d : Data} {forms out : List Form}

/-- The arranged document of a lowered module is read as forms of the same shape, and lowering goes
on from these as it does from the module itself. -/
theorem exists_lowered_of_arranged {d' : Data} (hread : Form.listOfData? o.origin d = .ok forms)
    (h : lower o forms = .ok out) (hd' : ArrangedAs (Form.listToData out) d') :
    ∃ forms' again again', Form.listOfData? o.origin d' = .ok forms'
      ∧ List.Forall₂ (Form.Reshaped ArrangedAs) out forms'
      ∧ lower o out = .ok again ∧ lower o forms' = .ok again'
      ∧ List.Forall₂ (Form.Reshaped ArrangedAs) again again' := by
  have hback : Form.listOfData? o.origin (Form.listToData out) = .ok out :=
    Form.listOfData?_eq_self fun m hm =>
      readsBack_of_lowered (fun m => Form.readsBack_of_read hread) h hm
  have hwalk : ∀ place items, Form.listToData out = .list place items →
      ∀ item ∈ items, Form.WalksLists item := by
    intro place items heq item hitem
    obtain ⟨-, rfl⟩ := Data.list.inj heq
    obtain ⟨f, -, rfl⟩ := List.mem_map.mp hitem
    exact f.walksLists_toData
  obtain ⟨forms', hforms', hrelated⟩ :=
    (Form.alike_listOfData? Data.reshapes_arranged o.origin hd' (.inr hwalk)).exists_ok hback
  have hrule : ∀ f ∈ out, f.isRule = false := fun f hf => not_isRule_of_mem_lowered h hf
  have hrules : signatures? out = .ok [] := signatures?_of_not_isRule hrule
  have hcomplete : RulesComplete out := by
    intro r hr
    cases hrule _ hr
  obtain ⟨again, hagain⟩ : ∃ again, lower o out = .ok again :=
    ⟨_, lower_eq_ok.mpr ⟨hcomplete, [], hrules, rfl⟩⟩
  have halike := alike_lower Data.reshapes_arranged o hrelated fun rules hlisted s hs => by
    obtain rfl := Except.ok.inj (hrules.symm.trans hlisted)
    cases hs
  obtain ⟨again', hagain', hshape⟩ := halike.exists_ok hagain
  exact ⟨forms', again, again', hforms', hrelated, hagain, hagain', hshape⟩

/-- Forms of one shape with forms that are no rules are none. -/
theorem not_rule_of_reshaped {R : Data → Data → Prop} {forms' : List Form}
    (h : List.Forall₂ (Form.Reshaped R) out forms') (hrule : ∀ f ∈ out, f.isRule = false)
    (r : Rule) : .rule r ∉ forms' := by
  intro hr
  obtain ⟨f, hf, hshape⟩ := exists_left_of_forall₂ h _ hr
  cases hshape with
  | rule _ => cases hrule _ hf

end Lowering

/-- The text of a value is read as that value, with its entries in the order of their names. -/
def Data.ComesBack (d : Data) (text : Text) : Prop :=
  ∃ d', Json.read 1 text = .ok d' ∧ d.reordered d' = true ∧ d'.isArranged = true

/-- So is the text of a document that tells all of it. -/
theorem comesBack_of_faithful {forms : List Form} {text : Text}
    (hfaithful : Json.isFaithful (Form.listToData forms) = true)
    (h : Rendering.json.write forms = .ok text) : (Form.listToData forms).ComesBack text := by
  obtain ⟨written, hwritten, hreturn⟩ := bind_eq_ok_iff.mp h
  obtain rfl := return_eq_ok_iff.mp hreturn
  obtain ⟨d, hd, htold⟩ := Json.exists_read_of_write hfaithful hwritten 1
  exact ⟨d, hd, htold.reordered, htold.arranged⟩

namespace CommandLine

variable {r r' : Request} {disk disk₁ disk' : Disk} {stdin stdin' stdout text text' : Text}
  {options : Options} {forms result : List Form}

theorem loadOptions_of_load (h : load r disk stdin = .ok (options, forms)) :
    loadOptions r disk = .ok options := by
  obtain ⟨options', hoptions, h⟩ := bind_eq_ok_iff.mp h
  obtain ⟨text, -, h⟩ := bind_eq_ok_iff.mp h
  obtain ⟨forms', -, hpair⟩ := bind_eq_ok_iff.mp h
  obtain ⟨rfl, -⟩ := Prod.mk.inj (return_eq_ok_iff.mp hpair)
  exact hoptions

/-- A run with JSON as its input reads forms of a value of JSON. -/
theorem exists_json_of_load (hjson : r.jsonInput = true)
    (hload : load r disk stdin = .ok (options, forms)) :
    ∃ d, d.isJson = true ∧ Form.listOfData? options.origin d = .ok forms := by
  obtain ⟨options', -, hload⟩ := bind_eq_ok_iff.mp hload
  obtain ⟨text, -, hload⟩ := bind_eq_ok_iff.mp hload
  dsimp only at hload
  rw [hjson, if_pos rfl] at hload
  obtain ⟨forms', hforms, hpair⟩ := bind_eq_ok_iff.mp hload
  obtain ⟨rfl, rfl⟩ := Prod.mk.inj (return_eq_ok_iff.mp hpair)
  obtain ⟨d, hd, hlist⟩ := bind_eq_ok_iff.mp hforms
  exact ⟨d, (Json.isJson_of_read hd).1, hlist⟩

theorem load_of_read {d : Data} (hjson : r.jsonInput = true)
    (hoptions : loadOptions r disk = .ok options) (hinput : loadInput r disk stdin = .ok text)
    (hread : Json.read 1 text = .ok d) (hlist : Form.listOfData? options.origin d = .ok forms) :
    load r disk stdin = .ok (options, forms) := by
  have hforms : Format.json.readForms 1 options.origin text = .ok forms :=
    bind_eq_ok_iff.mpr ⟨d, hread, hlist⟩
  rw [load, hoptions, ok_bind, hinput, ok_bind]
  dsimp only
  rw [hjson, if_pos rfl, hforms]
  rfl

/-- Whether there is a place for a JSON text does not depend on the text. -/
theorem exists_place {forms forms' : List Form} (hwrite : Rendering.json.write forms = .ok text)
    (hwrite' : Rendering.json.write forms' = .ok text')
    (hplace : ∃ placed, place r text disk = .ok placed) :
    ∃ placed, place r text' disk = .ok placed := by
  obtain ⟨written, -, hplain⟩ := bind_eq_ok_iff.mp hwrite
  obtain ⟨written', -, hplain'⟩ := bind_eq_ok_iff.mp hwrite'
  obtain rfl := return_eq_ok_iff.mp hplain
  obtain rfl := return_eq_ok_iff.mp hplain'
  obtain ⟨placed, hplace⟩ := hplace
  unfold place at hplace ⊢
  split at hplace
  · exact ⟨_, rfl⟩
  · exact ⟨_, rfl⟩
  · obtain ⟨disk', hdisk', -⟩ := bind_eq_ok_iff.mp hplace
    obtain ⟨target, htarget, -⟩ := bind_eq_ok_iff.mp hdisk'
    rw [Disk.write, htarget]
    exact ⟨_, rfl⟩

/-- A run with JSON as its output that has put its result into place reports all markers, and ends
with status 1 if there are any. -/
theorem perform_of_json (hformat : r.format = .json)
    (hload : load r disk stdin = .ok (options, forms)) (hlower : lower options forms = .ok result)
    (hwrite : r.format.rendering.write result = .ok text)
    (hplace : place r text disk = .ok (stdout, disk')) :
    let problems := locatedMarkers (located "nofile" result)
    (perform r disk stdin).stdout = stdout
      ∧ (perform r disk stdin).exit = .ok (if problems.isEmpty then 0 else 1)
      ∧ (perform r disk stdin).stderr =
        asLines (logOf r options forms ++ problems.map fun p => p.2.line p.1) := by
  intro problems
  have hlegible : LegibleMarkers problems := by
    refine (legibleMarkers_or_source hwrite).resolve_right fun hsource => ?_
    rw [hformat] at hsource
    cases hsource
  have houtcome := perform_of_placed hload hlower hwrite hplace
  rcases report_eq result (logOf r options forms) stdout disk' (loweringWarnings options forms)
    with ⟨-, hreport⟩ | ⟨hnot, -⟩
  · rw [houtcome, hreport]
    exact ⟨rfl, rfl, rfl⟩
  · exact absurd hlegible hnot

/-- A run that reads the JSON text of a run before, with the same options, makes of it what
lowering makes of the lowered module itself, with the data arranged, and finds a text and a place
for that. -/
theorem exists_second_run (hjson : r.jsonInput = true) (hjson' : r'.jsonInput = true)
    (hformat' : r'.format = .json) (hload : load r disk stdin = .ok (options, forms))
    (hlower : lower options forms = .ok result) (hwrite : Rendering.json.write result = .ok text)
    (hback : (Form.listToData result).ComesBack text)
    (hoptions : loadOptions r' disk' = .ok options)
    (hinput : loadInput r' disk' stdin' = .ok text)
    (hroom : ∃ placed, place r' text disk' = .ok placed) :
    ∃ forms' again again' text' stdout' disk₂, load r' disk' stdin' = .ok (options, forms')
      ∧ lower options result = .ok again ∧ lower options forms' = .ok again'
      ∧ List.Forall₂ (Form.Reshaped ArrangedAs) again again'
      ∧ r'.format.rendering.write again' = .ok text'
      ∧ place r' text' disk' = .ok (stdout', disk₂) := by
  obtain ⟨d, hd, hlist⟩ := exists_json_of_load hjson hload
  obtain ⟨d', hread, hreordered, harranged⟩ := hback
  obtain ⟨hd', hwritable⟩ := Json.isJson_of_read hread
  have hresult := isJson_listToData_lowered hd (bind_eq_ok_iff.mpr ⟨forms, hlist, hlower⟩)
  have hdocument : ArrangedAs (Form.listToData result) d' :=
    ⟨⟨hresult, hd', hreordered⟩, harranged⟩
  obtain ⟨forms', again, again', hlist', hrelated, hagain, hagain', hshape⟩ :=
    exists_lowered_of_arranged hlist hlower hdocument
  have harity : ArityWritable options.origin d' := by
    intro read hforms r hr
    obtain rfl := Except.ok.inj (hlist'.symm.trans hforms)
    exact absurd hr
      (not_rule_of_reshaped hrelated (fun f hf => not_isRule_of_mem_lowered hlower hf) r)
  obtain ⟨text', hwrite'⟩ :=
    exists_write_of_lowered hd' hwritable harity (by rw [hlist', ok_bind, hagain'])
  obtain ⟨⟨stdout', disk₂⟩, hplace'⟩ := exists_place hwrite hwrite' hroom
  refine ⟨forms', again, again', text', stdout', disk₂, ?_, hagain, hagain', hshape, ?_, hplace'⟩
  · exact load_of_read hjson' hoptions hinput hread hlist'
  · rw [hformat']
    exact hwrite'

/-- A run that reads the JSON text of a run before, with the same options, succeeds like that one if
there is a place for its output, and ends with the same status. It reports the same markers in the
same order and against the same files, but the marker of a declaration with parameters a second time
behind itself, and what it shows of markers and files is arranged: where all entries were in the
order of their names before, the lines are the same. -/
theorem rerun_repeats_verdict (hjson : r.jsonInput = true) (hformat : r.format = .json)
    (hjson' : r'.jsonInput = true) (hformat' : r'.format = .json)
    (hload : load r disk stdin = .ok (options, forms))
    (hlower : lower options forms = .ok result)
    (hwrite : r.format.rendering.write result = .ok text)
    (hplace : place r text disk = .ok (stdout, disk₁))
    (hback : (Form.listToData result).ComesBack text)
    (hoptions : loadOptions r' disk' = .ok options)
    (hinput : loadInput r' disk' stdin' = .ok text)
    (hroom : ∃ placed, place r' text disk' = .ok placed) :
    ∃ (status : Nat) (forms' : List Form) (before doubled after : List (Data × Marker)),
      status < 2
      ∧ (perform r disk stdin).exit = .ok status
      ∧ (perform r' disk' stdin').exit = .ok status
      ∧ doubled.map Prod.snd = (scan forms).markers options.origin
      ∧ (perform r disk stdin).stderr = asLines (logOf r options forms
        ++ (before ++ (doubled ++ after)).map fun p => p.2.line p.1)
      ∧ (perform r' disk' stdin').stderr = asLines (logOf r' options forms'
        ++ (before ++ (doubled ++ (doubled ++ after))).map fun p => p.2.arranged.line p.1.arranged)
      ∧ ∀ p ∈ before ++ (doubled ++ after), p.1.isArranged = true → p.2.IsArranged →
        p.2.arranged.line p.1.arranged = p.2.line p.1 := by
  have hjsonText : Rendering.json.write result = .ok text := by rwa [hformat] at hwrite
  obtain ⟨forms', again, again', text', stdout', disk₂, hload', hagain, hagain', hshape, hwrite',
    hplace'⟩ := exists_second_run hjson hjson' hformat' hload hlower hjsonText hback hoptions hinput
    hroom
  obtain ⟨-, hexit, hlines⟩ := perform_of_json hformat hload hlower hwrite hplace
  obtain ⟨-, hexit', hlines'⟩ := perform_of_json hformat' hload' hagain' hwrite' hplace'
  obtain ⟨before, doubled, after, hdoubled, hproblems, hproblems'⟩ :
      ∃ before doubled after, doubled.map Prod.snd = (scan forms).markers options.origin
        ∧ locatedMarkers (located "nofile" result) = before ++ (doubled ++ after)
        ∧ locatedMarkers (located "nofile" again) = before ++ (doubled ++ (doubled ++ after)) := by
    refine ⟨_, _, _, ?_, locatedMarkers_lowered_twice hlower hagain⟩
    rw [List.map_map]
    exact List.map_id _
  have harranged : ProblemsArranged (locatedMarkers (located "nofile" again))
      (locatedMarkers (located "nofile" again')) :=
    reshaped_locatedMarkers (Data.reshapes_arranged.text "nofile") hshape
  rw [harranged.isEmpty_eq, hproblems'] at hexit'
  rw [harranged.lines_eq, hproblems'] at hlines'
  rw [hproblems] at hexit hlines
  rw [hproblems'] at harranged
  refine ⟨_, forms', before, doubled, after, ?_, hexit, ?_, hdoubled, hlines, hlines', ?_⟩
  · split <;> decide
  · rw [hexit']
    cases before <;> cases doubled <;> rfl
  · intro p hp hfile hm
    have hmem : p ∈ before ++ (doubled ++ (doubled ++ after)) := by
      simp only [List.mem_append] at hp ⊢
      tauto
    obtain ⟨p', -, hpp'⟩ := exists_right_of_forall₂ harranged p hmem
    exact Marker.arranged_line_eq hpp'.1 hpp'.2 hfile hm

def jsonRequest : Request := { input := "-", jsonInput := true, format := .json }

theorem jsonRequest_json : jsonRequest.jsonInput = true ∧ jsonRequest.format = .json := ⟨rfl, rfl⟩

theorem loadInput_jsonRequest (text : Text) : loadInput jsonRequest {} text = .ok text := rfl

theorem place_jsonRequest (text : Text) : place jsonRequest text {} = .ok (text, {}) := rfl

/-- A module with parameters, and a marker whose words are a mapping. -/
def parameterizedModule : Text :=
  "[\x7b\"type\": \"attribute\", \"name\": \"module\", \"module\": \"m\",
      \"parameters\": [\"X\"]\x7d,
    \x7b\"type\": \"error_marker\", \"origin\": \"epp\",
      \"descriptor\": \x7b\"b\": 1, \"a\": 2\x7d\x7d]"

/-- Both are reported, and by a second run the declaration twice. -/
theorem parameterizedModule_reported_again :
    ∃ (text : Text) (status : Nat) (before doubled after : List (Data × Marker)),
      place jsonRequest text {} = .ok (text, {})
      ∧ (perform jsonRequest {} parameterizedModule).exit = .ok status
      ∧ (perform jsonRequest {} text).exit = .ok status
      ∧ doubled.length = 1
      ∧ (perform jsonRequest {} parameterizedModule).stderr =
        asLines ((before ++ (doubled ++ after)).map fun p => p.2.line p.1)
      ∧ (perform jsonRequest {} text).stderr = asLines
        ((before ++ (doubled ++ (doubled ++ after))).map fun p =>
          p.2.arranged.line p.1.arranged) := by
  obtain ⟨text, hrun⟩ := exists_ok_of_toBool (x := do
    let loaded ← load jsonRequest {} parameterizedModule
    let result ← lower loaded.1 loaded.2
    let text ← jsonRequest.format.rendering.write result
    if Json.isFaithful (Form.listToData result) = true
        ∧ ((scan loaded.2).markers loaded.1.origin).length = 1
      then .ok text else .error .circular) (by decide +kernel)
  obtain ⟨⟨options, forms⟩, hload, hrun⟩ := bind_eq_ok_iff.mp hrun
  obtain ⟨result, hlower, hrun⟩ := bind_eq_ok_iff.mp hrun
  obtain ⟨text', hwrite, hrun⟩ := bind_eq_ok_iff.mp hrun
  split at hrun
  · rename_i hchecked
    obtain ⟨hfaithful, hcount⟩ := hchecked
    obtain rfl := Except.ok.inj hrun
    obtain ⟨status, forms', before, doubled, after, -, hexit, hexit', hdoubled, hlines, hlines',
      -⟩ := rerun_repeats_verdict jsonRequest_json.1 jsonRequest_json.2 jsonRequest_json.1
        jsonRequest_json.2 hload hlower hwrite (place_jsonRequest text')
        (comesBack_of_faithful hfaithful hwrite) (loadOptions_of_load hload)
        (loadInput_jsonRequest text') ⟨_, place_jsonRequest text'⟩
    refine ⟨text', status, before, doubled, after, rfl, hexit, hexit', ?_, hlines, hlines'⟩
    rw [← hcount, ← hdoubled, List.length_map]
  · cases hrun

/-- A marker whose words are a mapping with its entries in another order than that of their
names. -/
def turnedWords : Text :=
  "[\x7b\"type\": \"error_marker\", \"origin\": \"epp\",
    \"descriptor\": \x7b\"b\": 1, \"a\": 2\x7d\x7d]"

/-- A second run shows them in the order of their names, so its line is not the line of before. -/
theorem turnedWords_line_changed :
    let first := perform jsonRequest {} turnedWords
    let second := perform jsonRequest {} first.stdout
    first.exit = .ok 1 ∧ second.exit = .ok 1
      ∧ first.stderr = "nofile:0: epp: \x7b'b': 1, 'a': 2\x7d\n"
      ∧ second.stderr = "nofile:0: epp: \x7b'a': 2, 'b': 1\x7d\n"
      ∧ second.stderr ≠ first.stderr := by
  obtain ⟨text, hrun⟩ := exists_ok_of_toBool (x := do
    let loaded ← load jsonRequest {} turnedWords
    let result ← lower loaded.1 loaded.2
    let again ← lower loaded.1 result
    let text ← Rendering.json.write result
    let problems := locatedMarkers (located "nofile" result)
    let problems' := locatedMarkers (located "nofile" again)
    if Json.isFaithful (Form.listToData result) = true
        ∧ problems.isEmpty = false ∧ problems'.isEmpty = false
        ∧ asLines (problems.map fun p => p.2.line p.1) =
          "nofile:0: epp: \x7b'b': 1, 'a': 2\x7d\n"
        ∧ asLines (problems'.map fun p => p.2.arranged.line p.1.arranged) =
          "nofile:0: epp: \x7b'a': 2, 'b': 1\x7d\n"
      then .ok text else .error .circular) (by decide +kernel)
  obtain ⟨⟨options, forms⟩, hload, hrun⟩ := bind_eq_ok_iff.mp hrun
  obtain ⟨result, hlower, hrun⟩ := bind_eq_ok_iff.mp hrun
  obtain ⟨again, hagain, hrun⟩ := bind_eq_ok_iff.mp hrun
  obtain ⟨text', hwrite, hrun⟩ := bind_eq_ok_iff.mp hrun
  dsimp only at hrun
  split at hrun
  · rename_i hchecked
    obtain ⟨hfaithful, hsome, hsome', hlines, hlines'⟩ := hchecked
    obtain ⟨hstdout, hexit, hstderr⟩ :=
      perform_of_json jsonRequest_json.2 hload hlower hwrite (place_jsonRequest text')
    obtain ⟨forms', again₂, again', text₂, stdout₂, disk₂, hload', hagain₂, hagain', hshape,
      hwrite', hplace'⟩ := exists_second_run jsonRequest_json.1 jsonRequest_json.1
        jsonRequest_json.2 hload hlower hwrite (comesBack_of_faithful hfaithful hwrite)
        (loadOptions_of_load hload) (loadInput_jsonRequest text') ⟨_, place_jsonRequest text'⟩
    obtain rfl := Except.ok.inj (hagain.symm.trans hagain₂)
    obtain ⟨-, hexit', hstderr'⟩ :=
      perform_of_json jsonRequest_json.2 hload' hagain' hwrite' hplace'
    have harranged : ProblemsArranged (locatedMarkers (located "nofile" again))
        (locatedMarkers (located "nofile" again')) :=
      reshaped_locatedMarkers (Data.reshapes_arranged.text "nofile") hshape
    rw [harranged.isEmpty_eq, hsome'] at hexit'
    rw [harranged.lines_eq] at hstderr'
    rw [hsome] at hexit
    have hfirst := hstderr.trans hlines
    have hsecond := hstderr'.trans hlines'
    intro first second
    have hsame : second = perform jsonRequest {} text' := congrArg (perform jsonRequest {}) hstdout
    rw [hsame, hsecond, hfirst]
    exact ⟨hexit, hexit', rfl, rfl, by decide⟩
  · cases hrun

end CommandLine

end RuleLowering
