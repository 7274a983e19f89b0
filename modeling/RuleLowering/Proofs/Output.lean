import RuleLowering.Proofs.Files
import RuleLowering.Proofs.Refusal
import RuleLowering.Proofs.Verdict

/-!
# All or nothing

A run writes once: when the options and the input have been read, the module has been lowered, the
result has been rendered and the file of the output has been opened. Each step that comes before can
fail, and then nothing has been written. What comes after is the report of the markers. It fails
only where a number in a diagnostic has too many digits to be shown, and by then the whole result
has been written, which is the one way to leave an output behind without a verdict.
-/
namespace RuleLowering.CommandLine

/-- The faults of the steps that come before anything is written. -/
inductive FailsBefore (r : Request) (disk : Disk) (stdin : Text) : Fault → Prop
  /-- Reading and lowering. -/
  | preparing {fault : Fault} : prepare r disk stdin = .error fault →
    FailsBefore r disk stdin fault
  | rendering {result : List Form} {fault : Fault} : prepare r disk stdin = .ok result →
    r.format.rendering.write result = .error fault → FailsBefore r disk stdin fault
  /-- Opening the file of the output. -/
  | opening {result : List Form} {text : Text} {path : String} {fault : Fault} :
    prepare r disk stdin = .ok result → r.format.rendering.write result = .ok text →
    r.output = some path → path ≠ "" → disk.target path = .error fault →
    FailsBefore r disk stdin fault

namespace Outcome

def IsClean (o : Outcome) (disk : Disk) : Prop := o.stdout = "" ∧ o.disk = disk

/-- The whole of a text is where a request wants it, on the standard output or in a file, and
nothing else has been written. -/
def Holds (o : Outcome) (r : Request) (disk : Disk) (content : String) : Prop :=
  (r.output = none ∨ r.output = some "") ∧ o.stdout = .plain content ∧ o.disk = disk
    ∨ ∃ path, r.output = some path ∧ path ≠ "" ∧ o.stdout = "" ∧ o.disk.read path = .ok content
      ∧ ∀ place, place ≠ Disk.placeOf path → o.disk.file? place = disk.file? place

/-- The output holds the whole rendering of the whole result. -/
def IsComplete (o : Outcome) (r : Request) (disk : Disk) (stdin : Text) : Prop :=
  ∃ result content, prepare r disk stdin = .ok result
    ∧ r.format.rendering.write result = .ok (.plain content) ∧ o.Holds r disk content

end Outcome

variable {r : Request} {disk disk' : Disk} {stdin stdout : Text} {content : String}
  {result : List Form} {fault : Fault} {log warnings : List Text}

/-- A run with a result delivers it. -/
theorem exists_deliver (h : prepare r disk stdin = .ok result) :
    ∃ log warnings, perform r disk stdin = deliver r result log disk warnings := by
  obtain ⟨result', log, warnings, hresult, hperform⟩ := delivers_of_ok h
  obtain rfl := Except.ok.inj (h.symm.trans hresult)
  exact ⟨log, warnings, hperform⟩

theorem place_of_opened {path : String} {target : Place} (houtput : r.output = some path)
    (hne : path ≠ "") (htarget : disk.target path = .ok target) :
    place r content disk = .ok ("", disk.put target content) := by
  have hwrite : disk.write path (.plain content) = .ok (disk.put target content) := by
    rw [Disk.write, htarget]
    rfl
  simp [place, houtput, hwrite]

/-- Where a step fails before anything is written the run ends, with status 2 or with the fault, and
leaves nothing behind. -/
theorem FailsBefore.isClean (h : FailsBefore r disk stdin fault) :
    (perform r disk stdin).IsClean disk
      ∧ ((perform r disk stdin).exit = .ok 2 ∨ (perform r disk stdin).exit = .error fault) := by
  cases h with
  | preparing hprepare =>
    obtain ⟨log, warnings, -, hperform⟩ := perform_of_error hprepare
    rw [hperform, refuse]
    split
    · exact ⟨⟨rfl, rfl⟩, .inl rfl⟩
    · exact ⟨⟨rfl, rfl⟩, .inr rfl⟩
  | rendering hprepare hwrite =>
    obtain ⟨log, warnings, hperform⟩ := exists_deliver hprepare
    rw [hperform, deliver, hwrite]
    exact ⟨⟨rfl, rfl⟩, .inr rfl⟩
  | @opening result text path _ hprepare hwrite houtput hne htarget =>
    obtain ⟨log, warnings, hperform⟩ := exists_deliver hprepare
    have hplace : place r text disk = .error fault := by
      have hdisk : disk.write path text = .error fault := by
        rw [Disk.write, htarget]
        rfl
      simp [place, houtput, hdisk]
    have hspoiled : spoiled r disk = disk := by
      simp [spoiled, houtput, Disk.opened, htarget]
    rw [hperform, deliver, hwrite]
    dsimp only
    rw [hplace, hspoiled]
    exact ⟨⟨rfl, rfl⟩, .inr rfl⟩

/-- Where the output can be opened a text is put in place. -/
theorem exists_placed (content : String)
    (hopen : ∀ path, r.output = some path → path ≠ "" → ∃ target, disk.target path = .ok target) :
    ∃ stdout disk', place r content disk = .ok (stdout, disk')
      ∧ ∀ o : Outcome, o.stdout = stdout → o.disk = disk' → o.Holds r disk content := by
  cases houtput : r.output with
  | none =>
    refine ⟨content, disk, by simp [place, houtput], fun o hstdout hdisk => ?_⟩
    exact .inl ⟨.inl houtput, hstdout, hdisk⟩
  | some path =>
    by_cases hempty : path = ""
    · subst hempty
      refine ⟨content, disk, by simp [place, houtput], fun o hstdout hdisk => ?_⟩
      exact .inl ⟨.inr houtput, hstdout, hdisk⟩
    · obtain ⟨target, htarget⟩ := hopen path houtput hempty
      refine ⟨"", disk.put target content, place_of_opened houtput hempty htarget,
        fun o hstdout hdisk => ?_⟩
      obtain ⟨hread, hothers⟩ := Disk.read_put htarget content
      exact .inr ⟨path, houtput, hempty, hstdout, hdisk ▸ hread, hdisk ▸ hothers⟩

/-- Where no step fails before, the whole result is written, and the run ends with its verdict
unless that cannot be shown. -/
theorem exists_complete (hplain : ∀ result text, prepare r disk stdin = .ok result →
      r.format.rendering.write result = .ok text → ∃ content, text = .plain content)
    (hfails : ¬ ∃ fault, FailsBefore r disk stdin fault) :
    ∃ result content, prepare r disk stdin = .ok result
      ∧ r.format.rendering.write result = .ok (.plain content)
      ∧ (perform r disk stdin).Holds r disk content
      ∧ let problems := locatedMarkers (located "nofile" result)
        LegibleMarkers problems
            ∧ ((perform r disk stdin).exit = .ok 0 ∨ (perform r disk stdin).exit = .ok 1)
          ∨ ¬ LegibleMarkers problems ∧ r.format = .source
            ∧ (perform r disk stdin).exit = .error .numberTooLong := by
  cases hprepare : prepare r disk stdin with
  | error fault => exact absurd ⟨fault, .preparing hprepare⟩ hfails
  | ok result =>
    cases hwrite : r.format.rendering.write result with
    | error fault => exact absurd ⟨fault, .rendering hprepare hwrite⟩ hfails
    | ok text =>
      obtain ⟨content, rfl⟩ := hplain result text hprepare hwrite
      have hopen : ∀ path, r.output = some path → path ≠ "" →
          ∃ target, disk.target path = .ok target := by
        intro path houtput hne
        cases htarget : disk.target path with
        | error fault => exact absurd ⟨fault, .opening hprepare hwrite houtput hne htarget⟩ hfails
        | ok target => exact ⟨target, rfl⟩
      obtain ⟨stdout, disk', hplace, hholds⟩ := exists_placed content hopen
      obtain ⟨log, warnings, hperform⟩ := exists_deliver hprepare
      rw [deliver, hwrite] at hperform
      dsimp only at hperform
      rw [hplace] at hperform
      dsimp only at hperform
      refine ⟨result, content, rfl, hwrite, ?_⟩
      rcases report_eq result log stdout disk' warnings with ⟨hlegible, hreport⟩ |
        ⟨hlegible, hreport⟩
      · rw [hperform, hreport]
        refine ⟨hholds _ rfl rfl, .inl ⟨hlegible, ?_⟩⟩
        cases (locatedMarkers (located "nofile" result)).isEmpty <;> simp
      · rw [hperform, hreport]
        exact ⟨hholds _ rfl rfl,
          .inr ⟨hlegible, (legibleMarkers_or_source hwrite).resolve_left hlegible, rfl⟩⟩

/-- JSON and YAML texts can always be stored. -/
theorem exists_plain_of_write (hsource : r.format ≠ .source) {text : Text}
    (h : r.format.rendering.write result = .ok text) : ∃ content, text = .plain content := by
  cases hformat : r.format with
  | source => exact absurd hformat hsource
  | json =>
    rw [hformat] at h
    obtain ⟨written, -, hreturn⟩ := bind_eq_ok_iff.mp h
    exact ⟨written, return_eq_ok_iff.mp hreturn⟩
  | yaml =>
    rw [hformat] at h
    obtain ⟨written, -, hreturn⟩ := bind_eq_ok_iff.mp h
    exact ⟨written, return_eq_ok_iff.mp hreturn⟩

/-- A run that ends with status 2, or in which a step fails before anything is written, leaves
nothing behind, and one that ends with status 0 or 1 leaves the whole result, also where its output
is a file that it has read. If no step fails before, the whole result is written in any case; the
run then ends with its verdict, unless a diagnostic has a number in it that has too many digits to
be shown, as can be after printed source only. -/
theorem output_complete_or_clean {arguments : List String} (hparse : parse arguments = .ok r)
    (hplain : ∀ result text, prepare r disk stdin = .ok result →
      r.format.rendering.write result = .ok text → ∃ content, text = .plain content) :
    let outcome := run arguments disk stdin
    (outcome.exit = .ok 2 → outcome.IsClean disk)
      ∧ (∀ fault, FailsBefore r disk stdin fault →
        outcome.IsClean disk ∧ (outcome.exit = .ok 2 ∨ outcome.exit = .error fault))
      ∧ (outcome.exit = .ok 0 ∨ outcome.exit = .ok 1 → outcome.IsComplete r disk stdin)
      ∧ ((¬ ∃ fault, FailsBefore r disk stdin fault) → outcome.IsComplete r disk stdin
        ∧ ∃ result, prepare r disk stdin = .ok result
          ∧ let problems := locatedMarkers (located "nofile" result)
            LegibleMarkers problems ∧ (outcome.exit = .ok 0 ∨ outcome.exit = .ok 1)
              ∨ ¬ LegibleMarkers problems ∧ r.format = .source
                ∧ outcome.exit = .error .numberTooLong) := by
  intro outcome
  have houtcome : outcome = perform r disk stdin := by
    have hrun : outcome = run arguments disk stdin := rfl
    rw [hrun, run, hparse]
  rw [houtcome]
  by_cases hfails : ∃ fault, FailsBefore r disk stdin fault
  · obtain ⟨fault, hfault⟩ := hfails
    obtain ⟨hclean, hexit⟩ := hfault.isClean
    refine ⟨fun _ => hclean, fun _ h => h.isClean, ?_, fun hnot => absurd ⟨fault, hfault⟩ hnot⟩
    rintro (hstatus | hstatus) <;> rcases hexit with hexit | hexit <;>
      cases hexit.symm.trans hstatus
  · obtain ⟨result, content, hprepare, hwrite, hholds, hexit⟩ := exists_complete hplain hfails
    have hcomplete : (perform r disk stdin).IsComplete r disk stdin :=
      ⟨result, content, hprepare, hwrite, hholds⟩
    refine ⟨?_, fun fault h => absurd ⟨fault, h⟩ hfails, fun _ => hcomplete,
      fun _ => ⟨hcomplete, result, hprepare, hexit⟩⟩
    intro hstatus
    rcases hexit with ⟨-, hexit | hexit⟩ | ⟨-, -, hexit⟩ <;> cases hexit.symm.trans hstatus

/-- A module in JSON with a marker, in a file. -/
def markedFile : Disk where
  files := [("f.json", "[\x7b\"type\": \"error_marker\", \"origin\": \"epp\",
    \"descriptor\": \"undefined macro\"\x7d]")]

/-- The file that is read can be the file that is written. -/
theorem markedFile_rewritten :
    let arguments := ["f.json", "-o", "f.json", "--input-format", "json", "--format", "json"]
    let outcome := run arguments markedFile ""
    outcome.exit = .ok 1 ∧ outcome.stdout = ""
      ∧ ∃ r result content, parse arguments = .ok r ∧ prepare r markedFile "" = .ok result
        ∧ r.format.rendering.write result = .ok (.plain content)
        ∧ outcome.disk.read "f.json" = .ok content := by
  intro arguments outcome
  let r : Request :=
    { input := "f.json", output := some "f.json", jsonInput := true, format := .json }
  have hparse : parse arguments = .ok r := by decide +kernel
  have hexit : outcome.exit = .ok 1 := by
    have hstatus : outcome.exit.toOption = some 1 := by decide +kernel
    cases hoption : outcome.exit with
    | error fault => simp [hoption, Except.toOption] at hstatus
    | ok status =>
      simp only [hoption, Except.toOption, Option.some.injEq] at hstatus
      rw [hstatus]
  have hplain : ∀ result text, prepare r markedFile "" = .ok result →
      r.format.rendering.write result = .ok text → ∃ content, text = .plain content :=
    fun _ _ _ h => exists_plain_of_write (by decide) h
  obtain ⟨result, content, hprepare, hwrite, hholds⟩ :=
    (output_complete_or_clean hparse hplain).2.2.1 (.inr hexit)
  rcases hholds with ⟨hnone, -, -⟩ | ⟨path, hpath, -, hstdout, hread, -⟩
  · exact absurd hnone (by decide)
  · obtain rfl := Option.some.inj hpath
    exact ⟨hexit, hstdout, r, result, content, hparse, hprepare, hwrite, hread⟩

/-- Source with a marker at a position that cannot be shown is written, but no run that writes it
ends with a status. -/
theorem distantMarker_written :
    ∃ result text, lower {} [.marker distantMarker] = .ok result
      ∧ OutputFormat.source.rendering.write result = .ok text ∧ text ≠ ""
      ∧ ∀ (arguments : List String) (r : Request) (disk : Disk) (stdin : Text),
        parse arguments = .ok r → r.format = .source → r.output = none →
        load r disk stdin = .ok ({}, [.marker distantMarker]) →
        (run arguments disk stdin).exit = .error .numberTooLong
          ∧ (run arguments disk stdin).stdout = text := by
  obtain ⟨text, hrun⟩ := exists_ok_of_toBool (x := do
    let text ← OutputFormat.source.rendering.write (← lower {} [.marker distantMarker])
    if text ≠ "" then .ok text else .error .circular) (by decide +kernel)
  obtain ⟨result, hlower, hrun⟩ := bind_eq_ok_iff.mp hrun
  obtain ⟨text', hwrite, hrun⟩ := bind_eq_ok_iff.mp hrun
  split at hrun
  · rename_i hne
    refine ⟨result, text', hlower, hwrite, hne, ?_⟩
    intro arguments r disk stdin hparse hformat houtput hload
    have hplace : place r text' disk = .ok (text', disk) := by simp [place, houtput]
    rw [← hformat] at hwrite
    rw [run, hparse]
    dsimp only
    rw [perform_of_placed hload hlower hwrite hplace]
    rcases report_eq result (logOf r {} [.marker distantMarker]) text' disk
      (loweringWarnings {} [.marker distantMarker]) with ⟨h, -⟩ | ⟨-, h⟩
    · exact absurd h (not_legible_distantMarker hlower)
    · rw [h]
      exact ⟨rfl, rfl⟩
  · cases hrun

end RuleLowering.CommandLine
