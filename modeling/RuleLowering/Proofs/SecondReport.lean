import RuleLowering.Proofs.Diagnosis
import RuleLowering.Proofs.SecondPass

/-!
# The markers of a module that is lowered twice

A second pass puts its blocks to other places than the first one, but each block ends with the mark
in effect where it goes in, and no marker stands between there and the next mark. So all markers are
reported as before. Only the marker of a declaration with parameters comes once more, behind itself.
-/
namespace RuleLowering

open ModuleScan (scan)

section Located

variable {file : Data}

theorem locatedMarkers_append (xs ys : List Form) :
    locatedMarkers (located file (xs ++ ys)) =
      locatedMarkers (located file xs) ++ locatedMarkers (located (fileAfter file xs) ys) := by
  rw [located_append]
  exact List.filterMap_append

theorem locatedMarkers_markers (ms : List Marker) :
    locatedMarkers (located file (ms.map .marker)) = ms.map (file, ·) := by
  induction ms with
  | nil => rfl
  | cons m ms ih => exact congrArg ((file, m) :: ·) ih

/-- Attributes are not reported, whatever file is in effect. -/
theorem locatedMarkers_attributes {forms : List Form} (h : ∀ f ∈ forms, f.isAttribute = true) :
    locatedMarkers (located file forms) = [] := by
  induction forms generalizing file with
  | nil => rfl
  | cons f rest ih =>
    obtain ⟨hf, hrest⟩ := List.forall_mem_cons.mp h
    cases f with
    | marker m => cases hf
    | _ => exact ih hrest

end Located

/-- Behind the leading forms, the two blocks leave all markers in the file of the mark that the scan
ends with. -/
theorem ModuleScan.locatedMarkers_spliced (s : ModuleScan) (o : Options) (rules : List Signature)
    (later : List Form) :
    locatedMarkers (located s.mark.file
        (s.exportBlock o rules ++ (s.header ++ (s.introspectionBlock o rules ++ later)))) =
      (s.markers o.origin).map (s.mark.file, ·) ++ locatedMarkers (located s.mark.file later) := by
  have hexports : locatedMarkers (located s.mark.file (s.exportBlock o rules)) =
      (s.markers o.origin).map (s.mark.file, ·) := by
    rw [exportBlock, locatedMarkers_append, locatedMarkers_markers]
    exact List.append_nil _
  have hheader : ∀ file, locatedMarkers (located file s.header) = [] :=
    fun _ => locatedMarkers_attributes fun _ => isAttribute_of_mem_header
  have hintrospection : ∀ file,
      locatedMarkers (located file (s.introspectionBlock o rules)) = [] := fun _ => rfl
  rw [locatedMarkers_append, locatedMarkers_append, locatedMarkers_append,
    fileAfter_introspectionBlock, hexports, hheader, hintrospection]
  rfl

/-- The markers of a lowered module: those of the leading forms, that of a declaration with
parameters and those of the body, the latter two in the file of the mark that the scan ends with. -/
theorem locatedMarkers_lowered {o : Options} {forms out : List Form} (h : lower o forms = .ok out) :
    let s := scan forms
    locatedMarkers (located "nofile" out) = locatedMarkers (located "nofile" s.leading)
      ++ ((s.markers o.origin).map (s.mark.file, ·)
        ++ locatedMarkers (located s.mark.file (rewritten o s.body))) := by
  intro s
  obtain ⟨-, rules, -, rfl⟩ := lower_eq_ok.mp h
  rw [List.append_assoc, List.append_assoc, List.append_assoc, locatedMarkers_append,
    fileAfter_leading, ModuleScan.locatedMarkers_spliced]

namespace ModuleScan

variable {mark here : FileMark} {forms : List Form}

/-- A scan ends at the declaration that it finds. -/
theorem ofForms_declared {m : ModuleDecl} (h : (ofForms mark forms).declaration = some m)
    (later : List Form) : ofForms mark ((ofForms mark forms).leading ++ later) =
      { ofForms mark forms with rest := later } := by
  fun_induction ofForms mark forms with
  | case1 mark f rest ih => exact congrArg (after (.file f)) (ih h)
  | case2 mark m rest ih => exact congrArg (after (.marker m)) (ih h)
  | case3 mark m rest => rfl
  | case4 mark rest _ _ _ => cases h

/-- Without a declaration, the mark of the first generated block is the last leading form. -/
theorem ofForms_undeclared (h : (ofForms mark forms).declaration = none) (e : Export)
    (later : List Form) :
    ofForms mark ((ofForms mark forms).leading ++ .file here :: .exports e :: later) =
      ⟨here, none, (ofForms mark forms).leading ++ [.file here], .exports e :: later⟩ := by
  fun_induction ofForms mark forms with
  | case1 mark f rest ih => exact congrArg (after (.file f)) (ih h)
  | case2 mark m rest ih => exact congrArg (after (.marker m)) (ih h)
  | case3 mark m rest => cases h
  | case4 mark rest _ _ _ => rfl

end ModuleScan

/-- The run of attributes at the front ends where a function stands. -/
theorem splitHeader_function {attributes : List Form} {f : Function} (later : List Form)
    (h : ∀ a ∈ attributes, a.isAttribute = true) :
    splitHeader (attributes ++ .function f :: later) = (attributes, .function f :: later) := by
  rw [splitHeader, List.takeWhile_append_of_pos h, List.dropWhile_append_of_pos h]
  exact congrArg (·, _) (List.append_nil _)

namespace ModuleScan

variable {o : Options} {forms out : List Form}

/-- In a lowered module the scan finds the declaration in its place. -/
theorem scan_lowered_declared {m : ModuleDecl} (h : lower o forms = .ok out)
    (hdeclared : (scan forms).declaration = some m) :
    let s := scan forms
    ∃ rules, scan out = { s with
      rest := s.exportBlock o rules
        ++ (s.header ++ (s.introspectionBlock o rules ++ rewritten o s.body)) } := by
  intro s
  obtain ⟨-, rules, -, rfl⟩ := lower_eq_ok.mp h
  refine ⟨rules, ?_⟩
  rw [List.append_assoc, List.append_assoc, List.append_assoc]
  exact ofForms_declared hdeclared _

/-- In a lowered module without a declaration it ends in the first generated block. -/
theorem scan_lowered_undeclared (h : lower o forms = .ok out)
    (hdeclared : (scan forms).declaration = none) :
    let s := scan forms
    ∃ rules, scan out = ⟨.start o.origin, none, s.leading ++ [.file (.start o.origin)],
      .exports (o.exportList rules) :: .file s.mark
        :: (s.header ++ (s.introspectionBlock o rules ++ rewritten o s.body))⟩ := by
  intro s
  obtain ⟨-, rules, -, rfl⟩ := lower_eq_ok.mp h
  refine ⟨rules, ?_⟩
  have hmarkers : s.markers o.origin = [] := by
    rw [markers, hdeclared]
  have hblock : s.exportBlock o rules =
      [.file (.start o.origin), .exports (o.exportList rules), .file s.mark] := by
    rw [exportBlock, hmarkers]
    rfl
  rw [List.append_assoc, List.append_assoc, List.append_assoc, hblock]
  exact ofForms_undeclared hdeclared _ _

/-- If attributes, the header of the first pass and the second block follow a scan, the generated
function is the first form of the body, and the mark behind it names the file in effect. -/
theorem locatedMarkers_body {s t : ModuleScan} {rules : List Signature}
    {attributes later : List Form}
    (h : ∀ a ∈ attributes, a.isAttribute = true)
    (hrest : t.rest = attributes ++ (s.header ++ (s.introspectionBlock o rules ++ later)))
    (file : Data) :
    locatedMarkers (located file t.body) = locatedMarkers (located s.mark.file later) := by
  have hfront : ∀ a ∈ attributes ++ (s.header ++ [.file (.start o.origin)]),
      a.isAttribute = true := by
    intro a ha
    rcases List.mem_append.mp ha with ha | ha
    · exact h a ha
    · rcases List.mem_append.mp ha with ha | ha
      · exact isAttribute_of_mem_header ha
      · rw [List.mem_singleton.mp ha]
        rfl
  have hbody : t.body = .function (o.introspectionFunction rules) :: .file s.mark :: later := by
    have hsplit := splitHeader_function (f := o.introspectionFunction rules)
      (.file s.mark :: later) hfront
    have hforms : t.rest = attributes ++ (s.header ++ [.file (.start o.origin)])
        ++ .function (o.introspectionFunction rules) :: .file s.mark :: later := by
      rw [hrest]
      simp [introspectionBlock]
    rw [body, hforms, hsplit]
  rw [hbody]
  rfl

end ModuleScan

/-- To lower a module a second time changes neither the markers nor the files that they are reported
against, but that the marker of a declaration with parameters comes twice in a row. -/
theorem locatedMarkers_lowered_twice {o : Options} {forms out again : List Form}
    (h : lower o forms = .ok out) (hagain : lower o out = .ok again) :
    let s := scan forms
    let before := locatedMarkers (located "nofile" s.leading)
    let doubled := (s.markers o.origin).map (s.mark.file, ·)
    let after := locatedMarkers (located s.mark.file (rewritten o s.body))
    locatedMarkers (located "nofile" out) = before ++ (doubled ++ after)
      ∧ locatedMarkers (located "nofile" again) = before ++ (doubled ++ (doubled ++ after)) := by
  intro s before doubled after
  refine ⟨locatedMarkers_lowered h, ?_⟩
  have hself : rewritten o (scan out).body = (scan out).body := by
    refine rewritten_eq_self fun f hf => not_isRule_of_mem_lowered h ?_
    rw [← ModuleScan.parts_append out]
    exact List.mem_append_right _ (List.mem_append_right _ hf)
  rw [locatedMarkers_lowered hagain, hself]
  cases hdeclared : s.declaration with
  | some m =>
    obtain ⟨rules, hscan⟩ := ModuleScan.scan_lowered_declared h hdeclared
    have hmarkers : (scan out).markers o.origin = s.markers o.origin := by
      rw [hscan]
      rfl
    rw [hmarkers, hscan]
    refine congrArg (before ++ ·) (congrArg (doubled ++ ·) ?_)
    cases hreported : s.markers o.origin with
    | nil =>
      have hattributes : ∀ a ∈ s.exportBlock o rules, a.isAttribute = true := by
        rw [ModuleScan.exportBlock, hreported]
        simp [Form.isAttribute, Form.kind]
      have hdoubled : doubled = [] := by
        rw [List.map_eq_nil_iff, hreported]
      rw [hdoubled]
      exact ModuleScan.locatedMarkers_body hattributes rfl _
    | cons first more =>
      have hbody : (splitHeader (s.exportBlock o rules
          ++ (s.header ++ (s.introspectionBlock o rules ++ rewritten o s.body)))).2 =
          s.exportBlock o rules
            ++ (s.header ++ (s.introspectionBlock o rules ++ rewritten o s.body)) := by
        rw [ModuleScan.exportBlock, hreported]
        rfl
      have hplaces := congrArg (fun body => locatedMarkers (located s.mark.file body)) hbody
      exact hplaces.trans (s.locatedMarkers_spliced o rules _)
  | none =>
    obtain ⟨rules, hscan⟩ := ModuleScan.scan_lowered_undeclared h hdeclared
    have hmarkers : s.markers o.origin = [] := by
      rw [ModuleScan.markers, hdeclared]
    have hdoubled : doubled = [] := by
      rw [List.map_eq_nil_iff, hmarkers]
    have hleading : locatedMarkers (located "nofile"
        (s.leading ++ [.file (.start o.origin)])) = before := by
      rw [locatedMarkers_append]
      exact List.append_nil _
    rw [hscan, hleading, hdoubled]
    have hattributes : ∀ a ∈ [Form.exports (o.exportList rules), .file s.mark],
        a.isAttribute = true := by
      simp [Form.isAttribute, Form.kind]
    exact congrArg (before ++ ·) (ModuleScan.locatedMarkers_body hattributes rfl _)

end RuleLowering
