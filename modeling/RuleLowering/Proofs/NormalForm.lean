import RuleLowering.Proofs.RoundTrip

/-!
# The normal form of a document

The origin of the reader tells its own markers from those of others, and nothing else. So whether a
document is read does not depend on it, and neither does the document of the forms that were read: a
violation is written as the word that it was read from. That document is a normal form. Every reader
reads it as it reads the document itself, and what is read has it as its document again.
-/
namespace RuleLowering

/-- A walk whose results are changed one by one. -/
theorem mapM_map_results {ε α β γ : Type} {read : α → Except ε β} {change : β → γ}
    (items : List α) :
    items.mapM (fun a => change <$> read a) = List.map change <$> items.mapM read := by
  induction items with
  | nil => rfl
  | cons a items ih =>
    rw [List.mapM_cons, List.mapM_cons, ih]
    cases read a with
    | error fault => rfl
    | ok b => cases items.mapM read <;> rfl

namespace Form

section Read

variable {entries : List (Data × Data)} {name value pos : Data} {f : Form}

theorem isAttribute_of_ofAttribute? (h : ofAttribute? name value pos = .ok f) :
    f.isAttribute = true := by
  unfold ofAttribute? at h
  split at h
  · cases h
  · obtain rfl := Except.ok.inj h
    rfl

theorem isAttribute_of_ofModule? (h : ofModule? entries pos = .ok f) : f.isAttribute = true := by
  obtain ⟨name, -, h⟩ := bind_eq_ok_iff.mp h
  split at h
  · obtain rfl := return_eq_ok_iff.mp h
    rfl
  · obtain ⟨items, -, h⟩ := bind_eq_ok_iff.mp h
    obtain rfl := return_eq_ok_iff.mp h
    rfl

theorem isAttribute_of_ofExport? (h : ofExport? entries pos = .ok f) : f.isAttribute = true := by
  obtain ⟨items, -, h⟩ := bind_eq_ok_iff.mp h
  obtain ⟨functions, -, h⟩ := bind_eq_ok_iff.mp h
  obtain rfl := return_eq_ok_iff.mp h
  rfl

end Read

/-- What a document is read as does not depend on the reader and is no marker, or it is a marker of
what the document says to the reader. -/
theorem ofData?_or (d : Data) :
    (∀ own other, ofData? own d = ofData? other d) ∧ (∀ own m, ofData? own d ≠ .ok (.marker m))
      ∨ ∃ place entries origin, d = .map place entries ∧ ∀ own, ofData? own d =
        .ok (.marker ⟨origin, .ofData own origin ((Data.field? entries "descriptor").getD .null),
          (Data.field? entries "pos").getD 0⟩) := by
  cases d with
  | map place entries =>
    unfold ofData? readBy
    dsimp only
    split
    · refine .inl ⟨fun _ _ => rfl, fun _ m h => ?_⟩
      obtain ⟨name, -, h⟩ := bind_eq_ok_iff.mp h
      split at h
      · cases isAttribute_of_ofModule? h
      · obtain ⟨file, -, h⟩ := bind_eq_ok_iff.mp h
        cases h
      · cases isAttribute_of_ofExport? h
      · cases isAttribute_of_ofAttribute? h
    · refine .inl ⟨fun _ _ => rfl, fun _ m h => ?_⟩
      obtain ⟨name, -, h⟩ := bind_eq_ok_iff.mp h
      obtain ⟨clauses, -, h⟩ := bind_eq_ok_iff.mp h
      cases h
    · refine .inl ⟨fun _ _ => rfl, fun _ m h => ?_⟩
      obtain ⟨name, -, h⟩ := bind_eq_ok_iff.mp h
      obtain ⟨clauses, -, h⟩ := bind_eq_ok_iff.mp h
      cases h
    · cases required entries "origin" with
      | error fault => exact .inl ⟨fun _ _ => rfl, nofun⟩
      | ok origin => exact .inr ⟨place, entries, origin, rfl, fun _ => rfl⟩
    · exact .inl ⟨fun _ _ => rfl, nofun⟩
    · exact .inl ⟨fun _ _ => rfl, nofun⟩
  | _ => exact .inl ⟨fun _ _ => rfl, nofun⟩

/-- What another reader makes of the document of a form. -/
theorem ofData?_eq_reread (own other : Text) (d : Data) :
    ofData? other d = reread other <$> ofData? own d := by
  rcases ofData?_or d with ⟨heq, hmarker⟩ | ⟨place, entries, origin, -, hread⟩
  · rw [heq other own]
    cases h : ofData? own d with
    | error fault => rfl
    | ok f =>
      cases f with
      | marker m => exact absurd h (hmarker own m)
      | _ => rfl
  · simp [hread, reread, Descriptor.toData_ofData]

/-- The descriptor of a marker that was read is written as it stands in the document. -/
theorem toData_descriptor_of_read {own : Text} {d : Data} {m : Marker}
    (h : ofData? own d = .ok (.marker m)) :
    ∃ place entries, d = .map place entries
      ∧ m.descriptor.toData = (Data.field? entries "descriptor").getD .null := by
  rcases ofData?_or d with ⟨-, hmarker⟩ | ⟨place, entries, origin, rfl, hread⟩
  · exact absurd h (hmarker own m)
  · obtain rfl := Form.marker.inj (Except.ok.inj ((hread own).symm.trans h))
    exact ⟨place, entries, rfl, Descriptor.toData_ofData own origin _⟩

theorem listOfData?_eq_reread (own other : Text) (d : Data) :
    listOfData? other d = List.map (reread other) <$> listOfData? own d := by
  cases d with
  | list place items =>
    have heach : ofData? other = fun d => reread other <$> ofData? own d :=
      funext (ofData?_eq_reread own other)
    rw [listOfData?_list, listOfData?_list, heach, mapM_map_results]
  | _ => rfl

/-- Every reader's form has the same document. -/
theorem toData_reread (other : Text) (f : Form) : (f.reread other).toData = f.toData := by
  cases f with
  | marker m => simp [reread, toData, Marker.toData, Descriptor.toData_ofData]
  | _ => rfl

theorem listToData_map_reread (other : Text) (forms : List Form) :
    listToData (forms.map (reread other)) = listToData forms := by
  rw [listToData, listToData, List.map_map]
  exact congrArg Data.ofList (List.map_congr_left fun f _ => toData_reread other f)

/-- The same where the marker stands in a list. -/
theorem toData_descriptor_of_mem {own : Text} {d : Data} {forms : List Form} {n : Nat} {m : Marker}
    (h : listOfData? own d = .ok forms) (hm : forms[n]? = some (.marker m)) :
    ∃ place items place' entries, d = .list place items
      ∧ items[n]? = some (.map place' entries)
      ∧ m.descriptor.toData = (Data.field? entries "descriptor").getD .null := by
  unfold listOfData? listBy at h
  split at h
  · obtain rfl := Except.ok.inj h
    cases hm
  · rename_i place items
    have hread : (items.map (ofData? own))[n]? = (forms.map Except.ok)[n]? :=
      congrArg (·[n]?) (mapM_eq_ok_iff.mp h)
    rw [List.getElem?_map, List.getElem?_map, hm] at hread
    obtain ⟨item, hitem, hmarker⟩ := Option.map_eq_some_iff.mp hread
    obtain ⟨place', entries, rfl, hdescriptor⟩ := toData_descriptor_of_read hmarker
    exact ⟨place, items, place', entries, rfl, hitem, hdescriptor⟩
  · cases h

end Form

/-- Whether a document is read does not depend on the origin of the reader, and neither does the
document of what was read, in which the descriptors are written as they stood. That document is a
normal form: each reader reads it as it reads the first one, and gives it back. -/
theorem document_normalized (own other : Text) (d : Data) :
    ((∃ forms, Form.listOfData? own d = .ok forms) ↔ ∃ forms, Form.listOfData? other d = .ok forms)
      ∧ ∀ forms, Form.listOfData? own d = .ok forms →
        (∃ forms', Form.listOfData? other d = .ok forms'
          ∧ Form.listToData forms' = Form.listToData forms
          ∧ Form.listOfData? other (Form.listToData forms) = .ok forms')
        ∧ ∀ (n : Nat) (m : Marker), forms[n]? = some (.marker m) →
          ∃ place items place' entries, d = .list place items
            ∧ items[n]? = some (.map place' entries)
            ∧ m.descriptor.toData = (Data.field? entries "descriptor").getD .null := by
  have hother := Form.listOfData?_eq_reread own other d
  refine ⟨?_, fun forms h => ⟨⟨forms.map (Form.reread other), ?_, ?_, ?_⟩, fun n m => ?_⟩⟩
  · rw [hother]
    cases Form.listOfData? own d <;> simp
  · rw [hother, h, map_ok]
  · exact Form.listToData_map_reread other forms
  · exact Form.listOfData?_listToData other forms
  · exact Form.toData_descriptor_of_mem h

/-- A marker without a position, and an end with a field that it does not have. -/
def bareMarker : Data :=
  .ofList [
    .ofFields [("type", "error_marker"), ("origin", "epp"), ("descriptor", "binary_generator")],
    .ofFields [("type", "eof"), ("note", "unread")] ]

/-- A reader of the marker's origin takes it for a violation, another one for the words of a tool.
The documents of both are the same, and each of them reads that one as it read the first. -/
theorem bareMarker_normalized :
    let forms : List Form := [.marker ⟨"epp", .violation .binaryGenerator, 0⟩, .eof 0]
    Form.listOfData? "epp" bareMarker = .ok forms
      ∧ ∃ forms', Form.listOfData? "henshin_module" bareMarker = .ok forms'
        ∧ Form.listToData forms' = Form.listToData forms
        ∧ Form.listOfData? "henshin_module" (Form.listToData forms) = .ok forms' := by
  intro forms
  have hread : Form.listOfData? "epp" bareMarker = .ok forms := rfl
  exact ⟨hread, ((document_normalized "epp" "henshin_module" bareMarker).2 forms hread).1⟩

end RuleLowering
