import RuleLowering.Format
import RuleLowering.Rendering
import RuleLowering.Proofs.Emitted
import RuleLowering.Proofs.JsonDocument
import RuleLowering.Proofs.NormalForm
import RuleLowering.Proofs.SameReading

/-!
# Lowered modules read back

A marker that was read with an origin says to a reader of that origin what it says: only under the
reader's own origin it is a violation, and under that origin no name of a violation is left as the
words of another tool. Lowering keeps the markers that it is given and adds violations of its own
origin, so that what it makes of forms that were read is read back as it was written: from its
document exactly, and from a text of that document up to what the format makes of numbers and of
the order of entries.
-/
namespace RuleLowering

namespace Form

/-- Each marker that is read says to the reader what it says. -/
theorem readsBack_of_read {own : Text} {d : Data} {forms : List Form} {m : Marker}
    (h : listOfData? own d = .ok forms) (hm : .marker m ∈ forms) : m.ReadsBack own := by
  have hmap : forms.map (reread own) = forms.map id := by
    have hread := listOfData?_eq_reread own own d
    rw [h, map_ok] at hread
    rw [List.map_id]
    exact (Except.ok.inj hread).symm
  have hself : (Form.marker m).reread own = .marker m := List.map_inj_left.mp hmap _ hm
  rcases reread_or own (.marker m) with ⟨hback, -⟩ | ⟨-, hnot⟩
  · exact hback m rfl
  · rw [hself, Form.same_self] at hnot
    cases hnot

end Form

/-- Lowering leaves no marker that its own reader would take for something else. -/
theorem readsBack_of_lowered {o : Options} {forms out : List Form} {m : Marker}
    (hforms : ∀ m, .marker m ∈ forms → m.ReadsBack o.origin) (h : lower o forms = .ok out)
    (hm : .marker m ∈ out) : m.ReadsBack o.origin := by
  cases emitted_of_mem_lowered h hm with
  | kept hmem _ => exact hforms m hmem
  | reported v pos => rfl

/-- Forms whose markers say to the reader what they say are read back from their JSON text as the
same forms, if the text is read as a document that says the same. -/
theorem readForms_of_same {own : Text} {forms : List Form} {n : Nat} {d : Data}
    (hback : ∀ m, .marker m ∈ forms → m.ReadsBack own)
    (hd : (Rendering.json.write forms >>= Format.json.read n) = .ok d)
    (hsame : (Form.listToData forms).same d = true) :
    ∃ back, (Rendering.json.write forms >>= Format.json.readForms n own) = .ok back
      ∧ sameEach Form.same forms back = true := by
  have hself := Form.listOfData?_eq_self hback
  have hreread : forms.map (Form.reread own) = forms := by
    rw [Form.listOfData?_listToData] at hself
    exact Except.ok.inj hself
  obtain ⟨text, htext, hdocument⟩ := bind_eq_ok_iff.mp hd
  obtain ⟨back, hlist, hforms⟩ := Form.listOfData?_of_same own hsame
  rw [hreread] at hforms
  exact ⟨back, bind_eq_ok_iff.mpr ⟨text, htext, bind_eq_ok_iff.mpr ⟨d, hdocument, hlist⟩⟩, hforms⟩

/-- The JSON text of forms whose document is faithful is read as a document that says the same. -/
theorem exists_read_of_rendered {forms : List Form} {text : Text}
    (hfaithful : Json.isFaithful (Form.listToData forms) = true)
    (h : Rendering.json.write forms = .ok text) (n : Nat) :
    ∃ d, (Rendering.json.write forms >>= Format.json.read n) = .ok d
      ∧ (Form.listToData forms).same d = true := by
  obtain ⟨written, hwritten, hreturn⟩ := bind_eq_ok_iff.mp h
  obtain rfl := return_eq_ok_iff.mp hreturn
  obtain ⟨d, hd, htold⟩ := Json.exists_read_of_write hfaithful hwritten n
  exact ⟨d, bind_eq_ok_iff.mpr ⟨_, h, hd⟩, htold.same⟩

/-- Forms whose markers say to the reader what they say, and whose document is faithful, are read
back from their JSON text as the same forms. -/
theorem readForms_of_faithful {own : Text} {forms : List Form} {text : Text}
    (hback : ∀ m, .marker m ∈ forms → m.ReadsBack own)
    (hfaithful : Json.isFaithful (Form.listToData forms) = true)
    (h : Rendering.json.write forms = .ok text) (n : Nat) :
    ∃ back, Format.json.readForms n own text = .ok back
      ∧ sameEach Form.same forms back = true := by
  obtain ⟨d, hd, hsame⟩ := exists_read_of_rendered hfaithful h n
  obtain ⟨back, hread, hforms⟩ := readForms_of_same hback hd hsame
  rw [h, ok_bind] at hread
  exact ⟨back, hread, hforms⟩

/-- What lowering makes of forms that were read is read back from its document as it is. If its JSON
text is read as a document that says the same, it is read as forms that are the same. -/
theorem lowered_reads_back {o : Options} {d : Data} {forms out : List Form}
    (hread : Form.listOfData? o.origin d = .ok forms) (h : lower o forms = .ok out) :
    Form.listOfData? o.origin (Form.listToData out) = .ok out
      ∧ ∀ (n : Nat) (d' : Data), (Rendering.json.write out >>= Format.json.read n) = .ok d' →
        (Form.listToData out).same d' = true →
        ∃ back, (Rendering.json.write out >>= Format.json.readForms n o.origin) = .ok back
          ∧ sameEach Form.same out back = true := by
  have hback : ∀ m, .marker m ∈ out → m.ReadsBack o.origin := fun m hm =>
    readsBack_of_lowered (fun m hm => Form.readsBack_of_read hread hm) h hm
  exact ⟨Form.listOfData?_eq_self hback, fun n d' => readForms_of_same hback⟩

/-- A marker of the reader's own and one of another tool, that say the same. -/
def twoMarkers : Data :=
  .ofList [
    .ofFields [("type", "error_marker"), ("origin", "henshin_module"),
      ("descriptor", "binary_generator")],
    .ofFields [("type", "error_marker"), ("origin", "epp"), ("descriptor", "binary_generator")] ]

/-- They are read as a violation and as the words of that tool, and come back as these from the
document and from the JSON text of the lowered module. -/
theorem twoMarkers_read_back :
    let forms : List Form :=
      [ .marker ⟨"henshin_module", .violation .binaryGenerator, 0⟩,
        .marker ⟨"epp", .foreign "binary_generator", 0⟩ ]
    ∃ out back, Form.listOfData? "henshin_module" twoMarkers = .ok forms
      ∧ lower {} forms = .ok out
      ∧ Form.listOfData? "henshin_module" (Form.listToData out) = .ok out
      ∧ (Rendering.json.write out >>= Format.json.readForms 1 "henshin_module") = .ok back
      ∧ sameEach Form.same out back = true := by
  intro forms
  have hread : Form.listOfData? ({} : Options).origin twoMarkers = .ok forms := rfl
  obtain ⟨out, h, hfaithful, hwritten⟩ : ∃ out, lower {} forms = .ok out
      ∧ Json.isFaithful (Form.listToData out) = true
      ∧ (Rendering.json.write out).toBool = true := ⟨_, rfl, rfl, by decide +kernel⟩
  obtain ⟨text, htext⟩ := exists_ok_of_toBool hwritten
  obtain ⟨d, hd, hsame⟩ := exists_read_of_rendered hfaithful htext 1
  obtain ⟨hdocument, hjson⟩ := lowered_reads_back hread h
  obtain ⟨back, hback, hforms⟩ := hjson 1 d hd hsame
  exact ⟨out, back, hread, h, hdocument, hback, hforms⟩

end RuleLowering
