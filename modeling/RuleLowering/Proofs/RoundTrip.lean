import RuleLowering.Form.Document
import RuleLowering.Proofs.SelfSame
import RuleLowering.Proofs.Success

/-!
# Documents of forms read back

The document of an expression reads back as that expression, and so does the document of any form
but a marker. A document does not tell a violation from its name in the words of another tool, so
what a marker says is read by its origin alone: as a violation if the origin is the reader's own,
and as it stands if not. That is right for some markers, and they are the ones that read back.
-/
namespace RuleLowering

namespace Expr

open Expr.Field

mutual

/-- The document of an expression reads back as the expression. -/
theorem ofData?_toData : ∀ e : Expr, ofData? (toData e) = .ok e
  | absent | var _ _ | atom _ _ | literal _ _ | foreign _ _ => rfl
  | tuple elements _ | list elements _ => by
    simp [toData, node, Data.ofFields, Data.ofList, ofData?, ofList?, fieldsOf, ofFields?, valueOr,
      exprsOrNone, find?, Data.text?, ofItems?_toItems elements]
  | operation _ left right _ => by
    simp [toData, node, Data.ofFields, ofData?, fieldsOf, ofFields?, valueOr, required,
      requiredExpr, find?, Data.text?, ofData?_toData left, ofData?_toData right]
  | remote first second _ | binding first second _ | generator first second _
  | binaryGenerator first second _ => by
    simp [toData, node, Data.ofFields, ofData?, fieldsOf, ofFields?, valueOr, requiredExpr, find?,
      Data.text?, ofData?_toData first, ofData?_toData second]
  | call function arguments _ => by
    simp [toData, node, Data.ofFields, Data.ofList, ofData?, ofList?, fieldsOf, ofFields?, valueOr,
      requiredExpr, exprsOrNone, find?, Data.text?, ofData?_toData function,
      ofItems?_toItems arguments]
  | quote body _ => by
    simp [toData, node, Data.ofFields, ofData?, fieldsOf, ofFields?, valueOr, requiredExpr, find?,
      Data.text?, ofData?_toData body]

theorem ofItems?_toItems : ∀ es : List Expr, ofItems? (toItems es) = .ok es
  | [] => rfl
  | e :: es => by simp [toItems, ofItems?, ofData?_toData e, ofItems?_toItems es]

end

end Expr

/-- The document of a clause reads back as the clause. -/
theorem Clause.ofData?_toData (c : Clause) : ofData? c.toData = .ok c := by
  simp [toData, Data.ofFields, Data.ofList, ofData?, readBy, exprsBy, Expr.Reading.plain,
    Data.field?, Data.text?, Expr.ofList?, Expr.ofItems?_toItems, Expr.ofData?_toData]

/-- Each of some items reads back, so all of them do. -/
theorem mapM_map_eq_ok {ε α β γ : Type} {read : β → Except ε γ} {write : α → β} {result : α → γ}
    (h : ∀ a, read (write a) = .ok (result a)) (items : List α) :
    (items.map write).mapM read = .ok (items.map result) := by
  rw [mapM_eq_ok_iff, List.map_map, List.map_map]
  exact List.map_congr_left fun a _ => h a

namespace Violation

/-- Only the name of a violation is read as one. -/
theorem ofName?_eq_some {d : Data} {v : Violation} : ofName? d = some v ↔ d = .str v.name := by
  constructor
  · intro h
    unfold ofName? at h
    split at h
    · obtain rfl := Option.some.inj h
      rfl
    · obtain rfl := Option.some.inj h
      rfl
    · cases h
  · rintro rfl
    exact ofName?_name v

end Violation

/-- A descriptor is written back as what it was read from, whoever read it. -/
theorem Descriptor.toData_ofData (own : Text) (origin value : Data) :
    (ofData own origin value).toData = value := by
  unfold ofData
  split
  · split
    · rename_i v hname
      exact (Violation.ofName?_eq_some.mp hname).symm
    · rfl
  · rfl

namespace Form

/-- What is read from the document of a form: of a marker, what its document says to the reader,
and otherwise the form. -/
def reread (own : Text) : Form → Form
  | .marker m => .marker { m with descriptor := .ofData own m.origin m.descriptor.toData }
  | f => f

theorem ofAttribute?_self (a : Attribute) : ofAttribute? a.name a.value a.pos = .ok (.attr a) := by
  unfold ofAttribute?
  split
  · rename_i fault hfault
    rw [a.generic] at hfault
    cases hfault
  · rfl

theorem ofAttribute?_error {name : Data} {fault : Fault} (value pos : Data)
    (h : checkAttributeName name = .error fault) : ofAttribute? name value pos = .error fault := by
  unfold ofAttribute?
  split
  · rename_i fault' hfault
    rw [Except.error.inj (hfault.symm.trans h)]
  · rename_i hok
    rw [hok] at h
    cases h

/-- The clauses of a function or a rule read back. -/
theorem ofField?_clausesData (type : String) (name : Data) (clauses : List Clause) (pos : Data) :
    Clause.ofField? [("type", .str type), ("name", name),
      ("clauses", .ofList (clauses.map Clause.toData)), ("pos", pos)] = .ok clauses := by
  have hread : (clauses.map Clause.toData).mapM Clause.ofData? = .ok (clauses.map id) :=
    mapM_map_eq_ok Clause.ofData?_toData clauses
  rw [List.map_id] at hread
  exact hread

/-- The name of a generic attribute is not that of another variant. -/
theorem reservedVariant?_name (a : Attribute) : reservedVariant? a.name = none := by
  have hgeneric := a.generic
  cases h : reservedVariant? a.name with
  | none => rfl
  | some variant => simp [checkAttributeName, bind_eq_ok_iff, h] at hgeneric

/-- An attribute of the name of a generic one is read as one. -/
theorem ofData?_generic {own : Text} {place : Place} {entries : List (Data × Data)} (a : Attribute)
    (htype : Data.field? entries "type" = some (.str "attribute"))
    (hname : Data.field? entries "name" = some a.name) :
    ofData? own (.map place entries) =
      ofAttribute? a.name ((Data.field? entries "value").getD .null)
        ((Data.field? entries "pos").getD 0) := by
  have hvariant := reservedVariant?_name a
  have hrequired : required entries "name" = .ok a.name := by rw [required, hname]
  simp only [ofData?, readBy, htype, hrequired, Option.getD_some, ok_bind]
  split
  · rename_i hmodule
    rw [hmodule] at hvariant
    cases hvariant
  · rename_i hfile
    rw [hfile] at hvariant
    cases hvariant
  · rename_i hexport
    rw [hexport] at hvariant
    cases hvariant
  · rfl

theorem ofData?_toData (own : Text) (f : Form) : ofData? own f.toData = .ok (f.reread own) := by
  cases f with
  | attr a => exact (ofData?_generic a rfl rfl).trans (ofAttribute?_self a)
  | module m =>
    obtain ⟨name, parameters, pos⟩ := m
    cases parameters <;> rfl
  | file f => rfl
  | exports e =>
    have hexport : ofExport? [("type", "attribute"), ("name", "export"), ("pos", e.pos),
        ("functions", .ofList (e.functions.map Signature.toData))] e.pos = .ok (.exports e) := by
      refine bind_eq_ok_iff.mpr ⟨_, rfl, bind_eq_ok_iff.mpr ⟨e.functions, ?_, rfl⟩⟩
      rw [mapM_eq_ok_iff, List.map_map]
      exact List.map_congr_left fun s _ => rfl
    exact bind_eq_ok_iff.mpr ⟨"export", rfl, hexport⟩
  | function f =>
    have hclauses := ofField?_clausesData "function" f.name f.clauses f.pos
    exact bind_eq_ok_iff.mpr ⟨f.name, rfl, bind_eq_ok_iff.mpr ⟨f.clauses, hclauses, rfl⟩⟩
  | rule r =>
    have hclauses := ofField?_clausesData "rule" r.name r.clauses r.pos
    exact bind_eq_ok_iff.mpr ⟨r.name, rfl, bind_eq_ok_iff.mpr ⟨r.clauses, hclauses, rfl⟩⟩
  | marker m => rfl
  | eof pos => rfl

/-- The documents of some forms are read back form by form. -/
theorem listOfData?_listToData (own : Text) (forms : List Form) :
    listOfData? own (listToData forms) = .ok (forms.map (reread own)) :=
  mapM_map_eq_ok (ofData?_toData own) forms

end Form

/-- A marker that says to a reader of the given origin what it says: a violation if the origin is
the marker's own, and other words unless they are of that origin and the name of a violation. -/
def Marker.ReadsBack (own : Text) (m : Marker) : Prop :=
  match m.descriptor with
  | .violation _ => m.origin = .str own
  | .foreign d => ¬ (m.origin = .str own ∧ ∃ v : Violation, d = .str v.name)

/-- What is read from the document of a marker is what the marker says, or something else. -/
theorem Marker.readsBack_or (own : Text) (m : Marker) :
    m.ReadsBack own ∧ Descriptor.ofData own m.origin m.descriptor.toData = m.descriptor
      ∨ ¬ m.ReadsBack own
        ∧ (Descriptor.ofData own m.origin m.descriptor.toData).same m.descriptor = false := by
  obtain ⟨origin, descriptor, pos⟩ := m
  cases descriptor with
  | violation v =>
    by_cases horigin : origin.text? = some own
    · refine .inl ⟨Data.text?_eq_some.mp horigin, ?_⟩
      simp [Descriptor.ofData, Descriptor.toData, horigin]
    · refine .inr ⟨fun hback => horigin (Data.text?_eq_some.mpr hback), ?_⟩
      simp [Descriptor.ofData, Descriptor.toData, horigin, Descriptor.same]
  | foreign d =>
    by_cases horigin : origin.text? = some own
    · have horigin' : origin = .str own := Data.text?_eq_some.mp horigin
      cases hname : Violation.ofName? d with
      | some v =>
        refine .inr ⟨fun hback => hback ⟨horigin', v, Violation.ofName?_eq_some.mp hname⟩, ?_⟩
        simp [Descriptor.ofData, Descriptor.toData, horigin, hname, Descriptor.same]
      | none =>
        refine .inl ⟨?_, ?_⟩
        · rintro ⟨-, v, hv⟩
          rw [Violation.ofName?_eq_some.mpr hv] at hname
          cases hname
        · simp [Descriptor.ofData, Descriptor.toData, horigin, hname]
    · refine .inl ⟨fun h => horigin (Data.text?_eq_some.mpr h.1), ?_⟩
      simp [Descriptor.ofData, Descriptor.toData, horigin]

namespace Form

/-- Every form that is read back is itself, and no other is even the same as what is read. -/
theorem reread_or (own : Text) (f : Form) :
    (∀ m, f = .marker m → m.ReadsBack own) ∧ f.reread own = f
      ∨ ¬ (∀ m, f = .marker m → m.ReadsBack own) ∧ (f.reread own).same f = false := by
  cases f with
  | marker m =>
    rcases m.readsBack_or own with ⟨hback, hdescriptor⟩ | ⟨hback, hdescriptor⟩
    · refine .inl ⟨fun n hn => Form.marker.inj hn ▸ hback, ?_⟩
      rw [reread, hdescriptor]
    · refine .inr ⟨fun h => hback (h m rfl), ?_⟩
      simp [reread, Form.same, Marker.same, hdescriptor]
  | _ =>
    refine .inl ⟨?_, rfl⟩
    rintro m hm
    cases hm

/-- Where each marker says to the reader what it says, the documents read back as the forms. -/
theorem listOfData?_eq_self {own : Text} {forms : List Form}
    (h : ∀ m, .marker m ∈ forms → m.ReadsBack own) :
    listOfData? own (listToData forms) = .ok forms := by
  have heach : ∀ f ∈ forms, f.reread own = id f := by
    intro f hf
    rcases reread_or own f with ⟨-, hself⟩ | ⟨hnot, -⟩
    · exact hself
    · exact absurd (by rintro m rfl; exact h m hf) hnot
  rw [listOfData?_listToData, List.map_congr_left heach, List.map_id]

end Form

theorem sameEach_map_iff {α : Type} {same : α → α → Bool} {f : α → α} {items : List α} :
    sameEach same (items.map f) items = true ↔ ∀ a ∈ items, same (f a) a = true := by
  induction items with
  | nil => simp [sameEach]
  | cons a items ih => simp [sameEach, ih]

/-- The documents of forms are always read. What is read are the same forms exactly if each marker
says to the reader what it says, and then it is what was written, down to the order of entries. -/
theorem read_listToData_iff (own : Text) (forms : List Form) :
    ∃ back, Form.listOfData? own (Form.listToData forms) = .ok back
      ∧ (sameEach Form.same back forms = true ↔ ∀ m, .marker m ∈ forms → m.ReadsBack own)
      ∧ (back = forms ↔ ∀ m, .marker m ∈ forms → m.ReadsBack own) := by
  have hread := Form.listOfData?_listToData own forms
  have hmarkers : sameEach Form.same (forms.map (Form.reread own)) forms = true →
      ∀ m, .marker m ∈ forms → m.ReadsBack own := by
    intro hsame m hm
    rcases Form.reread_or own (.marker m) with ⟨hback, -⟩ | ⟨-, hnot⟩
    · exact hback m rfl
    · rw [sameEach_map_iff.mp hsame _ hm] at hnot
      cases hnot
  have hexact : (∀ m, .marker m ∈ forms → m.ReadsBack own) →
      forms.map (Form.reread own) = forms := by
    intro hback
    rw [Form.listOfData?_eq_self hback] at hread
    exact (Except.ok.inj hread).symm
  have hself : forms.map (Form.reread own) = forms →
      sameEach Form.same (forms.map (Form.reread own)) forms = true := by
    intro heq
    rw [heq]
    exact sameEach_self fun f _ => f.same_self
  exact ⟨_, hread, ⟨hmarkers, fun h => hself (hexact h)⟩, ⟨fun h => hmarkers (hself h), hexact⟩⟩

/-- Words of another tool under the reader's origin are taken for a violation of that name. -/
example :
    Form.ofData? "own" (Form.marker ⟨"own", .foreign "binary_generator", 1⟩).toData =
      .ok (.marker ⟨"own", .violation .binaryGenerator, 1⟩) := rfl

end RuleLowering
