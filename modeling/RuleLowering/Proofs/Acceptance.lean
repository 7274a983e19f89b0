import RuleLowering.Proofs.Reading
import RuleLowering.Proofs.RoundTrip

/-!
# Which documents are lists of forms

Clauses and forms are read column by column as expressions are, so that the documents accepted are
those of the grammar. Two fields of attributes are not read as they are: from the parameters of a
module and from an export list the reader takes the items, whatever value it is that has them.
-/
namespace RuleLowering

open Column (must may meets_nil meets_cons)

/-- The reader of clauses decides the grammar, and what it gives keeps the document. -/
def ReadsClause (d : Data) : Prop :=
  Reads (Clause.ofData? d) (Fits .clause d) fun c => Keeps .clause d c.toData

section Fields

variable (entries : List (Data × Data))

/-- Expressions that may be missing are read from their field. -/
theorem reads_clauseExprs (name : String) :
    Reads (Clause.exprsOrNone entries name) ((may name .exprs).Holds entries) fun es =>
      (may name .exprs).AnsweredBy Keeps entries (.ofList (Expr.toItems es)) := by
  rw [Clause.exprsOrNone, Clause.exprsBy]
  refine reads_may (fun h => ⟨[], by rw [h]⟩) fun d h => ?_
  rw [h]
  exact Expr.reads_exprs d

/-- A guard may be missing, or null. -/
theorem reads_guard :
    Reads (Expr.ofData? ((Data.field? entries "guard").getD .null))
      ((may "guard" .expr).Holds entries) fun e =>
        (may "guard" .expr).AnsweredBy Keeps entries e.toData :=
  reads_getD ⟨.absent, rfl⟩ Expr.reads_expr

end Fields

theorem reads_clause (d : Data) : ReadsClause d := by
  cases d with
  | map place entries =>
    have hcolumns : Reads (Clause.ofData? (.map place entries))
        (∀ c ∈ Column.ofClause, Column.Holds entries c) fun c =>
          Keeps .clause (.map place entries) c.toData := by
      refine .column (reads_clauseExprs entries "patterns") fun patterns hpatterns =>
        .column (reads_guard entries) fun guard hguard =>
        .column (reads_clauseExprs entries "body") fun body hbody =>
        .held (Column.holds_may_data _ _) (.done ?_)
      refine (keeps_map_iff rfl).mpr ⟨_, rfl, .refl _, ?_⟩
      exact meets_cons hpatterns rfl (meets_cons hguard rfl (meets_cons hbody rfl
        (meets_cons (answeredBy_getD (keeps_self rfl) entries "pos" 0) rfl meets_nil)))
    refine hcolumns.mono ?_ fun _ h => h
    rw [fits_map_iff rfl]
    simp [Slot.columns?]
  | _ =>
    refine .of_error rfl ?_ (.inr (.inl rfl))
    rintro (h | h | h | _) <;> cases h

/-- Clauses may be missing, and are read one after the other. -/
theorem reads_clauses (entries : List (Data × Data)) :
    Reads (Clause.ofField? entries) ((may "clauses" .clauses).Holds entries) fun clauses =>
      (may "clauses" .clauses).AnsweredBy Keeps entries (.ofList (clauses.map Clause.toData)) := by
  rw [Clause.ofField?, Clause.fieldBy]
  refine reads_may (fun h => ⟨[], by rw [h]⟩) fun d h => ?_
  rw [h]
  cases d with
  | list place items =>
    have hitems := Decides.mapM fun d (_ : d ∈ items) => reads_clause d
    refine Decides.mono hitems (fits_list_iff rfl).symm fun clauses hclauses => ?_
    refine (keeps_list_iff rfl).mpr ?_
    rwa [List.forall₂_map_right_iff]
  | _ =>
    refine .refused ?_ (.inr (.inl rfl))
    rintro (h | h | _ | h) <;> cases h

/-- How the reader renders what stands in a field: it takes the items of parameters, and of the
items of an export list their two items. All else is kept. -/
def Renders : Slot → Data → Data → Prop
  | .parameters, d, d' =>
    d = .null ∧ d' = .null ∨ ∃ items, d.items? = .ok items ∧ d' = .ofList items
  | .signatures, d, d' =>
    ∃ items signatures, d.items? = .ok items
      ∧ List.Forall₂ (fun item (s : Signature) => item.items? = .ok [s.name, s.arity])
        items signatures
      ∧ d' = .ofList (signatures.map Signature.toData)
  | slot, d, d' => Keeps slot d d'

theorem renders_self (d : Data) : Renders .data d d := keeps_self rfl d

def Rendered (d d' : Data) : Prop :=
  ∃ place entries entries' columns, d = .map place entries ∧ d' = .map .fresh entries'
    ∧ Slot.form.columns? entries = some columns
    ∧ (entries'.map Prod.fst).Perm (Column.keys columns)
    ∧ ∀ c ∈ columns, c.Meets Renders entries entries'

namespace Data

/-- A value has as many items as it has, or none. -/
theorem size?_eq (d : Data) :
    d.size? = match d.items? with
      | .ok items => some items.length
      | .error _ => none := by
  cases d with
  | str t => simp [size?, items?, Text.length]
  | special place x => cases x <;> simp [size?, items?]
  | _ => simp [size?, items?]

theorem reads_items? (d : Data) :
    Reads d.items? (d.size?.isSome) fun items => d.items? = .ok items := by
  rw [size?_eq]
  cases h : d.items? with
  | ok items => exact .of_ok rfl rfl rfl
  | error fault =>
    refine .refused (by simp) (.inr (.inl ?_))
    cases d with
    | special place x => cases x <;> cases h <;> rfl
    | _ => cases h <;> rfl

/-- A couple has two items. -/
theorem reads_couple? (d : Data) :
    Reads d.couple? (d.size? = some 2) fun c => d.items? = .ok [c.1, c.2] := by
  rw [size?_eq, couple?]
  cases h : d.items? with
  | error fault => exact .refused (by simp) (.inr (.inl rfl))
  | ok items =>
    match items with
    | [a, b] => exact .of_ok rfl rfl rfl
    | [] => exact .refused (by simp) (.inr (.inr rfl))
    | [a] => exact .refused (by simp) (.inr (.inr rfl))
    | a :: b :: c :: rest =>
      refine .refused (by simp) (.inr (.inr ?_))
      split <;> rfl

end Data

def parametersOf (d : Data) : Except Fault (Option (List Data)) :=
  match d with
  | .null => .ok none
  | d => do return some (← d.items?)

def signaturesOf (d : Data) : Except Fault (List Signature) := do
  let items ← d.items?
  items.mapM fun item => do
    let (name, arity) ← item.couple?
    return ({ name, arity } : Signature)

namespace Form

theorem ofModule?_eq (entries : List (Data × Data)) (pos : Data) :
    ofModule? entries pos = (do
      let name ← required entries "module"
      let parameters ← parametersOf ((Data.field? entries "parameters").getD .null)
      return .module { name, parameters, pos }) := by
  rw [ofModule?]
  refine bind_congr fun name => ?_
  generalize (Data.field? entries "parameters").getD .null = d
  cases d with
  | null => rfl
  | _ => simp only [parametersOf, bind_assoc, pure_bind]

theorem ofExport?_eq (entries : List (Data × Data)) (pos : Data) :
    ofExport? entries pos = (do
      let functions ← signaturesOf ((Data.field? entries "functions").getD (.ofList []))
      return .exports { functions, pos }) := by
  rw [ofExport?, signaturesOf, bind_assoc]

end Form

/-- The parameters of a module are null or have items. -/
theorem reads_parametersOf (d : Data) :
    Reads (parametersOf d) (Fits .parameters d) fun parameters =>
      Renders .parameters d ((parameters.map Data.ofList).getD .null) := by
  rw [fits_plain_iff rfl, Slot.Admits]
  unfold parametersOf
  split
  · exact .of_ok rfl (.inl rfl) (.inl ⟨rfl, rfl⟩)
  · rename_i hnull
    have hsome : ∀ items, d.items? = .ok items →
        Reads (.ok (some items)) True fun parameters =>
          Renders .parameters d ((parameters.map Data.ofList).getD .null) :=
      fun items hitems => .of_ok rfl trivial (.inr ⟨items, hitems, rfl⟩)
    refine (d.reads_items?.bind hsome).mono ?_ fun _ h => h
    rw [and_true, or_iff_right hnull]

/-- A signature is read from a value that has two items. -/
theorem reads_signature (d : Data) :
    Reads (do
        let (name, arity) ← d.couple?
        return ({ name, arity } : Signature))
      (d.size? = some 2) fun s => d.items? = .ok [s.name, s.arity] := by
  have hpair : ∀ c : Data × Data, d.items? = .ok [c.1, c.2] →
      Reads (.ok (⟨c.1, c.2⟩ : Signature)) True fun s => d.items? = .ok [s.name, s.arity] :=
    fun c hc => .of_ok rfl trivial hc
  exact (d.reads_couple?.bind hpair).mono (and_true _).to_iff fun _ h => h

/-- All items of an export list are read as signatures. -/
theorem reads_signaturesOf (d : Data) :
    Reads (signaturesOf d) (Fits .signatures d) fun signatures =>
      Renders .signatures d (.ofList (signatures.map Signature.toData)) := by
  rw [fits_plain_iff rfl, Slot.Admits, signaturesOf]
  rcases d.reads_items? with ⟨-, items, hitems, -⟩ | ⟨-, fault, hfault, hshape⟩
  · rw [hitems, ok_bind]
    refine (Decides.mapM fun item _ => reads_signature item).mono (by simp) fun signatures h => ?_
    exact ⟨items, signatures, hitems, h, rfl⟩
  · rw [hfault]
    exact .refused (by simp) hshape

theorem Column.ofAttribute_of_generic {name : Data} (h : reservedVariant? name = none) :
    ofAttribute name = typed [must "name" .key, may "value" .data] := by
  unfold ofAttribute
  split <;> first | rfl | cases h

/-- A name that is not that of another variant is that of a generic attribute if it can be looked
up. -/
theorem Form.reads_ofAttribute? {name : Data} (hvariant : reservedVariant? name = none)
    (value pos : Data) :
    Reads (ofAttribute? name value pos) (Fits .key name) fun f =>
      f.toData = attributeData name pos [("value", value)] := by
  rw [fits_plain_iff rfl, Slot.Admits]
  cases hkind : name.unhashable? with
  | none =>
    have hcheck : checkAttributeName name = .ok () := by
      rw [checkAttributeName, Data.hashable, hkind, hvariant]
      rfl
    exact .of_ok (ofAttribute?_self ⟨name, value, pos, hcheck⟩) rfl rfl
  | some kind =>
    have hcheck : checkAttributeName name = .error (.unhashable kind) := by
      rw [checkAttributeName, Data.hashable, hkind]
      rfl
    have hread := ofAttribute?_error value pos hcheck
    exact .of_error hread (Option.some_ne_none kind) (.inr (.inl rfl))

namespace Form

section Map

variable {place : Place} {entries : List (Data × Data)} {type : String} {columns : List Column}

/-- Where the columns of its type are read, so is a form. -/
theorem reads_form {x : Except Fault Form}
    (htype : (Data.field? entries "type").getD .null = .str type)
    (hcolumns : Slot.form.columns? entries = some (Column.typed columns))
    (h : ReadsColumns Renders entries type columns toData x) :
    Reads x (Fits .form (.map place entries)) fun f => Rendered (.map place entries) f.toData := by
  refine (reads_typed rfl renders_self htype hcolumns h).mono Iff.rfl ?_
  rintro f ⟨entries', hf, hrendered⟩
  exact ⟨place, entries, entries', _, rfl, hf, hcolumns, hrendered⟩

/-- A value that has to be there is read as it is. -/
theorem reads_required (entries : List (Data × Data)) (name : String) :
    Reads (required entries name) ((must name .data).Holds entries)
      ((must name .data).AnsweredBy Renders entries) := by
  rw [required]
  refine reads_must (fun h => by rw [h]) fun d h => ?_
  rw [h]
  exact .of_ok rfl (.plain trivial) (renders_self d)

/-- A function or a rule: its name has to be there, and its clauses are read. -/
theorem reads_clausesForm {make : Data → List Clause → Form}
    (htype : (Data.field? entries "type").getD .null = .str type)
    (hcolumns : ∀ name, Column.ofForm? (.str type) name =
      some (Column.typed [must "name" .data, may "clauses" .clauses]))
    (hmake : ∀ name clauses, (make name clauses).toData =
      clausesData type name clauses ((Data.field? entries "pos").getD 0)) :
    Reads (do
        let name ← required entries "name"
        return make name (← Clause.ofField? entries))
      (Fits .form (.map place entries)) fun f => Rendered (.map place entries) f.toData := by
  refine reads_form htype (by rw [Slot.columns?, htype, hcolumns]) ?_
  refine .column (reads_required entries "name") fun name hname =>
    .column (reads_clauses entries) fun clauses hclauses => .done ?_
  exact ⟨_, ⟨hmake name clauses, rfl, rfl, .cons _ (List.perm_append_singleton _ [_, _])⟩,
    meets_cons hname rfl (meets_cons hclauses rfl meets_nil)⟩

/-- The parameters of a module may be missing, or null. -/
theorem reads_parameters (entries : List (Data × Data)) :
    Reads (parametersOf ((Data.field? entries "parameters").getD .null))
      ((may "parameters" .parameters).Holds entries) fun parameters =>
        (may "parameters" .parameters).AnsweredBy Renders entries
          ((parameters.map Data.ofList).getD .null) :=
  reads_getD ⟨none, rfl⟩ reads_parametersOf

/-- The signatures of an export list may be missing. -/
theorem reads_functions (entries : List (Data × Data)) :
    Reads (signaturesOf ((Data.field? entries "functions").getD (.ofList [])))
      ((may "functions" .signatures).Holds entries) fun functions =>
        (may "functions" .signatures).AnsweredBy Renders entries
          (.ofList (functions.map Signature.toData)) :=
  reads_getD ⟨[], rfl⟩ reads_signaturesOf

section Attribute

variable {name : Data} (htype : (Data.field? entries "type").getD .null = .str "attribute")
  (hname : Data.field? entries "name" = some name)

include htype

/-- An attribute has a name. -/
theorem not_fits_of_no_name (hname : Data.field? entries "name" = none) :
    ¬ Fits .form (.map place entries) := by
  rw [fits_map_iff rfl, Slot.columns?, htype, hname]
  rintro ⟨columns, hcolumns, h⟩
  obtain rfl := Option.some.inj hcolumns
  have hneeded := (h (must "name" .key) (by simp [Column.ofAttribute, Column.typed])).1 rfl
  simp [must, hname] at hneeded

include hname

/-- The name is known, and the columns besides it are read. -/
theorem reads_named {x : Except Fault Form}
    (hcolumns : Column.ofAttribute name = Column.typed (must "name" .data :: columns))
    (h : (must "name" .data).AnsweredBy Renders entries name →
      Reads x (∀ c ∈ columns, Column.Holds entries c) fun f => ∃ entries',
        IsNode "attribute" ((Data.field? entries "pos").getD 0) (must "name" .data :: columns)
            f.toData entries'
          ∧ ∀ c ∈ must "name" .data :: columns, c.Meets Renders entries entries') :
    Reads x (Fits .form (.map place entries)) fun f => Rendered (.map place entries) f.toData := by
  have hthere : (must "name" .data).Holds entries :=
    Column.holds_must_data_iff.mpr (by rw [hname]; rfl)
  refine reads_form htype ?_ (.held hthere (h fun d hd => ?_))
  · rw [Slot.columns?, htype, hname]
    exact congrArg some hcolumns
  · obtain rfl : name = d := Option.some.inj (hname.symm.trans hd)
    exact renders_self name

/-- A module declaration. The position is written behind the name, as in all attributes. -/
theorem reads_module (hmodule : name = "module") :
    Reads (ofModule? entries ((Data.field? entries "pos").getD 0))
      (Fits .form (.map place entries)) fun f => Rendered (.map place entries) f.toData := by
  subst hmodule
  rw [ofModule?_eq]
  refine reads_named htype hname rfl fun hname =>
    .column (reads_required entries "module") fun module hmodule =>
    .column (reads_parameters entries) fun parameters hparameters => .done ?_
  exact ⟨_, ⟨rfl, rfl, rfl, .cons _ (.swap _ _ _)⟩,
    meets_cons hname rfl (meets_cons hmodule rfl (meets_cons hparameters rfl meets_nil))⟩

/-- A file mark. -/
theorem reads_fileMark (hfile : name = "file") :
    Reads (do
        let file ← required entries "file"
        return Form.file
          ⟨file, (Data.field? entries "line").getD 1, (Data.field? entries "pos").getD 0⟩)
      (Fits .form (.map place entries)) fun f => Rendered (.map place entries) f.toData := by
  subst hfile
  refine reads_named htype hname rfl fun hname =>
    .column (reads_required entries "file") fun file hfile =>
    .held (Column.holds_may_data _ _) (.done ?_)
  exact ⟨_, ⟨rfl, rfl, rfl, .cons _ (.swap _ _ _)⟩, meets_cons hname rfl (meets_cons hfile rfl
    (meets_cons (answeredBy_getD renders_self entries "line" 1) rfl meets_nil))⟩

/-- An export list. -/
theorem reads_export (hexport : name = "export") :
    Reads (ofExport? entries ((Data.field? entries "pos").getD 0))
      (Fits .form (.map place entries)) fun f => Rendered (.map place entries) f.toData := by
  subst hexport
  rw [ofExport?_eq]
  refine reads_named htype hname rfl fun hname =>
    .column (reads_functions entries) fun functions hfunctions => .done ?_
  exact ⟨_, ⟨rfl, rfl, rfl, .cons _ (.swap _ _ _)⟩,
    meets_cons hname rfl (meets_cons hfunctions rfl meets_nil)⟩

/-- An attribute of another name is read if the name can be looked up. -/
theorem reads_generic (hvariant : reservedVariant? name = none) :
    Reads (ofAttribute? name ((Data.field? entries "value").getD .null)
        ((Data.field? entries "pos").getD 0))
      (Fits .form (.map place entries)) fun f => Rendered (.map place entries) f.toData := by
  have hcolumns : Slot.form.columns? entries =
      some (Column.typed [must "name" .key, may "value" .data]) := by
    rw [Slot.columns?, htype, hname]
    exact congrArg some (Column.ofAttribute_of_generic hvariant)
  have hkey : (must "name" .key).Holds entries ↔ Fits .key name := by
    simp [Column.Holds, must, hname]
  refine reads_form htype hcolumns ((reads_ofAttribute? hvariant _ _).mono ?_ ?_)
  · simp [hkey, Column.holds_may_data]
  · intro f hf
    have hname' : (must "name" .key).AnsweredBy Renders entries name := by
      intro d hd
      obtain rfl : name = d := Option.some.inj (hname.symm.trans hd)
      exact keeps_self rfl name
    refine ⟨_, ⟨hf, rfl, rfl, .cons _ (.swap _ _ _)⟩, meets_cons hname' rfl
      (meets_cons (answeredBy_getD renders_self entries "value" .null) rfl meets_nil)⟩

end Attribute

/-- A marker has an origin, and its descriptor is written as what it was read from. -/
theorem reads_marker (own : Text)
    (htype : (Data.field? entries "type").getD .null = .str "error_marker") :
    Reads (do
        let origin ← required entries "origin"
        let value := (Data.field? entries "descriptor").getD .null
        return Form.marker ⟨origin, .ofData own origin value, (Data.field? entries "pos").getD 0⟩)
      (Fits .form (.map place entries)) fun f => Rendered (.map place entries) f.toData := by
  refine reads_form htype (by rw [Slot.columns?, htype]; rfl) ?_
  refine .column (reads_required entries "origin") fun origin horigin =>
    .held (Column.holds_may_data _ _) (.done ?_)
  refine ⟨_, ⟨rfl, rfl, rfl, .cons _ (List.perm_append_singleton _ [_, _])⟩,
    meets_cons horigin rfl (meets_cons ?_ rfl meets_nil)⟩
  rw [Descriptor.toData_ofData]
  exact answeredBy_getD renders_self entries "descriptor" .null

end Map

/-- The reader of forms decides the grammar, and what it gives renders the document. -/
theorem reads_ofData? (own : Text) (d : Data) :
    Reads (ofData? own d) (Fits .form d) fun f => Rendered d f.toData := by
  cases d with
  | map place entries =>
    rw [ofData?, readBy]
    dsimp only
    generalize htype : (Data.field? entries "type").getD .null = type
    split
    · cases hname : Data.field? entries "name" with
      | none =>
        rw [required, hname]
        exact .refused (not_fits_of_no_name htype hname) (.inl rfl)
      | some name =>
        rw [required, hname, ok_bind]
        split
        · exact reads_module htype hname rfl
        · exact reads_fileMark htype hname rfl
        · exact reads_export htype hname rfl
        · exact reads_generic htype hname (by simp [reservedVariant?])
    · exact reads_clausesForm htype (fun _ => rfl) fun _ _ => rfl
    · exact reads_clausesForm htype (fun _ => rfl) fun _ _ => rfl
    · exact reads_marker own htype
    · refine reads_form htype (by rw [Slot.columns?, htype]; rfl) (.done ?_)
      exact ⟨_, ⟨rfl, rfl, rfl, .refl _⟩, meets_nil⟩
    · refine .refused ?_ (Fault.IsShape.showing (.inr (.inl rfl)) _)
      rw [fits_map_iff rfl, Slot.columns?, htype]
      rintro ⟨columns, hcolumns, -⟩
      unfold Column.ofForm? at hcolumns
      split at hcolumns <;> contradiction
  | _ =>
    refine .refused ?_ (.inr (.inl rfl))
    rintro (h | h | h | _) <;> cases h

/-- The reader of lists of forms decides the grammar, and renders the document form by form. -/
theorem reads_listOfData? (own : Text) (d : Data) :
    Reads (listOfData? own d) (Fits .forms d) fun forms =>
      d = .null ∧ forms = [] ∨ ∃ place items, d = .list place items
        ∧ List.Forall₂ (fun item f => Rendered item f.toData) items forms := by
  cases d with
  | null => exact .of_ok rfl (.null rfl) (.inl ⟨rfl, rfl⟩)
  | list place items =>
    refine Decides.mono (Decides.mapM fun item _ => reads_ofData? own item) ?_ ?_
    · exact (fits_list_iff rfl).symm
    · exact fun forms hforms => .inr ⟨place, items, rfl, hforms⟩
  | _ =>
    refine .refused ?_ (.inr (.inl rfl))
    rintro (h | h | _ | h) <;> cases h

end Form

/-- The reader of lists of forms accepts the documents of the grammar, whatever its origin. All
others it refuses for a missing field, for a value of the wrong kind or for one that will not do. -/
theorem accepts_iff_fits (own : Text) (d : Data) :
    ((∃ forms, Form.listOfData? own d = .ok forms) ↔ Fits .forms d)
      ∧ ∀ fault, Form.listOfData? own d = .error fault →
        fault.kind = .missingKey ∨ fault.kind = .mismatch ∨ fault.kind = .invalid :=
  ⟨(Form.reads_listOfData? own d).exists_ok_iff, fun _ => (Form.reads_listOfData? own d).bad⟩

/-- A rule of one clause with the given patterns, and nothing else that may be missing. -/
def ruleWith (patterns : Data) : Data :=
  .ofList [.ofFields [("type", "rule"), ("name", "foo"),
    ("clauses", .ofList [.ofFields [("patterns", patterns)]])]]

/-- Patterns are accepted in a list and refused as a word. -/
theorem listed_accepted_spelled_refused :
    Fits .forms (ruleWith (.ofList [.null])) ∧ ¬ Fits .forms (ruleWith "XY")
      ∧ ∃ fault, Form.listOfData? "henshin_module" (ruleWith "XY") = .error fault
        ∧ (fault.kind = .missingKey ∨ fault.kind = .mismatch ∨ fault.kind = .invalid) := by
  obtain ⟨hlisted, -⟩ := accepts_iff_fits "henshin_module" (ruleWith (.ofList [.null]))
  obtain ⟨hspelled, hshape⟩ := accepts_iff_fits "henshin_module" (ruleWith "XY")
  refine ⟨hlisted.mp ⟨_, rfl⟩, fun h => ?_, _, rfl, hshape _ rfl⟩
  obtain ⟨forms, hforms⟩ := hspelled.mpr h
  cases hforms

/-- What is written is of the grammar. -/
theorem fits_listToData (forms : List Form) : Fits .forms (Form.listToData forms) :=
  (Form.reads_listOfData? "" _).exists_ok_iff.mp ⟨_, Form.listOfData?_listToData "" forms⟩

end RuleLowering
