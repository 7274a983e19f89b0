import RuleLowering.Proofs.RoundTrip
import RuleLowering.Proofs.SameData

/-!
# Documents that say the same are read the same

What says the same as the document of a form is read, and as a form that is the same as what the
document itself is read as. So a format may put the entries of a mapping in another order, or write
a number of another kind with the same value, and the forms read back do not tell the difference.
-/
namespace RuleLowering

namespace Expr

open Expr.Field
open Data (Carries)

section Found

variable {entries : List (Data × Data)} {name : String} {value : Data}

theorem valueOr_of_field? (default : Data) (h : Data.field? entries name = some value) :
    valueOr (fieldsOf entries) name default = value := by
  rw [valueOr_fieldsOf, h]
  rfl

theorem required_fieldsOf (h : Data.field? entries name = some value) :
    required (fieldsOf entries) name = .ok value := by
  rw [required, find?_fieldsOf, h]
  rfl

theorem requiredExpr_fieldsOf (h : Data.field? entries name = some value) :
    requiredExpr (fieldsOf entries) name = ofData? value := by
  rw [requiredExpr, find?_fieldsOf, h]
  rfl

theorem exprsOrNone_fieldsOf (h : Data.field? entries name = some value) :
    exprsOrNone (fieldsOf entries) name = ofList? value := by
  rw [exprsOrNone, find?_fieldsOf, h]
  rfl

end Found

/-- What says the same as a node is read as one of its type, from fields that say the same. -/
theorem exists_node_of_same {type : String} {pos d : Data} {fields : List (String × Data)}
    (h : (node type pos fields).same d = true)
    (hnodup : ("type" :: "pos" :: fields.map Prod.fst).Nodup) :
    ∃ place entries pos', d = .map place entries ∧ Carries entries fields
      ∧ valueOr (fieldsOf entries) "type" .null = .str type
      ∧ valueOr (fieldsOf entries) "pos" 0 = pos' ∧ pos.same pos' = true := by
  obtain ⟨place, entries, rfl, hfields⟩ := Data.exists_map_of_same h hnodup
  obtain ⟨type', htype, hsame⟩ := hfields "type" (.str type) (by simp)
  obtain ⟨pos', hpos, hpossame⟩ := hfields "pos" pos (by simp)
  obtain rfl := Data.same_str_left.mp hsame
  have hrest : Carries entries fields := fun name value hmem =>
    hfields name value (List.mem_cons_of_mem _ (List.mem_cons_of_mem _ hmem))
  exact ⟨place, entries, pos', rfl, hrest, valueOr_of_field? _ htype, valueOr_of_field? _ hpos,
    hpossame⟩

mutual

/-- What says the same as the document of an expression is read as the same expression. -/
theorem ofData?_of_same : ∀ (e : Expr) (d : Data), (toData e).same d = true →
    ∃ e', ofData? d = .ok e' ∧ e.same e' = true
  | absent, d, h => by
    obtain rfl := Data.eq_null_of_same h
    exact ⟨absent, rfl, rfl⟩
  | var name pos, d, h | atom name pos, d, h => by
    obtain ⟨place, entries, pos', rfl, hfields, htype, hpos, hpos'⟩ :=
      exists_node_of_same h (by simp)
    obtain ⟨name', hname, hname'⟩ := hfields "name" name (by simp)
    simp [ofData?, ofFields?, htype, hpos, required_fieldsOf hname, same, hname', hpos']
  | literal value pos, d, h => by
    obtain ⟨place, entries, pos', rfl, hfields, htype, hpos, hpos'⟩ :=
      exists_node_of_same h (by simp)
    obtain ⟨value', hvalue, hvalue'⟩ := hfields "value" value (by simp)
    simp [ofData?, ofFields?, htype, hpos, required_fieldsOf hvalue, same, hvalue', hpos']
  | tuple elements pos, d, h | list elements pos, d, h => by
    obtain ⟨place, entries, pos', rfl, hfields, htype, hpos, hpos'⟩ :=
      exists_node_of_same h (by simp)
    obtain ⟨items, hitems, hitems'⟩ := hfields "elements" (.ofList (toItems elements)) (by simp)
    obtain ⟨elements', helements, helements'⟩ := ofList?_of_same elements items hitems'
    simp [ofData?, ofFields?, htype, hpos, exprsOrNone_fieldsOf hitems, helements, same,
      helements', hpos']
  | operation operator left right pos, d, h => by
    obtain ⟨place, entries, pos', rfl, hfields, htype, hpos, hpos'⟩ :=
      exists_node_of_same h (by simp)
    obtain ⟨operator', hoperator, hoperator'⟩ := hfields "operator" operator (by simp)
    obtain ⟨dl, hl, hl'⟩ := hfields "left" (toData left) (by simp)
    obtain ⟨dr, hr, hr'⟩ := hfields "right" (toData right) (by simp)
    obtain ⟨left', hleft, hleft'⟩ := ofData?_of_same left dl hl'
    obtain ⟨right', hright, hright'⟩ := ofData?_of_same right dr hr'
    simp [ofData?, ofFields?, htype, hpos, required_fieldsOf hoperator, requiredExpr_fieldsOf hl,
      requiredExpr_fieldsOf hr, hleft, hright, same, hoperator', hleft', hright', hpos']
  | remote owner function pos, d, h => by
    obtain ⟨place, entries, pos', rfl, hfields, htype, hpos, hpos'⟩ :=
      exists_node_of_same h (by simp)
    obtain ⟨dm, hm, hm'⟩ := hfields "module" (toData owner) (by simp)
    obtain ⟨df, hf, hf'⟩ := hfields "function" (toData function) (by simp)
    obtain ⟨owner', howner, howner'⟩ := ofData?_of_same owner dm hm'
    obtain ⟨function', hfunction, hfunction'⟩ := ofData?_of_same function df hf'
    simp [ofData?, ofFields?, htype, hpos, requiredExpr_fieldsOf hm, requiredExpr_fieldsOf hf,
      howner, hfunction, same, howner', hfunction', hpos']
  | call function arguments pos, d, h => by
    obtain ⟨place, entries, pos', rfl, hfields, htype, hpos, hpos'⟩ :=
      exists_node_of_same h (by simp)
    obtain ⟨df, hf, hf'⟩ := hfields "function" (toData function) (by simp)
    obtain ⟨items, hitems, hitems'⟩ := hfields "arguments" (.ofList (toItems arguments)) (by simp)
    obtain ⟨function', hfunction, hfunction'⟩ := ofData?_of_same function df hf'
    obtain ⟨arguments', harguments, harguments'⟩ := ofList?_of_same arguments items hitems'
    simp [ofData?, ofFields?, htype, hpos, requiredExpr_fieldsOf hf, exprsOrNone_fieldsOf hitems,
      hfunction, harguments, same, hfunction', harguments', hpos']
  | binding pattern body pos, d, h | generator pattern body pos, d, h
  | binaryGenerator pattern body pos, d, h => by
    obtain ⟨place, entries, pos', rfl, hfields, htype, hpos, hpos'⟩ :=
      exists_node_of_same h (by simp)
    obtain ⟨dp, hp, hp'⟩ := hfields "pattern" (toData pattern) (by simp)
    obtain ⟨db, hb, hb'⟩ := hfields "body" (toData body) (by simp)
    obtain ⟨pattern', hpattern, hpattern'⟩ := ofData?_of_same pattern dp hp'
    obtain ⟨body', hbody, hbody'⟩ := ofData?_of_same body db hb'
    simp [ofData?, ofFields?, htype, hpos, requiredExpr_fieldsOf hp, requiredExpr_fieldsOf hb,
      hpattern, hbody, same, hpattern', hbody', hpos']
  | quote body pos, d, h => by
    obtain ⟨place, entries, pos', rfl, hfields, htype, hpos, hpos'⟩ :=
      exists_node_of_same h (by simp)
    obtain ⟨db, hb, hb'⟩ := hfields "body" (toData body) (by simp)
    obtain ⟨body', hbody, hbody'⟩ := ofData?_of_same body db hb'
    simp [ofData?, ofFields?, htype, hpos, requiredExpr_fieldsOf hb, hbody, same, hbody', hpos']
  | foreign term pos, d, h => by
    obtain ⟨place, entries, pos', rfl, hfields, htype, hpos, hpos'⟩ :=
      exists_node_of_same h (by simp)
    obtain ⟨term', hterm, hterm'⟩ := hfields "term" term (by simp)
    simp [ofData?, ofFields?, htype, hpos, valueOr_of_field? _ hterm, same, hterm', hpos']

theorem ofList?_of_same (es : List Expr) (d : Data) (h : (Data.ofList (toItems es)).same d = true) :
    ∃ es', ofList? d = .ok es' ∧ sameAll es es' = true := by
  obtain ⟨place, items, rfl, hitems⟩ := Data.exists_list_of_same h
  exact ofItems?_of_same es items hitems

theorem ofItems?_of_same : ∀ (es : List Expr) (items : List Data),
    Data.sameItems (toItems es) items = true →
    ∃ es', ofItems? items = .ok es' ∧ sameAll es es' = true
  | [], items, h => by
    cases items with
    | nil => exact ⟨[], rfl, rfl⟩
    | cons x xs => cases h
  | e :: es, items, h => by
    cases items with
    | nil => cases h
    | cons x xs =>
      obtain ⟨hx, hxs⟩ := Bool.and_eq_true_iff.mp h
      obtain ⟨e', he, he'⟩ := ofData?_of_same e x hx
      obtain ⟨es', hes, hes'⟩ := ofItems?_of_same es xs hxs
      simp [ofItems?, he, hes, sameAll, he', hes']

end

end Expr

theorem reservedVariant?_of_same {a b : Data} (h : a.same b = true) :
    reservedVariant? a = reservedVariant? b := by
  cases a with
  | str t => rw [Data.same_str_left.mp h]
  | _ =>
    cases b with
    | str t => cases Data.same_str_right.mp h
    | _ => rfl

theorem checkAttributeName_of_same {a b : Data} (h : a.same b = true) :
    checkAttributeName a = checkAttributeName b := by
  rw [checkAttributeName, checkAttributeName, Data.hashable, Data.hashable,
    Data.unhashable?_of_same a b h, reservedVariant?_of_same h]

theorem Violation.ofName?_of_same {a b : Data} (h : a.same b = true) : ofName? a = ofName? b :=
  Option.ext fun _ => by rw [ofName?_eq_some, ofName?_eq_some, Data.eq_str_iff_of_same h]

theorem Descriptor.ofData_of_same {own : Text} {origin origin' value value' : Data}
    (ho : origin.same origin' = true) (hv : value.same value' = true) :
    (ofData own origin value).same (ofData own origin' value') = true := by
  rw [ofData, ofData, Data.text?_eq_of_same ho, Violation.ofName?_of_same hv]
  split
  · split
    · exact beq_self_eq_true _
    · exact hv
  · exact hv

/-- Items that say the same as some documents are read as what is the same as the results. -/
theorem mapM_of_sameItems {ε α β : Type} {write : α → Data} {read : Data → Except ε β}
    {same : β → β → Bool} (result : α → β)
    (h : ∀ a d, (write a).same d = true → ∃ b, read d = .ok b ∧ same (result a) b = true) :
    ∀ (items : List α) (ds : List Data), Data.sameItems (items.map write) ds = true →
      ∃ bs, ds.mapM read = .ok bs ∧ sameEach same (items.map result) bs = true
  | [], [], _ => ⟨[], rfl, rfl⟩
  | a :: items, d :: ds, hsame => by
    obtain ⟨hd, hds⟩ := Bool.and_eq_true_iff.mp hsame
    obtain ⟨b, hb, hb'⟩ := h a d hd
    obtain ⟨bs, hbs, hbs'⟩ := mapM_of_sameItems result h items ds hds
    exact ⟨b :: bs, by rw [List.mapM_cons, hb, hbs]; rfl, Bool.and_eq_true_iff.mpr ⟨hb', hbs'⟩⟩

/-- The same where what is read is the same as what was written. -/
theorem mapM_of_sameItems_self {ε α : Type} {write : α → Data} {read : Data → Except ε α}
    {same : α → α → Bool}
    (h : ∀ a d, (write a).same d = true → ∃ b, read d = .ok b ∧ same a b = true)
    {items : List α} {ds : List Data} (hsame : Data.sameItems (items.map write) ds = true) :
    ∃ bs, ds.mapM read = .ok bs ∧ sameEach same items bs = true := by
  have hread := mapM_of_sameItems id h items ds hsame
  rwa [List.map_id] at hread

/-- A list that says the same as a signature is read as the same signature. -/
theorem Signature.couple?_of_same (s : Signature) (d : Data) (h : s.toData.same d = true) :
    ∃ s', (do
        let (name, arity) ← d.couple?
        return ({ name, arity } : Signature)) = .ok s' ∧ s.same s' = true := by
  obtain ⟨place, items, rfl, hitems⟩ := Data.exists_list_of_same h
  rw [Data.sameItems_eq_sameEach] at hitems
  match items with
  | [] | [_] | _ :: _ :: _ :: _ => simp [sameEach] at hitems
  | [name, arity] =>
    obtain ⟨hname, harity⟩ : s.name.same name = true ∧ s.arity.same arity = true := by
      simpa [sameEach] using hitems
    exact ⟨⟨name, arity⟩, rfl, Bool.and_eq_true_iff.mpr ⟨hname, harity⟩⟩

namespace Clause

theorem exprsOrNone_of_same {entries : List (Data × Data)} {name : String} {d : Data}
    {es : List Expr} (hfield : Data.field? entries name = some d)
    (h : (Data.ofList (Expr.toItems es)).same d = true) :
    ∃ es', exprsOrNone entries name = .ok es' ∧ Expr.sameAll es es' = true := by
  rw [exprsOrNone, exprsBy, hfield]
  exact Expr.ofList?_of_same es d h

theorem ofData?_of_same (c : Clause) (d : Data) (h : c.toData.same d = true) :
    ∃ c', ofData? d = .ok c' ∧ c.same c' = true := by
  obtain ⟨place, entries, rfl, hfields⟩ := Data.exists_map_of_same h (by simp)
  obtain ⟨dp, hp, hp'⟩ := hfields "patterns" (.ofList (Expr.toItems c.patterns)) (by simp)
  obtain ⟨dg, hg, hg'⟩ := hfields "guard" c.guard.toData (by simp)
  obtain ⟨db, hb, hb'⟩ := hfields "body" (.ofList (Expr.toItems c.body)) (by simp)
  obtain ⟨pos, hpos, hpos'⟩ := hfields "pos" c.pos (by simp)
  obtain ⟨patterns, hpatterns, hpatterns'⟩ := exprsOrNone_of_same hp hp'
  obtain ⟨guard, hguard, hguard'⟩ := Expr.ofData?_of_same c.guard dg hg'
  obtain ⟨body, hbody, hbody'⟩ := exprsOrNone_of_same hb hb'
  simp [ofData?_map, hpatterns, hg, hguard, hbody, hpos, same, hpatterns', hguard', hbody', hpos']

theorem ofField?_of_same {entries : List (Data × Data)} {d : Data} {clauses : List Clause}
    (hfield : Data.field? entries "clauses" = some d)
    (h : (Data.ofList (clauses.map toData)).same d = true) :
    ∃ clauses', ofField? entries = .ok clauses' ∧ sameEach same clauses clauses' = true := by
  obtain ⟨place, items, rfl, hitems⟩ := Data.exists_list_of_same h
  rw [ofField?, fieldBy, hfield]
  exact mapM_of_sameItems_self ofData?_of_same hitems

end Clause

namespace Form

/-- What says the same as the fields of an attribute is an attribute. -/
theorem exists_attribute_of_same {name pos d : Data} {fields : List (String × Data)}
    (h : (attributeData name pos fields).same d = true)
    (hnodup : ("type" :: "name" :: "pos" :: fields.map Prod.fst).Nodup) :
    ∃ place entries name' pos', d = .map place entries ∧ Data.Carries entries fields
      ∧ Data.field? entries "type" = some (.str "attribute")
      ∧ Data.field? entries "name" = some name' ∧ name.same name' = true
      ∧ Data.field? entries "pos" = some pos' ∧ pos.same pos' = true := by
  obtain ⟨place, entries, rfl, hfields⟩ := Data.exists_map_of_same h hnodup
  obtain ⟨type, htype, htype'⟩ := hfields "type" "attribute" (by simp)
  obtain ⟨name', hname, hname'⟩ := hfields "name" name (by simp)
  obtain ⟨pos', hpos, hpos'⟩ := hfields "pos" pos (by simp)
  obtain rfl := Data.same_str_left.mp htype'
  have hrest : Data.Carries entries fields := fun key value hmem =>
    hfields key value (.tail _ (.tail _ (.tail _ hmem)))
  exact ⟨place, entries, name', pos', rfl, hrest, htype, hname, hname', hpos, hpos'⟩

/-- What says the same as the fields of a function or a rule has a name and clauses that do. -/
theorem exists_clauses_of_same {type : String} {name pos d : Data} {clauses : List Clause}
    (h : (clausesData type name clauses pos).same d = true) :
    ∃ place entries name' clauses' pos', d = .map place entries
      ∧ Data.field? entries "type" = some (.str type)
      ∧ Data.field? entries "name" = some name' ∧ name.same name' = true
      ∧ Clause.ofField? entries = .ok clauses' ∧ sameEach Clause.same clauses clauses' = true
      ∧ Data.field? entries "pos" = some pos' ∧ pos.same pos' = true := by
  obtain ⟨place, entries, rfl, hfields⟩ := Data.exists_map_of_same h (by simp)
  obtain ⟨type', htype, htype'⟩ := hfields "type" (.str type) (by simp)
  obtain ⟨name', hname, hname'⟩ := hfields "name" name (by simp)
  obtain ⟨d, hd, hd'⟩ := hfields "clauses" (.ofList (clauses.map Clause.toData)) (by simp)
  obtain ⟨pos', hpos, hpos'⟩ := hfields "pos" pos (by simp)
  obtain rfl := Data.same_str_left.mp htype'
  obtain ⟨clauses', hclauses, hclauses'⟩ := Clause.ofField?_of_same hd hd'
  exact ⟨place, entries, name', clauses', pos', rfl, htype, hname, hname', hclauses, hclauses',
    hpos, hpos'⟩

/-- Parameters that say the same are read the same, absent ones as absent. -/
theorem ofModule?_of_same {entries : List (Data × Data)} {name d : Data}
    {parameters : Option (List Data)} (pos : Data)
    (hname : Data.field? entries "module" = some name)
    (hfield : Data.field? entries "parameters" = some d)
    (h : ((parameters.map Data.ofList).getD .null).same d = true) :
    ∃ parameters', ofModule? entries pos = .ok (.module ⟨name, parameters', pos⟩)
      ∧ ModuleDecl.sameParameters parameters parameters' = true := by
  cases parameters with
  | none =>
    obtain rfl := Data.eq_null_of_same h
    exact ⟨none, by simp [ofModule?, required, hname, hfield], rfl⟩
  | some items =>
    obtain ⟨place, items', rfl, hitems⟩ := Data.exists_list_of_same h
    refine ⟨some items', by simp [ofModule?, required, hname, hfield, Data.items?], ?_⟩
    rwa [Data.sameItems_eq_sameEach] at hitems

theorem ofExport?_of_same {entries : List (Data × Data)} {d : Data} {functions : List Signature}
    (pos : Data) (hfield : Data.field? entries "functions" = some d)
    (h : (Data.ofList (functions.map Signature.toData)).same d = true) :
    ∃ functions', ofExport? entries pos = .ok (.exports ⟨functions', pos⟩)
      ∧ sameEach Signature.same functions functions' = true := by
  obtain ⟨place, items, rfl, hitems⟩ := Data.exists_list_of_same h
  obtain ⟨functions', hread, hsame⟩ := mapM_of_sameItems_self Signature.couple?_of_same hitems
  refine ⟨functions', ?_, hsame⟩
  rw [ofExport?, hfield]
  exact bind_eq_ok_iff.mpr ⟨items, rfl, bind_eq_ok_iff.mpr ⟨functions', hread, rfl⟩⟩

/-- What says the same as the document of a form is read as the same form as the document is. -/
theorem ofData?_of_same (own : Text) (f : Form) (d : Data) (h : f.toData.same d = true) :
    ∃ g, ofData? own d = .ok g ∧ (f.reread own).same g = true := by
  cases f with
  | attr a =>
    obtain ⟨place, entries, name, pos, rfl, hfields, htype, hname, hname', hpos, hpos'⟩ :=
      exists_attribute_of_same h (by simp)
    obtain ⟨value, hvalue, hvalue'⟩ := hfields "value" a.value (by simp)
    have hgeneric : checkAttributeName name = .ok () :=
      checkAttributeName_of_same hname' ▸ a.generic
    refine ⟨.attr ⟨name, value, pos, hgeneric⟩, ?_, ?_⟩
    · rw [ofData?_generic ⟨name, value, pos, hgeneric⟩ htype hname, hvalue, hpos]
      exact ofAttribute?_self ⟨name, value, pos, hgeneric⟩
    · simp [reread, Form.same, Attribute.same, hname', hvalue', hpos']
  | module m =>
    obtain ⟨place, entries, name, pos, rfl, hfields, htype, hname, hname', hpos, hpos'⟩ :=
      exists_attribute_of_same h (by simp)
    obtain rfl := Data.same_str_left.mp hname'
    obtain ⟨moduleName, hmodule, hmodule'⟩ := hfields "module" m.name (by simp)
    obtain ⟨d, hd, hd'⟩ :=
      hfields "parameters" ((m.parameters.map Data.ofList).getD .null) (by simp)
    obtain ⟨parameters, hread, hparameters'⟩ := ofModule?_of_same pos hmodule hd hd'
    simp [ofData?, readBy, required, htype, hname, hpos, hread, reread,
      Form.same, ModuleDecl.same, hmodule', hparameters', hpos']
  | file m =>
    obtain ⟨place, entries, name, pos, rfl, hfields, htype, hname, hname', hpos, hpos'⟩ :=
      exists_attribute_of_same h (by simp)
    obtain rfl := Data.same_str_left.mp hname'
    obtain ⟨file, hfile, hfile'⟩ := hfields "file" m.file (by simp)
    obtain ⟨line, hline, hline'⟩ := hfields "line" m.line (by simp)
    simp [ofData?, readBy, required, htype, hname, hfile, hline, hpos, reread, Form.same,
      FileMark.same, hfile', hline', hpos']
  | exports e =>
    obtain ⟨place, entries, name, pos, rfl, hfields, htype, hname, hname', hpos, hpos'⟩ :=
      exists_attribute_of_same h (by simp)
    obtain rfl := Data.same_str_left.mp hname'
    obtain ⟨d, hfunctions, hd⟩ :=
      hfields "functions" (.ofList (e.functions.map Signature.toData)) (by simp)
    obtain ⟨functions, hread, hsame⟩ := ofExport?_of_same pos hfunctions hd
    simp [ofData?, readBy, required, htype, hname, hpos, hread, reread, Form.same, Export.same, hsame,
      hpos']
  | function f =>
    obtain ⟨place, entries, name, clauses, pos, rfl, htype, hname, hname', hclauses, hclauses',
      hpos, hpos'⟩ := exists_clauses_of_same h
    simp [ofData?, readBy, Clause.fieldBy_plain, required, htype, hname, hclauses, hpos, reread,
      Form.same, Function.same, hname', hclauses', hpos']
  | rule r =>
    obtain ⟨place, entries, name, clauses, pos, rfl, htype, hname, hname', hclauses, hclauses',
      hpos, hpos'⟩ := exists_clauses_of_same h
    simp [ofData?, readBy, Clause.fieldBy_plain, required, htype, hname, hclauses, hpos, reread,
      Form.same, Rule.same, hname', hclauses', hpos']
  | marker m =>
    obtain ⟨place, entries, rfl, hfields⟩ := Data.exists_map_of_same h (by simp)
    obtain ⟨type, htype, htype'⟩ := hfields "type" "error_marker" (by simp)
    obtain rfl := Data.same_str_left.mp htype'
    obtain ⟨origin, horigin, horigin'⟩ := hfields "origin" m.origin (by simp)
    obtain ⟨value, hvalue, hvalue'⟩ := hfields "descriptor" m.descriptor.toData (by simp)
    obtain ⟨pos, hpos, hpos'⟩ := hfields "pos" m.pos (by simp)
    simp [ofData?, readBy, required, htype, horigin, hvalue, hpos, reread, Form.same, Marker.same,
      horigin', Descriptor.ofData_of_same horigin' hvalue', hpos']
  | eof p =>
    obtain ⟨place, entries, rfl, hfields⟩ := Data.exists_map_of_same h (by simp)
    obtain ⟨type, htype, htype'⟩ := hfields "type" "eof" (by simp)
    obtain ⟨pos, hpos, hpos'⟩ := hfields "pos" p (by simp)
    obtain rfl := Data.same_str_left.mp htype'
    simp [ofData?, readBy, htype, hpos, reread, Form.same, hpos']

/-- What says the same as the document of some forms is read as the same forms as the document. -/
theorem listOfData?_of_same (own : Text) {forms : List Form} {d : Data}
    (h : (listToData forms).same d = true) :
    ∃ back, listOfData? own d = .ok back
      ∧ sameEach Form.same (forms.map (reread own)) back = true := by
  obtain ⟨place, items, rfl, hitems⟩ := Data.exists_list_of_same h
  exact mapM_of_sameItems (reread own) (ofData?_of_same own) forms items hitems

end Form

end RuleLowering
