import RuleLowering.Proofs.Alike
import RuleLowering.Proofs.Faithful
import RuleLowering.Proofs.Reshaped

/-!
# Related documents are read alike

The readers look only at what stands under a name, at the items of a list and at values that are no
containers. So from related documents forms of one shape are read, over related data, or reading
fails on both with faults of one kind. The exception are fields that the reader walks whatever
stands there: of a mapping it takes the keys, in their order.
-/
namespace RuleLowering

open Data (Reshapes)

variable {R : Data → Data → Prop}

namespace Expr

open Expr.Field

/-- The value is read alike with every related one, in each way. -/
def ReadAlike (R : Data → Data → Prop) (d : Data) : Prop :=
  ∀ d', R d d' → Alike (Expr.Reshaped R) (ofData? d) (ofData? d')
    ∧ Alike (List.Forall₂ (Expr.Reshaped R)) (ofList? d) (ofList? d')

section Fields

variable {entries entries' : List (Data × Data)} (hfields : FieldsRelated R entries entries')
  (hread : ∀ name d, Data.field? entries name = some d → ReadAlike R d)
include hfields

theorem alike_required (name : String) :
    Alike R (required (fieldsOf entries) name) (required (fieldsOf entries') name) := by
  rw [required, required, find?_fieldsOf, find?_fieldsOf]
  rcases rel_cases (hfields name) with ⟨h, h'⟩ | ⟨d, d', h, h', hd⟩ <;> rw [h, h']
  · exact .error rfl
  · exact .ok hd

include hread

theorem alike_requiredExpr (name : String) : Alike (Expr.Reshaped R)
    (requiredExpr (fieldsOf entries) name) (requiredExpr (fieldsOf entries') name) := by
  rw [requiredExpr, requiredExpr, find?_fieldsOf, find?_fieldsOf]
  rcases rel_cases (hfields name) with ⟨h, h'⟩ | ⟨d, d', h, h', hd⟩ <;> rw [h, h']
  · exact .error rfl
  · exact (hread name d h d' hd).1

theorem alike_exprsOrNone (name : String) : Alike (List.Forall₂ (Expr.Reshaped R))
    (exprsOrNone (fieldsOf entries) name) (exprsOrNone (fieldsOf entries') name) := by
  rw [exprsOrNone, exprsOrNone, find?_fieldsOf, find?_fieldsOf]
  rcases rel_cases (hfields name) with ⟨h, h'⟩ | ⟨d, d', h, h', hd⟩ <;> rw [h, h']
  · exact .ok .nil
  · exact (hread name d h d' hd).2

/-- Two expressions that have to be there. -/
theorem alike_pair {make make' : Expr → Expr → Expr} (first second : String)
    (hmake : ∀ a a' b b', Expr.Reshaped R a a' → Expr.Reshaped R b b' →
      Expr.Reshaped R (make a b) (make' a' b')) :
    Alike (Expr.Reshaped R)
      (do
        return make (← requiredExpr (fieldsOf entries) first)
          (← requiredExpr (fieldsOf entries) second))
      (do
        return make' (← requiredExpr (fieldsOf entries') first)
          (← requiredExpr (fieldsOf entries') second)) :=
  (alike_requiredExpr hfields hread first).bind fun a a' ha =>
    (alike_requiredExpr hfields hread second).map fun b b' hb => hmake a a' b b' ha hb

/-- From related fields, whose values are read alike, expressions are read alike. -/
theorem alike_ofFields? (hR : Reshapes R) :
    Alike (Expr.Reshaped R) (ofFields? (fieldsOf entries)) (ofFields? (fieldsOf entries')) := by
  have hpos := reshaped_getD hfields "pos" hR.zero
  have htype := reshaped_getD hfields "type" hR.null
  have hterm := reshaped_getD hfields "term" hR.null
  simp only [← valueOr_fieldsOf] at hpos htype hterm
  rw [ofFields?, ofFields?]
  generalize valueOr (fieldsOf entries) "pos" 0 = pos at hpos ⊢
  generalize valueOr (fieldsOf entries') "pos" 0 = pos' at hpos ⊢
  generalize valueOr (fieldsOf entries) "type" .null = type at htype ⊢
  generalize valueOr (fieldsOf entries') "type" .null = type' at htype ⊢
  have htext := hR.eq_str_iff htype
  split
  · obtain rfl := (htext _).mp rfl
    exact (alike_required hfields "name").map fun _ _ h => .var h hpos
  · obtain rfl := (htext _).mp rfl
    exact (alike_required hfields "name").map fun _ _ h => .atom h hpos
  · obtain rfl := (htext _).mp rfl
    exact (alike_required hfields "value").map fun _ _ h => .literal h hpos
  · obtain rfl := (htext _).mp rfl
    exact (alike_exprsOrNone hfields hread "elements").map fun _ _ h => .tuple h hpos
  · obtain rfl := (htext _).mp rfl
    exact (alike_exprsOrNone hfields hread "elements").map fun _ _ h => .list h hpos
  · obtain rfl := (htext _).mp rfl
    exact (alike_required hfields "operator").bind fun _ _ hop =>
      alike_pair hfields hread "left" "right" fun _ _ _ _ hl hr => .operation hop hl hr hpos
  · obtain rfl := (htext _).mp rfl
    exact alike_pair hfields hread "module" "function" fun _ _ _ _ hm hf => .remote hm hf hpos
  · obtain rfl := (htext _).mp rfl
    exact (alike_requiredExpr hfields hread "function").bind fun _ _ hf =>
      (alike_exprsOrNone hfields hread "arguments").map fun _ _ hes => .call hf hes hpos
  · obtain rfl := (htext _).mp rfl
    exact alike_pair hfields hread "pattern" "body" fun _ _ _ _ hp hb => .binding hp hb hpos
  · obtain rfl := (htext _).mp rfl
    exact alike_pair hfields hread "pattern" "body" fun _ _ _ _ hp hb => .generator hp hb hpos
  · obtain rfl := (htext _).mp rfl
    exact alike_pair hfields hread "pattern" "body" fun _ _ _ _ hp hb => .binaryGenerator hp hb hpos
  · obtain rfl := (htext _).mp rfl
    exact (alike_requiredExpr hfields hread "body").map fun _ _ h => .quote h hpos
  · obtain rfl := (htext _).mp rfl
    exact .ok (.foreign hterm hpos)
  · have hwritable : [type].all Data.isWritable = [type'].all Data.isWritable := by
      simp [hR.isWritable_eq _ _ htype]
    split
    all_goals first
      | exact absurd ((htext _).mpr rfl) (by assumption)
      | exact .error (Fault.kind_showing (by rfl) hwritable)

end Fields

mutual

/-- Related values are read alike as expressions. -/
theorem alike_ofData? (hR : Reshapes R) : ∀ d d' : Data, R d d' →
    Alike (Expr.Reshaped R) (ofData? d) (ofData? d')
  | .map _ entries, d', h => by
    have hread := readAlike_entries hR entries
    cases hR.unfolds _ _ h with
    | atomic hd => cases hd
    | map _ hfields => exact alike_ofFields? hfields hread hR
  | .null, d', h | .bool _, d', h | .int _, d', h | .float _, d', h | .str _, d', h
  | .special _ _, d', h | .group _ _ _, d', h => by
    cases hR.unfolds _ _ h
    exact .refl fun e he => by cases he <;> exact .absent
  | .list _ _, d', h => by
    cases hR.unfolds _ _ h <;> exact .error rfl

theorem alike_ofList? (hR : Reshapes R) : ∀ d d' : Data, R d d' →
    Alike (List.Forall₂ (Expr.Reshaped R)) (ofList? d) (ofList? d')
  | .list _ items, d', h => by
    have hread := alike_ofItems? hR items
    cases hR.unfolds _ _ h with
    | atomic hd => cases hd
    | list hitems => exact hread _ hitems
  | .null, d', h | .bool _, d', h | .int _, d', h | .float _, d', h | .str _, d', h
  | .special _ _, d', h | .map _ _, d', h | .group _ _ _, d', h => by
    cases hR.unfolds _ _ h <;> exact .error rfl

theorem alike_ofItems? (hR : Reshapes R) : ∀ items items' : List Data, List.Forall₂ R items items' →
    Alike (List.Forall₂ (Expr.Reshaped R)) (ofItems? items) (ofItems? items')
  | [], _, h => by
    cases h
    exact .ok .nil
  | d :: items, _, h => by
    cases h with
    | cons hd hrest =>
      exact (alike_ofData? hR d _ hd).bind fun _ _ he =>
        (alike_ofItems? hR items _ hrest).map fun _ _ hes => .cons he hes

theorem readAlike_entries (hR : Reshapes R) : ∀ (entries : List (Data × Data)) (name : String)
    (d : Data), Data.field? entries name = some d → ReadAlike R d
  | (key, value) :: rest, name, d, h => by
    have hvalue := fun d' hd' =>
      And.intro (alike_ofData? hR value d' hd') (alike_ofList? hR value d' hd')
    have hrest := readAlike_entries hR rest name d
    rw [Data.field?] at h
    split at h
    · obtain rfl := Option.some.inj h
      exact hvalue
    · exact hrest h

end

end Expr

namespace Clause

variable {entries entries' : List (Data × Data)}

theorem alike_exprsOrNone (hR : Reshapes R) (hfields : FieldsRelated R entries entries')
    (name : String) : Alike (List.Forall₂ (Expr.Reshaped R)) (exprsOrNone entries name)
      (exprsOrNone entries' name) := by
  rw [exprsOrNone, exprsOrNone, exprsBy, exprsBy]
  rcases rel_cases (hfields name) with ⟨h, h'⟩ | ⟨d, d', h, h', hd⟩ <;> rw [h, h']
  · exact .ok .nil
  · exact Expr.alike_ofList? hR d d' hd

/-- Related values are read alike as clauses. -/
theorem alike_ofData? (hR : Reshapes R) {d d' : Data} (h : R d d') :
    Alike (Clause.Reshaped R) (ofData? d) (ofData? d') := by
  cases hR.unfolds d d' h with
  | map _ hfields =>
    have hguard := reshaped_getD hfields "guard" hR.null
    have hpos := reshaped_getD hfields "pos" hR.zero
    exact (alike_exprsOrNone hR hfields "patterns").bind fun _ _ hpatterns =>
      (Expr.alike_ofData? hR _ _ hguard).bind fun _ _ hguard =>
      (alike_exprsOrNone hR hfields "body").map fun _ _ hbody => ⟨hpatterns, hguard, hbody, hpos⟩
  | atomic hd => cases d <;> first | exact .error rfl | cases hd
  | list _ => exact .error rfl

theorem alike_ofField? (hR : Reshapes R) (hfields : FieldsRelated R entries entries') :
    Alike (List.Forall₂ (Clause.Reshaped R)) (ofField? entries) (ofField? entries') := by
  rw [ofField?, ofField?, fieldBy, fieldBy]
  rcases rel_cases (hfields "clauses") with ⟨h, h'⟩ | ⟨d, d', h, h', hd⟩ <;> rw [h, h']
  · exact .ok .nil
  · cases hR.unfolds d d' hd with
    | list hitems => exact Alike.mapM hitems fun _ _ => alike_ofData? hR
    | atomic hatomic => cases d <;> first | exact .error rfl | cases hatomic
    | map _ _ => exact .error rfl

end Clause

section Walks

variable (hR : Reshapes R) {d d' : Data}
include hR

/-- Of related values that are no mappings a walk meets related items. -/
theorem alike_items? (h : R d d') (hmap : d.shape ≠ .map) :
    Alike (List.Forall₂ R) d.items? d'.items? := by
  cases hR.unfolds d d' h with
  | list hitems => exact .ok hitems
  | map _ _ => exact absurd rfl hmap
  | atomic hd =>
    refine .refl fun items hitems => ?_
    cases d with
    | str t =>
      obtain rfl := Except.ok.inj hitems
      refine List.forall₂_same.mpr fun x hx => ?_
      obtain ⟨g, -, rfl⟩ := List.mem_map.mp hx
      exact hR.text _
    | list _ _ | map _ _ | special _ _ | group _ _ _ => cases hd
    | _ => cases hitems

/-- The items of a value that is related to itself are, too. -/
theorem related_items {items : List Data} (h : R d d) (hitems : d.items? = .ok items) :
    List.Forall₂ R items items := by
  cases hR.unfolds d d h with
  | list hrelated =>
    obtain rfl := Except.ok.inj hitems
    exact hrelated
  | map hkeys _ =>
    obtain rfl := Except.ok.inj hitems
    refine List.forall₂_same.mpr fun x hx => ?_
    obtain ⟨e, he, rfl⟩ := List.mem_map.mp hx
    obtain ⟨t, ht⟩ := hkeys e he
    exact ht ▸ hR.text t
  | atomic hd =>
    have hmap : d.shape ≠ .map := by
      intro hshape
      cases d with
      | map _ _ | group _ _ _ => cases hd
      | _ => cases hshape
    obtain ⟨_, hitems', hrelated⟩ := (alike_items? hR h hmap).exists_ok hitems
    obtain rfl := Except.ok.inj (hitems.symm.trans hitems')
    exact hrelated

/-- A signature is read alike from related values, if they are equal or no mappings. -/
theorem alike_signature (h : R d d') (hwalk : d = d' ∨ d.shape ≠ .map) :
    Alike (Signature.Reshaped R) (do let c ← d.couple?; return ⟨c.1, c.2⟩)
      (do let c ← d'.couple?; return ⟨c.1, c.2⟩) := by
  have hitems : Alike (List.Forall₂ R) d.items? d'.items? := by
    rcases hwalk with rfl | hmap
    · exact .refl fun items hitems => related_items hR h hitems
    · exact alike_items? hR h hmap
  have hcouple : Alike (fun c c' : Data × Data => R c.1 c'.1 ∧ R c.2 c'.2) d.couple? d'.couple? := by
    have hkind : ∀ items : List Data,
        (if items.length < 2 then Fault.tooFewItems items.length else .tooManyItems).kind =
          .invalid := fun _ => by split <;> rfl
    rw [Data.couple?, Data.couple?]
    generalize d.items? = x at hitems ⊢
    generalize d'.items? = x' at hitems ⊢
    cases hitems with
    | error _ => exact .error rfl
    | ok hitems =>
      rcases hitems with _ | ⟨ha, _ | ⟨hb, _ | _⟩⟩
      · exact .error ((hkind _).trans (hkind _).symm)
      · exact .error ((hkind _).trans (hkind _).symm)
      · exact .ok ⟨ha, hb⟩
      · exact .error ((hkind _).trans (hkind _).symm)
  exact hcouple.map fun _ _ hc => ⟨hc.1, hc.2⟩

/-- Parameters are read alike from related values, if these are equal or the reader walks a list. -/
theorem alike_parametersOf (h : R d d') (hwalk : d = d' ∨ Slot.Listed .parameters d) :
    Alike (Option.Rel (List.Forall₂ R)) (parametersOf d) (parametersOf d') := by
  have hitems : Alike (List.Forall₂ R) d.items? d'.items? := by
    rcases hwalk with rfl | rfl | hlist
    · exact .refl fun items hitems => related_items hR h hitems
    · exact alike_items? hR h nofun
    · exact alike_items? hR h (by rw [hlist]; exact nofun)
  have hsome := hitems.map (S := Option.Rel (List.Forall₂ R)) fun _ _ hrelated => .some hrelated
  cases hR.unfolds d d' h with
  | list _ | map _ _ => exact hsome
  | atomic _ =>
    cases d with
    | null => exact .ok .none
    | _ => exact hsome

/-- So are the signatures of an export list. -/
theorem alike_signaturesOf (h : R d d') (hwalk : d = d' ∨ Slot.Listed .signatures d) :
    Alike (List.Forall₂ (Signature.Reshaped R)) (signaturesOf d) (signaturesOf d') := by
  have hitems : Alike (List.Forall₂ fun x x' => R x x' ∧ (x = x' ∨ x.shape ≠ .map))
      d.items? d'.items? := by
    rcases hwalk with rfl | ⟨hlist, hshapes⟩
    · refine .refl fun items hitems => List.forall₂_same.mpr fun x hx => ⟨?_, .inl rfl⟩
      exact List.forall₂_same.mp (related_items hR h hitems) x hx
    · obtain ⟨place, items, rfl⟩ := Data.exists_list_of_shape hlist
      cases hR.unfolds _ _ h with
      | atomic hd => cases hd
      | list hrelated =>
        refine .ok ((forall₂_with_mem hrelated).imp fun x x' hx => ⟨hx.2.2, .inr ?_⟩)
        rw [hshapes items rfl x hx.1]
        exact nofun
  exact hitems.bind fun _ _ hitems => Alike.mapM hitems fun _ _ hx => alike_signature hR hx.1 hx.2

end Walks

theorem Violation.ofName?_of_reshaped (hR : Reshapes R) {d d' : Data} (h : R d d') :
    ofName? d = ofName? d' :=
  Option.ext fun _ => by rw [ofName?_eq_some, ofName?_eq_some, hR.eq_str_iff h]

theorem Descriptor.ofData_reshaped (hR : Reshapes R) {own : Text}
    {origin origin' value value' : Data}
    (ho : R origin origin') (hv : R value value') :
    Descriptor.Reshaped R (ofData own origin value) (ofData own origin' value') := by
  rw [ofData, ofData, hR.text?_eq ho, Violation.ofName?_of_reshaped hR hv]
  split
  · split
    · exact .violation _
    · exact .foreign hv
  · exact .foreign hv

namespace Form

/-- Generic attributes are read alike from related names. -/
theorem alike_ofAttribute? (hR : Reshapes R) {name name' value value' pos pos' : Data}
    (hname : R name name') (hvalue : R value value') (hpos : R pos pos') :
    Alike (Form.Reshaped R) (ofAttribute? name value pos) (ofAttribute? name' value' pos') := by
  cases hkind : name.unhashable? with
  | some kind =>
    have hfault : ∀ d : Data, d.unhashable? = some kind →
        checkAttributeName d = .error (.unhashable kind) := by
      intro d hd
      rw [checkAttributeName, Data.hashable, hd]
      rfl
    rw [ofAttribute?_error value pos (hfault name hkind),
      ofAttribute?_error value' pos' (hfault name' (hR.unhashable?_eq hname ▸ hkind))]
    exact .error rfl
  | none =>
    obtain rfl := hR.eq_of_hashable hname hkind
    cases hcheck : checkAttributeName name' with
    | error fault =>
      rw [ofAttribute?_error value pos hcheck, ofAttribute?_error value' pos' hcheck]
      exact .error rfl
    | ok =>
      rw [ofAttribute?_self ⟨name', value, pos, hcheck⟩,
        ofAttribute?_self ⟨name', value', pos', hcheck⟩]
      exact .ok (.attr hname hvalue hpos)

/-- What the reader walks in a field of two mappings is equal, if these are, or a list. -/
theorem walk_getD {slot : Slot} {default : Data} {entries entries' : List (Data × Data)}
    (name : String)
    (hdefault : slot.Listed default)
    (hwalk : entries = entries' ∨ ∀ d, Data.field? entries name = some d → slot.Listed d) :
    (Data.field? entries name).getD default = (Data.field? entries' name).getD default
      ∨ slot.Listed ((Data.field? entries name).getD default) := by
  rcases hwalk with rfl | hlisted
  · exact .inl rfl
  · refine .inr ?_
    cases hfield : Data.field? entries name with
    | none => exact hdefault
    | some d => exact hlisted d hfield

section Map

variable (hR : Reshapes R) {place place' : Place} {entries entries' : List (Data × Data)}
  (hfields : FieldsRelated R entries entries') {pos pos' : Data} (hpos : R pos pos')
include hfields

theorem alike_required (name : String) :
    Alike R (required entries name) (required entries' name) := by
  rw [required, required]
  rcases rel_cases (hfields name) with ⟨h, h'⟩ | ⟨d, d', h, h', hd⟩ <;> rw [h, h']
  · exact .error rfl
  · exact .ok hd

include hR

/-- Functions and rules are read alike. -/
theorem alike_clausesForm {make make' : Data → List Clause → Form}
    (hmake : ∀ name name' clauses clauses', R name name' →
      List.Forall₂ (Clause.Reshaped R) clauses clauses' →
      Form.Reshaped R (make name clauses) (make' name' clauses')) :
    Alike (Form.Reshaped R)
      (do
        let name ← required entries "name"
        return make name (← Clause.ofField? entries))
      (do
        let name ← required entries' "name"
        return make' name (← Clause.ofField? entries')) :=
  (alike_required hfields "name").bind fun _ _ hname =>
    (Clause.alike_ofField? hR hfields).map fun _ _ hclauses => hmake _ _ _ _ hname hclauses

include hpos

theorem alike_ofModule? (hwalk : entries = entries' ∨
      ∀ d, Data.field? entries "parameters" = some d → Slot.Listed .parameters d) :
    Alike (Form.Reshaped R) (ofModule? entries pos) (ofModule? entries' pos') := by
  have hparameters := alike_parametersOf hR (reshaped_getD hfields "parameters" hR.null)
    (walk_getD "parameters" (.inl rfl) hwalk)
  rw [ofModule?_eq, ofModule?_eq]
  exact (alike_required hfields "module").bind fun _ _ hname =>
    hparameters.map fun _ _ hparameters => .module ⟨hname, hparameters, hpos⟩

theorem alike_ofExport? (hwalk : entries = entries' ∨
      ∀ d, Data.field? entries "functions" = some d → Slot.Listed .signatures d) :
    Alike (Form.Reshaped R) (ofExport? entries pos) (ofExport? entries' pos') := by
  have hnone : Slot.Listed .signatures (.ofList []) := by
    refine ⟨rfl, fun items hitems => ?_⟩
    obtain rfl := Except.ok.inj hitems
    exact List.forall_mem_nil _
  have hfunctions := alike_signaturesOf hR (reshaped_getD hfields "functions" hR.empty)
    (walk_getD "functions" hnone hwalk)
  rw [ofExport?_eq, ofExport?_eq]
  exact hfunctions.map fun _ _ hfunctions => .exports hfunctions hpos

/-- Attributes are read alike, if what the reader walks in them is equal or a list. -/
theorem alike_attribute (htype : (Data.field? entries "type").getD .null = .str "attribute")
    (hwalk : entries = entries' ∨ WalksLists (.map place entries)) :
    Alike (Form.Reshaped R)
      (do
        match ← required entries "name" with
        | .str "module" => ofModule? entries pos
        | .str "file" => do
          let file ← required entries "file"
          return .file { file, line := (Data.field? entries "line").getD 1, pos }
        | .str "export" => ofExport? entries pos
        | name => ofAttribute? name ((Data.field? entries "value").getD .null) pos)
      (do
        match ← required entries' "name" with
        | .str "module" => ofModule? entries' pos'
        | .str "file" => do
          let file ← required entries' "file"
          return .file { file, line := (Data.field? entries' "line").getD 1, pos := pos' }
        | .str "export" => ofExport? entries' pos'
        | name => ofAttribute? name ((Data.field? entries' "value").getD .null) pos') := by
  have htype' : Data.field? entries "type" = some (.str "attribute") := by
    cases hfield : Data.field? entries "type" with
    | none => rw [hfield] at htype; cases htype
    | some d => rw [hfield] at htype; exact congrArg some htype
  have hthere : ∀ (es : List (Data × Data)) (d : Data), Data.field? es "name" = some d →
      required es "name" = .ok d := fun _ _ h => by rw [required, h]
  have hmissing : ∀ es : List (Data × Data), Data.field? es "name" = none →
      required es "name" = .error (.missingField "name") := fun _ h => by rw [required, h]
  rcases rel_cases (hfields "name") with ⟨h, h'⟩ | ⟨name, name', h, h', hname⟩
  · rw [hmissing _ h, hmissing _ h']
    exact .error rfl
  rw [hthere _ _ h, hthere _ _ h', ok_bind, ok_bind]
  have htext := hR.eq_str_iff hname
  split
  · obtain rfl := (htext _).mp rfl
    exact alike_ofModule? hR hfields hpos (hwalk.imp_right (walksLists_module_iff htype' h).mp)
  · obtain rfl := (htext _).mp rfl
    exact (alike_required hfields "file").map fun _ _ hfile =>
      .file ⟨hfile, reshaped_getD hfields "line" hR.one, hpos⟩
  · obtain rfl := (htext _).mp rfl
    exact alike_ofExport? hR hfields hpos (hwalk.imp_right (walksLists_export_iff htype' h).mp)
  · split
    all_goals first
      | exact absurd ((htext _).mpr rfl) (by assumption)
      | exact alike_ofAttribute? hR hname (reshaped_getD hfields "value" hR.null) hpos

end Map

/-- Related values are read alike as forms, if what the reader walks in them is equal or a list. -/
theorem alike_ofData? (hR : Reshapes R) (own : Text) {d d' : Data} (h : R d d')
    (hwalk : d = d' ∨ WalksLists d) : Alike (Form.Reshaped R) (ofData? own d) (ofData? own d') := by
  cases hR.unfolds d d' h with
  | atomic hd => cases d <;> first | exact .error rfl | cases hd
  | list _ => exact .error rfl
  | @map place place' entries entries' _ hfields =>
    have hpos := reshaped_getD hfields "pos" hR.zero
    have htype := reshaped_getD hfields "type" hR.null
    have htext := hR.eq_str_iff htype
    rw [ofData?, ofData?, readBy, readBy]
    dsimp only
    generalize hkind : (Data.field? entries "type").getD .null = type at htype htext ⊢
    generalize (Data.field? entries' "type").getD .null = type' at htype htext ⊢
    split
    · obtain rfl := (htext _).mp rfl
      exact alike_attribute hR hfields hpos hkind (hwalk.imp_left fun h => (Data.map.inj h).2)
    · obtain rfl := (htext _).mp rfl
      exact alike_clausesForm hR hfields fun _ _ _ _ hname hclauses =>
        .function hname hclauses hpos
    · obtain rfl := (htext _).mp rfl
      exact alike_clausesForm hR hfields fun _ _ _ _ hname hclauses =>
        .rule ⟨hname, hclauses, hpos⟩
    · obtain rfl := (htext _).mp rfl
      exact (alike_required hfields "origin").map fun _ _ horigin => .marker ⟨horigin,
        Descriptor.ofData_reshaped hR horigin (reshaped_getD hfields "descriptor" hR.null), hpos⟩
    · obtain rfl := (htext _).mp rfl
      exact .ok (.eof hpos)
    · have hwritable : [type].all Data.isWritable = [type'].all Data.isWritable := by
        simp [hR.isWritable_eq _ _ htype]
      split
      all_goals first
        | exact absurd ((htext _).mpr rfl) (by assumption)
        | exact .error (Fault.kind_showing (by rfl) hwritable)

/-- Related values are read alike as lists of forms, if what the reader walks in the forms is equal
or a list. -/
theorem alike_listOfData? (hR : Reshapes R) (own : Text) {d d' : Data} (h : R d d')
    (hwalk : d = d' ∨ ∀ place items, d = .list place items → ∀ item ∈ items, WalksLists item) :
    Alike (List.Forall₂ (Form.Reshaped R)) (listOfData? own d) (listOfData? own d') := by
  cases hR.unfolds d d' h with
  | atomic hd =>
    cases d with
    | null => exact .ok .nil
    | list _ _ | map _ _ | special _ _ | group _ _ _ => cases hd
    | _ => exact .error rfl
  | map _ _ => exact .error rfl
  | @list place place' items items' hitems =>
    have hpairs : List.Forall₂ (fun x x' => R x x' ∧ (x = x' ∨ WalksLists x)) items items' := by
      rcases hwalk with heq | hlists
      · obtain rfl := (Data.list.inj heq).2
        exact List.forall₂_same.mpr fun x hx => ⟨List.forall₂_same.mp hitems x hx, .inl rfl⟩
      · exact (forall₂_with_mem hitems).imp fun x x' hx => ⟨hx.2.2, .inr (hlists _ _ rfl x hx.1)⟩
    exact Alike.mapM hpairs fun _ _ hx => alike_ofData? hR own hx.1 hx.2

end Form

end RuleLowering
