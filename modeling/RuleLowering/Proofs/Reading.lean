import RuleLowering.Proofs.Grammar
import RuleLowering.Proofs.Success

/-!
# What the readers accept

Each reader of documents decides the grammar of its slot: it gives a result on the documents that
fit, and on all others it fails on a missing field, a value of the wrong kind or one that will not
do. The document of the result keeps the one that was read.
-/
namespace RuleLowering

/-- A fault of a document that is not of the grammar: a field is missing, or a value is of the wrong
kind or will not do. -/
def Fault.IsShape (fault : Fault) : Prop :=
  fault.kind = .missingKey ∨ fault.kind = .mismatch ∨ fault.kind = .invalid

/-- A reader that gives a fitting result under a condition, and a fault of the shape without it. -/
def Reads {α : Type} (x : Except Fault α) (P : Prop) (Fit : α → Prop) : Prop :=
  Decides x P Fault.IsShape Fit

namespace Reads

variable {α β : Type} {x : Except Fault α} {entries : List (Data × Data)} {c : Column}
  {cs : List Column} {Fit : α → Prop} {Fit' : β → Prop}

/-- A reader of one column after the other. -/
theorem column {next : α → Except Fault β} (h : Reads x (c.Holds entries) Fit)
    (hnext : ∀ a, Fit a → Reads (next a) (∀ c ∈ cs, Column.Holds entries c) Fit') :
    Reads (x >>= next) (∀ c' ∈ c :: cs, Column.Holds entries c') Fit' :=
  (h.bind hnext).mono List.forall_mem_cons.symm fun _ h => h

/-- No column is left to be read. -/
theorem done {a : α} (h : Fit a) : Reads (.ok a) (∀ c ∈ [], Column.Holds entries c) Fit :=
  .of_ok rfl nofun h

/-- A column that holds anyway need not be read. -/
theorem held (hc : c.Holds entries) (h : Reads x (∀ c ∈ cs, Column.Holds entries c) Fit) :
    Reads x (∀ c' ∈ c :: cs, Column.Holds entries c') Fit :=
  h.mono (List.forall_mem_cons.trans (and_iff_right hc)).symm fun _ h => h

theorem refused {fault : Fault} {P : Prop} (hP : ¬ P) (hfault : fault.IsShape) :
    Reads (.error fault) P Fit :=
  .of_error rfl hP hfault

end Reads

theorem Fault.IsShape.showing {fault : Fault} (h : fault.IsShape) (values : List Data) :
    (fault.showing values).IsShape := by
  unfold Fault.showing
  split
  · exact h
  · exact .inr (.inr rfl)

section Columns

open Column (must may)

variable {α : Type} {R : Slot → Data → Data → Prop} {entries : List (Data × Data)} {name : String}
  {slot : Slot} {x : Except Fault α} {write : α → Data}

/-- A field that may be missing is read if it gives no fault then, and is read if it is there. -/
theorem reads_may (hnone : Data.field? entries name = none → ∃ a, x = .ok a)
    (hsome : ∀ d, Data.field? entries name = some d →
      Reads x (Fits slot d) fun a => R slot d (write a)) :
    Reads x ((may name slot).Holds entries) fun a =>
      (may name slot).AnsweredBy R entries (write a) := by
  cases h : Data.field? entries name with
  | none =>
    obtain ⟨a, ha⟩ := hnone h
    exact .of_ok ha (by simp [Column.Holds, may, h]) (by simp [Column.AnsweredBy, may, h])
  | some d =>
    refine (hsome d h).mono (by simp [Column.Holds, may, h]) fun a ha d' hd' => ?_
    obtain rfl : d = d' := Option.some.inj (h.symm.trans hd')
    exact ha

/-- A field that may be missing is read where a default stands in for it. -/
theorem reads_getD {read : Data → Except Fault α} {default : Data}
    (hdefault : ∃ a, read default = .ok a)
    (hread : ∀ d, Reads (read d) (Fits slot d) fun a => R slot d (write a)) :
    Reads (read ((Data.field? entries name).getD default)) ((may name slot).Holds entries) fun a =>
      (may name slot).AnsweredBy R entries (write a) := by
  refine reads_may (fun h => ?_) fun d h => ?_
  · rw [h]
    exact hdefault
  · rw [h]
    exact hread d

/-- A field that has to be there is read if it gives a fault of the shape when it is missing, and is
read if it is there. -/
theorem reads_must (hnone : Data.field? entries name = none → x = .error (.missingField name))
    (hsome : ∀ d, Data.field? entries name = some d →
      Reads x (Fits slot d) fun a => R slot d (write a)) :
    Reads x ((must name slot).Holds entries) fun a =>
      (must name slot).AnsweredBy R entries (write a) := by
  cases h : Data.field? entries name with
  | none =>
    have hmissing : ¬ (must name slot).Holds entries :=
      fun hholds => by simpa [must, h] using hholds.1 rfl
    exact .of_error (hnone h) hmissing (.inl rfl)
  | some d =>
    refine (hsome d h).mono (by simp [Column.Holds, must, h]) fun a ha d' hd' => ?_
    obtain rfl : d = d' := Option.some.inj (h.symm.trans hd')
    exact ha

/-- A value that may be missing answers its column if it is there. -/
theorem answeredBy_getD (hR : ∀ d, R .data d d) (entries : List (Data × Data)) (name : String)
    (default : Data) :
    (may name .data).AnsweredBy R entries ((Data.field? entries name).getD default) := by
  intro d (hd : Data.field? entries name = some d)
  rw [hd]
  exact hR d

end Columns

/-- A mapping of the given type, position and further columns. -/
structure IsNode (type : String) (pos : Data) (columns : List Column) (d : Data)
    (entries : List (Data × Data)) : Prop where
  eq_map : d = .map .fresh entries
  type : Data.field? entries "type" = some (.str type)
  pos : Data.field? entries "pos" = some pos
  keys : (entries.map Prod.fst).Perm (Column.keys (Column.typed columns))

section Typed

variable {α : Type} {R : Slot → Data → Data → Prop} {slot : Slot} {place : Place}
  {entries : List (Data × Data)} {type : String} {columns : List Column} {toData : α → Data}

/-- A reader of some columns, whose results are of one type and of the position that was read. -/
def ReadsColumns (R : Slot → Data → Data → Prop) (entries : List (Data × Data)) (type : String)
    (columns : List Column) (toData : α → Data) (x : Except Fault α) : Prop :=
  Reads x (∀ c ∈ columns, Column.Holds entries c) fun a => ∃ entries',
    IsNode type ((Data.field? entries "pos").getD 0) columns (toData a) entries'
      ∧ ∀ c ∈ columns, c.Meets R entries entries'

/-- A mapping that has a type holds its columns if it holds those of its type. -/
theorem forall_typed_holds (htype : (Data.field? entries "type").getD .null = .str type) :
    (∀ c ∈ Column.typed columns, Column.Holds entries c) ↔
      ∀ c ∈ columns, Column.Holds entries c := by
  have hthere : (Data.field? entries "type").isSome := by
    cases h : Data.field? entries "type" with
    | none =>
      rw [h] at htype
      cases htype
    | some d => rfl
  simp [Column.typed, Column.holds_may_data, Column.holds_must_data_iff, hthere]

/-- Where the columns of its type are read, so is a mapping. -/
theorem reads_typed {x : Except Fault α} (hslot : slot.isPlain = false) (hR : ∀ d, R .data d d)
    (htype : (Data.field? entries "type").getD .null = .str type)
    (hcolumns : slot.columns? entries = some (Column.typed columns))
    (h : ReadsColumns R entries type columns toData x) :
    Reads x (Fits slot (.map place entries)) fun a => ∃ entries', toData a = .map .fresh entries'
      ∧ (entries'.map Prod.fst).Perm (Column.keys (Column.typed columns))
      ∧ ∀ c ∈ Column.typed columns, c.Meets R entries entries' := by
  refine h.mono ?_ ?_
  · rw [fits_map_iff hslot, hcolumns]
    simp [forall_typed_holds htype]
  · rintro a ⟨entries', hnode, hmeets⟩
    refine ⟨entries', hnode.eq_map, hnode.keys, ?_⟩
    have htype' : (Column.must "type" .data).AnsweredBy R entries (.str type) :=
      htype ▸ answeredBy_getD hR entries "type" .null
    have hpos' := answeredBy_getD hR entries "pos" 0
    exact Column.meets_cons htype' hnode.type (Column.meets_cons hpos' hnode.pos hmeets)

end Typed

namespace Expr

open Expr.Field
open Column (must may meets_nil meets_cons)

/-- The reader of an expression decides the grammar, and what it gives keeps the document. -/
def ReadsExpr (d : Data) : Prop :=
  Reads (ofData? d) (Fits .expr d) fun e => Keeps .expr d e.toData

def ReadsExprs (d : Data) : Prop :=
  Reads (ofList? d) (Fits .exprs d) fun es => Keeps .exprs d (.ofList (toItems es))

section Fields

variable {entries : List (Data × Data)} {name : String}

/-- A value that has to be there is read as it is. -/
theorem reads_required (entries : List (Data × Data)) (name : String) :
    Reads (required (fieldsOf entries) name) ((must name .data).Holds entries)
      ((must name .data).AnsweredBy Keeps entries) := by
  rw [required, find?_fieldsOf]
  refine reads_must (fun h => by rw [h]; rfl) fun d h => ?_
  rw [h]
  exact .of_ok rfl (.plain trivial) (keeps_self rfl d)

/-- An expression that has to be there is read from its field. -/
theorem reads_requiredExpr (hread : ∀ d, Data.field? entries name = some d → ReadsExpr d) :
    Reads (requiredExpr (fieldsOf entries) name) ((must name .expr).Holds entries)
      fun e => (must name .expr).AnsweredBy Keeps entries e.toData := by
  rw [requiredExpr, find?_fieldsOf]
  refine reads_must (fun h => by rw [h]; rfl) fun d h => ?_
  rw [h]
  exact hread d h

/-- Expressions that may be missing are read from their field. -/
theorem reads_exprsOrNone (hread : ∀ d, Data.field? entries name = some d → ReadsExprs d) :
    Reads (exprsOrNone (fieldsOf entries) name) ((may name .exprs).Holds entries)
      fun es => (may name .exprs).AnsweredBy Keeps entries (.ofList (toItems es)) := by
  rw [exprsOrNone, find?_fieldsOf]
  refine reads_may (fun h => ⟨[], by rw [h]; rfl⟩) fun d h => ?_
  rw [h]
  exact hread d h

end Fields

section Node

variable {place : Place} {entries : List (Data × Data)} {type : String} {columns : List Column}

theorem isNode_node {pos : Data} {fields : List (String × Data)}
    (h : fields.map Prod.fst = columns.map Column.name) :
    IsNode type pos columns (node type pos fields)
      ((("type", .str type) :: ("pos", pos) :: fields).map fun f => (.str f.1, f.2)) := by
  have hkeys : fields.map (fun f => Data.str f.1) = columns.map fun c => Data.str c.name := by
    have hmap := congrArg (List.map fun name : String => Data.str name) h
    rwa [List.map_map, List.map_map] at hmap
  refine ⟨rfl, rfl, rfl, .of_eq ?_⟩
  rw [List.map_map]
  exact congrArg (fun keys => ("type" : Data) :: ("pos" : Data) :: keys) hkeys

/-- Where the columns of its type are read, so is a node. -/
theorem reads_node {x : Except Fault Expr}
    (htype : (Data.field? entries "type").getD .null = .str type)
    (hcolumns : Column.ofExpr? (.str type) = some (Column.typed columns))
    (h : ReadsColumns Keeps entries type columns toData x) :
    Reads x (Fits .expr (.map place entries)) fun e =>
      Keeps .expr (.map place entries) e.toData := by
  have hvariant : Slot.expr.columns? entries = some (Column.typed columns) := by
    rw [Slot.columns?, htype, hcolumns]
  refine (reads_typed rfl (keeps_self rfl) htype hvariant h).mono Iff.rfl ?_
  rintro e ⟨entries', he, hkept⟩
  rw [he, keeps_map_iff rfl]
  exact ⟨_, hvariant, hkept⟩

/-- Two expressions that have to be there. -/
theorem readsColumns_pair {make : Expr → Expr → Expr} {first second : String}
    (hexpr : ∀ name d, Data.field? entries name = some d → ReadsExpr d)
    (hmake : ∀ a b, ∃ entries',
      IsNode type ((Data.field? entries "pos").getD 0) [must first .expr, must second .expr]
          (make a b).toData entries'
        ∧ Data.field? entries' first = some a.toData
        ∧ Data.field? entries' second = some b.toData) :
    ReadsColumns Keeps entries type [must first .expr, must second .expr] toData (do
      return make (← requiredExpr (fieldsOf entries) first)
        (← requiredExpr (fieldsOf entries) second)) := by
  refine .column (reads_requiredExpr (hexpr first)) fun a ha =>
    .column (reads_requiredExpr (hexpr second)) fun b hb => .done ?_
  obtain ⟨entries', hnode, hfirst, hsecond⟩ := hmake a b
  exact ⟨entries', hnode, meets_cons ha hfirst (meets_cons hb hsecond meets_nil)⟩

/-- Where what stands in the fields of an expression is read, so is the expression. -/
theorem reads_ofFields
    (hexpr : ∀ name d, Data.field? entries name = some d → ReadsExpr d)
    (hexprs : ∀ name d, Data.field? entries name = some d → ReadsExprs d) :
    Reads (ofFields? (fieldsOf entries)) (Fits .expr (.map place entries))
      fun e => Keeps .expr (.map place entries) e.toData := by
  rw [ofFields?, valueOr_fieldsOf, valueOr_fieldsOf]
  generalize htype : (Data.field? entries "type").getD .null = type
  split
  · exact reads_node htype rfl (.column (reads_required entries "name") fun name hname =>
      .done ⟨_, isNode_node rfl, meets_cons hname rfl meets_nil⟩)
  · exact reads_node htype rfl (.column (reads_required entries "name") fun name hname =>
      .done ⟨_, isNode_node rfl, meets_cons hname rfl meets_nil⟩)
  · exact reads_node htype rfl (.column (reads_required entries "value") fun value hvalue =>
      .done ⟨_, isNode_node rfl, meets_cons hvalue rfl meets_nil⟩)
  · exact reads_node htype rfl (.column (reads_exprsOrNone (hexprs _)) fun elements helements =>
      .done ⟨_, isNode_node rfl, meets_cons helements rfl meets_nil⟩)
  · exact reads_node htype rfl (.column (reads_exprsOrNone (hexprs _)) fun elements helements =>
      .done ⟨_, isNode_node rfl, meets_cons helements rfl meets_nil⟩)
  · exact reads_node htype rfl (.column (reads_required entries "operator") fun operator hop =>
      .column (reads_requiredExpr (hexpr _)) fun left hleft =>
      .column (reads_requiredExpr (hexpr _)) fun right hright =>
      .done ⟨_, isNode_node rfl,
        meets_cons hop rfl (meets_cons hleft rfl (meets_cons hright rfl meets_nil))⟩)
  · exact reads_node htype rfl (readsColumns_pair hexpr fun _ _ => ⟨_, isNode_node rfl, rfl, rfl⟩)
  · exact reads_node htype rfl (.column (reads_requiredExpr (hexpr _)) fun function hfunction =>
      .column (reads_exprsOrNone (hexprs _)) fun arguments harguments =>
      .done ⟨_, isNode_node rfl, meets_cons hfunction rfl (meets_cons harguments rfl meets_nil)⟩)
  · exact reads_node htype rfl (readsColumns_pair hexpr fun _ _ => ⟨_, isNode_node rfl, rfl, rfl⟩)
  · exact reads_node htype rfl (readsColumns_pair hexpr fun _ _ => ⟨_, isNode_node rfl, rfl, rfl⟩)
  · exact reads_node htype rfl (readsColumns_pair hexpr fun _ _ => ⟨_, isNode_node rfl, rfl, rfl⟩)
  · exact reads_node htype rfl (.column (reads_requiredExpr (hexpr _)) fun body hbody =>
      .done ⟨_, isNode_node rfl, meets_cons hbody rfl meets_nil⟩)
  · rw [valueOr_fieldsOf]
    have hterm := answeredBy_getD (keeps_self rfl) entries "term" .null
    exact reads_node htype rfl (.held (Column.holds_may_data _ _) (.done
      ⟨_, isNode_node rfl, meets_cons hterm rfl meets_nil⟩))
  · refine .refused ?_ (Fault.IsShape.showing (.inr (.inl rfl)) _)
    rw [fits_map_iff rfl, Slot.columns?, htype]
    rintro ⟨columns, hcolumns, -⟩
    unfold Column.ofExpr? at hcolumns
    split at hcolumns <;> contradiction

end Node

/-- Only null and mappings are expressions. -/
theorem reads_no_expr {d : Data} (hnull : d ≠ .null)
    (hmap : ∀ place entries, d ≠ .map place entries) : ReadsExpr d := by
  have hread : ofData? d = .error (.notMapping .expression d.kindName) := by
    cases d <;> first | rfl | exact absurd rfl hnull | exact absurd rfl (hmap _ _)
  have hfits : ¬ Fits .expr d := by
    rintro (hplain | _ | hitem | _)
    · cases hplain
    · exact hnull rfl
    · cases hitem
    · exact hmap _ _ rfl
  exact .of_error hread hfits (.inr (.inl rfl))

/-- Only lists are lists of expressions. -/
theorem reads_no_exprs {d : Data} (hlist : ∀ place items, d ≠ .list place items) :
    ReadsExprs d := by
  have hread : ofList? d = .error (.notList .expressionList d.kindName) := by
    cases d <;> first | rfl | exact absurd rfl (hlist _ _)
  have hfits : ¬ Fits .exprs d := by
    rintro (hplain | hoptional | _ | hcolumns)
    · cases hplain
    · cases hoptional
    · exact hlist _ _ rfl
    · cases hcolumns
  exact .of_error hread hfits (.inr (.inl rfl))

theorem ofItems?_eq_mapM (items : List Data) : ofItems? items = items.mapM ofData? := by
  induction items with
  | nil => rfl
  | cons d items ih => rw [ofItems?, ih, List.mapM_cons]

theorem toItems_eq_map (es : List Expr) : toItems es = es.map toData := by
  induction es with
  | nil => rfl
  | cons e es ih => rw [toItems, ih, List.map_cons]

/-- Where the items of a list are read, so is the list. -/
theorem reads_list {place : Place} {items : List Data} (h : ∀ d ∈ items, ReadsExpr d) :
    ReadsExprs (.list place items) := by
  rw [ReadsExprs, ofList?, ofItems?_eq_mapM]
  refine Decides.mono (Decides.mapM h) (fits_list_iff rfl).symm fun es hes => ?_
  refine (keeps_list_iff rfl).mpr ?_
  rwa [toItems_eq_map, List.forall₂_map_right_iff]

mutual

/-- The reader of expressions decides the grammar. -/
theorem reads_expr : ∀ d : Data, ReadsExpr d
  | .null => .of_ok rfl (.null rfl) (.null rfl)
  | .map _ entries => reads_ofFields (fun name d h => (reads_fields entries name d h).1)
      fun name d h => (reads_fields entries name d h).2
  | .bool _ | .int _ | .float _ | .str _ | .special _ _ | .list _ _ | .group _ _ _ =>
    reads_no_expr nofun nofun

theorem reads_exprs : ∀ d : Data, ReadsExprs d
  | .list _ items => reads_list (reads_items items)
  | .null | .bool _ | .int _ | .float _ | .str _ | .special _ _ | .group _ _ _ | .map _ _ =>
    reads_no_exprs nofun

theorem reads_items : ∀ items : List Data, ∀ d ∈ items, ReadsExpr d
  | [] => nofun
  | d :: items => List.forall_mem_cons.mpr ⟨reads_expr d, reads_items items⟩

theorem reads_fields : ∀ (entries : List (Data × Data)) (name : String) (d : Data),
    Data.field? entries name = some d → ReadsExpr d ∧ ReadsExprs d
  | (key, value) :: rest, name, d, h => by
    rw [Data.field?] at h
    split at h
    · obtain rfl := Option.some.inj h
      exact ⟨reads_expr value, reads_exprs value⟩
    · exact reads_fields rest name d h

end

end Expr

end RuleLowering
