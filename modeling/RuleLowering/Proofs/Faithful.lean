import RuleLowering.Proofs.Acceptance
import RuleLowering.Proofs.SameData

/-!
# What the reader keeps of a document

The document of the forms that were read says what the document read says, with missing fields
filled in and fields of other names left out. But two fields of attributes are walked without a look
at what is there: of the parameters of a module, of an export list and of each signature in it only
the items are left. A form is kept exactly if lists stand there.
-/
namespace RuleLowering

/-- What the reader walks is a list, and so is each signature. -/
def Slot.Listed : Slot → Data → Prop
  | parameters, d => d = .null ∨ d.shape = .list
  | signatures, d => d.shape = .list ∧ ∀ items, d.items? = .ok items → ∀ s ∈ items, s.shape = .list
  | _, _ => True

theorem keeps_plain_iff {slot : Slot} {d d' : Data} (hslot : slot.isPlain = true) :
    Keeps slot d d' ↔ d.same d' = true := by
  refine ⟨fun h => ?_, .same hslot⟩
  cases h with
  | same _ h => exact h
  | null h | list h _ _ | map h _ _ => cases slot <;> cases hslot <;> cases h

namespace Data

/-- Of the values with items only a list says the same as a list, if the items do. -/
theorem same_ofList_iff {d : Data} {items xs : List Data} (h : d.items? = .ok items) :
    d.same (.ofList xs) = true ↔ d.shape = .list ∧ sameItems items xs = true := by
  constructor
  · intro hsame
    have hshape : d.shape = .list := shape_eq_of_same hsame
    obtain ⟨place, items', rfl⟩ := exists_list_of_shape hshape
    obtain rfl : items' = items := Except.ok.inj h
    exact ⟨hshape, hsame⟩
  · rintro ⟨hshape, hitems⟩
    obtain ⟨place, items', rfl⟩ := exists_list_of_shape hshape
    obtain rfl : items' = items := Except.ok.inj h
    exact hitems

theorem same_ofList_items_iff {d : Data} {items : List Data} (h : d.items? = .ok items) :
    d.same (.ofList items) = true ↔ d.shape = .list := by
  rw [same_ofList_iff h]
  exact and_iff_left (Data.ofList items).same_self

end Data

section Walked

variable {d d' : Data}

theorem keeps_parameters_iff (h : Renders .parameters d d') :
    Keeps .parameters d d' ↔ Slot.Listed .parameters d := by
  rw [keeps_plain_iff rfl, Slot.Listed]
  rcases h with ⟨rfl, rfl⟩ | ⟨items, hitems, rfl⟩
  · exact iff_of_true rfl (.inl rfl)
  · have hnull : d ≠ .null := by
      rintro rfl
      cases hitems
    rw [Data.same_ofList_items_iff hitems, or_iff_right hnull]

/-- Signatures are kept if lists stand in their places. -/
theorem sameItems_signatures_iff {items : List Data} {signatures : List Signature}
    (h : List.Forall₂ (fun item (s : Signature) => item.items? = .ok [s.name, s.arity])
      items signatures) :
    Data.sameItems items (signatures.map Signature.toData) = true ↔
      ∀ s ∈ items, s.shape = .list := by
  induction h with
  | nil => simp [Data.sameItems]
  | cons hitem _ ih =>
    rw [List.map_cons, Data.sameItems, Bool.and_eq_true_iff, ih, List.forall_mem_cons]
    exact and_congr_left' (Data.same_ofList_items_iff hitem)

theorem keeps_signatures_iff (h : Renders .signatures d d') :
    Keeps .signatures d d' ↔ Slot.Listed .signatures d := by
  obtain ⟨items, signatures, hitems, heach, rfl⟩ := h
  rw [keeps_plain_iff rfl, Slot.Listed, Data.same_ofList_iff hitems,
    sameItems_signatures_iff heach, hitems]
  simp

/-- What is rendered is kept unless it is walked and no list. -/
theorem keeps_iff_listed {slot : Slot} (h : Renders slot d d') :
    Keeps slot d d' ↔ slot.Listed d := by
  cases slot with
  | parameters => exact keeps_parameters_iff h
  | signatures => exact keeps_signatures_iff h
  | _ => exact iff_of_true h trivial

end Walked

namespace Column

def Listed (entries : List (Data × Data)) (c : Column) : Prop :=
  ∀ d, Data.field? entries c.name = some d → c.slot.Listed d

/-- A column that is met by what was read is kept unless no list is walked in it. -/
theorem meets_keeps_iff {entries entries' : List (Data × Data)} {c : Column}
    (h : c.Meets Renders entries entries') :
    c.Meets Keeps entries entries' ↔ c.Listed entries := by
  constructor
  · intro hkept d hd
    obtain ⟨d', hd', hrenders⟩ := h d hd
    obtain ⟨d'', hd'', hkeeps⟩ := hkept d hd
    obtain rfl : d' = d'' := Option.some.inj (hd'.symm.trans hd'')
    exact (keeps_iff_listed hrenders).mp hkeeps
  · intro hlisted d hd
    obtain ⟨d', hd', hrenders⟩ := h d hd
    exact ⟨d', hd', (keeps_iff_listed hrenders).mpr (hlisted d hd)⟩

end Column

namespace Form

/-- In the document of a form the reader walks lists only. -/
def WalksLists : Data → Prop
  | .map _ entries =>
    ∀ columns, Slot.form.columns? entries = some columns → ∀ c ∈ columns, c.Listed entries
  | _ => True

/-- Of a module declaration the reader walks the parameters. -/
theorem walksLists_module_iff {place : Place} {entries : List (Data × Data)}
    (htype : Data.field? entries "type" = some (.str "attribute"))
    (hname : Data.field? entries "name" = some (.str "module")) :
    WalksLists (.map place entries) ↔
      ∀ d, Data.field? entries "parameters" = some d → Slot.Listed .parameters d := by
  simp [WalksLists, Slot.columns?, htype, hname, Column.ofForm?, Column.ofAttribute, Column.typed,
    Column.Listed, Column.must, Column.may, Slot.Listed]

/-- Of an export list the reader walks the signatures. -/
theorem walksLists_export_iff {place : Place} {entries : List (Data × Data)}
    (htype : Data.field? entries "type" = some (.str "attribute"))
    (hname : Data.field? entries "name" = some (.str "export")) :
    WalksLists (.map place entries) ↔
      ∀ d, Data.field? entries "functions" = some d → Slot.Listed .signatures d := by
  simp [WalksLists, Slot.columns?, htype, hname, Column.ofForm?, Column.ofAttribute, Column.typed,
    Column.Listed, Column.must, Column.may, Slot.Listed]

/-- In no other form the reader walks anything. -/
theorem walksLists_of_ne {place : Place} {entries : List (Data × Data)}
    (h : (Data.field? entries "type").getD .null = .str "attribute" →
      (Data.field? entries "name").getD .null ≠ .str "module"
        ∧ (Data.field? entries "name").getD .null ≠ .str "export") :
    WalksLists (.map place entries) := by
  intro columns hcolumns
  have hplain : ∀ c ∈ columns, c.slot ≠ .parameters ∧ c.slot ≠ .signatures := by
    rw [Slot.columns?] at hcolumns
    unfold Column.ofForm? at hcolumns
    split at hcolumns
    · rename_i htype
      obtain ⟨hmodule, hexport⟩ := h htype
      obtain rfl := Option.some.inj hcolumns
      unfold Column.ofAttribute
      split
      · contradiction
      · simp [Column.typed, Column.must, Column.may]
      · contradiction
      · simp [Column.typed, Column.must, Column.may]
    all_goals cases hcolumns <;> simp [Column.typed, Column.must, Column.may]
  intro c hc d hd
  obtain ⟨hparameters, hsignatures⟩ := hplain c hc
  unfold Slot.Listed
  split <;> first | contradiction | trivial

/-- The documents of forms have lists where the reader walks something. -/
theorem walksLists_toData (f : Form) : WalksLists f.toData := by
  cases f with
  | module m =>
    obtain ⟨name, parameters, pos⟩ := m
    refine (walksLists_module_iff rfl rfl).mpr fun d hd => ?_
    cases parameters with
    | none => exact .inl (Option.some.inj hd).symm
    | some names => exact .inr (Option.some.inj hd ▸ rfl)
  | exports e =>
    refine (walksLists_export_iff rfl rfl).mpr fun d hd => ?_
    obtain rfl := Option.some.inj hd
    refine ⟨rfl, fun items hitems s hs => ?_⟩
    obtain rfl := Except.ok.inj hitems
    obtain ⟨signature, -, rfl⟩ := List.mem_map.mp hs
    rfl
  | attr a =>
    have hgeneric := reservedVariant?_name a
    refine walksLists_of_ne fun _ => ⟨fun hname => ?_, fun hname => ?_⟩
    all_goals
      rw [show a.name = _ from hname] at hgeneric
      cases hgeneric
  | file f =>
    refine walksLists_of_ne fun _ => ⟨fun hname => ?_, fun hname => ?_⟩
    all_goals exact absurd (Data.str.inj hname) (by decide)
  | _ => exact walksLists_of_ne fun htype => absurd (Data.str.inj htype) (by decide)

/-- The document of a form is kept if the reader walks lists only. -/
theorem keeps_iff_walksLists {d d' : Data} (h : Rendered d d') :
    Keeps .form d d' ↔ WalksLists d := by
  obtain ⟨place, entries, entries', columns, rfl, rfl, hcolumns, hkeys, hmeets⟩ := h
  have heach : (∀ c ∈ columns, c.Meets Keeps entries entries') ↔ ∀ c ∈ columns, c.Listed entries :=
    forall₂_congr fun c hc => Column.meets_keeps_iff (hmeets c hc)
  rw [keeps_map_iff rfl, WalksLists, hcolumns]
  simp [hkeys, heach]

end Form

/-- Of a list of forms that is read, the document of what was read has as many forms, and it keeps
those in which the reader walks lists only. -/
theorem listToData_keeps_iff {own : Text} {place : Place} {items : List Data} {forms : List Form}
    (h : Form.listOfData? own (.list place items) = .ok forms) :
    ∃ items', Form.listToData forms = .ofList items'
      ∧ List.Forall₂ (fun d d' => Keeps .form d d' ↔ Form.WalksLists d) items items' := by
  rcases (Form.reads_listOfData? own _).fit h with ⟨hnull, -⟩ | ⟨place', items', heq, hrendered⟩
  · cases hnull
  · obtain ⟨rfl, rfl⟩ := Data.list.inj heq
    refine ⟨forms.map Form.toData, rfl, ?_⟩
    rw [List.forall₂_map_right_iff]
    exact hrendered.imp fun _ _ => Form.keeps_iff_walksLists

def moduleWith (parameters : Data) : Data :=
  .ofFields [("type", "attribute"), ("name", "module"), ("module", "m"),
    ("parameters", parameters), ("pos", 1)]

theorem walksLists_moduleWith {parameters : Data} :
    Form.WalksLists (moduleWith parameters) ↔ Slot.Listed .parameters parameters :=
  (Form.walksLists_module_iff rfl rfl).trans (by simp [Data.field?, Data.text?])

/-- Two parameters in a list are kept; written as one word they are not. -/
theorem listed_kept_spelled_not :
    ∃ forms first second,
      Form.listOfData? "henshin_module"
        (.ofList [moduleWith (.ofList ["A", "B"]), moduleWith "AB"]) = .ok forms
      ∧ Form.listToData forms = .ofList [first, second]
      ∧ Keeps .form (moduleWith (.ofList ["A", "B"])) first
      ∧ ¬ Keeps .form (moduleWith "AB") second := by
  obtain ⟨forms, hread⟩ : ∃ forms, Form.listOfData? "henshin_module"
    (.ofList [moduleWith (.ofList ["A", "B"]), moduleWith "AB"]) = .ok forms := ⟨_, rfl⟩
  obtain ⟨items', hitems', hkept⟩ := listToData_keeps_iff hread
  match items', hkept with
  | [first, second], .cons hfirst (.cons hsecond .nil) =>
    refine ⟨forms, first, second, hread, hitems', hfirst.mpr ?_, fun h => ?_⟩
    · exact walksLists_moduleWith.mpr (.inr rfl)
    · rcases walksLists_moduleWith.mp (hsecond.mp h) with hnull | hshape
      · cases hnull
      · cases hshape

/-- Parameters written as one word are read without a fault, and come back as a list of letters. -/
theorem spelled_altered :
    ∃ forms, Form.listOfData? "henshin_module" (.ofList [moduleWith "AB"]) = .ok forms
      ∧ ¬ Keeps .forms (.ofList [moduleWith "AB"]) (Form.listToData forms) := by
  refine ⟨[.module ⟨"m", some ["A", "B"], 1⟩], rfl, fun h => ?_⟩
  cases (keeps_list_iff rfl).mp h with
  | cons hform _ =>
    have hrendered := (Form.reads_ofData? "henshin_module" (moduleWith "AB")).fit rfl
    rcases walksLists_moduleWith.mp ((Form.keeps_iff_walksLists hrendered).mp hform) with
      hnull | hshape
    · cases hnull
    · cases hshape

end RuleLowering
