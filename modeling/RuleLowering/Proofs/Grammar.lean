import Mathlib.Data.List.Forall2
import RuleLowering.Form.Document
import RuleLowering.Proofs.SelfSame

/-!
# The grammar of documents

What a document has to look like to be one of forms, said apart from how it is read. A mapping has
columns, by the variant that its type names: fields that have to be there or may be, with what is to
stand in each. A document fits if all that have to be there are, and all that are there fit. What
stands in fields of other names does not count.

One document keeps another if it is of the same variants throughout and has their columns, all of
them and no other fields, with a value that says the same wherever the other document has one.
-/
namespace RuleLowering

/-- What may stand somewhere in a document. -/
inductive Slot where
  /-- Any data. -/
  | data
  /-- A value that can be looked up. Of null, truth values, numbers, texts, lists and mappings these
  are all but the last two. -/
  | key
  /-- Null, or a value that has items: a list, a text, a mapping. -/
  | parameters
  /-- A value all items of which have two items. -/
  | signatures
  | expr
  | exprs
  | clause
  | clauses
  | form
  | forms
  deriving DecidableEq

/-- A field of a variant. -/
structure Column where
  name : String
  slot : Slot
  /-- Whether the field has to be there. -/
  needed : Bool

namespace Column

def must (name : String) (slot : Slot) : Column := ⟨name, slot, true⟩

def may (name : String) (slot : Slot) : Column := ⟨name, slot, false⟩

/-- The keys of a mapping that has these columns and no other fields. -/
def keys (columns : List Column) : List Data := columns.map fun c => .str c.name

def typed (columns : List Column) : List Column :=
  must "type" .data :: may "pos" .data :: columns

def ofExpr? (type : Data) : Option (List Column) :=
  match type with
  | .str "var" => some (typed [must "name" .data])
  | .str "atom" => some (typed [must "name" .data])
  | .str "lit" => some (typed [must "value" .data])
  | .str "tuple" => some (typed [may "elements" .exprs])
  | .str "list" => some (typed [may "elements" .exprs])
  | .str "op" => some (typed [must "operator" .data, must "left" .expr, must "right" .expr])
  | .str "remote" => some (typed [must "module" .expr, must "function" .expr])
  | .str "call" => some (typed [must "function" .expr, may "arguments" .exprs])
  | .str "match" => some (typed [must "pattern" .expr, must "body" .expr])
  | .str "generate" => some (typed [must "pattern" .expr, must "body" .expr])
  | .str "b_generate" => some (typed [must "pattern" .expr, must "body" .expr])
  | .str "quote" => some (typed [must "body" .expr])
  | .str "opaque" => some (typed [may "term" .data])
  | _ => none

def ofClause : List Column :=
  [may "patterns" .exprs, may "guard" .expr, may "body" .exprs, may "pos" .data]

def ofAttribute (name : Data) : List Column :=
  match name with
  | .str "module" => typed [must "name" .data, must "module" .data, may "parameters" .parameters]
  | .str "file" => typed [must "name" .data, must "file" .data, may "line" .data]
  | .str "export" => typed [must "name" .data, may "functions" .signatures]
  | _ => typed [must "name" .key, may "value" .data]

/-- The columns of a form of the given type; `name` tells attributes apart. -/
def ofForm? (type name : Data) : Option (List Column) :=
  match type with
  | .str "attribute" => some (ofAttribute name)
  | .str "function" => some (typed [must "name" .data, may "clauses" .clauses])
  | .str "rule" => some (typed [must "name" .data, may "clauses" .clauses])
  | .str "error_marker" => some (typed [must "origin" .data, may "descriptor" .data])
  | .str "eof" => some (typed [])
  | _ => none

end Column

namespace Slot

def item? : Slot → Option Slot
  | exprs => some expr
  | clauses => some clause
  | forms => some form
  | _ => none

def columns? (slot : Slot) (entries : List (Data × Data)) : Option (List Column) :=
  match slot with
  | expr => Column.ofExpr? ((Data.field? entries "type").getD .null)
  | clause => some Column.ofClause
  | form =>
    Column.ofForm? ((Data.field? entries "type").getD .null)
      ((Data.field? entries "name").getD .null)
  | _ => none

/-- Whether null stands for nothing there. -/
def isOptional : Slot → Bool
  | expr | forms => true
  | _ => false

/-- Whether the values there are no parts of the grammar. -/
def isPlain : Slot → Bool
  | data | key | parameters | signatures => true
  | _ => false

end Slot

def Data.size? : Data → Option Nat
  | .list _ items | .group _ _ items => some items.length
  | .str t => some t.length
  | .map _ entries => some entries.length
  | .special _ (.bytes content) => some content.length
  | _ => none

/-- A mapping has a value under each of its keys that is a name. -/
theorem Data.exists_field?_of_mem {entries : List (Data × Data)} {name : String}
    (h : .str name ∈ entries.map Prod.fst) : ∃ d, field? entries name = some d := by
  induction entries with
  | nil => cases h
  | cons entry rest ih =>
    obtain ⟨key, value⟩ := entry
    rw [field?]
    by_cases hkey : key.text? = some (.plain name)
    · exact ⟨value, if_pos hkey⟩
    · rw [if_neg hkey]
      rcases List.mem_cons.mp h with rfl | hrest
      · exact absurd rfl hkey
      · exact ih hrest

/-- What may stand where there are no parts of the grammar. -/
def Slot.Admits : Slot → Data → Prop
  | data, _ => True
  | key, d => d.unhashable? = none
  | parameters, d => d = .null ∨ d.size?.isSome
  | signatures, d => ∃ items, d.items? = .ok items ∧ ∀ item ∈ items, item.size? = some 2
  | _, _ => False

theorem Slot.Admits.isPlain {slot : Slot} {d : Data} (h : slot.Admits d) :
    slot.isPlain = true := by
  cases slot <;> first | rfl | cases h

/-- A document is of the grammar. -/
inductive Fits : Slot → Data → Prop
  | plain {slot : Slot} {d : Data} : slot.Admits d → Fits slot d
  | null {slot : Slot} : slot.isOptional = true → Fits slot .null
  | list {slot item : Slot} {place : Place} {items : List Data} : slot.item? = some item →
    (∀ d ∈ items, Fits item d) → Fits slot (.list place items)
  | map {slot : Slot} {place : Place} {entries : List (Data × Data)} {columns : List Column} :
    slot.columns? entries = some columns →
    (∀ c ∈ columns, c.needed = true → (Data.field? entries c.name).isSome) →
    (∀ c ∈ columns, ∀ d, Data.field? entries c.name = some d → Fits c.slot d) →
    Fits slot (.map place entries)

/-- The second document says all that the first one says, in the columns of its variants. -/
inductive Keeps : Slot → Data → Data → Prop
  | same {slot : Slot} {d d' : Data} : slot.isPlain = true → d.same d' = true → Keeps slot d d'
  | null {slot : Slot} : slot.isOptional = true → Keeps slot .null .null
  | list {slot item : Slot} {place place' : Place} {items items' : List Data} :
    slot.item? = some item → items.length = items'.length →
    (∀ (n : Nat) (d d' : Data), items[n]? = some d → items'[n]? = some d' → Keeps item d d') →
    Keeps slot (.list place items) (.list place' items')
  | map {slot : Slot} {place place' : Place} {entries entries' : List (Data × Data)}
    {columns : List Column} :
    slot.columns? entries = some columns →
    (entries'.map Prod.fst).Perm (Column.keys columns) →
    (∀ c ∈ columns, ∀ d d' : Data, Data.field? entries c.name = some d →
      Data.field? entries' c.name = some d' → Keeps c.slot d d') →
    Keeps slot (.map place entries) (.map place' entries')

namespace Column

/-- What a mapping has in a column is of the grammar. -/
def Holds (entries : List (Data × Data)) (c : Column) : Prop :=
  (c.needed = true → (Data.field? entries c.name).isSome)
    ∧ ∀ d, Data.field? entries c.name = some d → Fits c.slot d

/-- What a mapping has in a column is answered by a value. -/
def AnsweredBy (R : Slot → Data → Data → Prop) (entries : List (Data × Data)) (c : Column)
    (d' : Data) : Prop :=
  ∀ d, Data.field? entries c.name = some d → R c.slot d d'

/-- What a mapping has in a column is answered in another mapping. -/
def Meets (R : Slot → Data → Data → Prop) (entries entries' : List (Data × Data)) (c : Column) :
    Prop :=
  ∀ d, Data.field? entries c.name = some d →
    ∃ d', Data.field? entries' c.name = some d' ∧ R c.slot d d'

theorem AnsweredBy.meets {R : Slot → Data → Data → Prop} {entries entries' : List (Data × Data)}
    {c : Column} {d' : Data} (h : AnsweredBy R entries c d')
    (hfield : Data.field? entries' c.name = some d') : Meets R entries entries' c :=
  fun d hd => ⟨d', hfield, h d hd⟩

theorem meets_nil {R : Slot → Data → Data → Prop} {entries entries' : List (Data × Data)} :
    ∀ c ∈ [], Meets R entries entries' c :=
  nofun

theorem meets_cons {R : Slot → Data → Data → Prop} {entries entries' : List (Data × Data)}
    {c : Column} {cs : List Column} {d' : Data} (h : AnsweredBy R entries c d')
    (hfield : Data.field? entries' c.name = some d') (hcs : ∀ c ∈ cs, Meets R entries entries' c) :
    ∀ c' ∈ c :: cs, Meets R entries entries' c' :=
  List.forall_mem_cons.mpr ⟨h.meets hfield, hcs⟩

/-- Where any value does, there is nothing to check. -/
theorem holds_may_data (entries : List (Data × Data)) (name : String) :
    (may name .data).Holds entries :=
  ⟨nofun, fun _ _ => .plain trivial⟩

theorem holds_must_data_iff {entries : List (Data × Data)} {name : String} :
    (must name .data).Holds entries ↔ (Data.field? entries name).isSome :=
  ⟨fun h => h.1 rfl, fun h => ⟨fun _ => h, fun _ _ => .plain trivial⟩⟩

end Column

theorem fits_plain_iff {slot : Slot} {d : Data} (hslot : slot.isPlain = true) :
    Fits slot d ↔ slot.Admits d := by
  refine ⟨fun h => ?_, .plain⟩
  cases h with
  | plain h => exact h
  | null h | list h _ | map h _ _ => cases slot <;> cases hslot <;> cases h

theorem fits_map_iff {slot : Slot} {place : Place} {entries : List (Data × Data)}
    (hslot : slot.isPlain = false) :
    Fits slot (.map place entries) ↔
      ∃ columns, slot.columns? entries = some columns ∧ ∀ c ∈ columns, c.Holds entries := by
  constructor
  · intro h
    cases h with
    | map hcolumns hneeded hfields =>
      exact ⟨_, hcolumns, fun c hc => ⟨hneeded c hc, hfields c hc⟩⟩
    | plain h => rw [h.isPlain] at hslot; cases hslot
  · rintro ⟨columns, hcolumns, h⟩
    exact .map hcolumns (fun c hc => (h c hc).1) fun c hc => (h c hc).2

theorem fits_list_iff {slot item : Slot} {place : Place} {items : List Data}
    (hitem : slot.item? = some item) :
    Fits slot (.list place items) ↔ ∀ d ∈ items, Fits item d := by
  constructor
  · intro h
    cases h with
    | list hitem' h =>
      obtain rfl : _ = item := Option.some.inj (hitem'.symm.trans hitem)
      exact h
    | plain h => cases slot <;> cases hitem <;> cases h
  · exact .list hitem

theorem keeps_map_iff {slot : Slot} {place place' : Place} {entries entries' : List (Data × Data)}
    (hslot : slot.isPlain = false) :
    Keeps slot (.map place entries) (.map place' entries') ↔
      ∃ columns, slot.columns? entries = some columns
        ∧ (entries'.map Prod.fst).Perm (Column.keys columns)
        ∧ ∀ c ∈ columns, c.Meets Keeps entries entries' := by
  constructor
  · intro h
    cases h with
    | same hplain _ => rw [hslot] at hplain; cases hplain
    | map hcolumns hkeys hkept =>
      refine ⟨_, hcolumns, hkeys, fun c hc d hd => ?_⟩
      have hkey : Data.str c.name ∈ Column.keys _ := List.mem_map_of_mem hc
      obtain ⟨d', hd'⟩ := Data.exists_field?_of_mem (hkeys.mem_iff.mpr hkey)
      exact ⟨d', hd', hkept c hc d d' hd hd'⟩
  · rintro ⟨columns, hcolumns, hkeys, h⟩
    refine .map hcolumns hkeys fun c hc d d' hd hd' => ?_
    obtain ⟨d'', hd'', hkept⟩ := h c hc d hd
    obtain rfl : d'' = d' := Option.some.inj (hd''.symm.trans hd')
    exact hkept

theorem keeps_list_iff {slot item : Slot} {place place' : Place} {items items' : List Data}
    (hitem : slot.item? = some item) :
    Keeps slot (.list place items) (.list place' items') ↔
      List.Forall₂ (Keeps item) items items' := by
  rw [List.forall₂_iff_get]
  constructor
  · intro h
    cases h with
    | same hplain _ => cases slot <;> cases hitem <;> cases hplain
    | list hitem' hlength heach =>
      obtain rfl : _ = item := Option.some.inj (hitem'.symm.trans hitem)
      exact ⟨hlength, fun n hn hn' =>
        heach n _ _ (List.getElem?_eq_getElem hn) (List.getElem?_eq_getElem hn')⟩
  · rintro ⟨hlength, heach⟩
    refine .list hitem hlength fun n d d' hd hd' => ?_
    obtain ⟨hn, rfl⟩ := List.getElem?_eq_some_iff.mp hd
    obtain ⟨hn', rfl⟩ := List.getElem?_eq_some_iff.mp hd'
    exact heach n hn hn'

/-- Any value says the same as itself. -/
theorem keeps_self {slot : Slot} (h : slot.isPlain = true) (d : Data) : Keeps slot d d :=
  .same h d.same_self

end RuleLowering
