import RuleLowering.Form.Basic
import RuleLowering.Proofs.Reordered

/-!
# Forms over related data

Data travels through expressions and forms untouched: what is done with it depends only on what
stands under a name, on the items of a list and on values that are no containers. A relation of data
that respects these goes on to expressions and forms: they are of one shape, with related data in
the same places.
-/
namespace RuleLowering

namespace Data

/-- How far the readers look into two values: they are equal if they are no containers, lists have
related items, and mappings with texts as keys have related values under the same names. -/
inductive Unfolds (R : Data → Data → Prop) : Data → Data → Prop
  | atomic {d : Data} : d.isAtomic = true → Unfolds R d d
  | list {place place' : Place} {items items' : List Data} : List.Forall₂ R items items' →
    Unfolds R (.list place items) (.list place' items')
  | map {place place' : Place} {entries entries' : List (Data × Data)} :
    (∀ e ∈ entries, ∃ t, e.1 = .str t) →
    (∀ name, Option.Rel R (field? entries name) (field? entries' name)) →
    Unfolds R (.map place entries) (.map place' entries')

/-- Related values are not told apart by the readers, and what the readers and the lowering fill in
is related to itself. -/
structure Reshapes (R : Data → Data → Prop) : Prop where
  unfolds : ∀ d d', R d d' → Unfolds R d d'
  isWritable_eq : ∀ d d', R d d' → d.isWritable = d'.isWritable
  null : R .null .null
  text : ∀ t : Text, R (.str t) (.str t)
  zero : R 0 0
  one : R 1 1
  empty : R (.ofList []) (.ofList [])

end Data

open Data (Reshapes Unfolds)

section Relations

variable (R : Data → Data → Prop)

inductive Expr.Reshaped : Expr → Expr → Prop
  | absent : Reshaped .absent .absent
  | var {name name' pos pos' : Data} : R name name' → R pos pos' →
    Reshaped (.var name pos) (.var name' pos')
  | atom {name name' pos pos' : Data} : R name name' → R pos pos' →
    Reshaped (.atom name pos) (.atom name' pos')
  | literal {value value' pos pos' : Data} : R value value' → R pos pos' →
    Reshaped (.literal value pos) (.literal value' pos')
  | tuple {es es' : List Expr} {pos pos' : Data} : List.Forall₂ Reshaped es es' → R pos pos' →
    Reshaped (.tuple es pos) (.tuple es' pos')
  | list {es es' : List Expr} {pos pos' : Data} : List.Forall₂ Reshaped es es' → R pos pos' →
    Reshaped (.list es pos) (.list es' pos')
  | operation {op op' : Data} {l l' r r' : Expr} {pos pos' : Data} : R op op' → Reshaped l l' →
    Reshaped r r' → R pos pos' → Reshaped (.operation op l r pos) (.operation op' l' r' pos')
  | remote {m m' f f' : Expr} {pos pos' : Data} : Reshaped m m' → Reshaped f f' → R pos pos' →
    Reshaped (.remote m f pos) (.remote m' f' pos')
  | call {f f' : Expr} {es es' : List Expr} {pos pos' : Data} : Reshaped f f' →
    List.Forall₂ Reshaped es es' → R pos pos' → Reshaped (.call f es pos) (.call f' es' pos')
  | binding {p p' b b' : Expr} {pos pos' : Data} : Reshaped p p' → Reshaped b b' → R pos pos' →
    Reshaped (.binding p b pos) (.binding p' b' pos')
  | generator {p p' b b' : Expr} {pos pos' : Data} : Reshaped p p' → Reshaped b b' → R pos pos' →
    Reshaped (.generator p b pos) (.generator p' b' pos')
  | binaryGenerator {p p' b b' : Expr} {pos pos' : Data} : Reshaped p p' → Reshaped b b' →
    R pos pos' → Reshaped (.binaryGenerator p b pos) (.binaryGenerator p' b' pos')
  | quote {b b' : Expr} {pos pos' : Data} : Reshaped b b' → R pos pos' →
    Reshaped (.quote b pos) (.quote b' pos')
  | foreign {term term' pos pos' : Data} : R term term' → R pos pos' →
    Reshaped (.foreign term pos) (.foreign term' pos')

structure Signature.Reshaped (s s' : Signature) : Prop where
  name : R s.name s'.name
  arity : R s.arity s'.arity

structure Clause.Reshaped (c c' : Clause) : Prop where
  patterns : List.Forall₂ (Expr.Reshaped R) c.patterns c'.patterns
  guard : Expr.Reshaped R c.guard c'.guard
  body : List.Forall₂ (Expr.Reshaped R) c.body c'.body
  pos : R c.pos c'.pos

structure ModuleDecl.Reshaped (m m' : ModuleDecl) : Prop where
  name : R m.name m'.name
  parameters : Option.Rel (List.Forall₂ R) m.parameters m'.parameters
  pos : R m.pos m'.pos

structure FileMark.Reshaped (f f' : FileMark) : Prop where
  file : R f.file f'.file
  line : R f.line f'.line
  pos : R f.pos f'.pos

/-- A violation is the same one, whatever the data. -/
inductive Descriptor.Reshaped : Descriptor → Descriptor → Prop
  | violation (v : Violation) : Reshaped (.violation v) (.violation v)
  | foreign {d d' : Data} : R d d' → Reshaped (.foreign d) (.foreign d')

structure Marker.Reshaped (m m' : Marker) : Prop where
  origin : R m.origin m'.origin
  descriptor : Descriptor.Reshaped R m.descriptor m'.descriptor
  pos : R m.pos m'.pos

structure Rule.Reshaped (r r' : Rule) : Prop where
  name : R r.name r'.name
  clauses : List.Forall₂ (Clause.Reshaped R) r.clauses r'.clauses
  pos : R r.pos r'.pos

inductive Form.Reshaped : Form → Form → Prop
  | attr {a a' : Attribute} : R a.name a'.name → R a.value a'.value → R a.pos a'.pos →
    Reshaped (.attr a) (.attr a')
  | module {m m' : ModuleDecl} : ModuleDecl.Reshaped R m m' → Reshaped (.module m) (.module m')
  | file {f f' : FileMark} : FileMark.Reshaped R f f' → Reshaped (.file f) (.file f')
  | exports {e e' : Export} : List.Forall₂ (Signature.Reshaped R) e.functions e'.functions →
    R e.pos e'.pos → Reshaped (.exports e) (.exports e')
  | function {f f' : Function} : R f.name f'.name →
    List.Forall₂ (Clause.Reshaped R) f.clauses f'.clauses → R f.pos f'.pos →
    Reshaped (.function f) (.function f')
  | rule {r r' : Rule} : Rule.Reshaped R r r' → Reshaped (.rule r) (.rule r')
  | marker {m m' : Marker} : Marker.Reshaped R m m' → Reshaped (.marker m) (.marker m')
  | eof {pos pos' : Data} : R pos pos' → Reshaped (.eof pos) (.eof pos')

end Relations

variable {R : Data → Data → Prop}

section Values

variable (hR : Reshapes R) {d d' : Data}
include hR

theorem Data.Reshapes.text?_eq (h : R d d') : d.text? = d'.text? := by
  cases hR.unfolds d d' h <;> rfl

/-- One of two related values is a given text if the other one is. -/
theorem Data.Reshapes.eq_str_iff (h : R d d') (t : Text) : d = .str t ↔ d' = .str t := by
  rw [← Data.text?_eq_some, ← Data.text?_eq_some, hR.text?_eq h]

/-- Related values can both be looked up, or none. -/
theorem Data.Reshapes.unhashable?_eq (h : R d d') : d.unhashable? = d'.unhashable? := by
  cases hR.unfolds d d' h <;> rfl

/-- A value that can be looked up is no container, so a related one is equal. -/
theorem Data.Reshapes.eq_of_hashable (h : R d d') (hd : d.unhashable? = none) : d' = d := by
  cases hR.unfolds d d' h with
  | atomic _ => rfl
  | list _ => cases hd
  | map _ _ => cases hd

end Values

theorem rel_cases {α β : Type} {S : α → β → Prop} {o : Option α} {o' : Option β}
    (h : Option.Rel S o o') :
    o = none ∧ o' = none ∨ ∃ a b, o = some a ∧ o' = some b ∧ S a b := by
  cases h with
  | some hab => exact .inr ⟨_, _, rfl, rfl, hab⟩
  | none => exact .inl ⟨rfl, rfl⟩

/-- Two mappings have related values under the same names. -/
abbrev FieldsRelated (R : Data → Data → Prop) (entries entries' : List (Data × Data)) : Prop :=
  ∀ name, Option.Rel R (Data.field? entries name) (Data.field? entries' name)

section Fields

variable {entries entries' : List (Data × Data)} (hfields : FieldsRelated R entries entries')
include hfields

theorem reshaped_getD (name : String) {default default' : Data} (hdefault : R default default') :
    R ((Data.field? entries name).getD default) ((Data.field? entries' name).getD default') := by
  rcases rel_cases (hfields name) with ⟨h, h'⟩ | ⟨d, d', h, h', hd⟩ <;> rw [h, h']
  · exact hdefault
  · exact hd

end Fields

namespace Data

theorem rel_field? {R : Data → Data → Prop} {es fs : List (Data × Data)}
    (h : List.Forall₂ (EntriesRelated R) es fs) (name : String) :
    Option.Rel R (field? es name) (field? fs name) := by
  induction h with
  | nil => exact .none
  | @cons e f es fs hef _ ih =>
    obtain ⟨k, v⟩ := e
    obtain ⟨l, w⟩ := f
    obtain ⟨rfl, hvw⟩ := hef
    rw [field?, field?]
    split
    · exact .some hvw
    · exact ih

/-- A property of values goes on to their parts, and holds of what the readers and the lowering fill
in. -/
structure Inherited (P : Data → Prop) : Prop where
  list : ∀ place items, P (.list place items) → ∀ d ∈ items, P d
  map : ∀ place entries, P (.map place entries) → ∀ e ∈ entries, P e.2
  null : P .null
  text : ∀ t : Text, P (.str t)
  zero : P 0
  one : P 1
  empty : P (.ofList [])

theorem exists_mem_of_field? {entries : List (Data × Data)} {name : String} {d : Data}
    (h : field? entries name = some d) : ∃ e ∈ entries, e.2 = d := by
  induction entries with
  | nil => cases h
  | cons entry rest ih =>
    rw [field?] at h
    split at h
    · exact ⟨entry, List.mem_cons_self, Option.some.inj h⟩
    · obtain ⟨e, he, hd⟩ := ih h
      exact ⟨e, .tail entry he, hd⟩

/-- Related values stay related with a property that goes on to parts. -/
theorem Reshapes.and {R : Data → Data → Prop} {P : Data → Prop} (hR : Reshapes R)
    (hP : Inherited P) : Reshapes fun d d' => R d d' ∧ P d' where
  unfolds d d' h := by
    obtain ⟨hrelated, hd'⟩ := h
    cases hR.unfolds d d' hrelated with
    | atomic hd => exact .atomic hd
    | list hitems =>
      exact .list ((forall₂_with_mem hitems).imp fun x y hxy =>
        ⟨hxy.2.2, hP.list _ _ hd' y hxy.2.1⟩)
    | @map _ _ entries entries' hkeys hfields =>
      refine .map hkeys fun name => ?_
      rcases rel_cases (hfields name) with ⟨hv, hw⟩ | ⟨v, w, hv, hw, hvw⟩ <;> rw [hv, hw]
      · exact .none
      · obtain ⟨e, he, rfl⟩ := exists_mem_of_field? hw
        exact .some ⟨hvw, hP.map _ _ hd' e he⟩
  isWritable_eq d d' h := hR.isWritable_eq d d' h.1
  null := ⟨hR.null, hP.null⟩
  text t := ⟨hR.text t, hP.text t⟩
  zero := ⟨hR.zero, hP.zero⟩
  one := ⟨hR.one, hP.one⟩
  empty := ⟨hR.empty, hP.empty⟩

end Data

end RuleLowering
