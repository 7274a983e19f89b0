import RuleLowering.Form.Document
import RuleLowering.Proofs.Success

/-!
# Documents that contain themselves

The reader that watches for expressions among their own parts goes like the one that does not,
unless it comes upon one. It does so only in a document that contains itself, and then the document
is read without end.
-/
namespace RuleLowering

/-- The first computation is the second one, or it does not end, which needs a cycle. -/
def Follows {α : Type} (cyclic : Bool) (x y : Except Fault α) : Prop :=
  x = y ∨ cyclic = true ∧ x = .error .endless

namespace Follows

variable {α β : Type} {c c' : Bool} {x y : Except Fault α}

theorem refl (c : Bool) (x : Except Fault α) : Follows c x x := .inl rfl

theorem mono (h : Follows c x y) (himp : c = true → c' = true) : Follows c' x y :=
  h.imp_right fun ⟨hc, hx⟩ => ⟨himp hc, hx⟩

theorem or_left (h : Follows c x y) : Follows (c || c') x y :=
  h.mono (Bool.or_eq_true_iff.mpr ∘ .inl)

theorem or_right (h : Follows c x y) : Follows (c' || c) x y :=
  h.mono (Bool.or_eq_true_iff.mpr ∘ .inr)

theorem bind {next next' : α → Except Fault β} (h : Follows c x y)
    (hnext : ∀ a, Follows c (next a) (next' a)) : Follows c (x >>= next) (y >>= next') := by
  rcases h with rfl | ⟨hc, rfl⟩
  · cases x with
    | ok a => exact hnext a
    | error fault => exact refl c _
  · exact .inr ⟨hc, rfl⟩

theorem map {f : α → β} (h : Follows c x y) :
    Follows c (x >>= fun a => .ok (f a)) (y >>= fun a => .ok (f a)) :=
  h.bind fun _ => refl c _

theorem mapM {f g : α → Except Fault β} {items : List α}
    (h : ∀ a ∈ items, Follows c (f a) (g a)) : Follows c (items.mapM f) (items.mapM g) := by
  induction items with
  | nil => exact refl c _
  | cons a items ih =>
    obtain ⟨ha, hitems⟩ := List.forall_mem_cons.mp h
    rw [List.mapM_cons, List.mapM_cons]
    exact ha.bind fun b => (ih hitems).bind fun bs => refl c _

end Follows

theorem Place.isAmong_of_subset {place : Place} {around all : List Place} (h : around ⊆ all)
    (hplace : place.isAmong around = true) : place.isAmong all = true := by
  rw [isAmong, Bool.and_eq_true, List.contains_iff_mem] at hplace ⊢
  exact ⟨hplace.1, h hplace.2⟩

theorem Data.anyCyclic_of_mem {d : Data} {items : List Data} {around : List Place} (hd : d ∈ items)
    (h : d.isCyclicIn around = true) : anyCyclic around items = true := by
  induction items with
  | nil => cases hd
  | cons x xs ih =>
    rw [anyCyclic, Bool.or_eq_true]
    rcases List.mem_cons.mp hd with rfl | hxs
    · exact .inl h
    · exact .inr (ih hxs)

theorem Data.entriesCyclic_of_field? {d : Data} {entries : List (Data × Data)} {name : String}
    {around : List Place} (hd : field? entries name = some d) (h : d.isCyclicIn around = true) :
    entriesCyclic around entries = true := by
  induction entries with
  | nil => cases hd
  | cons e es ih =>
    obtain ⟨key, value⟩ := e
    rw [field?] at hd
    rw [entriesCyclic, Bool.or_eq_true, Bool.or_eq_true]
    split at hd
    · obtain rfl := Option.some.inj hd
      exact .inl (.inr h)
    · exact .inr (ih hd)

namespace Expr

open Expr.Field

/-- The value is read the same among parts of others, in each way, unless it does not end. -/
def FollowsIn (cyclic : Bool) (around : List Place) (d : Data) : Prop :=
  Follows cyclic (ofPart? around d) (ofData? d) ∧ Follows cyclic (listOfPart? around d) (ofList? d)

section Fields

variable {c : Bool} {around : List Place} {entries : List (Data × Data)}

theorem valueOr_fieldsOfPart (name : String) (default : Data) :
    valueOr (fieldsOfPart around entries) name default = valueOr (fieldsOf entries) name default := by
  rw [valueOr, valueOr, find?_fieldsOfPart, find?_fieldsOf]
  cases Data.field? entries name <;> rfl

theorem required_fieldsOfPart (name : String) :
    required (fieldsOfPart around entries) name = required (fieldsOf entries) name := by
  rw [required, required, find?_fieldsOfPart, find?_fieldsOf]
  cases Data.field? entries name <;> rfl

variable (h : ∀ name d, Data.field? entries name = some d → FollowsIn c around d)
include h

theorem follows_requiredExpr (name : String) :
    Follows c (requiredExpr (fieldsOfPart around entries) name)
      (requiredExpr (fieldsOf entries) name) := by
  rw [requiredExpr, requiredExpr, find?_fieldsOfPart, find?_fieldsOf]
  cases hfield : Data.field? entries name with
  | none => exact .refl c _
  | some d => exact (h name d hfield).1

theorem follows_exprsOrNone (name : String) :
    Follows c (exprsOrNone (fieldsOfPart around entries) name)
      (exprsOrNone (fieldsOf entries) name) := by
  rw [exprsOrNone, exprsOrNone, find?_fieldsOfPart, find?_fieldsOf]
  cases hfield : Data.field? entries name with
  | none => exact .refl c _
  | some d => exact (h name d hfield).2

/-- Two expressions that have to be there. -/
theorem follows_pair (make : Expr → Expr → Expr) (first second : String) :
    Follows c
      (do
        return make (← requiredExpr (fieldsOfPart around entries) first)
          (← requiredExpr (fieldsOfPart around entries) second))
      (do
        return make (← requiredExpr (fieldsOf entries) first)
          (← requiredExpr (fieldsOf entries) second)) :=
  (follows_requiredExpr h first).bind fun _ => (follows_requiredExpr h second).map

theorem follows_ofFields? :
    Follows c (ofFields? (fieldsOfPart around entries)) (ofFields? (fieldsOf entries)) := by
  rw [ofFields?, ofFields?]
  simp only [valueOr_fieldsOfPart, required_fieldsOfPart]
  split
  case h_1 | h_2 | h_3 => exact .refl c _
  case h_4 | h_5 => exact (follows_exprsOrNone h "elements").map
  case h_6 =>
    exact Follows.bind (.refl c _) fun operator => follows_pair h (.operation operator · · _) _ _
  case h_7 => exact follows_pair h (.remote · · _) _ _
  case h_8 =>
    exact (follows_requiredExpr h "function").bind fun _ =>
      (follows_exprsOrNone h "arguments").map
  case h_9 => exact follows_pair h (.binding · · _) _ _
  case h_10 => exact follows_pair h (.generator · · _) _ _
  case h_11 => exact follows_pair h (.binaryGenerator · · _) _ _
  case h_12 => exact (follows_requiredExpr h "body").map
  case h_13 | h_14 => exact .refl c _

end Fields

mutual

/-- Among the parts of others an expression is read the same, or contains itself. -/
theorem follows_ofPart? {around all : List Place} (h : around ⊆ all) :
    ∀ d : Data, Follows (d.isCyclicIn all) (ofPart? around d) (ofData? d)
  | .map place entries => by
    rw [ofPart?, Data.isCyclicIn]
    split
    · rename_i hplace
      rw [Place.isAmong_of_subset h hplace]
      exact .inr ⟨rfl, rfl⟩
    · refine (follows_ofFields? fun name d hd => ?_).or_right
      exact followsIn_of_field? (List.cons_subset_cons place h) entries name d hd
  | .null | .bool _ | .int _ | .float _ | .str _ | .special _ _ | .list _ _ | .group _ _ _ =>
    .refl _ _

theorem follows_listOfPart? {around all : List Place} (h : around ⊆ all) :
    ∀ d : Data, Follows (d.isCyclicIn all) (listOfPart? around d) (ofList? d)
  | .list place items => by
    rw [Data.isCyclicIn]
    exact (follows_itemsOfPart? (List.subset_cons_of_subset place h) items).or_right
  | .null | .bool _ | .int _ | .float _ | .str _ | .special _ _ | .map _ _ | .group _ _ _ =>
    .refl _ _

theorem follows_itemsOfPart? {around all : List Place} (h : around ⊆ all) :
    ∀ items : List Data,
      Follows (Data.anyCyclic all items) (itemsOfPart? around items) (ofItems? items)
  | [] => .refl _ _
  | x :: xs => by
    rw [Data.anyCyclic]
    exact (follows_ofPart? h x).or_left.bind fun _ => (follows_itemsOfPart? h xs).or_right.map

theorem followsIn_of_field? {around all : List Place} (h : around ⊆ all) :
    ∀ (entries : List (Data × Data)) (name : String) (d : Data),
      Data.field? entries name = some d → FollowsIn (Data.entriesCyclic all entries) around d
  | (key, value) :: rest, name, d, hd => by
    rw [Data.entriesCyclic]
    rw [Data.field?] at hd
    split at hd
    · obtain rfl := Option.some.inj hd
      exact ⟨(follows_ofPart? h value).or_right.or_left,
        (follows_listOfPart? h value).or_right.or_left⟩
    · obtain ⟨hone, hlist⟩ := followsIn_of_field? h rest name d hd
      exact ⟨hone.or_right, hlist.or_right⟩

end

end Expr

section Forms

variable (all : List Place)

theorem Follows.mapM_items {β : Type} {f g : Data → Except Fault β} (place : Place)
    (items : List Data) (h : ∀ d, Follows (d.isCyclicIn (place :: all)) (f d) (g d)) :
    Follows ((Data.list place items).isCyclicIn all) (items.mapM f) (items.mapM g) := by
  rw [Data.isCyclicIn]
  exact Follows.or_right (.mapM fun d hd => (h d).mono (Data.anyCyclic_of_mem hd))

namespace Clause

variable (entries : List (Data × Data))

theorem follows_exprsBy (name : String) :
    Follows (Data.entriesCyclic all entries) (exprsBy .watchful entries name)
      (exprsOrNone entries name) := by
  rw [exprsOrNone, exprsBy, exprsBy]
  cases hfield : Data.field? entries name with
  | none => exact .refl _ _
  | some d => exact (Expr.followsIn_of_field? (List.nil_subset all) entries name d hfield).2

theorem follows_guard :
    Follows (Data.entriesCyclic all entries)
      (Expr.ofPart? [] ((Data.field? entries "guard").getD .null))
      (Expr.ofData? ((Data.field? entries "guard").getD .null)) := by
  cases hfield : Data.field? entries "guard" with
  | none => exact .refl _ _
  | some d => exact (Expr.followsIn_of_field? (List.nil_subset all) entries "guard" d hfield).1

theorem follows_readBy (d : Data) :
    Follows (d.isCyclicIn all) (readBy .watchful d) (ofData? d) := by
  cases d with
  | map place entries =>
    rw [Data.isCyclicIn, ofData?_map]
    refine Follows.or_right ?_
    exact (follows_exprsBy _ entries "patterns").bind fun _ =>
      (follows_guard _ entries).bind fun _ => (follows_exprsBy _ entries "body").map
  | _ => exact .refl _ _

theorem follows_fieldBy :
    Follows (Data.entriesCyclic all entries) (fieldBy .watchful entries) (ofField? entries) := by
  rw [ofField?, fieldBy, fieldBy]
  cases hfield : Data.field? entries "clauses" with
  | none => exact .refl _ _
  | some d =>
    cases d with
    | list place items =>
      refine (Follows.mapM_items all place items fun d => follows_readBy _ d).mono fun h => ?_
      exact Data.entriesCyclic_of_field? hfield h
    | _ => exact .refl _ _

end Clause

namespace Form

/-- Watching makes no difference to a form but where its clauses are read. -/
theorem follows_readBy (own : Text) (d : Data) :
    Follows (d.isCyclicIn all) (readBy .watchful own d) (ofData? own d) := by
  cases d with
  | map place entries =>
    rw [Data.isCyclicIn, ofData?, readBy, readBy]
    refine Follows.or_right ?_
    have hclauses := Clause.follows_fieldBy (place :: all) entries
    dsimp only
    split
    case h_2 | h_3 => exact Follows.bind (.refl _ _) fun name => hclauses.map
    all_goals exact .refl _ _
  | _ => exact .refl _ _

/-- Watching makes no difference to a document that does not contain itself. Any other document is
read the same or without end. -/
theorem listOfCyclic?_follows (own : Text) (d : Data) :
    Follows d.isCyclic (listOfCyclic? own d) (listOfData? own d) := by
  cases d with
  | list place items => exact Follows.mapM_items [] place items fun d => follows_readBy _ own d
  | _ => exact .refl _ _

/-- A quote that is among its own parts is read without end. -/
example :
    let quote (body : Data) : Data := .map (.node 1 4) [("type", "quote"), ("body", body)]
    let body : Data := .list (.node 1 3) [quote (quote (.map (.node 1 4) []))]
    let clauses : Data := .list (.node 1 2) [.map (.node 1 1) [("body", body)]]
    listOfCyclic? "own" (.list (.node 1 0)
      [.map (.node 1 5) [("type", "rule"), ("name", "f"), ("clauses", clauses)]]) =
        .error .endless := rfl

end Form

end Forms

end RuleLowering
