import RuleLowering.Expr.Basic
import RuleLowering.Fault

/-!
# Expressions as documents

An expression is a mapping whose field `type` names the variant; the absent expression is null.
A missing position is zero, missing elements and arguments are none; a field that is there is
taken as it is, null included. Fields of other names are passed over.

A document that can stand inside itself is read with an eye on the mappings around each expression:
one that is among its own parts would be read without end.
-/
namespace RuleLowering.Expr

def node (type : String) (pos : Data) (fields : List (String × Data)) : Data :=
  .ofFields (("type", .str type) :: ("pos", pos) :: fields)

mutual
def toData : Expr → Data
  | absent => .null
  | var name pos => node "var" pos [("name", name)]
  | atom name pos => node "atom" pos [("name", name)]
  | literal value pos => node "lit" pos [("value", value)]
  | tuple elements pos => node "tuple" pos [("elements", .ofList (toItems elements))]
  | list elements pos => node "list" pos [("elements", .ofList (toItems elements))]
  | operation operator left right pos =>
    node "op" pos [("operator", operator), ("left", toData left), ("right", toData right)]
  | remote owner function pos =>
    node "remote" pos [("module", toData owner), ("function", toData function)]
  | call function arguments pos =>
    node "call" pos [("function", toData function), ("arguments", .ofList (toItems arguments))]
  | binding pattern body pos =>
    node "match" pos [("pattern", toData pattern), ("body", toData body)]
  | generator pattern body pos =>
    node "generate" pos [("pattern", toData pattern), ("body", toData body)]
  | binaryGenerator pattern body pos =>
    node "b_generate" pos [("pattern", toData pattern), ("body", toData body)]
  | quote body pos => node "quote" pos [("body", toData body)]
  | foreign term pos => node "opaque" pos [("term", term)]

def toItems : List Expr → List Data
  | [] => []
  | e :: es => toData e :: toItems es
end

/-- A field of a document with its value read in each way that a variant may ask for. -/
structure Field where
  key : Data
  value : Data
  /-- The value as an expression. -/
  expr : Except Fault Expr
  /-- The value as a list of expressions. -/
  exprs : Except Fault (List Expr)

namespace Field

def find? (fields : List Field) (name : String) : Option Field :=
  fields.find? (·.key.text? == some (.plain name))

def required (fields : List Field) (name : String) : Except Fault Data :=
  match find? fields name with
  | some f => .ok f.value
  | none => .error (.missingField name)

def valueOr (fields : List Field) (name : String) (default : Data) : Data :=
  ((find? fields name).map (·.value)).getD default

def requiredExpr (fields : List Field) (name : String) : Except Fault Expr :=
  match find? fields name with
  | some f => f.expr
  | none => .error (.missingField name)

def exprsOrNone (fields : List Field) (name : String) : Except Fault (List Expr) :=
  match find? fields name with
  | some f => f.exprs
  | none => .ok []

end Field

open Expr.Field

/-- Reads an expression from the fields of its document. -/
def ofFields? (fields : List Field) : Except Fault Expr :=
  let pos := valueOr fields "pos" 0
  match valueOr fields "type" .null with
  | .str "var" => do return .var (← required fields "name") pos
  | .str "atom" => do return .atom (← required fields "name") pos
  | .str "lit" => do return .literal (← required fields "value") pos
  | .str "tuple" => do return .tuple (← exprsOrNone fields "elements") pos
  | .str "list" => do return .list (← exprsOrNone fields "elements") pos
  | .str "op" => do
    return .operation (← required fields "operator") (← requiredExpr fields "left")
      (← requiredExpr fields "right") pos
  | .str "remote" => do
    return .remote (← requiredExpr fields "module") (← requiredExpr fields "function") pos
  | .str "call" => do
    return .call (← requiredExpr fields "function") (← exprsOrNone fields "arguments") pos
  | .str "match" => do
    return .binding (← requiredExpr fields "pattern") (← requiredExpr fields "body") pos
  | .str "generate" => do
    return .generator (← requiredExpr fields "pattern") (← requiredExpr fields "body") pos
  | .str "b_generate" => do
    return .binaryGenerator (← requiredExpr fields "pattern") (← requiredExpr fields "body") pos
  | .str "quote" => do return .quote (← requiredExpr fields "body") pos
  | .str "opaque" => .ok (.foreign (valueOr fields "term" .null) pos)
  | type => .error ((Fault.unknownType .expression type).showing [type])

mutual
def ofData? : Data → Except Fault Expr
  | .null => .ok .absent
  | .map _ entries => ofFields? (fieldsOf entries)
  | d => .error (.notMapping .expression d.kindName)

def ofList? : Data → Except Fault (List Expr)
  | .list _ items => ofItems? items
  | d => .error (.notList .expressionList d.kindName)

def ofItems? : List Data → Except Fault (List Expr)
  | [] => .ok []
  | x :: xs => do return (← ofData? x) :: (← ofItems? xs)

def fieldsOf : List (Data × Data) → List Field
  | [] => []
  | (key, value) :: rest => ⟨key, value, ofData? value, ofList? value⟩ :: fieldsOf rest
end

mutual
/-- Reads an expression that is part of others, whose mappings are at the places around it. -/
def ofPart? (around : List Place) : Data → Except Fault Expr
  | .map place entries =>
    if place.isAmong around then .error .endless
    else ofFields? (fieldsOfPart (place :: around) entries)
  | d => ofData? d

def listOfPart? (around : List Place) : Data → Except Fault (List Expr)
  | .list _ items => itemsOfPart? around items
  | d => ofList? d

def itemsOfPart? (around : List Place) : List Data → Except Fault (List Expr)
  | [] => .ok []
  | x :: xs => do return (← ofPart? around x) :: (← itemsOfPart? around xs)

def fieldsOfPart (around : List Place) : List (Data × Data) → List Field
  | [] => []
  | (key, value) :: rest =>
    ⟨key, value, ofPart? around value, listOfPart? around value⟩ :: fieldsOfPart around rest
end

/-- A way to read expressions. -/
structure Reading where
  one : Data → Except Fault Expr
  list : Data → Except Fault (List Expr)

namespace Reading

def plain : Reading := ⟨ofData?, ofList?⟩

/-- Finds out expressions that are among their own parts. -/
def watchful : Reading := ⟨ofPart? [], listOfPart? []⟩

end Reading

/-- The field of a name holds the value of that name, read in each way. -/
theorem Reading.find?_map (exprs : Reading) (entries : List (Data × Data)) (name : String) :
    find? (entries.map fun e => ⟨e.1, e.2, exprs.one e.2, exprs.list e.2⟩) name =
      (Data.field? entries name).map fun value =>
        ⟨.str name, value, exprs.one value, exprs.list value⟩ := by
  induction entries with
  | nil => rfl
  | cons entry rest ih =>
    obtain ⟨key, value⟩ := entry
    rw [List.map_cons, find?, List.find?_cons, Data.field?]
    by_cases hkey : key.text? = some (.plain name)
    · rw [if_pos hkey, beq_iff_eq.mpr hkey]
      obtain rfl := Data.text?_eq_some.mp hkey
      rfl
    · rw [if_neg hkey, beq_eq_false_iff_ne.mpr hkey]
      exact ih

theorem fieldsOf_eq_map (entries : List (Data × Data)) :
    fieldsOf entries = entries.map fun e => ⟨e.1, e.2, ofData? e.2, ofList? e.2⟩ := by
  induction entries with
  | nil => rfl
  | cons e rest ih => rw [fieldsOf, ih, List.map_cons]

theorem fieldsOfPart_eq_map (around : List Place) (entries : List (Data × Data)) :
    fieldsOfPart around entries =
      entries.map fun e => ⟨e.1, e.2, ofPart? around e.2, listOfPart? around e.2⟩ := by
  induction entries with
  | nil => rfl
  | cons e rest ih => rw [fieldsOfPart, ih, List.map_cons]

theorem find?_fieldsOf (entries : List (Data × Data)) (name : String) :
    find? (fieldsOf entries) name = (Data.field? entries name).map fun value =>
      ⟨.str name, value, ofData? value, ofList? value⟩ := by
  rw [fieldsOf_eq_map]
  exact Reading.find?_map .plain entries name

theorem find?_fieldsOfPart (around : List Place) (entries : List (Data × Data)) (name : String) :
    find? (fieldsOfPart around entries) name = (Data.field? entries name).map fun value =>
      ⟨.str name, value, ofPart? around value, listOfPart? around value⟩ := by
  rw [fieldsOfPart_eq_map]
  exact Reading.find?_map ⟨ofPart? around, listOfPart? around⟩ entries name

theorem valueOr_fieldsOf (entries : List (Data × Data)) (name : String) (default : Data) :
    valueOr (fieldsOf entries) name default = (Data.field? entries name).getD default := by
  rw [valueOr, find?_fieldsOf]
  cases Data.field? entries name <;> rfl

end RuleLowering.Expr
